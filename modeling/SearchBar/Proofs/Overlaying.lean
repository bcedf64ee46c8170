import SearchBar.Settings.Files
import SearchBar.Proofs.Keying

/-! What one table laid over another holds.
Along each path it holds what the upper table holds there. Where that has nothing it is the lower
one that counts, as long as nothing but tables of the upper one stands on the way. Laying tables
over each other goes as deep as the tables that meet, and only so deep is it done. -/
namespace SearchBar

namespace Value

def at? : Value → List String → Option Value
  | v, [] => some v
  | .table t, key :: path => (Table.get? t key).bind (·.at? path)
  | _, _ :: _ => none

/-- Something that is no table stands before the end of a path. -/
def Blocks (v : Value) (path : List String) : Prop :=
  ∃ front, front <+: path ∧ front ≠ path ∧ ∃ w, v.at? front = some w ∧ w.isTable = false

variable {v : Value}

@[simp] theorem at?_nil (v : Value) : v.at? [] = some v := by
  cases v <;> rfl

@[simp] theorem at?_cons (t : Table) (key : String) (path : List String) :
    (table t).at? (key :: path) = (Table.get? t key).bind (·.at? path) := rfl

theorem at?_cons_of_plain (single : v.isTable = false) (key : String) (path : List String) :
    v.at? (key :: path) = none := by
  cases v with
  | table t => cases single
  | _ => rfl

theorem blocks_cons_iff (t : Table) (key : String) (path : List String) :
    (table t).Blocks (key :: path) ↔ ∃ w, Table.get? t key = some w ∧ w.Blocks path := by
  constructor
  · rintro ⟨front, before, proper, w, found, single⟩
    cases front with
    | nil =>
      rw [at?_nil, Option.some.injEq] at found
      rw [← found] at single
      cases single
    | cons k front =>
      obtain ⟨rfl, shorter⟩ := List.cons_prefix_cons.mp before
      obtain ⟨inner, held, found⟩ := Option.bind_eq_some_iff.mp found
      exact ⟨inner, held, front, shorter, fun same => proper (same ▸ rfl), w, found, single⟩
  · rintro ⟨inner, held, front, before, proper, w, found, single⟩
    refine ⟨key :: front, List.cons_prefix_cons.mpr ⟨rfl, before⟩,
      fun same => proper (List.cons.inj same).2, w, ?_, single⟩
    rw [at?_cons, held]
    exact found

theorem blocks_cons_of_plain (single : v.isTable = false) (key : String) (path : List String) :
    v.Blocks (key :: path) :=
  ⟨[], List.nil_prefix, nofun, v, at?_nil v, single⟩

theorem overlay_of_plain (single : v.isTable = false) (lower : Option Value) :
    v.overlay lower = v := by
  cases v with
  | table t => cases single
  | _ => rfl

theorem overlay_none (v : Value) : v.overlay none = v := by
  cases v <;> rfl

theorem overlay_table (below upper : Table) :
    (table upper).overlay (some (table below)) = table (Table.overlay below upper) := rfl

theorem overlay_table_cases (upper : Table) (lower : Option Value) :
    (∃ below, lower = some (table below)) ∨
      (table upper).overlay lower = table upper ∧
        ∀ key path, lower.bind (·.at? (key :: path)) = none := by
  cases lower with
  | none => exact .inr ⟨overlay_none _, fun _ _ => rfl⟩
  | some held =>
    cases held with
    | table below => exact .inl ⟨below, rfl⟩
    | _ => exact .inr ⟨rfl, fun key path => at?_cons_of_plain rfl key path⟩

end Value

namespace Table

variable {below upper : Table}

theorem overlay_cons (below : Table) (key : String) (v : Value) (rest : Table) :
    overlay below ((key, v) :: rest) =
      overlay (put key (v.overlay (get? below key)) below) rest := rfl

theorem get?_overlay (distinct : (upper.map Prod.fst).Nodup) (below : Table) (key : String) :
    get? (overlay below upper) key =
      ((get? upper key).map (Value.overlay (get? below key))).or (get? below key) := by
  induction upper generalizing below with
  | nil => rfl
  | cons entry rest ih =>
    obtain ⟨k, v⟩ := entry
    obtain ⟨fresh, distinct⟩ := List.nodup_cons.mp distinct
    rw [overlay_cons, ih distinct, get?_put, get?_cons]
    by_cases same : key = k
    · subst same
      rw [get?_eq_none_iff.mpr fresh, if_pos rfl, if_pos rfl]
      rfl
    · rw [if_neg same, if_neg same]

theorem overlay_of_settled {t : Table}
    (settled : ∀ key v, (key, v) ∈ upper → get? t key = some (v.overlay (get? t key))) :
    overlay t upper = t := by
  induction upper with
  | nil => rfl
  | cons entry rest ih =>
    obtain ⟨key, v⟩ := entry
    rw [overlay_cons, put_of_get? (settled key v List.mem_cons_self)]
    exact ih fun k w mem => settled k w (List.mem_cons_of_mem _ mem)

theorem meetings_cons (below : Table) (key : String) (v : Value) (rest : Table) :
    meetings below ((key, v) :: rest) =
      max (v.meetings (get? below key) + 1) (meetings below rest) := rfl

theorem meetings_pos (below upper : Table) : 0 < meetings below upper := by
  induction upper with
  | nil => exact Nat.one_pos
  | cons entry rest ih => exact Nat.lt_of_lt_of_le ih (Nat.le_max_right _ _)

theorem succ_lt_meetings_iff {n : Nat} : n + 1 < meetings below upper ↔
    ∃ key v, (key, v) ∈ upper ∧ n < v.meetings (get? below key) := by
  induction upper with
  | nil => simp [meetings]
  | cons entry rest ih =>
    obtain ⟨key, v⟩ := entry
    have either : n + 1 < meetings below ((key, v) :: rest) ↔
        n < v.meetings (get? below key) ∨ n + 1 < meetings below rest := by
      rw [meetings_cons]
      omega
    rw [either, ih]
    constructor
    · rintro (here | ⟨k, w, mem, deep⟩)
      · exact ⟨key, v, List.mem_cons_self, here⟩
      · exact ⟨k, w, List.mem_cons_of_mem _ mem, deep⟩
    · rintro ⟨k, w, mem, deep⟩
      obtain same | mem := List.mem_cons.mp mem
      · cases same
        exact .inl deep
      · exact .inr ⟨k, w, mem, deep⟩

theorem overlay_of_fresh (distinct : (upper.map Prod.fst).Nodup)
    (fresh : ∀ entry ∈ upper, get? below entry.1 = none) :
    overlay below upper = below ++ upper := by
  induction upper generalizing below with
  | nil => exact (List.append_nil below).symm
  | cons entry rest ih =>
    obtain ⟨key, v⟩ := entry
    obtain ⟨apart, distinct⟩ := List.nodup_cons.mp distinct
    have free : get? below key = none := fresh _ List.mem_cons_self
    have later : ∀ other ∈ rest, get? (below ++ [(key, v)]) other.1 = none := by
      intro other mem
      rw [← put_of_get?_eq_none free, get?_put, fresh other (List.mem_cons_of_mem _ mem), if_neg]
      exact fun same => apart (List.mem_map.mpr ⟨other, mem, same⟩)
    rw [overlay_cons, free, Value.overlay_none, put_of_get?_eq_none free, ih distinct later,
      List.append_assoc, List.singleton_append]

end Table

namespace Value

variable {v w : Value}

theorem overlay_eq_iff (single : w.isTable = false) (lower : Option Value) :
    v.overlay lower = w ↔ v = w := by
  cases v with
  | table upper =>
    have differs {t : Table} : table t ≠ w := by
      rintro rfl
      cases single
    obtain ⟨below, rfl⟩ | ⟨alone, _⟩ := overlay_table_cases upper lower
    · exact iff_of_false differs differs
    · rw [alone]
  | _ => rw [overlay_of_plain rfl]

/-- The value along a path is the upper one's, or the lower one's where the upper one has nothing
and only tables on the way. -/
theorem at?_overlay (keyed : v.Keyed) (single : w.isTable = false) (lower : Option Value)
    (path : List String) :
    (v.overlay lower).at? path = some w ↔
      v.at? path = some w ∨
        lower.bind (·.at? path) = some w ∧ v.at? path = none ∧ ¬ v.Blocks path := by
  induction path generalizing v lower with
  | nil =>
    rw [at?_nil, at?_nil, Option.some.injEq, Option.some.injEq, overlay_eq_iff single]
    exact (or_iff_left fun under => nomatch under.2.1).symm
  | cons key path ih =>
    cases v with
    | table upper =>
      obtain ⟨below, rfl⟩ | ⟨alone, nothing⟩ := overlay_table_cases upper lower
      · rw [overlay_table, at?_cons, at?_cons, Table.get?_overlay (Table.Keyed.distinct keyed),
          blocks_cons_iff, Option.bind_some, at?_cons]
        cases found : Table.get? upper key with
        | none => simp
        | some inner => simpa using ih (Table.Keyed.under keyed found) (Table.get? below key)
      · rw [alone, nothing]
        exact (or_iff_left fun under => nomatch under.1).symm
    | _ =>
      rw [overlay_of_plain rfl]
      exact (or_iff_left fun under => under.2.2 (blocks_cons_of_plain rfl key path)).symm

theorem overlay_again (keyed : v.Keyed) (lower : Option Value) :
    v.overlay (some (v.overlay lower)) = v.overlay lower := by
  induction keyed generalizing lower with
  | plain single => rw [overlay_of_plain single, overlay_of_plain single]
  | @table upper distinct each ih =>
    have keyed : Table.Keyed upper := .table distinct each
    have itself : Table.overlay upper upper = upper := by
      refine Table.overlay_of_settled fun key v mem => ?_
      have own := ih _ mem none
      rw [overlay_none] at own
      rw [keyed.mem_iff.mp mem, own]
    have twice (below : Table) :
        Table.overlay (Table.overlay below upper) upper = Table.overlay below upper := by
      refine Table.overlay_of_settled fun key v mem => ?_
      rw [Table.get?_overlay distinct, keyed.mem_iff.mp mem]
      exact congrArg some (ih _ mem (Table.get? below key)).symm
    obtain ⟨below, rfl⟩ | ⟨alone, _⟩ := overlay_table_cases upper lower
    · rw [overlay_table, overlay_table, twice]
    · rw [alone, overlay_table, itself]

section Meetings

def Meet (lower : Option Value) (v : Value) (path : List String) : Prop :=
  ∃ below upper, lower.bind (·.at? path) = some (table below) ∧ v.at? path = some (table upper)

theorem Meet.tables {lower : Option Value} {path : List String} (meet : Meet lower v path) :
    ∃ below upper, lower = some (table below) ∧ v = table upper := by
  obtain ⟨below, upper, one, other⟩ := meet
  obtain ⟨held, rfl, one⟩ := Option.bind_eq_some_iff.mp one
  have front {w : Value} {t : Table} (found : w.at? path = some (table t)) :
      ∃ t, w = table t := by
    cases w with
    | table t => exact ⟨t, rfl⟩
    | _ => cases path <;> cases found
  obtain ⟨below, rfl⟩ := front one
  obtain ⟨upper, rfl⟩ := front other
  exact ⟨below, upper, rfl, rfl⟩

theorem meet_cons_iff {below upper : Table} {key : String} {path : List String} :
    Meet (some (table below)) (table upper) (key :: path) ↔
      ∃ inner, Table.get? upper key = some inner ∧ Meet (Table.get? below key) inner path := by
  constructor
  · rintro ⟨under, above, one, other⟩
    obtain ⟨inner, held, other⟩ := Option.bind_eq_some_iff.mp other
    exact ⟨inner, held, under, above, one, other⟩
  · rintro ⟨inner, held, under, above, one, other⟩
    refine ⟨under, above, one, ?_⟩
    rw [at?_cons, held]
    exact other

theorem meetings_cases (lower : Option Value) (v : Value) :
    (∃ below upper, lower = some (table below) ∧ v = table upper) ∨
      v.meetings lower = 0 ∧ ∀ path, ¬ Meet lower v path := by
  by_cases both : ∃ below upper, lower = some (table below) ∧ v = table upper
  · exact .inl both
  · refine .inr ⟨?_, fun path meet => both meet.tables⟩
    rw [meetings.eq_def]
    split
    · split
      · exact absurd ⟨_, _, rfl, rfl⟩ both
      · rfl
    · rfl

/-- Tables meet so many levels deep if there is a path of so many keys to a table in both. -/
theorem lt_meetings_iff (keyed : v.Keyed) (lower : Option Value) (n : Nat) :
    n < v.meetings lower ↔ ∃ path, path.length = n ∧ Meet lower v path := by
  induction n generalizing v lower with
  | zero =>
    obtain ⟨below, upper, rfl, rfl⟩ | ⟨alone, apart⟩ := meetings_cases lower v
    · exact iff_of_true (Table.meetings_pos below upper) ⟨[], rfl, below, upper, rfl, rfl⟩
    · exact iff_of_false (alone ▸ Nat.lt_irrefl 0) fun ⟨path, _, meet⟩ => apart path meet
  | succ n ih =>
    obtain ⟨below, upper, rfl, rfl⟩ | ⟨alone, apart⟩ := meetings_cases lower v
    · have keyed : Table.Keyed upper := keyed
      refine Table.succ_lt_meetings_iff.trans ⟨?_, ?_⟩
      · rintro ⟨key, inner, mem, deep⟩
        have held := keyed.mem_iff.mp mem
        obtain ⟨path, rfl, meet⟩ := (ih (keyed.under held) _).mp deep
        exact ⟨key :: path, rfl, meet_cons_iff.mpr ⟨inner, held, meet⟩⟩
      · rintro ⟨path, length, meet⟩
        cases path with
        | nil => cases length
        | cons key path =>
          obtain ⟨inner, held, meet⟩ := meet_cons_iff.mp meet
          exact ⟨key, inner, keyed.mem_iff.mpr held,
            (ih (keyed.under held) _).mpr ⟨path, Nat.succ.inj length, meet⟩⟩
    · exact iff_of_false (alone ▸ Nat.not_lt_zero (n + 1)) fun ⟨path, _, meet⟩ => apart path meet

end Meetings

end Value

namespace Table

variable {below upper : Table}

/-- Tables of both meet as many levels deep as is too deep. -/
def MeetTooDeep (below upper : Table) : Prop :=
  ∃ path, path.length = mostMeetings ∧ Value.Meet (some (.table below)) (.table upper) path

theorem merge_cases (keyed : Keyed upper) (below : Table) :
    merge below upper = .ok (overlay below upper) ∧ ¬ MeetTooDeep below upper ∨
      merge below upper = .error .tooDeep ∧ MeetTooDeep below upper := by
  have deep := Value.lt_meetings_iff keyed (some (.table below)) mostMeetings
  unfold merge
  split
  · next exceeds => exact .inr ⟨rfl, deep.mp exceeds⟩
  · next fits => exact .inl ⟨rfl, fun found => fits (deep.mpr found)⟩

theorem not_meetTooDeep_nil (upper : Table) : ¬ MeetTooDeep [] upper := by
  rintro ⟨path, length, below, _, found, _⟩
  cases path with
  | nil => cases length
  | cons key path => cases found

theorem merge_nil (keyed : Keyed upper) : merge [] upper = .ok upper := by
  have alone : overlay [] upper = upper := overlay_of_fresh keyed.distinct fun _ _ => rfl
  obtain ⟨made, _⟩ | ⟨_, deep⟩ := merge_cases keyed []
  · rw [made, alone]
  · exact absurd deep (not_meetTooDeep_nil upper)

/-- What a merge holds is what the upper table sets and what that leaves of the lower one. With an
empty table, with the same one or for a second time, it keeps even the order of the keys. Tables
that meet too deep are not merged. -/
theorem merge_exact (keyed : Keyed upper) (below : Table) :
    (∀ base, merge base upper = .ok (overlay base upper) ∧ ¬ MeetTooDeep base upper ∨
      merge base upper = .error .tooDeep ∧ MeetTooDeep base upper) ∧
    (∀ path v, v.isTable = false →
      ((Value.table (overlay below upper)).at? path = some v ↔
        (Value.table upper).at? path = some v ∨
          (Value.table below).at? path = some v ∧ (Value.table upper).at? path = none ∧
            ¬ (Value.table upper).Blocks path)) ∧
    merge [] upper = .ok upper ∧ merge below [] = .ok below ∧
    overlay upper upper = upper ∧
    overlay (overlay below upper) upper = overlay below upper := by
  refine ⟨merge_cases keyed, fun path v single => ?_, merge_nil keyed, rfl, ?_, ?_⟩
  · exact Value.at?_overlay keyed single (some (.table below)) path
  · exact Value.table.inj (Value.overlay_again keyed none)
  · exact Value.table.inj (Value.overlay_again keyed (some (.table below)))

def userTable : Table :=
  [("logging", .table [("level", .text "INFO"), ("enabled", .bool true)]),
    ("plugins", .table [("disabled", .text "mock")])]

def localTable : Table :=
  [("logging", .table [("level", .text "DEBUG")]), ("plugins", .int 5)]

theorem keyed_localTable : Keyed localTable := by
  refine .table (by decide) fun entry mem => ?_
  obtain rfl | rfl : entry = _ ∨ entry = _ := by simpa [localTable] using mem
  · refine .table (by decide) fun entry mem => ?_
    obtain rfl := List.mem_singleton.mp mem
    exact .plain rfl
  · exact .plain rfl

theorem local_over_user :
    Keyed localTable ∧
    (Value.table (overlay userTable localTable)).at? ["logging", "level"] = some (.text "DEBUG") ∧
    (Value.table (overlay userTable localTable)).at? ["logging", "enabled"] = some (.bool true) ∧
    (Value.table (overlay userTable localTable)).at? ["plugins", "disabled"] ≠
      some (.text "mock") := by
  have law := (merge_exact keyed_localTable userTable).2.1
  refine ⟨keyed_localTable, (law _ _ rfl).mpr (.inl rfl),
    (law _ _ rfl).mpr (.inr ⟨rfl, rfl, ?_⟩), fun held => ?_⟩
  · rw [localTable, Value.blocks_cons_iff]
    rintro ⟨logging, held, blocked⟩
    obtain rfl := Option.some.inj held
    obtain ⟨_, absent, _⟩ := (Value.blocks_cons_iff _ _ _).mp blocked
    cases absent
  · obtain found | ⟨_, _, free⟩ := (law _ _ rfl).mp held
    · cases found
    · exact free ⟨["plugins"], ⟨["disabled"], rfl⟩, by decide, .int 5, rfl, rfl⟩

def nested (v : Value) : Nat → Value
  | 0 => v
  | levels + 1 => .table [("a", nested v levels)]

theorem keyed_nested {v : Value} (keyed : v.Keyed) (levels : Nat) : (nested v levels).Keyed := by
  induction levels with
  | zero => exact keyed
  | succ levels ih =>
    refine .table (List.nodup_singleton _) fun entry mem => ?_
    obtain rfl := List.mem_singleton.mp mem
    exact ih

theorem at?_nested (v : Value) (levels more : Nat) :
    (nested v (levels + more)).at? (List.replicate levels "a") = some (nested v more) := by
  induction levels with
  | zero => rw [Nat.zero_add, List.replicate_zero, Value.at?_nil]
  | succ levels ih =>
    rw [Nat.succ_add, List.replicate_succ, nested, Value.at?_cons, get?_cons, if_pos rfl]
    exact ih

/-- Deep enough tables are not merged, whatever lies at their ends. -/
theorem merge_nested (v w : Value) (own : w.Keyed) (more : Nat) :
    merge [("a", nested v (mostMeetings + more))] [("a", nested w (mostMeetings + more))] =
      .error .tooDeep := by
  have keyed : Keyed [("a", nested w (mostMeetings + more))] :=
    keyed_nested own (mostMeetings + more + 1)
  obtain ⟨_, fits⟩ | ⟨made, _⟩ := merge_cases keyed [("a", nested v (mostMeetings + more))]
  · exact absurd ⟨List.replicate mostMeetings "a", List.length_replicate, _, _,
      at?_nested v mostMeetings (more + 1), at?_nested w mostMeetings (more + 1)⟩ fits
  · exact made

theorem deep_tables_unmerged :
    (nested (.int 2) 1000).at? (List.replicate 1000 "a") = some (.int 2) ∧
      merge [("a", nested (.int 1) 999)] [("a", nested (.int 2) 999)] = .error .tooDeep :=
  ⟨at?_nested (.int 2) 1000 0, merge_nested (.int 1) (.int 2) (.plain rfl) 9⟩

end Table

namespace Surroundings

variable [DocumentReader] [LawfulDocumentReader]

theorem keyed_readTable (s : Surroundings) (path : FilePath) :
    Yields Table.Keyed (s.readTable path) := by
  unfold readTable
  refine (yields_any _).bind fun text _ => ?_
  cases read : DocumentReader.read text with
  | ok t => exact LawfulDocumentReader.keyed read
  | error fault => trivial

theorem readMerged_pair {s : Surroundings} {first second : FilePath} {below upper : Table}
    (one : s.readTable first = .ok below) (other : s.readTable second = .ok upper) :
    s.readMerged [] [first, second] = (Table.merge below upper).mapError (fun _ => .tooDeep) ∧
      Table.Keyed upper := by
  have keyed := s.keyed_readTable first
  have own := s.keyed_readTable second
  rw [one] at keyed
  rw [other] at own
  refine ⟨?_, own⟩
  rw [readMerged, one]
  show ((Table.merge [] below).mapError _ >>= fun merged => s.readMerged merged [second]) = _
  rw [Table.merge_nil keyed]
  show s.readMerged below [second] = _
  rw [readMerged, other]
  exact bind_pure ((Table.merge below upper).mapError fun _ => LoadFault.tooDeep)

end Surroundings
end SearchBar
