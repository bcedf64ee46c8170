import SearchBar.Toml.Document
import Mathlib.Data.List.Nodup

/-! Tables whose keys are there once each.
A table that a document is read into is one, and so is each table that stands under a key of it.
Everything that is done to the tables on the way comes down to giving a key a value. -/
namespace SearchBar

def Value.isTable : Value → Bool
  | .table _ => true
  | _ => false

/-- Every key is there once, in a table and in those under its keys. -/
inductive Value.Keyed : Value → Prop
  | table {entries : Table} (distinct : (entries.map Prod.fst).Nodup)
      (each : ∀ entry ∈ entries, Value.Keyed entry.2) : Value.Keyed (.table entries)
  | plain {v : Value} (single : v.isTable = false) : Value.Keyed v

namespace Table

def Keyed (t : Table) : Prop :=
  (Value.table t).Keyed

variable {t : Table} {key other : String} {v : Value}

theorem Keyed.distinct (keyed : Keyed t) : (t.map Prod.fst).Nodup := by
  cases keyed with
  | table distinct _ => exact distinct
  | plain single => cases single

theorem Keyed.each (keyed : Keyed t) : ∀ entry ∈ t, entry.2.Keyed := by
  cases keyed with
  | table _ each => exact each
  | plain single => cases single

theorem keyed_nil : Keyed [] :=
  .table List.nodup_nil fun _ mem => absurd mem List.not_mem_nil

theorem get?_cons (t : Table) (key other : String) (v : Value) :
    get? ((other, v) :: t) key = if key = other then some v else get? t key := by
  rw [get?, get?, List.lookup_cons]
  by_cases same : key = other
  · rw [if_pos same, beq_iff_eq.mpr same]
  · rw [if_neg same, beq_eq_false_iff_ne.mpr same]

theorem get?_put (t : Table) (key other : String) (v : Value) :
    get? (put other v t) key = if key = other then some v else get? t key := by
  induction t with
  | nil => exact get?_cons [] key other v
  | cons entry t ih =>
    obtain ⟨k, held⟩ := entry
    rw [put]
    by_cases found : k = other
    · rw [if_pos found, get?_cons, get?_cons, found]
      split <;> rfl
    · rw [if_neg found, get?_cons, get?_cons, ih]
      by_cases same : key = k
      · rw [if_pos same, if_pos same, if_neg (same ▸ found)]
      · rw [if_neg same, if_neg same]

theorem put_of_get? (held : get? t key = some v) : put key v t = t := by
  induction t with
  | nil => cases held
  | cons entry t ih =>
    obtain ⟨k, w⟩ := entry
    rw [get?_cons] at held
    rw [put]
    split at held
    · next same => rw [if_pos same.symm, ← Option.some.inj held]
    · next differ => rw [if_neg (Ne.symm differ), ih held]

theorem put_of_get?_eq_none (free : get? t key = none) : put key v t = t ++ [(key, v)] := by
  induction t with
  | nil => rfl
  | cons entry t ih =>
    obtain ⟨k, w⟩ := entry
    rw [get?_cons] at free
    split at free
    · cases free
    · next differ => rw [put, if_neg (Ne.symm differ), ih free, List.cons_append]

theorem get?_eq_none_iff : get? t key = none ↔ key ∉ t.map Prod.fst := by
  rw [get?, List.lookup_eq_none_iff, List.mem_map]
  constructor
  · rintro free ⟨entry, mem, rfl⟩
    exact absurd (free entry mem) (by rw [bne_self_eq_false]; decide)
  · intro absent entry mem
    exact bne_iff_ne.mpr fun same => absent ⟨entry, mem, same.symm⟩

theorem mem_of_get? (held : get? t key = some v) : (key, v) ∈ t := by
  obtain ⟨front, back, rfl, _⟩ := List.lookup_eq_some_iff.mp held
  exact List.mem_append_right front List.mem_cons_self

theorem Keyed.mem_iff (keyed : Keyed t) : (key, v) ∈ t ↔ get? t key = some v := by
  refine ⟨fun mem => ?_, mem_of_get?⟩
  obtain ⟨front, back, rfl⟩ := List.append_of_mem mem
  refine List.lookup_eq_some_iff.mpr ⟨front, back, rfl, fun entry before => bne_iff_ne.mpr ?_⟩
  have apart := keyed.distinct
  rw [List.map_append, List.map_cons, List.nodup_append] at apart
  exact (apart.2.2 _ (List.mem_map_of_mem before) _ List.mem_cons_self).symm

theorem Keyed.under (keyed : Keyed t) (held : get? t key = some v) : v.Keyed :=
  keyed.each _ (mem_of_get? held)

theorem mem_put {entry : String × Value} (mem : entry ∈ put key v t) :
    entry = (key, v) ∨ entry ∈ t := by
  induction t with
  | nil => exact .inl (List.mem_singleton.mp mem)
  | cons first t ih =>
    obtain ⟨k, held⟩ := first
    rw [put] at mem
    split at mem
    · next found =>
      obtain rfl | later := List.mem_cons.mp mem
      · exact .inl (by rw [found])
      · exact .inr (List.mem_cons_of_mem _ later)
    · obtain rfl | later := List.mem_cons.mp mem
      · exact .inr List.mem_cons_self
      · exact (ih later).imp_right (List.mem_cons_of_mem _)

theorem distinct_put (distinct : (t.map Prod.fst).Nodup) : ((put key v t).map Prod.fst).Nodup := by
  induction t with
  | nil => exact List.nodup_singleton key
  | cons first t ih =>
    obtain ⟨k, held⟩ := first
    obtain ⟨fresh, distinct⟩ := List.nodup_cons.mp distinct
    rw [put]
    split
    · exact List.nodup_cons.mpr ⟨fresh, distinct⟩
    · next differ =>
      refine List.nodup_cons.mpr ⟨fun mem => ?_, ih distinct⟩
      obtain ⟨entry, mem, same⟩ := List.mem_map.mp mem
      obtain rfl | mem := mem_put mem
      · exact differ same.symm
      · exact fresh (List.mem_map.mpr ⟨entry, mem, same⟩)

theorem keyed_put (keyed : Keyed t) (own : v.Keyed) : Keyed (put key v t) := by
  refine .table (distinct_put keyed.distinct) fun entry mem => ?_
  obtain rfl | mem := mem_put mem
  · exact own
  · exact keyed.each entry mem

end Table

/-- What comes out, if anything does, is good. -/
def Yields {ε α : Type} (good : α → Prop) : Except ε α → Prop
  | .ok a => good a
  | .error _ => True

section Yields

variable {ε α β : Type} {good : α → Prop} {fine : β → Prop} {x : Except ε α}
  {f : α → Except ε β}

theorem yields_any (x : Except ε α) : Yields (fun _ => True) x := by
  cases x <;> trivial

theorem yields_itself (x : Except ε α) : Yields (fun a => x = .ok a) x := by
  cases x with
  | ok a => rfl
  | error fault => trivial

theorem Yields.bind (first : Yields good x) (next : ∀ a, good a → Yields fine (f a)) :
    Yields fine (x >>= f) := by
  cases x with
  | ok a => exact next a first
  | error fault => trivial

theorem Yields.mono {fine : α → Prop} (own : Yields good x) (more : ∀ a, good a → fine a) :
    Yields fine x := by
  cases x with
  | ok a => exact more a own
  | error fault => trivial

theorem Yields.map {g : α → β} (first : Yields good x) (next : ∀ a, good a → fine (g a)) :
    Yields fine (x.map g) := by
  cases x with
  | ok a => exact next a first
  | error fault => trivial

theorem Yields.ite {c : Prop} [Decidable c] {y : Except ε α} (one : Yields good x)
    (other : Yields good y) : Yields good (if c then x else y) := by
  split
  · exact one
  · exact other

end Yields

namespace Toml

open Table

variable {t : Table} {v : Value}

theorem keyed_changeAt (arrays : Bool) {change : Table → Except Fault Table}
    (keeps : ∀ t, Keyed t → Yields Keyed (change t)) (path : Key) (keyed : Keyed t) :
    Yields Keyed (changeAt arrays change path t) := by
  induction path generalizing t with
  | nil => exact keeps t keyed
  | cons k path ih =>
    rw [changeAt]
    split
    · exact (ih keyed_nil).bind fun inner own => keyed_put keyed own
    · next held => exact (ih (keyed.under held)).bind fun inner own => keyed_put keyed own
    · split
      · -- what becomes of a table in an array is no matter, as the array is no table
        exact (yields_any _).bind fun changed _ => keyed_put keyed (.plain rfl)
      · trivial
    · trivial

theorem keyed_addKey (taken : Fault) (name : String) (own : v.Keyed) (t : Table)
    (keyed : Keyed t) : Yields Keyed (addKey taken name v t) := by
  unfold addKey
  split
  · trivial
  · exact keyed_put keyed own

theorem keyed_addInline (closed : List Key) (key : Key) (own : v.Keyed) (keyed : Keyed t) :
    Yields Keyed (addInline closed key v t) := by
  unfold addInline
  split
  · trivial
  · exact keyed_changeAt false (keyed_addKey _ _ own) _ keyed

theorem yields_standing {α : Type} {good : α → Prop} {x : Except Fault α} (rest : Text)
    (own : Yields good x) : Yields good (standing rest x) := by
  cases x with
  | ok a => exact own
  | error fault => trivial

theorem plain_dateOrMoment {rest more : Text} (read : dateOrMomentForm rest = some (some v, more)) :
    v.isTable = false := by
  simp only [dateOrMomentForm, Option.bind_eq_bind, Option.bind_eq_some_iff, Option.pure_def,
    Option.some.injEq, Prod.mk.injEq, Option.map_eq_some_iff] at read
  obtain ⟨_, _, ⟨date, _, rfl⟩, _⟩ := read
  split <;> rfl

theorem plain_decimal {rest more : Text} (read : decimalForm rest = some (.ok v, more)) :
    v.isTable = false := by
  simp only [decimalForm, Option.bind_eq_bind, Option.bind_eq_some_iff] at read
  obtain ⟨_, _, read⟩ := read
  split at read
  · simp only [Option.pure_def, Option.some.injEq, Prod.mk.injEq] at read
    obtain ⟨read, _⟩ := read
    split at read
    · cases read
    · cases read
      rfl
  · simp only [Option.pure_def, Option.some.injEq, Prod.mk.injEq, Except.ok.injEq] at read
    obtain ⟨rfl, _⟩ := read
    rfl

theorem plain_special {rest more : Text} (read : specialForm rest = some (v, more)) :
    v.isTable = false := by
  simp only [specialForm] at read
  split at read
  · cases read
    rfl
  · split at read
    · cases read
      rfl
    · cases read

theorem plain_scalar (rest : Text) : Yields (fun out => out.1.isTable = false) (scalar rest) := by
  unfold scalar
  split
  · next read => exact plain_dateOrMoment read
  · trivial
  · split
    · rfl
    · split
      · rfl
      · split
        · next read => exact plain_decimal read
        · trivial
        · split
          · next read => exact plain_special read
          · trivial

theorem plain_text (read : Except Stop (Text × Text)) :
    Yields (fun out => out.1.Keyed)
      (read.map fun (t, rest) => (Value.text (String.ofList t), rest)) :=
  (yields_any read).map fun _ _ => .plain rfl

theorem keyed_value_succ {fuel : Nat}
    (entries : ∀ depth closed before rest, Keyed before →
      Yields (fun out => Keyed out.1) (inlineEntries fuel depth closed before rest))
    (depth : Nat) (rest : Text) :
    Yields (fun out => out.1.Keyed) (value (fuel + 1) depth rest) := by
  rw [value.eq_def]
  refine .ite trivial ?_
  cases rest with
  | nil => trivial
  | cons c more =>
    refine .ite (plain_text _) <| .ite (plain_text _) <| .ite (plain_text _) <|
      .ite (plain_text _) <| .ite (.plain rfl) <| .ite (.plain rfl) <| .ite ?_ <| .ite ?_ ?_
    · refine (yields_any _).bind fun start _ => ?_
      split
      · exact .plain rfl
      · exact (yields_any _).bind fun items _ => .plain rfl
    · refine (yields_any _).bind fun start _ => ?_
      split
      · exact keyed_nil
      · exact (entries _ _ _ _ keyed_nil).bind fun out own => own
    · exact (plain_scalar _).mono fun out single => .plain single

theorem keyed_inlineEntries_succ {fuel : Nat}
    (values : ∀ depth rest, Yields (fun out => out.1.Keyed) (value fuel depth rest))
    (entries : ∀ depth closed before rest, Keyed before →
      Yields (fun out => Keyed out.1) (inlineEntries fuel depth closed before rest))
    (depth : Nat) (closed : List Key) {before : Table} (keyed : Keyed before) (rest : Text) :
    Yields (fun out => Keyed out.1) (inlineEntries (fuel + 1) depth closed before rest) := by
  rw [inlineEntries.eq_def]
  refine (yields_any _).bind fun (name, rest) _ => ?_
  dsimp only
  split
  · refine (values _ _).bind fun (v, rest) own => ?_
    refine (yields_standing rest (keyed_addInline closed name own keyed)).bind fun made more => ?_
    refine (yields_any _).bind fun rest _ => ?_
    split
    · exact more
    · refine (yields_any _).bind fun rest _ => ?_
      split
      · exact more
      · exact entries _ _ _ _ more
    · trivial
  · trivial

theorem keyed_reading (fuel : Nat) :
    (∀ depth rest, Yields (fun out => out.1.Keyed) (value fuel depth rest)) ∧
    ∀ depth closed before rest, Keyed before →
      Yields (fun out => Keyed out.1) (inlineEntries fuel depth closed before rest) := by
  induction fuel with
  | zero =>
    refine ⟨fun depth rest => ?_, fun depth closed before rest _ => ?_⟩
    · rw [value.eq_def]
      trivial
    · rw [inlineEntries.eq_def]
      trivial
  | succ fuel ih =>
    exact ⟨keyed_value_succ ih.2, fun depth closed before rest keyed =>
      keyed_inlineEntries_succ ih.1 ih.2 depth closed keyed rest⟩

namespace Progress

variable {p : Progress}

theorem keyed_entry (name : Key) (keyed : Keyed p.data) (own : v.Keyed) :
    Yields (fun q => Keyed q.data) (p.entry name v) := by
  unfold entry
  split
  · trivial
  · refine .ite trivial ?_
    exact (keyed_changeAt true (keyed_addKey _ _ own) _ keyed).bind fun data more => more

theorem keyed_declare (k : Key) (keyed : Keyed p.data) :
    Yields (fun q => Keyed q.data) (p.declare k) := by
  unfold declare
  refine .ite trivial ?_
  have unchanged (t : Table) (own : Keyed t) : Yields Keyed (.ok t : Except Fault Table) := own
  exact (keyed_changeAt true unchanged k keyed).bind fun data more => more

theorem keyed_appendTable (name : String) (t : Table) (keyed : Keyed t) :
    Yields Keyed (appendTable name t) := by
  unfold appendTable
  split
  · exact keyed_put keyed (.plain rfl)
  · exact keyed_put keyed (.plain rfl)
  · trivial

theorem keyed_declareItem (k : Key) (keyed : Keyed p.data) :
    Yields (fun q => Keyed q.data) (p.declareItem k) := by
  unfold declareItem
  refine .ite trivial ?_
  exact (keyed_changeAt true (keyed_appendTable _) _ keyed).bind fun data more => more

end Progress

variable {p : Progress}

theorem keyed_statement (keyed : Keyed p.data) (rest : Text) :
    Yields (fun out => Keyed out.1.data) (statement p rest) := by
  have ended : Keyed p.endSection.data := keyed
  unfold statement
  split
  · unfold tableArrayLine
    refine (yields_any _).bind fun (k, rest) _ => ?_
    dsimp only
    refine (yields_standing rest (Progress.keyed_declareItem k ended)).bind fun q more => ?_
    split
    · exact more
    · trivial
  · unfold tableLine
    refine (yields_any _).bind fun (k, rest) _ => ?_
    dsimp only
    refine (yields_standing rest (Progress.keyed_declare k ended)).bind fun q more => ?_
    split
    · exact more
    · trivial
  · refine .ite ?_ (.ite keyed trivial)
    unfold entryLine
    refine (yields_any _).bind fun (name, rest) _ => ?_
    dsimp only
    split
    · refine ((keyed_reading _).1 _ _).bind fun (v, rest) own => ?_
      exact (yields_standing rest (Progress.keyed_entry name keyed own)).bind fun q more => more
    · trivial
  · exact keyed

theorem keyed_statements (fuel : Nat) (keyed : Keyed p.data) (rest : Text) :
    Yields (fun q => Keyed q.data) (statements fuel p rest) := by
  induction fuel generalizing p rest with
  | zero => trivial
  | succ fuel ih =>
    rw [statements]
    split
    · exact keyed
    · refine (keyed_statement keyed _).bind fun (q, rest) more => ?_
      refine (yields_any _).bind fun rest _ => ?_
      split
      · exact more
      · exact ih more _
      · trivial

theorem keyed_of_parse {document : Text} (read : parse document = .ok t) : Keyed t := by
  have keyed := keyed_statements (p := .start) (document.length + 1) keyed_nil document
  unfold parse at read
  split at read
  · next made =>
    cases read
    rw [made] at keyed
    exact keyed
  all_goals cases read

end Toml

/-- No table that is read has a key twice. -/
class LawfulDocumentReader [DocumentReader] : Prop where
  keyed {document : Text} {t : Table} : DocumentReader.read document = .ok t → t.Keyed

instance : LawfulDocumentReader := ⟨Toml.keyed_of_parse⟩

end SearchBar
