import SearchBar.Journal.Sink
import Mathlib.Data.List.Nodup

/-! The package's sinks among those of the host.
However often logging is set up and taken back, with or without success, and whatever others do
with their own sinks in between, the package remembers the numbers of the sinks that it has in use.
A setting up that succeeds leaves the sinks that it was asked for and none from before. -/
namespace SearchBar

/-- What is added is in use under a number that was never given out, and nothing stands in its way
but its target and its level. A sink in use can be removed, and nothing goes with it. -/
class LawfulSinkHost [SinkHost] : Prop where
  adds {opens : Target → Bool} {level : String} {target : Target} {sinks later : Sinks}
    {number : Nat} : SinkHost.add opens level target sinks = .ok (number, later) →
      number ∉ sinks.given ∧ ∃ threshold, Level.ofName? level = some threshold ∧
        later = sinks.including ⟨number, target, threshold⟩
  admits {opens : Target → Bool} {level : String} {target : Target} {threshold : Level} :
    opens target = true → Level.ofName? level = some threshold →
      ∀ sinks, ∃ number later, SinkHost.add opens level target sinks = .ok (number, later)
  removes {sinks : Sinks} {number : Nat} : number ∈ sinks.live.map Sink.number →
    SinkHost.remove number sinks = .ok (sinks.without number)

namespace Sinks

theorem lt_next {sinks : Sinks} {number : Nat} (given : number ∈ sinks.given) :
    number < sinks.next := by
  obtain ⟨live, numbers⟩ := sinks
  simp only [next] at given ⊢
  induction numbers with
  | nil => cases given
  | cons first rest ih =>
    rw [List.foldr_cons]
    rcases List.mem_cons.mp given with rfl | later
    · exact Nat.lt_of_lt_of_le (Nat.lt_succ_self _) (Nat.le_max_left _ _)
    · exact Nat.lt_of_lt_of_le (ih later) (Nat.le_max_right _ _)

theorem next_not_mem_given (sinks : Sinks) : sinks.next ∉ sinks.given :=
  fun given => Nat.lt_irrefl _ (lt_next given)

theorem add_eq_ok_iff {opens : Target → Bool} {level : String} {target : Target}
    {sinks later : Sinks} {number : Nat} :
    add opens level target sinks = .ok (number, later) ↔
      opens target = true ∧ number = sinks.next ∧ ∃ threshold,
        Level.ofName? level = some threshold ∧
          later = sinks.including ⟨number, target, threshold⟩ := by
  unfold add
  cases opens target with
  | false => simp
  | true =>
    cases Level.ofName? level with
    | none => simp
    | some threshold =>
      simp only [Bool.not_true, Bool.false_eq_true, if_false, Except.ok.injEq, Prod.mk.injEq,
        true_and, Option.some.injEq, exists_eq_left']
      constructor
      · rintro ⟨rfl, rfl⟩
        exact ⟨rfl, rfl⟩
      · rintro ⟨rfl, rfl⟩
        exact ⟨rfl, rfl⟩

theorem any_number_iff {sinks : Sinks} {number : Nat} :
    sinks.live.any (·.number == number) = true ↔ number ∈ sinks.live.map Sink.number := by
  simp

end Sinks

instance : LawfulSinkHost where
  adds {_ _ _ sinks _ _} added := by
    obtain ⟨-, rfl, fitting⟩ := Sinks.add_eq_ok_iff.mp added
    exact ⟨sinks.next_not_mem_given, fitting⟩
  admits opened known sinks :=
    ⟨_, _, Sinks.add_eq_ok_iff.mpr ⟨opened, rfl, _, known, rfl⟩⟩
  removes live := if_pos (Sinks.any_number_iff.mpr live)

namespace Logging

inductive Call where
  | setup (opens : Target → Bool) (request : LogRequest)
  | disable

namespace Call

def run [SinkHost] : Call → Logging → Logging
  | setup opens request, log => (log.setup opens request).2
  | disable, log => log.disable

/-- The sinks in use after a call that were not before. -/
def added [SinkHost] (call : Call) (log : Logging) : List Sink :=
  (call.run log).live.filter (!log.live.contains ·)

end Call

def joined (sink : Sink) (log : Logging) : Logging :=
  { log with toSinks := log.including sink }

def without (number : Nat) (log : Logging) : Logging :=
  { log with toSinks := log.toSinks.without number }

/-- What others do with the host's sinks, among which they spare those of the package. -/
inductive Meanwhile (own : List Sink) (log : Logging) : Logging → Prop where
  | nothing : Meanwhile own log log
  | joining {later : Logging} (sink : Sink) : Meanwhile own log later →
      sink.number ∉ later.given → Meanwhile own log (later.joined sink)
  | leaving {later : Logging} (number : Nat) : Meanwhile own log later →
      (∀ sink ∈ own, sink.number ≠ number) → Meanwhile own log (later.without number)

structure Numbered (log : Logging) : Prop where
  distinct : (log.live.map Sink.number).Nodup
  given : ∀ sink ∈ log.live, sink.number ∈ log.given

/-- The logging that calls lead to, with all the sinks that the package has added in their
course. -/
inductive Reached [SinkHost] : Logging → List Sink → Prop where
  | start {log : Logging} : log.Numbered → log.recorded = [] → Reached log []
  | call {log : Logging} {own : List Sink} (call : Call) :
      Reached log own → Reached (call.run log) (own ++ call.added log)
  | meanwhile {log later : Logging} {own : List Sink} :
      Reached log own → Meanwhile own log later → Reached later own

def held (log : Logging) (own : List Sink) : List Sink :=
  log.live.filter (own.contains ·)

/-- The package remembers the sinks that it has in use, and all its sinks have old numbers. -/
structure Kept (log : Logging) (own : List Sink) : Prop where
  numbered : log.Numbered
  earlier : ∀ sink ∈ own, sink.number ∈ log.given
  recorded_eq : log.recorded = (log.held own).map Sink.number

def extended (log : Logging) (sinks : List Sink) : Logging :=
  { log with
    live := log.live ++ sinks
    given := log.given ++ sinks.map Sink.number
    recorded := log.recorded ++ sinks.map Sink.number }

variable {log later : Logging} {own sinks : List Sink} {sink : Sink}

theorem extended_nil (log : Logging) : log.extended [] = log := by
  simp [extended]

theorem extended_extended (log : Logging) (sinks more : List Sink) :
    (log.extended sinks).extended more = log.extended (sinks ++ more) := by
  simp [extended]

section Adding

variable [SinkHost] [LawfulSinkHost] {opens : Target → Bool} {level : String}

theorem addSink_cases (opens : Target → Bool) (level : String) (target : Target) (log : Logging) :
    (∃ fault, log.addSink opens level target = .error fault) ∨
      ∃ number threshold, number ∉ log.given ∧ Level.ofName? level = some threshold ∧
        log.addSink opens level target = .ok (log.extended [⟨number, target, threshold⟩]) := by
  unfold addSink
  cases added : SinkHost.add opens level target log.toSinks with
  | error fault => exact .inl ⟨fault, rfl⟩
  | ok entry =>
    obtain ⟨number, later⟩ := entry
    obtain ⟨fresh, threshold, known, rfl⟩ := LawfulSinkHost.adds added
    exact .inr ⟨number, threshold, fresh, known, rfl⟩

/-- The sinks for the targets in front are added, under new numbers. They are there for all
targets exactly if nothing fails. -/
theorem addSinks_cases (opens : Target → Bool) (level : String) (targets : List Target)
    (log : Logging) :
    ∃ outcome sinks, log.addSinks opens level targets = (outcome, log.extended sinks) ∧
      ((sinks.map Sink.number).Nodup ∧ ∀ sink ∈ sinks, sink.number ∉ log.given) ∧
      (∀ sink ∈ sinks, Level.ofName? level = some sink.threshold) ∧
      (outcome = .ok () ↔ sinks.map Sink.target = targets) := by
  induction targets generalizing log with
  | nil => exact ⟨.ok (), [], by rw [extended_nil, addSinks], by simp, by simp, by simp⟩
  | cons target targets ih =>
    rcases log.addSink_cases opens level target with
      ⟨fault, failed⟩ | ⟨number, threshold, fresh, known, added⟩
    · exact ⟨.error fault, [], by rw [extended_nil, addSinks, failed], by simp, by simp, by simp⟩
    · obtain ⟨outcome, sinks, made, ⟨distinct, new⟩, thresholds, all⟩ :=
        ih (log.extended [⟨number, target, threshold⟩])
      have apart : ∀ sink ∈ sinks, sink.number ∉ log.given ∧ sink.number ≠ number := by
        simpa [extended] using new
      refine ⟨outcome, ⟨number, target, threshold⟩ :: sinks, ?_, ⟨?_, ?_⟩, ?_, ?_⟩
      · rw [addSinks, added]
        simp only [made, extended_extended, List.singleton_append]
      · rw [List.map_cons, List.nodup_cons]
        refine ⟨fun again => ?_, distinct⟩
        obtain ⟨sink, member, same⟩ := List.mem_map.mp again
        exact (apart sink member).2 same
      · exact List.forall_mem_cons.mpr ⟨fresh, fun sink member => (apart sink member).1⟩
      · exact List.forall_mem_cons.mpr ⟨known, thresholds⟩
      · rw [all, List.map_cons, List.cons_eq_cons, and_iff_right rfl]

theorem addSinks_eq_ok {threshold : Level} (known : Level.ofName? level = some threshold)
    {targets : List Target} (opened : ∀ target ∈ targets, opens target = true) (log : Logging) :
    (log.addSinks opens level targets).1 = .ok () := by
  induction targets generalizing log with
  | nil => rfl
  | cons target targets ih =>
    obtain ⟨first, rest⟩ := List.forall_mem_cons.mp opened
    obtain ⟨number, later, added⟩ := LawfulSinkHost.admits first known log.toSinks
    rw [addSinks, addSink, added]
    exact ih rest _

end Adding

theorem Numbered.distinct_filter (numbered : log.Numbered) (keep : Sink → Bool) :
    ((log.live.filter keep).map Sink.number).Nodup :=
  numbered.distinct.sublist (List.filter_sublist.map Sink.number)

/-- The package's sinks have given way to new ones, under new numbers. -/
structure Replaces (own : List Sink) (log later : Logging) (sinks : List Sink) : Prop where
  live_eq : later.live = log.live.filter (!own.contains ·) ++ sinks
  recorded_eq : later.recorded = sinks.map Sink.number
  given_eq : later.given = log.given ++ sinks.map Sink.number
  distinct : (sinks.map Sink.number).Nodup
  fresh : ∀ sink ∈ sinks, sink.number ∉ log.given

namespace Replaces

theorem not_mem_of_given (replaces : Replaces own log later sinks)
    (old : sink.number ∈ log.given) : sink ∉ sinks :=
  fun member => replaces.fresh sink member old

theorem given_of_given (replaces : Replaces own log later sinks)
    (old : sink.number ∈ log.given) : sink.number ∈ later.given := by
  rw [replaces.given_eq]
  exact List.mem_append_left _ old

theorem given_of_mem (replaces : Replaces own log later sinks) (member : sink ∈ sinks) :
    sink.number ∈ later.given := by
  rw [replaces.given_eq]
  exact List.mem_append_right _ (List.mem_map_of_mem member)

theorem held_eq (replaces : Replaces own log later sinks) (numbered : log.Numbered) :
    later.held (own ++ sinks) = sinks := by
  rw [held, replaces.live_eq, List.filter_append]
  have others : (log.live.filter (!own.contains ·)).filter ((own ++ sinks).contains ·) = [] := by
    refine List.filter_eq_nil_iff.mpr fun sink member => ?_
    obtain ⟨live, foreign⟩ := List.mem_filter.mp member
    have fresh := replaces.not_mem_of_given (numbered.given sink live)
    simpa [fresh] using foreign
  have new : sinks.filter ((own ++ sinks).contains ·) = sinks := by
    refine List.filter_eq_self.mpr fun sink member => ?_
    simp [member]
  rw [others, new, List.nil_append]

theorem added_eq (replaces : Replaces own log later sinks) (numbered : log.Numbered) :
    later.live.filter (!log.live.contains ·) = sinks := by
  rw [replaces.live_eq, List.filter_append]
  have others : (log.live.filter (!own.contains ·)).filter (!log.live.contains ·) = [] := by
    refine List.filter_eq_nil_iff.mpr fun sink member => ?_
    simp [(List.mem_filter.mp member).1]
  have new : sinks.filter (!log.live.contains ·) = sinks := by
    refine List.filter_eq_self.mpr fun sink member => ?_
    have absent : sink ∉ log.live := fun live =>
      replaces.not_mem_of_given (numbered.given sink live) member
    simp [absent]
  rw [others, new, List.nil_append]

theorem numbered (replaces : Replaces own log later sinks) (numbered : log.Numbered) :
    later.Numbered := by
  constructor
  case distinct =>
    rw [replaces.live_eq, List.map_append, List.nodup_append]
    refine ⟨numbered.distinct_filter _, replaces.distinct, ?_⟩
    rintro number old _ new rfl
    obtain ⟨first, member, rfl⟩ := List.mem_map.mp old
    obtain ⟨second, added, same⟩ := List.mem_map.mp new
    refine replaces.fresh second added ?_
    rw [same]
    exact numbered.given first (List.mem_filter.mp member).1
  case given =>
    intro sink member
    rw [replaces.live_eq] at member
    rcases List.mem_append.mp member with old | new
    · exact replaces.given_of_given (numbered.given sink (List.mem_filter.mp old).1)
    · exact replaces.given_of_mem new

theorem kept (replaces : Replaces own log later sinks) (kept : log.Kept own) :
    later.Kept (own ++ sinks) := by
  refine ⟨replaces.numbered kept.numbered, fun sink member => ?_, ?_⟩
  · rcases List.mem_append.mp member with old | new
    · exact replaces.given_of_given (kept.earlier sink old)
    · exact replaces.given_of_mem new
  · rw [replaces.held_eq kept.numbered, replaces.recorded_eq]

end Replaces

theorem filter_without (log : Logging) (number : Nat) (numbers : List Nat) :
    ((log.without number).live.filter fun sink => !numbers.contains sink.number) =
      log.live.filter fun sink => !(number :: numbers).contains sink.number := by
  refine List.filter_filter.trans (List.filter_congr fun sink _ => ?_)
  rw [List.contains_cons, Bool.not_or, Bool.and_comm]
  rfl

/-- As long as the numbers are those of sinks in use, removing goes on to the end. -/
theorem drainFrom_eq [SinkHost] [LawfulSinkHost] {numbers : List Nat}
    (inUse : ∀ number ∈ numbers, number ∈ log.live.map Sink.number) (distinct : numbers.Nodup) :
    log.drainFrom numbers = (.ok (), { log with
      live := log.live.filter fun sink => !numbers.contains sink.number
      recorded := [] }) := by
  induction numbers generalizing log with
  | nil => simp [drainFrom]
  | cons number numbers ih =>
    obtain ⟨first, rest⟩ := List.forall_mem_cons.mp inUse
    obtain ⟨apart, distinct⟩ := List.nodup_cons.mp distinct
    have stay : ∀ other ∈ numbers, other ∈ (log.without number).live.map Sink.number := by
      intro other member
      obtain ⟨sink, live, rfl⟩ := List.mem_map.mp (rest other member)
      have different : sink.number ≠ number := fun same => apart (same ▸ member)
      exact List.mem_map_of_mem (List.mem_filter.mpr ⟨live, by simpa using different⟩)
    rw [drainFrom, LawfulSinkHost.removes first]
    exact (ih stay distinct).trans (by rw [filter_without]; rfl)

namespace Kept

theorem start (numbered : log.Numbered) (clean : log.recorded = []) : log.Kept [] :=
  ⟨numbered, List.forall_mem_nil _, by simp [clean, held]⟩

theorem mem_recorded_iff (kept : log.Kept own) (live : sink ∈ log.live) :
    sink.number ∈ log.recorded ↔ sink ∈ own := by
  rw [kept.recorded_eq, List.mem_map]
  constructor
  · rintro ⟨other, member, same⟩
    obtain ⟨otherLive, mine⟩ := List.mem_filter.mp member
    rw [← List.inj_on_of_nodup_map kept.numbered.distinct otherLive live same]
    simpa using mine
  · intro mine
    exact ⟨sink, List.mem_filter.mpr ⟨live, by simpa using mine⟩, rfl⟩

variable [SinkHost] [LawfulSinkHost]

theorem drain_eq (kept : log.Kept own) :
    log.drain = (.ok (), { log with
      live := log.live.filter (!own.contains ·)
      recorded := [] }) := by
  have inUse : ∀ number ∈ log.recorded.reverse, number ∈ log.live.map Sink.number := by
    intro number member
    rw [List.mem_reverse, kept.recorded_eq] at member
    obtain ⟨sink, held, rfl⟩ := List.mem_map.mp member
    exact List.mem_map_of_mem (List.mem_filter.mp held).1
  have distinct : log.recorded.reverse.Nodup := by
    rw [List.nodup_reverse, kept.recorded_eq]
    exact kept.numbered.distinct_filter _
  have same : (log.live.filter fun sink => !log.recorded.reverse.contains sink.number) =
      log.live.filter (!own.contains ·) := by
    refine List.filter_congr fun sink live => ?_
    simp [kept.mem_recorded_iff live]
  rw [drain, drainFrom_eq inUse distinct, same]

theorem withdraw_eq (kept : log.Kept own) :
    log.withdraw = (.ok (), { log with
      live := log.live.filter (!own.contains ·)
      recorded := []
      enabled := false }) := by
  rw [withdraw, kept.drain_eq]

theorem replaces_disable (kept : log.Kept own) : Replaces own log log.disable [] := by
  rw [disable, kept.withdraw_eq]
  exact ⟨(List.append_nil _).symm, rfl, (List.append_nil _).symm, List.nodup_nil,
    List.forall_mem_nil _⟩

/-- Whether it succeeds or not, setting up replaces the package's sinks; if it succeeds, by those
that it was asked for. -/
theorem replaces_setup (kept : log.Kept own) (opens : Target → Bool) (request : LogRequest) :
    ∃ sinks, Replaces own log (log.setup opens request).2 sinks ∧
      (∀ sink ∈ sinks, Level.ofName? request.level = some sink.threshold) ∧
      ((log.setup opens request).1 = .ok () →
        sinks.map Sink.target = LogRequest.targets request ∧
        (log.setup opens request).2.enabled = true) := by
  obtain ⟨outcome, sinks, made, ⟨distinct, fresh⟩, thresholds, all⟩ :=
    addSinks_cases opens request.level (LogRequest.targets request)
      { log with live := log.live.filter (!own.contains ·), recorded := [] }
  refine ⟨sinks, ?_, thresholds, ?_⟩
  · rw [setup, kept.drain_eq]
    simp only [made]
    cases outcome with
    | ok => exact ⟨rfl, rfl, rfl, distinct, fresh⟩
    | error fault => exact ⟨rfl, rfl, rfl, distinct, fresh⟩
  · rw [setup, kept.drain_eq]
    simp only [made]
    cases outcome with
    | ok => exact fun _ => ⟨all.mp rfl, rfl⟩
    | error fault => exact nofun

theorem setup_eq_ok (kept : log.Kept own) {opens : Target → Bool} {request : LogRequest}
    {threshold : Level} (known : Level.ofName? request.level = some threshold)
    (opened : ∀ target ∈ LogRequest.targets request, opens target = true) :
    (log.setup opens request).1 = .ok () := by
  have made := addSinks_eq_ok known opened
    { log with live := log.live.filter (!own.contains ·), recorded := [] }
  rw [setup, kept.drain_eq]
  dsimp only
  split
  · rfl
  · next failed =>
    rw [failed] at made
    cases made

theorem call (kept : log.Kept own) (call : Call) :
    (call.run log).Kept (own ++ call.added log) := by
  obtain ⟨sinks, replaces⟩ : ∃ sinks, Replaces own log (call.run log) sinks := by
    cases call with
    | setup opens request =>
      obtain ⟨sinks, replaces, -⟩ := kept.replaces_setup opens request
      exact ⟨sinks, replaces⟩
    | disable => exact ⟨[], kept.replaces_disable⟩
  rw [Call.added, replaces.added_eq kept.numbered]
  exact replaces.kept kept

end Kept

section Meanwhile

theorem Numbered.joined (numbered : log.Numbered) (fresh : sink.number ∉ log.given) :
    (log.joined sink).Numbered := by
  constructor
  case distinct =>
    show ((log.live ++ [sink]).map Sink.number).Nodup
    rw [List.map_append, List.nodup_append]
    refine ⟨numbered.distinct, List.nodup_singleton _, ?_⟩
    rintro number old _ new rfl
    obtain ⟨other, member, rfl⟩ := List.mem_map.mp old
    exact fresh (List.mem_singleton.mp new ▸ numbered.given other member)
  case given =>
    intro other member
    rcases List.mem_append.mp member with old | new
    · exact List.mem_append_left _ (numbered.given other old)
    · rw [List.mem_singleton.mp new]
      exact List.mem_append_right _ (List.mem_singleton_self _)

theorem Numbered.without (numbered : log.Numbered) (number : Nat) :
    (log.without number).Numbered :=
  ⟨numbered.distinct_filter _, fun sink member => numbered.given sink (List.mem_filter.mp member).1⟩

theorem held_joined (earlier : ∀ sink ∈ own, sink.number ∈ log.given)
    (fresh : sink.number ∉ log.given) : (log.joined sink).held own = log.held own := by
  have foreign : sink ∉ own := fun mine => fresh (earlier sink mine)
  simp [held, joined, Sinks.including, List.filter_append, foreign]

theorem held_without {number : Nat} (spared : ∀ sink ∈ own, sink.number ≠ number) :
    (log.without number).held own = log.held own := by
  rw [held, held, without, Sinks.without, List.filter_filter]
  refine List.filter_congr fun sink _ => ?_
  by_cases mine : sink ∈ own
  · simp [mine, spared sink mine]
  · simp [mine]

theorem Kept.meanwhile (kept : log.Kept own) (others : Meanwhile own log later) :
    later.Kept own ∧ later.held own = log.held own ∧ later.enabled = log.enabled := by
  induction others with
  | nothing => exact ⟨kept, rfl, rfl⟩
  | joining sink _ fresh ih =>
    obtain ⟨kept, same, enabled⟩ := ih
    have untouched := held_joined kept.earlier fresh
    refine ⟨⟨kept.numbered.joined fresh, ?_, ?_⟩, untouched.trans same, enabled⟩
    · exact fun sink mine => List.mem_append_left _ (kept.earlier sink mine)
    · rw [untouched]
      exact kept.recorded_eq
  | @leaving later number _ spared ih =>
    obtain ⟨kept, same, enabled⟩ := ih
    have untouched : (later.without number).held own = later.held own := held_without spared
    refine ⟨⟨kept.numbered.without number, kept.earlier, ?_⟩, untouched.trans same, enabled⟩
    rw [untouched]
    exact kept.recorded_eq

end Meanwhile

theorem Reached.kept [SinkHost] [LawfulSinkHost] (reached : Reached log own) :
    log.Kept own := by
  induction reached with
  | start numbered clean => exact .start numbered clean
  | call call _ ih => exact ih.call call
  | meanwhile _ others ih => exact (ih.meanwhile others).1

/-- The package has just the sinks in use that a request asks for. Each of them gets every event
that is important enough once, and no sink from before gets any. -/
structure Serves (log : Logging) (before sinks : List Sink) (request : LogRequest) : Prop where
  enabled : log.enabled = true
  targets : sinks.map Sink.target = LogRequest.targets request
  thresholds : ∀ sink ∈ sinks, Level.ofName? request.level = some sink.threshold
  once : ∀ event, ∀ sink ∈ sinks, (log.receivers event).count sink =
    if sink.threshold.severity ≤ event.level.severity then 1 else 0
  dropped : ∀ event, ∀ sink ∈ before, sink ∉ log.receivers event

theorem mem_live_of_mem_receivers {event : Event} (member : sink ∈ log.receivers event) :
    sink ∈ log.live := by
  unfold receivers at member
  split at member
  · exact (List.mem_filter.mp member).1
  · cases member

theorem count_receivers (numbered : log.Numbered) (enabled : log.enabled = true)
    (live : sink ∈ log.live) (event : Event) :
    (log.receivers event).count sink =
      if sink.threshold.severity ≤ event.level.severity then 1 else 0 := by
  rw [receivers, if_pos enabled]
  split
  · next loud =>
    rw [List.count_filter (by simpa using loud)]
    exact List.count_eq_one_of_mem (List.Nodup.of_map _ numbered.distinct) live
  · next quiet =>
    exact List.count_eq_zero.mpr fun member => quiet (by simpa using (List.mem_filter.mp member).2)

theorem mem_held_iff : sink ∈ log.held own ↔ sink ∈ log.live ∧ sink ∈ own := by
  rw [held, List.mem_filter, List.contains_iff_mem]

theorem Replaces.held_meanwhile {during : Logging} (replaces : Replaces own log during sinks)
    (kept : log.Kept own) (others : Meanwhile (own ++ sinks) during later) :
    later.Numbered ∧ later.held (own ++ sinks) = sinks ∧ later.enabled = during.enabled := by
  obtain ⟨keeps, same, unchanged⟩ := (replaces.kept kept).meanwhile others
  exact ⟨keeps.numbered, same.trans (replaces.held_eq kept.numbered), unchanged⟩

theorem Replaces.serves {during : Logging} {request : LogRequest}
    (replaces : Replaces own log during sinks) (kept : log.Kept own)
    (others : Meanwhile (own ++ sinks) during later) (enabled : during.enabled = true)
    (targets : sinks.map Sink.target = LogRequest.targets request)
    (thresholds : ∀ sink ∈ sinks, Level.ofName? request.level = some sink.threshold) :
    later.Serves own sinks request := by
  obtain ⟨numbered, inHand, unchanged⟩ := replaces.held_meanwhile kept others
  refine ⟨unchanged.trans enabled, targets, thresholds, fun event sink member => ?_,
    fun event sink old member => ?_⟩
  · rw [← inHand] at member
    exact count_receivers numbered (unchanged.trans enabled) (mem_held_iff.mp member).1 event
  · -- a sink from before would be one of the new ones, but its number was given out
    have new : sink ∈ later.held (own ++ sinks) :=
      mem_held_iff.mpr ⟨mem_live_of_mem_receivers member, List.mem_append_left sinks old⟩
    rw [inHand] at new
    exact replaces.not_mem_of_given (kept.earlier sink old) new

/-- Whatever was called, the package remembers the numbers of its sinks in use, each once. From a
setting up that succeeds until the next call it has those that were asked for, and from a taking
back on it has none and writes nothing. -/
theorem sinks_in_hand [SinkHost] [LawfulSinkHost] (reached : Reached log own) :
    log.recorded = (log.held own).map Sink.number ∧ log.recorded.Nodup ∧
    (∀ opens request later, (log.setup opens request).1 = .ok () →
      Meanwhile (own ++ (Call.setup opens request).added log) (log.setup opens request).2 later →
        later.Serves own (later.held (own ++ (Call.setup opens request).added log)) request) ∧
    log.withdraw.1 = .ok () ∧
    ∀ later, Meanwhile (own ++ Call.disable.added log) log.disable later →
      later.held (own ++ Call.disable.added log) = [] ∧ later.enabled = false ∧
        ∀ event, later.receivers event = [] := by
  have kept := reached.kept
  refine ⟨kept.recorded_eq, ?_, ?_, by rw [kept.withdraw_eq], ?_⟩
  · rw [kept.recorded_eq]
    exact kept.numbered.distinct_filter _
  · intro opens request later succeeded others
    obtain ⟨sinks, replaces, thresholds, asked⟩ := kept.replaces_setup opens request
    obtain ⟨targets, enabled⟩ := asked succeeded
    have added : (Call.setup opens request).added log = sinks := replaces.added_eq kept.numbered
    rw [added] at others ⊢
    rw [(replaces.held_meanwhile kept others).2.1]
    exact replaces.serves kept others enabled targets thresholds
  · intro later others
    have added : Call.disable.added log = [] := kept.replaces_disable.added_eq kept.numbered
    rw [added] at others ⊢
    obtain ⟨-, nothing, unchanged⟩ := kept.replaces_disable.held_meanwhile kept others
    have enabled : later.enabled = false := by
      rw [unchanged, disable, kept.withdraw_eq]
    exact ⟨nothing, enabled, fun event => by simp [receivers, enabled]⟩

def hosting : Logging :=
  ⟨⟨[⟨0, .console, .debug⟩], [0]⟩, false, []⟩

def fileRefused : Call :=
  .setup (· == .console) ⟨"DEBUG", true, true⟩

def bothOpened : LogRequest :=
  ⟨"WARNING", true, true⟩

/-- The first time the file cannot be opened, and the sink of the console stays. The second time
there are two new ones in its place, and then the host drops its own and somebody adds another. -/
theorem warnings_in_hand :
    Reached (fileRefused.run hosting) [⟨1, .console, .debug⟩] ∧
    (fileRefused.run hosting).recorded = [1] ∧
    (Logging.setup (fun _ => true) bothOpened (fileRefused.run hosting)).1 = .ok () ∧
    Serves (joined ⟨4, .file, .trace⟩
        (without 0 (Logging.setup (fun _ => true) bothOpened (fileRefused.run hosting)).2))
      [⟨1, .console, .debug⟩] [⟨2, .console, .warning⟩, ⟨3, .file, .warning⟩] bothOpened := by
  have numbered : hosting.Numbered := ⟨by decide, by decide⟩
  have reached : Reached (fileRefused.run hosting) [⟨1, .console, .debug⟩] :=
    .call fileRefused (.start numbered rfl)
  obtain ⟨recorded, -, served, -⟩ := sinks_in_hand reached
  refine ⟨reached, recorded, rfl, served (fun _ => true) bothOpened _ rfl ?_⟩
  exact .joining _ (.leaving 0 .nothing (by decide)) (by decide)

end Logging
end SearchBar
