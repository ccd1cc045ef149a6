import Mathlib
import NodeTelemetry.Ingestion
import NodeTelemetry.Proofs.NameMap

/-!
Samples whose groups end in any order. Every group has a slot of its own, so the batch of a sample is
made of the updates of the groups in their order, however they have ended and whichever was first; and
each group that has not ended well is reported once.
-/

set_option autoImplicit false

namespace NodeTelemetry

variable {α : Type}

structure GroupWork (α : Type) where
  group : Group α
  outcome : GroupOutcome α

namespace GroupWork

def updates? (work : GroupWork α) : Option (List (Update α)) :=
  match work.outcome with
  | .updates updates => some updates
  | .failed _ | .panicked _ => none

/-- What is reported of work that has not: the error of the group, or the panic as a failed computation
of its kind. -/
def report? (work : GroupWork α) : Option EngineError :=
  match work.outcome with
  | .updates _ => none
  | .failed error => some error
  | .panicked text => some (.computation work.group.kind (.panicked text))

def completion (index : Nat) (work : GroupWork α) : Completion α :=
  ⟨index, Group.settled work.group.kind work.outcome⟩

/-- The completions of works that are numbered from a position on. -/
def completionsFrom (index : Nat) : List (GroupWork α) → List (Completion α)
  | [] => []
  | work :: works => work.completion index :: completionsFrom (index + 1) works

def completions (works : List (GroupWork α)) : List (Completion α) := completionsFrom 0 works

private theorem error?_completion (index : Nat) (work : GroupWork α) :
    (work.completion index).error? = work.report? := by
  unfold completion Completion.error? report? Group.settled
  cases work.outcome <;> rfl

private theorem exists_report_of_updates?_eq_none {work : GroupWork α} (h : work.updates? = none) :
    ∃ error, work.report? = some error := by
  cases houtcome : work.outcome with
  | updates updates => simp [updates?, houtcome] at h
  | failed error => exact ⟨error, by rw [report?, houtcome]⟩
  | panicked text => exact ⟨_, by rw [report?, houtcome]⟩

private theorem reports_completionsFrom (index : Nat) (works : List (GroupWork α)) :
    (completionsFrom index works).filterMap Completion.error? = works.filterMap report? := by
  induction works generalizing index with
  | nil => rfl
  | cons work works ih =>
    rw [completionsFrom, List.filterMap_cons, List.filterMap_cons, error?_completion, ih]

private theorem le_index_of_mem {index : Nat} {works : List (GroupWork α)}
    {completion : Completion α}
    (h : completion ∈ completionsFrom index works) : index ≤ completion.index := by
  induction works generalizing index with
  | nil => cases h
  | cons work works ih =>
    rcases List.mem_cons.1 h with rfl | h
    · exact Nat.le_refl index
    · exact Nat.le_of_succ_le (ih h)

private theorem eq_of_index_eq {index : Nat} {works : List (GroupWork α)}
    {first second : Completion α}
    (hfirst : first ∈ completionsFrom index works) (hsecond : second ∈ completionsFrom index works)
    (h : first.index = second.index) : first = second := by
  induction works generalizing index with
  | nil => cases hfirst
  | cons work works ih =>
    have hlater : ∀ other ∈ completionsFrom (index + 1) works, index ≠ other.index :=
      fun other hother => Nat.ne_of_lt (le_index_of_mem hother)
    rcases List.mem_cons.1 hfirst with rfl | hfirst <;>
      rcases List.mem_cons.1 hsecond with rfl | hsecond
    · rfl
    · exact absurd h (hlater second hsecond)
    · exact absurd h.symm (hlater first hfirst)
    · exact ih hfirst hsecond

end GroupWork

open GroupWork (completions completionsFrom)

/-! ### The slots of the groups -/

namespace Completion

private theorem place_comm {first second : Completion α}
    (h : first.index = second.index → first = second) (slots : List (Option (List (Update α)))) :
    place (place slots first) second = place (place slots second) first := by
  by_cases hindex : first.index = second.index
  · rw [h hindex]
  · unfold place
    cases first.outcome with
    | error error => rfl
    | ok updates =>
      cases second.outcome with
      | error error => rfl
      | ok others => exact List.set_comm _ _ hindex

private theorem foldl_place_perm {works : List (GroupWork α)} {arrived : List (Completion α)}
    (h : arrived.Perm (completions works)) (slots : List (Option (List (Update α)))) :
    arrived.foldl place slots = (completions works).foldl place slots := by
  refine h.foldl_eq' (fun first hfirst second hsecond slots => ?_) slots
  exact place_comm (GroupWork.eq_of_index_eq (h.subset hfirst) (h.subset hsecond)) slots

private theorem place_completion (before : List (Option (List (Update α)))) (work : GroupWork α)
    (later : List (Option (List (Update α)))) :
    place (before ++ none :: later) (work.completion before.length) =
      before ++ work.updates? :: later := by
  unfold place GroupWork.completion GroupWork.updates? Group.settled
  cases work.outcome with
  | updates updates => simp
  | failed error => rfl
  | panicked text => rfl

private theorem foldl_place_completionsFrom (before : List (Option (List (Update α))))
    (works : List (GroupWork α)) :
    (completionsFrom before.length works).foldl place
        (before ++ List.replicate works.length none) =
      before ++ works.map GroupWork.updates? := by
  induction works generalizing before with
  | nil => rfl
  | cons work works ih =>
    have hrest := ih (before ++ [work.updates?])
    rw [List.length_append, List.length_singleton, List.append_assoc, List.append_assoc] at hrest
    rw [completionsFrom, List.foldl_cons, List.length_cons, List.replicate_succ, place_completion]
    exact hrest

private theorem collect_of_perm {works : List (GroupWork α)} {arrived : List (Completion α)}
    (h : arrived.Perm (completions works)) :
    collect works.length arrived = (works.filterMap GroupWork.updates?).flatten := by
  have hslots : arrived.foldl place (List.replicate works.length none) =
      works.map GroupWork.updates? :=
    (foldl_place_perm h _).trans (foldl_place_completionsFrom [] works)
  rw [collect, hslots, List.filterMap_map]
  rfl

end Completion

/-! ### Reports -/

namespace ErrorLog

private theorem recorded_foldl_note (log : ErrorLog) (errors : List EngineError) :
    (errors.foldl (note .recorded) log).recorded = log.recorded ++ errors := by
  induction errors generalizing log with
  | nil => exact (List.append_nil _).symm
  | cons error errors ih =>
    rw [List.foldl_cons, ih, note, List.append_assoc, List.singleton_append]

private theorem getD_increment (counts : NameMap Nat) (name other : String) :
    ((counts.increment name).get? other).getD 0 =
      (counts.get? other).getD 0 + if other = name then 1 else 0 := by
  rw [NameMap.increment, NameMap.get?_insert]
  by_cases h : other = name
  · subst h
    simp
  · simp [h]

private theorem counts_foldl_note (log : ErrorLog) (errors : List EngineError) (name : String) :
    ((errors.foldl (note .counted) log).counts.get? name).getD 0 =
      (log.counts.get? name).getD 0 + (errors.filter (label · = name)).length := by
  induction errors generalizing log with
  | nil => rfl
  | cons error errors ih =>
    rw [List.foldl_cons, ih, note, getD_increment, List.filter_cons]
    by_cases h : label error = name
    · simp only [h, decide_true, if_true, List.length_cons]
      omega
    · simp [h, Ne.symm h]

end ErrorLog

/-! ### A sample -/

namespace Ingestion

/-- Ingestion once the completions of all groups have arrived, and what it makes of them. -/
def gather (groups : List (Group α)) (route : ErrorRoute) (ingestion : Ingestion α)
    (height : UInt64) (accumulators : AccumulatorSet α) (arrived : List (Completion α)) :
    Ingestion α × Batch α :=
  ({ accumulators
     figures := { ingestion.figures with
       groupRuns := groups.foldl (fun runs group => runs.increment group.kind.name)
         ingestion.figures.groupRuns }
     errors := (arrived.filterMap Completion.error?).foldl (ErrorLog.note route) ingestion.errors },
    .ofCompletions height groups.length arrived)

private theorem exists_works (sample : BlockSample) (receivedAt : Int64) (groups : List (Group α))
    (index : Nat) (set : AccumulatorSet α) :
    ∃ works : List (GroupWork α), works.map (·.group) = groups ∧
      (∀ work ∈ works, ∃ before, work.outcome = (work.group.compute sample receivedAt before).1) ∧
      (Group.runAll sample receivedAt index groups set).1 = completionsFrom index works := by
  induction groups generalizing index set with
  | nil => exact ⟨[], rfl, fun work hwork => (nomatch hwork), rfl⟩
  | cons group groups ih =>
    obtain ⟨works, hgroups, houtcomes, hcompletions⟩ :=
      ih (index + 1) (group.compute sample receivedAt set).2
    refine ⟨⟨group, (group.compute sample receivedAt set).1⟩ :: works, ?_, ?_, ?_⟩
    · rw [List.map_cons, hgroups]
    · exact List.forall_mem_cons.2 ⟨⟨set, rfl⟩, houtcomes⟩
    · rw [completionsFrom, ← hcompletions]
      rfl

theorem exists_process_eq_gather (groups : List (Group α)) (route : ErrorRoute)
    (ingestion : Ingestion α) (sample : BlockSample) (receivedAt : Int64) :
    ∃ works : List (GroupWork α), works.map (·.group) = groups ∧
      (∀ work ∈ works, ∃ before, work.outcome = (work.group.compute sample receivedAt before).1) ∧
      ∃ accumulators, ingestion.process groups route sample receivedAt =
        ingestion.gather groups route sample.height accumulators (completions works) := by
  obtain ⟨works, hgroups, houtcomes, hcompletions⟩ :=
    exists_works sample receivedAt groups 0 ingestion.accumulators
  refine ⟨works, hgroups, houtcomes,
    (Group.runAll sample receivedAt 0 groups ingestion.accumulators).2, ?_⟩
  rw [completions, ← hcompletions]
  rfl

theorem gather_batch {works : List (GroupWork α)} {arrived : List (Completion α)}
    (h : arrived.Perm (completions works)) (route : ErrorRoute) (ingestion : Ingestion α)
    (height : UInt64) (accumulators : AccumulatorSet α) :
    (ingestion.gather (works.map (·.group)) route height accumulators arrived).2 =
      ⟨.block height, (works.filterMap GroupWork.updates?).flatten⟩ := by
  rw [gather, Batch.ofCompletions, List.length_map, Completion.collect_of_perm h]

private theorem reports_perm {works : List (GroupWork α)} {arrived : List (Completion α)}
    (h : arrived.Perm (completions works)) :
    (arrived.filterMap Completion.error?).Perm (works.filterMap GroupWork.report?) := by
  rw [← GroupWork.reports_completionsFrom 0 works]
  exact h.filterMap _

/-- However the groups end, and in whatever order: the batch holds the updates of those that have ended
well, in the order of the groups; each of the others is reported once, by its own error or by its panic;
and a group that has not ended well leaves everything else as if it had not been there. -/
theorem process_in_any_order (ingestion : Ingestion α) :
    (∀ (groups : List (Group α)) (route : ErrorRoute) (sample : BlockSample) (receivedAt : Int64),
      ∃ works : List (GroupWork α), works.map (·.group) = groups ∧
        (∀ work ∈ works, ∃ before, work.outcome = (work.group.compute sample receivedAt before).1) ∧
        ∃ accumulators, ingestion.process groups route sample receivedAt =
          ingestion.gather groups route sample.height accumulators (completions works)) ∧
    ∀ (height : UInt64) (accumulators : AccumulatorSet α) (works : List (GroupWork α))
      (arrived : List (Completion α)), arrived.Perm (completions works) →
      let gathered (route : ErrorRoute) :=
        ingestion.gather (works.map (·.group)) route height accumulators arrived
      (∀ route, (gathered route).2 =
        ⟨.block height, (works.filterMap GroupWork.updates?).flatten⟩) ∧
      (∃ reports, reports.Perm (works.filterMap GroupWork.report?) ∧
        (gathered .recorded).1.errors.recorded = ingestion.errors.recorded ++ reports) ∧
      (∀ name, ((gathered .counted).1.errors.counts.get? name).getD 0 =
        (ingestion.errors.counts.get? name).getD 0 +
          ((works.filterMap GroupWork.report?).filter (ErrorLog.label · = name)).length) ∧
      ∀ before work later, works = before ++ work :: later → work.updates? = none →
        ∀ others : List (Completion α), others.Perm (completions (before ++ later)) →
          (∀ route, (gathered route).2 =
            (ingestion.gather ((before ++ later).map (·.group)) route height accumulators others).2) ∧
          ∃ error, work.report? = some error ∧
            (arrived.filterMap Completion.error?).Perm
              (error :: others.filterMap Completion.error?) := by
  refine ⟨fun groups route sample receivedAt =>
    exists_process_eq_gather groups route ingestion sample receivedAt,
    fun height accumulators works arrived harrived => ?_⟩
  intro gathered
  have hbatch (route : ErrorRoute) : (gathered route).2 =
      ⟨.block height, (works.filterMap GroupWork.updates?).flatten⟩ :=
    gather_batch harrived route ingestion height accumulators
  have hreports := reports_perm harrived
  refine ⟨hbatch, ⟨_, hreports, ErrorLog.recorded_foldl_note _ _⟩, fun name => ?_, ?_⟩
  · have hcounts := ErrorLog.counts_foldl_note ingestion.errors
      (arrived.filterMap Completion.error?) name
    rwa [(hreports.filter _).length_eq] at hcounts
  · rintro before work later rfl hfailed others hothers
    obtain ⟨error, herror⟩ := GroupWork.exists_report_of_updates?_eq_none hfailed
    refine ⟨fun route => ?_, error, herror, ?_⟩
    · rw [hbatch, gather_batch hothers, List.filterMap_append, List.filterMap_cons, hfailed,
        List.filterMap_append]
    · rw [List.filterMap_append, List.filterMap_cons, herror] at hreports
      have hrest := reports_perm hothers
      rw [List.filterMap_append] at hrest
      exact (hreports.trans List.perm_middle).trans (hrest.symm.cons error)

/-- Of four groups one fails and one panics, and the last is the first to end. -/
theorem process_in_any_order_reversed :
    let group (kind : GroupKind) : Group Rat := ⟨kind, fun _ _ set => (.updates [], set)⟩
    let failure : EngineError := .computation .throughput (.reason "no clock")
    let works : List (GroupWork Rat) :=
      [⟨group .timing, .updates [.point "first" 7 1]⟩, ⟨group .throughput, .failed failure⟩,
        ⟨group .transactions, .panicked (some "overflow")⟩,
        ⟨group .network, .updates [.point "second" 7 2, .point "third" 7 3]⟩]
    let arrived := (completions works).reverse
    let gathered (route : ErrorRoute) := (Ingestion.fresh ⟨∅⟩).gather (works.map (·.group)) route 7 ⟨∅⟩
      arrived
    arrived.Perm (completions works) ∧
      (gathered .recorded).2 =
        ⟨.block 7, [.point "first" 7 1, .point "second" 7 2, .point "third" 7 3]⟩ ∧
      (∃ reports, reports.Perm [failure, .computation .transactions (.panicked (some "overflow"))] ∧
        (gathered .recorded).1.errors.recorded = reports) ∧
      ((gathered .counted).1.errors.counts.get? "transactions").getD 0 = 1 := by
  intro group failure works arrived gathered
  have harrived : arrived.Perm (completions works) := List.reverse_perm _
  obtain ⟨-, hall⟩ := process_in_any_order (Ingestion.fresh (α := Rat) ⟨∅⟩)
  obtain ⟨hbatch, ⟨reports, hperm, hrecorded⟩, hcounts, -⟩ := hall 7 ⟨∅⟩ works arrived harrived
  exact ⟨harrived, hbatch .recorded, ⟨reports, hperm, hrecorded⟩, hcounts "transactions"⟩

/-- Not every report is one of a failed computation: a group that fails with another error is reported by
that error, and counts for no group. -/
theorem report_of_other_error :
    let group : Group Float := ⟨.timing, fun _ _ set => (.failed (.size .capacity), set)⟩
    let processed (route : ErrorRoute) :=
      (Ingestion.fresh ⟨∅⟩).process [group] route { height := 1 } 0
    ¬(∃ cause, (processed .recorded).1.errors.recorded = [.computation .timing cause]) ∧
      ¬(∃ kind cause, .computation kind cause ∈ (processed .recorded).1.errors.recorded) ∧
      (processed .counted).1.errors.counts.get? GroupKind.timing.name = none := by
  intro group processed
  have hreports : (processed .recorded).1.errors.recorded = [.size .capacity] := rfl
  rw [hreports]
  refine ⟨?_, ?_, by decide +kernel⟩
  · rintro ⟨cause, h⟩
    cases h
  · rintro ⟨kind, cause, h⟩
    cases List.mem_singleton.1 h

end Ingestion

end NodeTelemetry
