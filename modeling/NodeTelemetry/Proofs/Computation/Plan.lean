import NodeTelemetry.Proofs.Accumulator.Views
import NodeTelemetry.Proofs.Computation

/-!
Plans of computations. A plan lists the accumulators that a computation looks up, in order and with a
mark where it also feeds them. Whatever the values are, a computation with a plan runs up to the first
accumulator that its view does not show; what it has fed by then is all that it has done.
-/

set_option autoImplicit false

namespace NodeTelemetry

/-! ### What was fed -/

namespace AccumulatorSet

variable {α : Type} {set after : AccumulatorSet α} {view : GroupKind} {metric : Metric}

private theorem namesOf_modify (set : AccumulatorSet α) (view : GroupKind) (name : String)
    (f : Accumulator α → Accumulator α) : (set.modify name f).namesOf view = set.namesOf view := by
  show ((set.modify name f).view view).names = (set.view view).names
  rw [view_modify]
  simp [NameMap.names, NameMap.modify, NameMap.map]

private theorem lookup_of_not_mem {name : String} (h : name ∉ set.namesOf view) :
    set.lookup view name = .error (.computation view (.noAccumulator name)) := by
  cases hlookup : set.lookup view name with
  | ok accumulator => exact absurd (mem_namesOf_iff.2 ⟨accumulator, hlookup⟩) h
  | error error =>
    rw [lookup] at hlookup
    split at hlookup
    · cases hlookup
    · exact hlookup.symm

variable [Scalar α]

/-- Between two states of a set, the accumulators of some metrics in a view were fed one value each, and
no other accumulator of the set has changed. -/
structure FedOnce (set after : AccumulatorSet α) (view : GroupKind) (metrics : List Metric) : Prop where
  fed : ∀ metric ∈ metrics, ∃ accumulator value entered,
    set.lookup view metric.name = .ok accumulator ∧
      after.lookup view metric.name = .ok entered ∧ accumulator.Gains value entered
  kept : ∀ name ∉ metrics.map Metric.name, after.entries.get? name = set.entries.get? name

private theorem fedOnce_nil (set : AccumulatorSet α) (view : GroupKind) : set.FedOnce set view [] :=
  ⟨fun _ hnone => (nomatch hnone), fun _ _ => rfl⟩

private theorem FedOnce.cons {accumulator : Accumulator α} {value : α} {metrics : List Metric}
    (hlookup : set.lookup view metric.name = .ok accumulator)
    (h : (set.modify metric.name fun _ => accumulator.insert value).FedOnce after view metrics)
    (hnew : metric ∉ metrics) : set.FedOnce after view (metric :: metrics) := by
  have hname : metric.name ∉ metrics.map Metric.name := by
    intro hmem
    obtain ⟨other, hother, heq⟩ := List.mem_map.1 hmem
    exact hnew (Metric.name_injective heq ▸ hother)
  constructor
  · intro other hother
    rcases List.mem_cons.1 hother with rfl | hother
    · have hfed := lookup_modify hlookup fun _ => accumulator.insert value
      refine ⟨accumulator, value, _, hlookup, ?_, accumulator.gains_insert value⟩
      rw [lookup_eq_ok_iff, h.kept other.name hname]
      exact lookup_eq_ok_iff.1 hfed
    · obtain ⟨found, value, entered, hfound, hentered, hgains⟩ := h.fed other hother
      have hne : other.name ≠ metric.name := fun heq =>
        hname (heq ▸ List.mem_map_of_mem hother)
      rw [set.lookup_modify_of_ne view hne] at hfound
      exact ⟨found, value, entered, hfound, hentered, hgains⟩
  · intro name hother
    rw [List.map_cons, List.mem_cons, not_or] at hother
    rw [h.kept name hother.2, modify, NameMap.get?_modify, if_neg hother.1]

end AccumulatorSet

/-! ### Plans -/

namespace Computation

variable {α β γ : Type} {view : GroupKind}

/-- One look-up of a computation: only to look at an accumulator, or to feed it. -/
inductive Step where
  | look (metric : Metric)
  | feed (metric : Metric)
  deriving DecidableEq

namespace Step

def metric : Step → Metric
  | look metric | feed metric => metric

def fed? : Step → Option Metric
  | look _ => none
  | feed metric => some metric

end Step

def fedBy (steps : List Step) : List Metric := steps.filterMap Step.fed?

/-- All look-ups of a computation go through a view, and they are those of a plan. -/
inductive HasPlan (view : GroupKind) : Computation α β → List Step → Prop where
  | done (result : β) : HasPlan view (.done result) []
  | look {metric : Metric} {next : Accumulator α → Computation α β} {steps : List Step}
      (h : ∀ accumulator, HasPlan view (next accumulator) steps) :
      HasPlan view (.look view metric next) (.look metric :: steps)
  | feed {metric : Metric} {value : α} {next : Accumulator α → Computation α β} {steps : List Step}
      (h : ∀ accumulator, HasPlan view (next accumulator) steps) :
      HasPlan view (.enter view metric value next) (.feed metric :: steps)

theorem hasPlan_pure (result : β) : (pure result : Computation α β).HasPlan view [] := .done result

theorem hasPlan_reach (metric : Metric) : (reach (α := α) view metric).HasPlan view [.look metric] :=
  .look fun accumulator => .done accumulator

theorem hasPlan_feed (metric : Metric) (value : α) :
    (Computation.feed view metric value).HasPlan view [.feed metric] :=
  .feed fun accumulator => .done accumulator

theorem HasPlan.bind {computation : Computation α β} {next : β → Computation α γ}
    {first second : List Step} (hfirst : computation.HasPlan view first)
    (hnext : ∀ result, (next result).HasPlan view second) :
    (computation >>= next).HasPlan view (first ++ second) := by
  induction hfirst with
  | done result => exact hnext result
  | look _ ih => exact .look ih
  | feed _ ih => exact .feed ih

/-! ### Plans over lists -/

section lists

variable {δ : Type} {items : List δ} {steps : δ → List Step}

theorem hasPlan_mapM {f : δ → Computation α β} (h : ∀ item, (f item).HasPlan view (steps item)) :
    (items.mapM f).HasPlan view (items.flatMap steps) := by
  induction items with
  | nil => exact .done []
  | cons item items ih =>
    rw [List.mapM_cons, List.flatMap_cons]
    refine (h item).bind fun result => ?_
    rw [← List.append_nil (items.flatMap steps)]
    exact ih.bind fun results => .done (result :: results)

theorem hasPlan_forM {f : δ → Computation α PUnit} (h : ∀ item, (f item).HasPlan view (steps item)) :
    (items.forM f).HasPlan view (items.flatMap steps) := by
  induction items with
  | nil => exact .done _
  | cons item items ih =>
    rw [List.flatMap_cons]
    exact (h item).bind fun _ => ih

end lists

/-! ### Runs -/

section runs

variable [Scalar α] {computation : Computation α β} {set : AccumulatorSet α}

/-- A computation comes through the part of its plan that the view has accumulators for. What is left
of it is done with accumulators that differ from the first ones by what that part has fed. -/
theorem HasPlan.run_append {first rest : List Step} (h : computation.HasPlan view (first ++ rest))
    (hfound : ∀ step ∈ first, step.metric.name ∈ set.namesOf view) (hdistinct : (fedBy first).Nodup) :
    ∃ (remaining : Computation α β) (after : AccumulatorSet α),
      computation.run set = remaining.run after ∧ remaining.HasPlan view rest ∧
      set.FedOnce after view (fedBy first) ∧ after.namesOf view = set.namesOf view := by
  induction first generalizing computation set with
  | nil => exact ⟨computation, set, rfl, h, set.fedOnce_nil view, rfl⟩
  | cons step first ih =>
    obtain ⟨hstep, hfirst⟩ := List.forall_mem_cons.1 hfound
    obtain ⟨accumulator, hlookup⟩ := AccumulatorSet.mem_namesOf_iff.1 hstep
    cases h with
    | @look metric next _ hnext =>
      have hlook : set.lookup view metric.name = .ok accumulator := hlookup
      obtain ⟨remaining, after, hrun, hplan, hfed, hnames⟩ := ih (hnext accumulator) hfirst hdistinct
      refine ⟨remaining, after, ?_, hplan, hfed, hnames⟩
      rw [run_look, hlook]
      exact hrun
    | @feed metric value next _ hnext =>
      have hlook : set.lookup view metric.name = .ok accumulator := hlookup
      let entered := set.modify metric.name fun _ => accumulator.insert value
      have hnames : entered.namesOf view = set.namesOf view := set.namesOf_modify view metric.name _
      have hothers : (metric :: fedBy first).Nodup := hdistinct
      obtain ⟨hnew, hrest⟩ := List.nodup_cons.1 hothers
      have hfirst : ∀ other ∈ first, other.metric.name ∈ entered.namesOf view :=
        fun other hother => hnames ▸ hfirst other hother
      obtain ⟨remaining, after, hrun, hplan, hfed, hafter⟩ :=
        ih (hnext (accumulator.insert value)) hfirst hrest
      refine ⟨remaining, after, ?_, hplan, hfed.cons hlook hnew, hafter.trans hnames⟩
      rw [run_enter, hlook]
      exact hrun

theorem HasPlan.run_of_missing {first rest : List Step} {step : Step}
    (h : computation.HasPlan view (first ++ step :: rest))
    (hfound : ∀ other ∈ first, other.metric.name ∈ set.namesOf view)
    (hmissing : step.metric.name ∉ set.namesOf view) (hdistinct : (fedBy first).Nodup) :
    ∃ after, computation.run set =
        (.error (.computation view (.noAccumulator step.metric.name)), after) ∧
      set.FedOnce after view (fedBy first) := by
  obtain ⟨remaining, after, hrun, hplan, hfed, hnames⟩ := h.run_append hfound hdistinct
  have hlookup := AccumulatorSet.lookup_of_not_mem (hnames ▸ hmissing)
  refine ⟨after, hrun.trans ?_, hfed⟩
  cases hplan with
  | @look metric next _ _ =>
    have hnone : after.lookup view metric.name =
        .error (.computation view (.noAccumulator metric.name)) := hlookup
    rw [run_look, hnone]
    rfl
  | @feed metric value next _ _ =>
    have hnone : after.lookup view metric.name =
        .error (.computation view (.noAccumulator metric.name)) := hlookup
    rw [run_enter, hnone]
    rfl

theorem HasPlan.run_of_found {steps : List Step} (h : computation.HasPlan view steps)
    (hfound : ∀ step ∈ steps, step.metric.name ∈ set.namesOf view) (hdistinct : (fedBy steps).Nodup) :
    ∃ result after, computation.run set = (.ok result, after) ∧
      set.FedOnce after view (fedBy steps) := by
  rw [← List.append_nil steps] at h
  obtain ⟨remaining, after, hrun, hplan, hfed, -⟩ := h.run_append hfound hdistinct
  cases hplan with
  | done result => exact ⟨result, after, hrun, hfed⟩

end runs

end Computation

end NodeTelemetry
