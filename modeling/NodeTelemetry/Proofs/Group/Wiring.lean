import NodeTelemetry.Proofs.Accumulator.Views
import NodeTelemetry.Proofs.Group.Block

/-!
The throughput group over whatever accumulators its view shows. Where accumulators are missing it fails,
and then a sample was fed into all three window histories or into none of them.
-/

set_option autoImplicit false

namespace NodeTelemetry.Group.Throughput

open Scalar (ofWord ofTime)
open NodeTelemetry.AccumulatorSet (lookup_modify)
open NodeTelemetry.Computation (feed run_map run_reach_bind run_feed_bind run_reach_bind_of_error
  run_feed_bind_of_error)

variable {β γ : Type} [Scalar β]

private theorem run_mapM_feed (view : GroupKind) (items : List γ) (owner : γ → Metric)
    (value : γ → β) {δ : Type} (f : γ → Accumulator β → δ) (set : AccumulatorSet β) :
    let ended :=
      (items.mapM fun item => do return f item (← feed view (owner item) (value item))).run set
    (∀ metric, metric ∉ items.map owner →
      ended.2.lookup view metric.name = set.lookup view metric.name) ∧
    ∀ error, ended.1 = .error error →
      ∃ item ∈ items, set.lookup view (owner item).name = .error error := by
  induction items generalizing set with
  | nil => exact ⟨fun metric _ => rfl, fun error herror => nomatch herror⟩
  | cons item items ih =>
    intro ended
    cases hlookup : set.lookup view (owner item).name with
    | error error =>
      have hended : ended = (.error error, set) := by
        show Computation.run _ set = _
        rw [List.mapM_cons, bind_assoc, run_feed_bind_of_error hlookup]
      rw [hended]
      refine ⟨fun metric _ => rfl, fun other hother => ?_⟩
      cases hother
      exact ⟨item, List.mem_cons_self, hlookup⟩
    | ok accumulator =>
      let fed := set.modify (owner item).name fun _ => accumulator.insert (value item)
      let rest :=
        (items.mapM fun item => do return f item (← feed view (owner item) (value item))).run fed
      obtain ⟨hkept, hfails⟩ := ih fed
      have hended : ended = (rest.1.map (f item (accumulator.insert (value item)) :: ·), rest.2) := by
        show Computation.run _ set = _
        rw [List.mapM_cons, bind_assoc, run_feed_bind hlookup, pure_bind, bind_pure_comp, run_map]
      rw [hended]
      refine ⟨fun metric hmetric => ?_, fun error herror => ?_⟩
      · rw [List.map_cons, List.mem_cons, not_or] at hmetric
        have hname : metric.name ≠ (owner item).name := fun hname =>
          hmetric.1 (Metric.name_injective hname)
        exact (hkept metric hmetric.2).trans (set.lookup_modify_of_ne view hname _)
      · obtain ⟨other, hother, hmissing⟩ := hfails error (error_of_map herror)
        refine ⟨other, List.mem_cons_of_mem _ hother, ?_⟩
        -- what was just fed is found again
        have hname : (owner other).name ≠ (owner item).name := by
          intro hname
          rw [hname, lookup_modify hlookup] at hmissing
          cases hmissing
        rwa [set.lookup_modify_of_ne view hname] at hmissing

variable {view : GroupKind} {sample : BlockSample} {receivedAt : Int64} {set : AccumulatorSet β}

private theorem run_computation_of_found {arrivals transactions system : Accumulator β}
    (harrivals : set.lookup view Metric.blockArrival.name = .ok arrivals)
    (htransactions : set.lookup view Metric.windowTransactions.name = .ok transactions)
    (hsystem : set.lookup view Metric.windowSystemTransactions.name = .ok system) :
    let ended := (computation view sample receivedAt).run set
    (∀ history ∈ arrived sample receivedAt, ∃ accumulator,
      set.lookup view history.1.name = .ok accumulator ∧
        ended.2.lookup view history.1.name = .ok (accumulator.insert history.2)) ∧
    ∀ error, ended.1 = .error error →
      ∃ metric ∈ rateMetrics, set.lookup view metric.name = .error error := by
  intro ended
  have hdistinct : Metric.windowTransactions.name ≠ Metric.blockArrival.name ∧
      Metric.windowSystemTransactions.name ≠ Metric.blockArrival.name ∧
      Metric.windowSystemTransactions.name ≠ Metric.windowTransactions.name := by decide
  have hother : ∀ metric ∈ rateMetrics, metric.name ≠ Metric.blockArrival.name ∧
      metric.name ≠ Metric.windowTransactions.name ∧
      metric.name ≠ Metric.windowSystemTransactions.name := by decide
  let first := set.modify Metric.blockArrival.name fun _ => arrivals.insert (ofTime receivedAt)
  let second := first.modify Metric.windowTransactions.name fun _ =>
    transactions.insert (ofWord sample.allTransactionCount)
  let third := second.modify Metric.windowSystemTransactions.name fun _ =>
    system.insert (ofWord sample.systemTransactionCount)
  have hfirst : first.lookup view Metric.windowTransactions.name = .ok transactions :=
    (set.lookup_modify_of_ne view hdistinct.1 _).trans htransactions
  have hsecond : second.lookup view Metric.windowSystemTransactions.name = .ok system :=
    (first.lookup_modify_of_ne view hdistinct.2.2 _).trans
      ((set.lookup_modify_of_ne view hdistinct.2.1 _).trans hsystem)
  let measured := rates sample (arrivals.insert (ofTime receivedAt))
    (transactions.insert (ofWord sample.allTransactionCount))
    (system.insert (ofWord sample.systemTransactionCount))
  let work := (measured.mapM fun rate : Metric × β => do
    return averaged rate.1 (ofWord sample.height) (← feed view rate.1 rate.2)).run third
  have hended : ended = (work.1.map List.flatten, work.2) := by
    show (computation view sample receivedAt).run set = _
    unfold computation
    rw [run_reach_bind harrivals, run_reach_bind htransactions, run_reach_bind hsystem,
      run_feed_bind harrivals, run_feed_bind hfirst, run_feed_bind hsecond, bind_pure_comp, run_map]
  obtain ⟨hkept, hfails⟩ := run_mapM_feed view measured (·.1) (·.2)
    (fun rate accumulator => averaged rate.1 (ofWord sample.height) accumulator) third
  have hlast : ∀ metric ∉ rateMetrics,
      ended.2.lookup view metric.name = third.lookup view metric.name := by
    intro metric hmetric
    rw [hended]
    exact hkept metric hmetric
  constructor
  · intro history hhistory
    simp only [arrived, List.mem_cons, List.not_mem_nil, or_false] at hhistory
    rcases hhistory with rfl | rfl | rfl
    · refine ⟨arrivals, harrivals, (hlast .blockArrival (by decide)).trans ?_⟩
      rw [second.lookup_modify_of_ne view hdistinct.2.1.symm,
        first.lookup_modify_of_ne view hdistinct.1.symm]
      exact lookup_modify harrivals _
    · refine ⟨transactions, htransactions, (hlast .windowTransactions (by decide)).trans ?_⟩
      rw [second.lookup_modify_of_ne view hdistinct.2.2.symm]
      exact lookup_modify hfirst _
    · refine ⟨system, hsystem, (hlast .windowSystemTransactions (by decide)).trans ?_⟩
      exact lookup_modify hsecond _
  · intro error herror
    have hwork : work.1 = .error error := by
      rw [hended] at herror
      exact error_of_map herror
    obtain ⟨rate, hrate, hmissing⟩ := hfails error hwork
    have hmetric : rate.1 ∈ rateMetrics := List.mem_map_of_mem hrate
    obtain ⟨harrival, htransaction, hsystem⟩ := hother rate.1 hmetric
    refine ⟨rate.1, hmetric, ?_⟩
    rwa [second.lookup_modify_of_ne view hsystem, first.lookup_modify_of_ne view htransaction,
      set.lookup_modify_of_ne view harrival] at hmissing

/-- However the group is wired, a sample is fed into all three window histories or into none: into none
if one of them is missing, and where all are there, only a missing rate can fail the group. -/
theorem run_computation (view : GroupKind) (sample : BlockSample) (receivedAt : Int64)
    (set : AccumulatorSet β) :
    let ended := (computation view sample receivedAt).run set
    (∃ error, (∃ history ∈ arrived (α := β) sample receivedAt,
        set.lookup view history.1.name = .error error) ∧ ended = (.error error, set)) ∨
      (∀ history ∈ arrived sample receivedAt, ∃ accumulator,
        set.lookup view history.1.name = .ok accumulator ∧
          ended.2.lookup view history.1.name = .ok (accumulator.insert history.2)) ∧
        ∀ error, ended.1 = .error error →
          ∃ metric ∈ rateMetrics, set.lookup view metric.name = .error error := by
  intro ended
  cases harrivals : set.lookup view Metric.blockArrival.name with
  | error error =>
    exact .inl ⟨error, ⟨_, List.mem_cons_self, harrivals⟩, run_reach_bind_of_error harrivals _⟩
  | ok arrivals =>
    cases htransactions : set.lookup view Metric.windowTransactions.name with
    | error error =>
      refine .inl ⟨error, ⟨_, List.mem_cons_of_mem _ List.mem_cons_self, htransactions⟩, ?_⟩
      exact (run_reach_bind harrivals _).trans (run_reach_bind_of_error htransactions _)
    | ok transactions =>
      cases hsystem : set.lookup view Metric.windowSystemTransactions.name with
      | error error =>
        have hmem : (.windowSystemTransactions, ofWord sample.systemTransactionCount) ∈
            arrived (α := β) sample receivedAt :=
          List.mem_cons_of_mem _ (List.mem_cons_of_mem _ List.mem_cons_self)
        refine .inl ⟨error, ⟨_, hmem, hsystem⟩, ?_⟩
        exact (run_reach_bind harrivals _).trans
          ((run_reach_bind htransactions _).trans (run_reach_bind_of_error hsystem _))
      | ok system => exact .inr (run_computation_of_found harrivals htransactions hsystem)

end NodeTelemetry.Group.Throughput
