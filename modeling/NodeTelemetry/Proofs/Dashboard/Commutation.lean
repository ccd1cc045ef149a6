import NodeTelemetry.Proofs.Dashboard.Consistency

/-!
Changes that do not get in each other's way. Batches about different names may be applied in either
order, and a batch that brings nothing along heights may be applied before a rollback or after it. Of
changes that may be swapped in this way every interleaving comes to the same.
-/

set_option autoImplicit false

namespace NodeTelemetry

open Scalar (ofWord)

/-! ### Interleavings -/

inductive Interleaving {β : Type} : List β → List β → List β → Prop where
  | nil : Interleaving [] [] []
  | left {x : β} {xs ys zs : List β} (h : Interleaving xs ys zs) :
      Interleaving (x :: xs) ys (x :: zs)
  | right {y : β} {xs ys zs : List β} (h : Interleaving xs ys zs) :
      Interleaving xs (y :: ys) (y :: zs)

namespace Interleaving

variable {β σ : Type} {step : σ → β → σ} {Kept : σ → Prop} {xs ys zs : List β}

private theorem foldl_step_comm {y : β}
    (hkept : ∀ state, Kept state → ∀ x ∈ xs, Kept (step state x))
    (hcomm : ∀ state, Kept state → ∀ x ∈ xs, step (step state y) x = step (step state x) y)
    {state : σ} (hstate : Kept state) :
    xs.foldl step (step state y) = step (xs.foldl step state) y := by
  induction xs generalizing state with
  | nil => rfl
  | cons x xs ih =>
    rw [List.foldl_cons, List.foldl_cons, hcomm state hstate x List.mem_cons_self]
    refine ih (fun own hown other hother => ?_) (fun own hown other hother => ?_) ?_
    · exact hkept own hown other (List.mem_cons_of_mem _ hother)
    · exact hcomm own hown other (List.mem_cons_of_mem _ hother)
    · exact hkept state hstate x List.mem_cons_self

/-- Where the steps of one list may be swapped with those of the other, every interleaving comes to the
first list followed by the second. -/
theorem foldl_eq (h : Interleaving xs ys zs)
    (hkept : ∀ state, Kept state → ∀ z ∈ xs ++ ys, Kept (step state z))
    (hcomm : ∀ state, Kept state → ∀ x ∈ xs, ∀ y ∈ ys,
      step (step state y) x = step (step state x) y)
    {state : σ} (hstate : Kept state) :
    zs.foldl step state = (xs ++ ys).foldl step state := by
  induction h generalizing state with
  | nil => rfl
  | @left x xs ys zs _ ih =>
    refine ih (fun own hown z hz => ?_) (fun own hown other hother => ?_) ?_
    · exact hkept own hown z (List.mem_cons_of_mem _ hz)
    · exact hcomm own hown other (List.mem_cons_of_mem _ hother)
    · exact hkept state hstate x List.mem_cons_self
  | @right y xs ys zs _ ih =>
    have hfirst : (y :: zs).foldl step state = (xs ++ ys).foldl step (step state y) := by
      refine ih (fun own hown z hz => ?_) (fun own hown x hx other hother => ?_) ?_
      · refine hkept own hown z ?_
        rcases List.mem_append.1 hz with hz | hz
        · exact List.mem_append_left _ hz
        · exact List.mem_append_right _ (List.mem_cons_of_mem _ hz)
      · exact hcomm own hown x hx other (List.mem_cons_of_mem _ hother)
      · exact hkept state hstate y (List.mem_append_right _ List.mem_cons_self)
    rw [hfirst, List.foldl_append, List.foldl_append, List.foldl_cons]
    refine congrArg (List.foldl step · ys) (foldl_step_comm (fun own hown x hx => ?_)
      (fun own hown x hx => hcomm own hown x hx y List.mem_cons_self) hstate)
    exact hkept own hown x (List.mem_append_left _ hx)

theorem filterMap_eq (h : Interleaving xs ys zs) {γ : Type} {f : β → Option γ}
    (hys : ∀ y ∈ ys, f y = none) : zs.filterMap f = xs.filterMap f := by
  induction h with
  | nil => rfl
  | left _ ih => rw [List.filterMap_cons, List.filterMap_cons, ih hys]
  | @right y _ ys _ _ ih =>
    rw [List.filterMap_cons_none (hys y List.mem_cons_self)]
    exact ih fun own hown => hys own (List.mem_cons_of_mem _ hown)

theorem countP_eq (h : Interleaving xs ys zs) (p : β → Bool) :
    zs.countP p = xs.countP p + ys.countP p := by
  induction h with
  | nil => rfl
  | left _ ih =>
    rw [List.countP_cons, List.countP_cons, ih]
    omega
  | right _ ih =>
    rw [List.countP_cons, List.countP_cons, ih]
    omega

end Interleaving

variable {α : Type} [Scalar α]

/-! ### Charts -/

namespace SeriesStore

private theorem insertAll_comm {first second : String → List (Point α)}
    (h : ∀ name, first name = [] ∨ second name = []) (store : SeriesStore α) :
    (store.insertAll first).insertAll second = (store.insertAll second).insertAll first := by
  rw [insertAll_insertAll, insertAll_insertAll]
  congr 1
  funext name
  rcases h name with hname | hname
  · rw [hname, List.append_nil, List.nil_append]
  · rw [hname, List.append_nil, List.nil_append]

variable {store : SeriesStore α} {points : String → List (Point α)} {axis : Axis}

private theorem truncate_insertAll (h : ∀ name chart, store.charts.get? name = some chart →
      chart.axis = axis → points name = []) (bound : α) :
    (store.insertAll points).truncate axis bound =
      (store.truncate axis bound).insertAll points := by
  simp only [truncate, insertAll, NameMap.map_map]
  refine congrArg mk (NameMap.map_congr fun name chart hchart => ?_)
  by_cases haxis : chart.axis = axis
  · rw [if_pos haxis, if_pos haxis, h name chart hchart haxis]
    rfl
  · rw [if_neg haxis, if_neg haxis]

private theorem beyond_insertAll (h : ∀ name chart, store.charts.get? name = some chart →
      chart.axis = axis → points name = []) (bound : α) :
    (store.insertAll points).beyond axis bound = store.beyond axis bound := by
  rw [beyond_eq_total, beyond_eq_total, insertAll, NameMap.total_map]
  refine NameMap.total_congr fun name chart hchart => ?_
  by_cases haxis : chart.axis = axis
  · rw [if_pos haxis, if_pos haxis, h name chart hchart haxis]
    rfl
  · rw [if_neg haxis, if_neg haxis]

private theorem readouts_congr {other : SeriesStore α} (h : ∀ metric ∈ Metric.alongHeights,
      store.charts.get? metric.name = other.charts.get? metric.name) :
    store.readouts = other.readouts := by
  refine List.filterMap_congr fun descriptor hdescriptor => ?_
  obtain ⟨hmem, hcharted⟩ := List.mem_filter.1 hdescriptor
  obtain ⟨metric, rfl⟩ := mem_catalogue_iff.1 hmem
  simp only [Bool.and_eq_true, decide_eq_true_eq] at hcharted
  have hchart := h metric (Metric.mem_alongHeights.2 hcharted.1)
  have hseries : store.series? metric.name = other.series? metric.name := by
    rw [series?, series?, hchart]
  have hpush := latest_congr (h .pushTime (by decide))
  rw [Metric.descriptor_name, hseries]
  simp only [reading, latest_congr hchart, hpush]

private theorem exists_metric_of_mem_readouts {readout : Readout α} (h : readout ∈ store.readouts) :
    ∃ metric ∈ Metric.alongHeights, readout.name = metric.name := by
  obtain ⟨descriptor, hmem, hcharted, haxis, hname⟩ := exists_descriptor_of_mem_readouts h
  obtain ⟨metric, rfl⟩ := mem_catalogue_iff.1 hmem
  rw [Metric.descriptor_name] at hname
  exact ⟨metric, Metric.mem_alongHeights.2 ⟨hcharted, haxis⟩, hname⟩

end SeriesStore

/-! ### Dashboards -/

attribute [ext] Dashboard

namespace Dashboard

omit [Scalar α] in
private theorem overlay_comm {first second : List (Readout α)}
    (h : ∀ own ∈ first, ∀ other ∈ second, own.name ≠ other.name) (shown : NameMap (Readout α)) :
    overlay first (overlay second shown) = overlay second (overlay first shown) := by
  refine NameMap.ext_get? fun name => ?_
  rw [get?_overlay, get?_overlay, get?_overlay, get?_overlay]
  by_cases hfirst : ∃ own ∈ first, own.name = name
  · obtain ⟨own, hown, rfl⟩ := hfirst
    have hsecond : Readout.latest? own.name second = none :=
      Readout.latest?_eq_none fun other hother => (h own hown other hother).symm
    rw [hsecond, Option.none_or, Option.none_or]
  · have hnone : Readout.latest? name first = none :=
      Readout.latest?_eq_none fun own hown hname => hfirst ⟨own, hown, hname⟩
    rw [hnone, Option.none_or, Option.none_or]

theorem apply_comm {first second : Batch α} (hfirst : first.blockHeight? = none)
    (h : ∀ own ∈ first.updates, ∀ other ∈ second.updates, own.subject ≠ other.subject)
    (dashboard : Dashboard α) :
    (dashboard.apply first).apply second = (dashboard.apply second).apply first := by
  have hpoints : ∀ name, first.pointsFor name = [] ∨ second.pointsFor name = [] := by
    intro name
    by_cases hname : ∃ own ∈ first.updates, own.subject = name
    · obtain ⟨own, hown, rfl⟩ := hname
      exact .inr (Batch.pointsFor_eq_nil fun other hother => (h own hown other hother).symm)
    · exact .inl (Batch.pointsFor_eq_nil fun own hown hsubject => hname ⟨own, hown, hsubject⟩)
  have hreadouts : ∀ other ∈ second.readouts, ∀ own ∈ first.readouts, other.name ≠ own.name := by
    intro other hother own hown hname
    obtain ⟨update, hupdate, hsubject⟩ := Batch.exists_subject_of_readout hother
    obtain ⟨mine, hmine, hsame⟩ := Batch.exists_subject_of_readout hown
    exact h mine hmine update hupdate (hsame.trans (hname.symm.trans hsubject.symm))
  ext1
  · rw [series_apply, series_apply, series_apply, series_apply, SeriesStore.insertAll_comm hpoints]
  · rw [readouts_apply, readouts_apply, readouts_apply, readouts_apply, overlay_comm hreadouts]
  · rw [lastHeight_apply, lastHeight_apply, lastHeight_apply, lastHeight_apply,
      heightAfter_of_other hfirst, heightAfter_of_other hfirst]
  · rw [commits_apply, commits_apply, commits_apply, commits_apply]

def OverCatalogue (dashboard : Dashboard α) : Prop :=
  dashboard.series.charts.map (fun _ chart => chart.axis) = SeriesStore.chartAxes

omit [Scalar α] in
theorem overCatalogue_empty (sizes : HistorySizes) :
    (Dashboard.empty (.ofDescriptors catalogue sizes) : Dashboard α).OverCatalogue :=
  (SeriesStore.aligned_ofDescriptors sizes).axes

namespace OverCatalogue

variable {dashboard : Dashboard α}

theorem apply (h : dashboard.OverCatalogue) (batch : Batch α) :
    (dashboard.apply batch).OverCatalogue := by
  rw [OverCatalogue, series_apply, SeriesStore.insertAll, NameMap.map_map]
  exact h

theorem truncate (h : dashboard.OverCatalogue) (height : UInt64) :
    (dashboard.truncate height).1.OverCatalogue := by
  rw [OverCatalogue, series_truncate, SeriesStore.truncate, NameMap.map_map, ← h]
  refine NameMap.map_congr fun name chart _ => ?_
  split <;> rfl

omit [Scalar α] in
private theorem exists_metric (h : dashboard.OverCatalogue) {name : String} {chart : Chart α}
    (hchart : dashboard.series.charts.get? name = some chart) (haxis : chart.axis = .height) :
    ∃ metric ∈ Metric.alongHeights, metric.name = name := by
  have hname : SeriesStore.chartAxes.get? name = some .height := by
    rw [← h, NameMap.get?_map, hchart, ← haxis]
    rfl
  obtain ⟨metric, hmetric, hcharted, hheight⟩ := SeriesStore.exists_metric_of_chartAxes hname
  exact ⟨metric, Metric.mem_alongHeights.2 ⟨hcharted, hheight⟩, hmetric⟩

end OverCatalogue

theorem truncate_apply {dashboard : Dashboard α} (h : dashboard.OverCatalogue) {batch : Batch α}
    (hbatch : batch.Neutral) (height : UInt64) :
    (dashboard.apply batch).truncate height =
      ((dashboard.truncate height).1.apply batch, (dashboard.truncate height).2) := by
  have hnone : ∀ name chart, dashboard.series.charts.get? name = some chart →
      chart.axis = .height → batch.pointsFor name = [] := by
    intro name chart hchart haxis
    obtain ⟨metric, hmetric, rfl⟩ := h.exists_metric hchart haxis
    exact hbatch.points metric hmetric
  have hseries : (dashboard.apply batch).series.truncate .height (ofWord height) =
      (dashboard.series.truncate .height (ofWord height)).insertAll fun name =>
        batch.pointsFor name := by
    rw [series_apply, SeriesStore.truncate_insertAll hnone]
  have hremoved : (dashboard.apply batch).series.beyond .height (ofWord height) =
      dashboard.series.beyond .height (ofWord height) := by
    rw [series_apply, SeriesStore.beyond_insertAll hnone]
  have htold : ((dashboard.series.truncate .height (ofWord height)).insertAll fun name =>
      batch.pointsFor name).readouts =
        (dashboard.series.truncate .height (ofWord height)).readouts := by
    refine SeriesStore.readouts_congr fun metric hmetric => ?_
    rw [SeriesStore.get?_insertAll, hbatch.points metric hmetric]
    exact Option.map_id'
  -- the readouts given anew are those of the charts along heights, which the batch does not have
  have hrebuilt : (if dashboard.series.beyond .height (ofWord height) = 0 then [] else
      ((dashboard.apply batch).series.truncate .height (ofWord height)).readouts) =
        (dashboard.truncate height).2.readouts := by
    rw [hseries, htold]
    rfl
  have hnames : ∀ own ∈ (dashboard.truncate height).2.readouts, ∀ other ∈ batch.readouts,
      own.name ≠ other.name := by
    intro own hown other hother hname
    have hmem : own ∈ (dashboard.series.truncate .height (ofWord height)).readouts := by
      simp only [Dashboard.truncate] at hown
      split at hown
      · cases hown
      · exact hown
    obtain ⟨metric, hmetric, hsubject⟩ := SeriesStore.exists_metric_of_mem_readouts hmem
    exact hbatch.readouts metric hmetric other hother (hname.symm.trans hsubject)
  have hlast : (dashboard.apply batch).lastHeight = dashboard.lastHeight := by
    rw [lastHeight_apply, heightAfter_of_other hbatch.blockHeight]
  refine Prod.ext (Dashboard.ext ?_ ?_ ?_ ?_) ?_
  · rw [series_truncate, hseries, series_apply, series_truncate]
  · rw [readouts_apply, Dashboard.truncate, hremoved, hrebuilt, readouts_apply]
    exact overlay_comm hnames dashboard.readouts
  · rw [lastHeight_apply, heightAfter_of_other hbatch.blockHeight, Dashboard.truncate, hlast]
    rfl
  · rw [commits_apply]
    exact commits_apply dashboard batch
  · rw [Dashboard.truncate, hremoved, hrebuilt]
    rfl

end Dashboard

end NodeTelemetry
