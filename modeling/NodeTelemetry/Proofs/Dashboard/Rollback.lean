import NodeTelemetry.Proofs.Dashboard.Run
import NodeTelemetry.Proofs.Scalar.FloatOrder

/-!
Rollbacks. Cutting the charts back to a height undoes the batches whose points lie beyond it, except
that the points which they have pushed out of full charts do not come back.
-/

set_option autoImplicit false

namespace NodeTelemetry

open Scalar (LawfulOrder ofWord)

variable {α : Type} [Scalar α]

/-! ### Charts -/

namespace SeriesStore

theorem get?_truncate (store : SeriesStore α) (axis : Axis) (bound : α) (name : String) :
    (store.truncate axis bound).charts.get? name = (store.charts.get? name).map fun chart =>
      if chart.axis = axis then { chart with series := chart.series.truncate bound } else chart :=
  NameMap.get?_map _ _ _

theorem beyond_eq_total (store : SeriesStore α) (axis : Axis) (bound : α) :
    store.beyond axis bound = store.charts.total fun _ chart =>
      if chart.axis = axis then chart.series.beyond bound else 0 := by
  rw [beyond, NameMap.values, NameMap.total]
  induction store.charts.toList with
  | nil => rfl
  | cons entry entries ih =>
    rw [List.map_cons, List.foldr_cons, ih, List.map_cons, List.sum_cons]
    by_cases h : entry.2.axis = axis
    · rw [if_pos h, if_pos h]
    · rw [if_neg h, if_neg h, Nat.zero_add]

theorem exists_descriptor_of_mem_readouts {store : SeriesStore α} {readout : Readout α}
    (h : readout ∈ store.readouts) :
    ∃ descriptor ∈ catalogue, descriptor.charted = true ∧ descriptor.axis = .height ∧
      readout.name = descriptor.name := by
  obtain ⟨descriptor, hdescriptor, hreadout⟩ := List.mem_filterMap.1 h
  obtain ⟨hmem, hcharted⟩ := List.mem_filter.1 hdescriptor
  obtain ⟨series, -, rfl⟩ := Option.map_eq_some_iff.1 hreadout
  simp only [Bool.and_eq_true, decide_eq_true_eq] at hcharted
  exact ⟨descriptor, hmem, hcharted.1.1, hcharted.1.2, Readout.render_name _ _⟩

end SeriesStore

/-! ### Dashboards -/

namespace Dashboard

/-- The charts along heights are within their capacities and reach at most a height. -/
def SettledAt (dashboard : Dashboard α) (height : UInt64) : Prop :=
  ∀ name chart, dashboard.series.charts.get? name = some chart → chart.axis = .height →
    chart.series.size ≤ chart.series.capacity ∧
      ∀ point ∈ chart.series.points, Scalar.le point.x (ofWord height) = true

/-- All points that batches bring for the charts along heights lie beyond a height. -/
def OrphanedBeyond (dashboard : Dashboard α) (height : UInt64) (batches : List (Batch α)) : Prop :=
  ∀ name chart, dashboard.series.charts.get? name = some chart → chart.axis = .height →
    ∀ point ∈ batches.flatMap (Batch.pointsFor name), Scalar.lt (ofWord height) point.x = true

/-- The number of points that batches append to the series of a name; neither those that replace
another point nor those that are dropped count. -/
def appendedTo (name : String) (series : Series α) (batches : List (Batch α)) : Nat :=
  series.appended (batches.flatMap (Batch.pointsFor name))

theorem series_truncate (dashboard : Dashboard α) (height : UInt64) :
    (dashboard.truncate height).1.series = dashboard.series.truncate .height (ofWord height) :=
  rfl

theorem removed_truncate (dashboard : Dashboard α) (height : UInt64) :
    (dashboard.truncate height).2.removed = dashboard.series.beyond .height (ofWord height) :=
  rfl

theorem readouts_truncate_of_timestamp (dashboard : Dashboard α) (height : UInt64)
    {descriptor : Descriptor} (hmem : descriptor ∈ catalogue) (haxis : descriptor.axis = .timestamp) :
    (dashboard.truncate height).1.readouts.get? descriptor.name =
      dashboard.readouts.get? descriptor.name := by
  have hnone : ∀ store : SeriesStore α,
      Readout.latest? descriptor.name store.readouts = none := by
    intro store
    refine Readout.latest?_eq_none fun readout hreadout hname => ?_
    obtain ⟨other, hother, -, hheight, hrendered⟩ :=
      SeriesStore.exists_descriptor_of_mem_readouts hreadout
    have hsame : descriptor.name = other.name := hname.symm.trans hrendered
    rw [eq_of_name_eq hmem hother hsame, hheight] at haxis
    exact Axis.noConfusion haxis
  rw [truncate, get?_overlay]
  by_cases hremoved : dashboard.series.beyond .height (ofWord height) = 0
  · rw [if_pos hremoved]
    rfl
  · rw [if_neg hremoved, hnone, Option.none_or]

variable [LawfulOrder α] {dashboard : Dashboard α} {height : UInt64} {batches : List (Batch α)}

private theorem extends_applyAll (hsettled : dashboard.SettledAt height)
    (horphaned : dashboard.OrphanedBeyond height batches) {name : String} {chart : Chart α}
    (hchart : dashboard.series.charts.get? name = some chart) (haxis : chart.axis = .height) :
    chart.series.Extends (ofWord height) (appendedTo name chart.series batches)
      (chart.series.insertAll (batches.flatMap (Batch.pointsFor name))) := by
  obtain ⟨hroom, hbelow⟩ := hsettled name chart hchart haxis
  exact (Series.extends_refl _ hroom).insertAll hbelow (horphaned name chart hchart haxis)

private theorem chart_truncate_applyAll (hsettled : dashboard.SettledAt height)
    (horphaned : dashboard.OrphanedBeyond height batches) {name : String} {chart : Chart α}
    (hchart : dashboard.series.charts.get? name = some chart) (haxis : chart.axis = .height) :
    ((dashboard.applyAll batches).truncate height).1.series.charts.get? name =
      some { chart with
        series := chart.series.dropOldest (chart.series.lostTo
          (appendedTo name chart.series batches)) } := by
  have hextends := extends_applyAll hsettled horphaned hchart haxis
  obtain ⟨-, hbelow⟩ := hsettled name chart hchart haxis
  rw [series_truncate, SeriesStore.get?_truncate, series_applyAll, SeriesStore.get?_insertAll, hchart,
    Option.map_some, Option.map_some, if_pos haxis, (hextends.truncate hbelow).1,
    ← Series.dropOldest_lostTo]
  rfl

private theorem removed_truncate_applyAll (hsettled : dashboard.SettledAt height)
    (horphaned : dashboard.OrphanedBeyond height batches) :
    ((dashboard.applyAll batches).truncate height).2.removed =
      dashboard.series.charts.total fun name chart =>
        if chart.axis = .height then
          min (appendedTo name chart.series batches) chart.series.capacity
        else 0 := by
  rw [removed_truncate, SeriesStore.beyond_eq_total, series_applyAll, SeriesStore.insertAll,
    NameMap.total_map]
  refine NameMap.total_congr fun name chart hchart => ?_
  by_cases haxis : chart.axis = .height
  · have hextends := extends_applyAll hsettled horphaned hchart haxis
    obtain ⟨-, hbelow⟩ := hsettled name chart hchart haxis
    rw [if_pos haxis, if_pos haxis, (hextends.truncate hbelow).2]
  · rw [if_neg haxis, if_neg haxis]

/-- A rollback undoes exactly the orphaned batches: each chart along heights loses only the oldest
points, those that the appended ones have pushed out; the points removed are the appended ones that were
still there; and everything else stays as it was. -/
theorem truncate_applyAll (hsettled : dashboard.SettledAt height)
    (horphaned : dashboard.OrphanedBeyond height batches) :
    let before := dashboard.applyAll batches
    let after := (before.truncate height).1
    let removed := (before.truncate height).2.removed
    (∀ name chart, dashboard.series.charts.get? name = some chart → chart.axis = .height →
      let m := appendedTo name chart.series batches
      let kept := chart.series.dropOldest (chart.series.lostTo m)
      after.series.charts.get? name = some { chart with series := kept } ∧
      (chart.series.size + m ≤ chart.series.capacity →
        after.series.charts.get? name = some chart) ∧
      ∃ recent, recent.length = min m chart.series.capacity ∧
        (∀ point ∈ recent, Scalar.lt (ofWord height) point.x = true) ∧
        (before.series.series? name).map (·.points) = some (recent ++ kept.points)) ∧
    (removed = dashboard.series.charts.total fun name chart =>
      if chart.axis = .height then
        min (appendedTo name chart.series batches) chart.series.capacity
      else 0) ∧
    (∀ name chart, before.series.charts.get? name = some chart → chart.axis = .timestamp →
      after.series.charts.get? name = some chart) ∧
    (∀ descriptor ∈ catalogue, descriptor.group = .network ∨ descriptor.group = .queue →
      after.readouts.get? descriptor.name = before.readouts.get? descriptor.name) ∧
    after.commits = before.commits := by
  intro before after removed
  refine ⟨fun name chart hchart haxis => ?_, removed_truncate_applyAll hsettled horphaned,
    fun name chart hchart haxis => ?_, fun descriptor hmem hgroup => ?_, rfl⟩
  · intro m kept
    have hcut : after.series.charts.get? name = some { chart with series := kept } :=
      chart_truncate_applyAll hsettled horphaned hchart haxis
    refine ⟨hcut, fun hfits => ?_, ?_⟩
    · have hnone : chart.series.lostTo m = 0 := by
        unfold Series.lostTo
        omega
      rw [hcut]
      simp [kept, hnone, Series.dropOldest, Series.size]
    · obtain ⟨recent, hpoints, hlength, hrecent⟩ :=
        (extends_applyAll hsettled horphaned hchart haxis).split
      refine ⟨recent, hlength, hrecent, ?_⟩
      have hkept : kept.points = chart.series.points.take (chart.series.capacity - m) :=
        chart.series.dropOldest_lostTo m
      rw [SeriesStore.series?, series_applyAll, SeriesStore.get?_insertAll, hchart, hkept]
      exact congrArg some hpoints
  · have hne : chart.axis ≠ .height := by
      rw [haxis]
      exact Axis.noConfusion
    rw [series_truncate, SeriesStore.get?_truncate, hchart, Option.map_some, if_neg hne]
  · exact readouts_truncate_of_timestamp before height hmem
      ((axis_eq_timestamp_iff hmem).2 hgroup)

/-- The chart is full, so the older of its two points is lost; of the four points that are brought one
replaces another and one is dropped. -/
theorem truncate_applyAll_full :
    let full : Dashboard Float :=
      ⟨⟨.ofList [("push_time", ⟨.height, ⟨3, [⟨2, 20⟩, ⟨1, 10⟩]⟩⟩),
        ("upload_speed", ⟨.timestamp, ⟨2, []⟩⟩)]⟩, ∅, some 2, 2⟩
    let batches : List (Batch Float) :=
      [⟨.block 4, [.point "push_time" 4 40]⟩,
        ⟨.network 1000, [.point "upload_speed" 1000 7, .readout ⟨"upload_speed", 7, 7, "7"⟩]⟩,
        ⟨.block 5, [.point "push_time" 5 50]⟩, ⟨.block 4, [.point "push_time" 4 41]⟩,
        ⟨.block 5, [.point "push_time" 5 51]⟩]
    let truncated := (full.applyAll batches).truncate 2
    (truncated.1.series.charts.get? "push_time").map (·.series.points.map (·.y)) = some [20] ∧
      truncated.2.removed = 2 ∧ truncated.1.commits = 7 := by
  intro full batches truncated
  have hlist : full.series.charts.toList =
      [("push_time", ⟨.height, ⟨3, [⟨2, 20⟩, ⟨1, 10⟩]⟩⟩),
        ("upload_speed", ⟨.timestamp, ⟨2, []⟩⟩)] := rfl
  have honly : ∀ name chart, full.series.charts.get? name = some chart → chart.axis = .height →
      name = "push_time" ∧ chart = ⟨.height, ⟨3, [⟨2, 20⟩, ⟨1, 10⟩]⟩⟩ := by
    intro name chart hchart haxis
    have hmem := full.series.charts.get?_eq_some_iff.1 hchart
    rw [hlist] at hmem
    simp only [List.mem_cons, Prod.mk.injEq, List.not_mem_nil, or_false] at hmem
    rcases hmem with h | ⟨-, rfl⟩
    · exact h
    · exact Axis.noConfusion haxis
  have hsettled : full.SettledAt 2 := by
    intro name chart hchart haxis
    obtain ⟨-, rfl⟩ := honly name chart hchart haxis
    decide +kernel
  have horphaned : full.OrphanedBeyond 2 batches := by
    intro name chart hchart haxis
    obtain ⟨rfl, -⟩ := honly name chart hchart haxis
    decide +kernel
  obtain ⟨hcharts, hremoved, -, -, hcommits⟩ := truncate_applyAll hsettled horphaned
  refine ⟨?_, hremoved.trans ?_, hcommits.trans ?_⟩
  · rw [(hcharts "push_time" _ rfl rfl).1]
    rfl
  · decide +kernel
  · decide +kernel

end Dashboard

end NodeTelemetry
