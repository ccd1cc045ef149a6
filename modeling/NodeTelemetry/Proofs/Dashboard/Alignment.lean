import NodeTelemetry.Proofs.Dashboard.Rollback
import NodeTelemetry.Proofs.Group.Block

/-!
Aligned charts. Where a point goes, and what a cut takes away, depends only on the places of the points
in a series. So charts of one axis that start empty and are given points at the same places keep their
points at the same places, and lose equally many of them to every cut.
-/

set_option autoImplicit false

namespace NodeTelemetry

variable {α : Type}

/-! ### The places of one series -/

namespace Series

def places (series : Series α) : List α := series.points.map (·.x)

variable [Scalar α]

def placed (capacity : Nat) (x : α) : List α → List α
  | [] => [x].take capacity
  | newest :: older =>
    if Scalar.lt x newest then newest :: older
    else if Scalar.same x newest then newest :: older
    else (x :: newest :: older).take capacity

theorem placed_eq_or (capacity : Nat) (x : α) (places : List α) :
    placed capacity x places = places ∨ placed capacity x places = (x :: places).take capacity := by
  unfold placed
  cases places with
  | nil => exact .inr rfl
  | cons newest older =>
    simp only
    split
    · exact .inl rfl
    · split
      · exact .inl rfl
      · exact .inr rfl

theorem places_insert (series : Series α) (x y : α) :
    (series.insert x y).1.places = placed series.capacity x series.places := by
  cases hpoints : series.points with
  | nil => simp [insert, places, placed, push, hpoints]
  | cons newest older =>
    by_cases hlt : Scalar.lt x newest.x = true
    · simp [insert, places, placed, hpoints, hlt]
    · by_cases hsame : Scalar.same x newest.x = true
      · simp [insert, places, placed, hpoints, hlt, hsame]
      · simp [insert, places, placed, push, hpoints, hlt, hsame]

private theorem capacity_insertAll (series : Series α) (points : List (Point α)) :
    (series.insertAll points).capacity = series.capacity := by
  induction points generalizing series with
  | nil => rfl
  | cons point points ih =>
    exact (ih (series.insert point.x point.y).1).trans (insert_capacity series point.x point.y)

private theorem places_insertAll (series : Series α) (points : List (Point α)) :
    (series.insertAll points).places =
      (points.map (·.x)).foldl (fun places x => placed series.capacity x places) series.places := by
  induction points generalizing series with
  | nil => rfl
  | cons point points ih =>
    have hrest := ih (series.insert point.x point.y).1
    rw [insert_capacity, places_insert] at hrest
    exact hrest

theorem places_truncate (series : Series α) (bound : α) :
    (series.truncate bound).places = series.places.dropWhile fun x => !Scalar.le x bound := by
  rw [places, places, truncate, List.dropWhile_map]
  rfl

theorem size_truncate (series : Series α) (bound : α) :
    series.size = series.beyond bound + (series.truncate bound).size := by
  have hle : (series.truncate bound).points.length ≤ series.points.length :=
    (List.dropWhile_suffix _).length_le
  rw [size, beyond, size]
  omega

private theorem beyond_eq (series : Series α) (bound : α) :
    series.beyond bound = series.places.length -
      (series.places.dropWhile fun x => !Scalar.le x bound).length := by
  rw [← places_truncate, places, places, List.length_map, List.length_map]
  rfl

end Series

/-! ### The charts and their axes -/

namespace NameMap

variable {β γ : Type}

private theorem insertEntry_map (f : β → γ) (name : String) (value : β)
    (entries : List (String × β)) :
    (insertEntry name value entries).map (fun entry => (entry.1, f entry.2)) =
      insertEntry name (f value) (entries.map fun entry => (entry.1, f entry.2)) := by
  induction entries with
  | nil => rfl
  | cons entry rest ih =>
    rw [List.map_cons, insertEntry, insertEntry]
    split
    · rfl
    · split
      · rfl
      · rw [List.map_cons, ih]

private theorem map_insert (f : β → γ) (m : NameMap β) (name : String) (value : β) :
    (m.insert name value).map (fun _ value => f value) =
      (m.map fun _ value => f value).insert name (f value) :=
  eq_of_toList (insertEntry_map f name value m.toList)

private theorem map_ofList (f : β → γ) (entries : List (String × β)) :
    (ofList entries).map (fun _ value => f value) =
      ofList (entries.map fun entry => (entry.1, f entry.2)) := by
  have hfold : ∀ m : NameMap β,
      (entries.foldl (fun map entry => map.insert entry.1 entry.2) m).map (fun _ value => f value) =
        (entries.map fun entry => (entry.1, f entry.2)).foldl
          (fun map entry => map.insert entry.1 entry.2) (m.map fun _ value => f value) := by
    induction entries with
    | nil => exact fun m => rfl
    | cons entry entries ih =>
      intro m
      have hrest := ih (m.insert entry.1 entry.2)
      rw [map_insert] at hrest
      exact hrest
  exact hfold empty

private theorem total_ite (p : β → Bool) (n : Nat) (m : NameMap β) :
    (m.total fun _ value => if p value then n else 0) =
      n * (m.toList.filter fun entry => p entry.2).length := by
  rw [total]
  induction m.toList with
  | nil => rfl
  | cons entry entries ih =>
    rw [List.map_cons, List.sum_cons, ih, List.filter_cons]
    by_cases h : p entry.2 = true
    · rw [if_pos h, if_pos h, List.length_cons, Nat.mul_succ, Nat.add_comm]
    · rw [if_neg h, if_neg h, Nat.zero_add]

end NameMap

def Metric.alongTime : List Metric :=
  all.filter fun metric => metric.descriptor.charted && metric.descriptor.axis = .timestamp

theorem Metric.mem_alongTime {metric : Metric} :
    metric ∈ alongTime ↔ metric.descriptor.charted = true ∧ metric.descriptor.axis = .timestamp := by
  simp [alongTime, mem_all]

theorem Metric.alongTime_eq : alongTime = [uploadSpeed, downloadSpeed, uploadVolume, downloadVolume] := by
  decide

namespace SeriesStore

theorem series?_of_get? {store : SeriesStore α} {name : String} {axis : Axis} {series : Series α}
    (h : store.charts.get? name = some ⟨axis, series⟩) : store.series? name = some series := by
  rw [series?, h]
  rfl

def chartAxes : NameMap Axis :=
  .ofList ((catalogue.filter (·.charted)).map fun d => (d.name, d.axis))

private theorem get?_chartAxes {metric : Metric} (h : metric.descriptor.charted = true) :
    chartAxes.get? metric.name = some metric.descriptor.axis := by
  have hmem : metric.descriptor ∈ catalogue.filter (·.charted) :=
    List.mem_filter.2 ⟨mem_catalogue metric, h⟩
  have hfound := NameMap.get?_ofList_of_mem (fun d : Descriptor => d.axis)
    (fun a ha b hb => eq_of_name_eq (List.mem_filter.1 ha).1 (List.mem_filter.1 hb).1) hmem
  rwa [Metric.descriptor_name] at hfound

theorem exists_metric_of_chartAxes {name : String} {axis : Axis}
    (h : chartAxes.get? name = some axis) :
    ∃ metric : Metric, metric.name = name ∧ metric.descriptor.charted = true ∧
      metric.descriptor.axis = axis := by
  have hmem := chartAxes.get?_eq_some_iff.1 h
  have hall : ∀ entry ∈ chartAxes.toList, ∃ metric ∈ Metric.all, metric.name = entry.1 ∧
      metric.descriptor.charted = true ∧ metric.descriptor.axis = entry.2 := by
    decide +kernel
  obtain ⟨metric, -, hmetric⟩ := hall (name, axis) hmem
  exact ⟨metric, hmetric⟩

private theorem length_height_chartAxes :
    (chartAxes.toList.filter fun entry => entry.2 = Axis.height).length =
      Metric.alongHeights.length := by
  decide +kernel

private theorem charts_ofDescriptors (sizes : HistorySizes) :
    (ofDescriptors catalogue sizes : SeriesStore α).charts =
      chartAxes.map fun _ axis => ⟨axis, .empty (sizes.along axis)⟩ := by
  rw [chartAxes, NameMap.map_ofList fun axis => (⟨axis, .empty (sizes.along axis)⟩ : Chart α),
    List.map_map]
  rfl

structure Aligned (sizes : HistorySizes) (places : Axis → List α) (store : SeriesStore α) : Prop where
  axes : store.charts.map (fun _ chart => chart.axis) = chartAxes
  capacity : ∀ name chart, store.charts.get? name = some chart →
    chart.series.capacity = sizes.along chart.axis
  places : ∀ name chart, store.charts.get? name = some chart →
    chart.series.places = places chart.axis

variable {sizes : HistorySizes} {places : Axis → List α} {store : SeriesStore α}

theorem aligned_ofDescriptors (sizes : HistorySizes) :
    (ofDescriptors catalogue sizes : SeriesStore α).Aligned sizes fun _ => [] := by
  constructor
  · rw [charts_ofDescriptors, NameMap.map_map]
    exact chartAxes.map_id
  · intro name chart hchart
    rw [charts_ofDescriptors, NameMap.get?_map] at hchart
    obtain ⟨axis, -, rfl⟩ := Option.map_eq_some_iff.1 hchart
    rfl
  · intro name chart hchart
    rw [charts_ofDescriptors, NameMap.get?_map] at hchart
    obtain ⟨axis, -, rfl⟩ := Option.map_eq_some_iff.1 hchart
    rfl

namespace Aligned

private theorem axis_of_get? (h : store.Aligned sizes places) {name : String} {chart : Chart α}
    (hchart : store.charts.get? name = some chart) : chartAxes.get? name = some chart.axis := by
  rw [← h.axes, NameMap.get?_map, hchart]
  rfl

theorem exists_series (h : store.Aligned sizes places) {metric : Metric}
    (hcharted : metric.descriptor.charted = true) :
    ∃ series, store.charts.get? metric.name = some ⟨metric.descriptor.axis, series⟩ ∧
      series.capacity = sizes.along metric.descriptor.axis ∧
      series.places = places metric.descriptor.axis := by
  have haxis := get?_chartAxes hcharted
  rw [← h.axes, NameMap.get?_map] at haxis
  obtain ⟨⟨axis, series⟩, hchart, rfl⟩ := Option.map_eq_some_iff.1 haxis
  exact ⟨series, hchart, h.capacity metric.name _ hchart, h.places metric.name _ hchart⟩

variable [Scalar α]

theorem insertAll (h : store.Aligned sizes places) {points : String → List (Point α)}
    {given : Axis → List α} (hpoints : ∀ name axis, chartAxes.get? name = some axis →
      (points name).map (·.x) = given axis) :
    (store.insertAll points).Aligned sizes fun axis =>
      (given axis).foldl (fun places x => Series.placed (sizes.along axis) x places)
        (places axis) := by
  constructor
  · rw [SeriesStore.insertAll, NameMap.map_map]
    exact h.axes
  · intro name chart hchart
    rw [get?_insertAll] at hchart
    obtain ⟨before, hbefore, rfl⟩ := Option.map_eq_some_iff.1 hchart
    rw [Series.capacity_insertAll]
    exact h.capacity name before hbefore
  · intro name chart hchart
    rw [get?_insertAll] at hchart
    obtain ⟨before, hbefore, rfl⟩ := Option.map_eq_some_iff.1 hchart
    rw [Series.places_insertAll, hpoints name _ (h.axis_of_get? hbefore),
      h.capacity name before hbefore, h.places name before hbefore]

theorem truncate (h : store.Aligned sizes places) (axis : Axis) (bound : α) :
    (store.truncate axis bound).Aligned sizes fun own =>
      if own = axis then (places own).dropWhile fun x => !Scalar.le x bound else places own := by
  constructor
  · rw [SeriesStore.truncate, NameMap.map_map, ← h.axes]
    refine NameMap.map_congr fun name chart _ => ?_
    split <;> rfl
  · intro name chart hchart
    rw [get?_truncate] at hchart
    obtain ⟨before, hbefore, rfl⟩ := Option.map_eq_some_iff.1 hchart
    have hcapacity := h.capacity name before hbefore
    split <;> exact hcapacity
  · intro name chart hchart
    rw [get?_truncate] at hchart
    obtain ⟨before, hbefore, rfl⟩ := Option.map_eq_some_iff.1 hchart
    have hplaces := h.places name before hbefore
    by_cases haxis : before.axis = axis
    · rw [if_pos haxis]
      simp only [if_pos haxis]
      rw [Series.places_truncate, hplaces]
    · rw [if_neg haxis]
      simp only [if_neg haxis]
      exact hplaces

theorem beyond_height (h : store.Aligned sizes places) (bound : α) :
    ∃ cut, (∀ metric ∈ Metric.alongHeights, ∃ series,
        store.charts.get? metric.name = some ⟨.height, series⟩ ∧ series.beyond bound = cut) ∧
      store.beyond .height bound = cut * Metric.alongHeights.length := by
  let kept := (places .height).dropWhile fun x => !Scalar.le x bound
  refine ⟨(places .height).length - kept.length, fun metric hmetric => ?_, ?_⟩
  · obtain ⟨hcharted, haxis⟩ := Metric.mem_alongHeights.1 hmetric
    obtain ⟨series, hseries, -, hplaces⟩ := h.exists_series hcharted
    rw [haxis] at hseries hplaces
    refine ⟨series, hseries, ?_⟩
    rw [Series.beyond_eq, hplaces]
  · calc
      store.beyond .height bound = store.charts.total fun _ chart =>
          if chart.axis = .height then (places .height).length - kept.length else 0 := by
        rw [beyond_eq_total]
        refine NameMap.total_congr fun name chart hchart => ?_
        by_cases haxis : chart.axis = .height
        · rw [if_pos haxis, if_pos haxis, Series.beyond_eq, h.places name chart hchart, haxis]
        · rw [if_neg haxis, if_neg haxis]
      _ = chartAxes.total fun _ axis =>
          if decide (axis = .height) then (places .height).length - kept.length else 0 := by
        rw [← h.axes, NameMap.total_map]
        simp only [decide_eq_true_eq]
      _ = ((places .height).length - kept.length) * Metric.alongHeights.length := by
        rw [NameMap.total_ite (fun axis => decide (axis = Axis.height)), length_height_chartAxes]

end Aligned

end SeriesStore

end NodeTelemetry
