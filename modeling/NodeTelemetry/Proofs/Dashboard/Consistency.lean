import NodeTelemetry.Proofs.Dashboard.Alignment
import NodeTelemetry.Proofs.Dashboard.Chronicle
import NodeTelemetry.Proofs.Scalar.FloatWords

/-!
Consistent dashboards. As long as no block comes in below the latest one on display, the charts along
heights never go back, none of their points lies beyond the latest height, and every stored readout has
the value that the charts tell; rollbacks keep all of this.
-/

set_option autoImplicit false

namespace NodeTelemetry

open Scalar (LawfulOrder LawfulWords ofWord)

variable {α : Type} [Scalar α]

/-! ### Series that never go back -/

namespace Series

structure Climbs (top : α) (series : Series α) : Prop where
  forward : series.places.Pairwise fun newer older => Scalar.le older newer = true
  below : ∀ place ∈ series.places, Scalar.le place top = true

variable {series : Series α} {top x : α}

private theorem climbs_of_empty (h : series.points = []) (top : α) : series.Climbs top := by
  have hplaces : series.places = [] := congrArg (List.map Point.x) h
  constructor
  · rw [hplaces]
    exact .nil
  · rw [hplaces]
    exact fun place hplace => nomatch hplace

theorem Climbs.le_top (h : series.Climbs top) {point : Point α} (hpoint : point ∈ series.points) :
    Scalar.le point.x top = true :=
  h.below point.x (List.mem_map_of_mem hpoint)

theorem truncate_of_beyond_eq_zero {bound : α} (h : series.beyond bound = 0) :
    series.truncate bound = series := by
  have hsize := series.size_truncate bound
  rw [h, Nat.zero_add] at hsize
  have hsuffix : (series.truncate bound).points <:+ series.points := List.dropWhile_suffix _
  have hpoints : (series.truncate bound).points = series.points :=
    hsuffix.eq_of_length hsize.symm
  calc
    series.truncate bound = { series with points := (series.truncate bound).points } := rfl
    _ = series := by rw [hpoints]

private theorem Climbs.truncate (h : series.Climbs top) (bound : α) :
    (series.truncate bound).Climbs top := by
  have hsuffix : (series.truncate bound).places <:+ series.places := by
    rw [places_truncate]
    exact List.dropWhile_suffix _
  exact ⟨h.forward.sublist hsuffix.sublist, fun place hplace =>
    h.below place (hsuffix.subset hplace)⟩

variable [LawfulOrder α]

private theorem Climbs.mono (h : series.Climbs top) {higher : α}
    (hle : Scalar.le top higher = true) : series.Climbs higher where
  forward := h.forward
  below place hplace := LawfulOrder.le_trans (h.below place hplace) hle

private theorem Climbs.truncate_below (h : series.Climbs top) (bound : α) :
    (series.truncate bound).Climbs bound := by
  have hforward := (h.truncate bound).forward
  refine ⟨hforward, fun place hplace => ?_⟩
  rw [places_truncate] at hforward hplace
  have hstop := List.head?_dropWhile_not (fun place => !Scalar.le place bound) series.places
  cases hkept : series.places.dropWhile fun place => !Scalar.le place bound with
  | nil =>
    rw [hkept] at hplace
    cases hplace
  | cons newest older =>
    rw [hkept] at hforward hplace hstop
    have hnewest : Scalar.le newest bound = true := by simpa using hstop
    rcases List.mem_cons.1 hplace with rfl | hplace
    · exact hnewest
    · exact LawfulOrder.le_trans ((List.pairwise_cons.1 hforward).1 place hplace) hnewest

theorem Climbs.accepts (h : series.Climbs top) (hx : Scalar.le top x = true) (y : α) :
    (series.insert x y).2 = true := by
  unfold Series.insert
  cases hpoints : series.points with
  | nil => rfl
  | cons newest older =>
    have hle : Scalar.le newest.x x = true :=
      LawfulOrder.le_trans (h.le_top (hpoints ▸ List.mem_cons_self)) hx
    have hlt : ¬Scalar.lt x newest.x = true := by
      simp [Scalar.lt, hle]
    simp only [if_neg hlt]
    split <;> rfl

private theorem Climbs.insert (h : series.Climbs top) (hx : Scalar.le top x = true) (y : α) :
    (series.insert x y).1.Climbs x := by
  have hmono := h.mono hx
  have hfront : (x :: series.places).Pairwise fun newer older => Scalar.le older newer = true :=
    List.pairwise_cons.2 ⟨hmono.below, hmono.forward⟩
  have hreached : ∀ place ∈ x :: series.places, Scalar.le place x = true := by
    intro place hplace
    rcases List.mem_cons.1 hplace with rfl | hplace
    · exact (LawfulOrder.isNumber_of_le hx).2
    · exact hmono.below place hplace
  rcases placed_eq_or series.capacity x series.places with hsame | htake
  · constructor
    · rw [places_insert, hsame]
      exact hmono.forward
    · rw [places_insert, hsame]
      exact hmono.below
  · constructor
    · rw [places_insert, htake]
      exact hfront.sublist (List.take_sublist _ _)
    · rw [places_insert, htake]
      exact fun place hplace => hreached place (List.mem_of_mem_take hplace)

omit [LawfulOrder α] in
private theorem last?_insert (hroom : 0 < series.capacity) {y : α}
    (htaken : (series.insert x y).2 = true) : ((series.insert x y).1.last?.map (·.y)) = some y := by
  obtain ⟨room, hroom⟩ := Nat.exists_eq_add_one.2 hroom
  unfold Series.insert at htaken ⊢
  cases hpoints : series.points with
  | nil => simp [last?, Series.push, hroom]
  | cons newest older =>
    rw [hpoints] at htaken
    simp only at htaken ⊢
    split at htaken
    · cases htaken
    next hlt =>
      rw [if_neg hlt]
      split
      · rfl
      · simp [last?, Series.push, hroom]

end Series

/-! ### The value of a readout -/

private theorem Metric.formatter_of_alongHeights {metric : Metric} (h : metric ∈ alongHeights) :
    metric.descriptor.formatter = some .millis ∨
      metric.descriptor.formatter = some .millisShare ∧ metric.descriptor.group = .timing ∧
        metric ≠ .payloadFullness ∨
      metric.descriptor.formatter = some .fullness ∨ metric.descriptor.formatter = some .ratio := by
  revert metric
  decide

/-- The value that the readout of a metric shows, by the value and the total of its reading. -/
def Metric.valueOf (metric : Metric) (value total : α) : α :=
  (Readout.render metric.descriptor ⟨value, 0, 0, total, none⟩).value

private theorem Metric.value_render {metric : Metric} (h : metric ∈ alongHeights)
    (reading : Reading α) : (Readout.render metric.descriptor reading).value =
      metric.valueOf reading.value reading.total := by
  unfold valueOf Readout.render
  rcases formatter_of_alongHeights h with hform | ⟨hform, -⟩ | hform | hform <;>
    simp [hform, Formatter.gauge]

private theorem Record.value_readout (record : Record α) {metric : Metric}
    (h : metric ∈ Metric.alongHeights) : (record.readout metric).value =
      metric.valueOf (record.reading metric).value (record.reading .pushTime).value := by
  rw [Record.readout, Metric.value_render h]
  unfold Metric.valueOf Readout.render
  rcases Metric.formatter_of_alongHeights h with hform | ⟨hform, htiming, hpayload⟩ | hform | hform
  · simp [hform, Formatter.gauge]
  · have htotal : (record.reading metric).total = (record.reading .pushTime).value := by
      rw [Record.reading, Group.reading, if_neg hpayload, if_pos htiming]
      rfl
    rw [htotal]
  · simp [hform, Formatter.gauge]
  · simp [hform, Formatter.gauge]

namespace SeriesStore

variable {store other : SeriesStore α} {name : String} {metric : Metric} {axis : Axis}
  {series : Series α}

theorem latest_congr (h : store.charts.get? name = other.charts.get? name) :
    store.latest name = other.latest name := by
  rw [latest, latest, series?, series?, h]

private theorem latest_of_last? {y : α} (h : store.charts.get? name = some ⟨axis, series⟩)
    (hlast : series.last?.map (·.y) = some y) : store.latest name = y := by
  obtain ⟨point, hpoint, rfl⟩ := Option.map_eq_some_iff.1 hlast
  rw [latest, series?_of_get? h, Option.bind_some, hpoint]

theorem exists_rebuilt (hmetric : metric ∈ Metric.alongHeights)
    (h : store.charts.get? metric.name = some ⟨axis, series⟩) :
    ∃ rebuilt, Readout.latest? metric.name store.readouts = some rebuilt ∧
      rebuilt.value =
        metric.valueOf (store.latest metric.name) (store.latest Metric.pushTime.name) :=
  ⟨_, latest?_readouts hmetric (series?_of_get? h), Metric.value_render hmetric _⟩

end SeriesStore

/-! ### Consistent dashboards -/

namespace Dashboard

/-- The charts along heights never go back and reach at most the latest height; before the first block
they are empty, and from then on the stored readouts have the values that the charts tell. -/
structure Consistent (capacity : Nat) (dashboard : Dashboard α) : Prop where
  charts : ∀ metric ∈ Metric.alongHeights, ∃ series,
    dashboard.series.charts.get? metric.name = some ⟨.height, series⟩ ∧
      series.capacity = capacity ∧ (dashboard.lastHeight = none → series.points = []) ∧
      ∀ last ∈ dashboard.lastHeight, series.Climbs (ofWord last)
  values : dashboard.lastHeight ≠ none → ∀ metric ∈ Metric.alongHeights, ∃ stored,
    dashboard.readouts.get? metric.name = some stored ∧
      stored.value = metric.valueOf (dashboard.series.latest metric.name)
        (dashboard.series.latest Metric.pushTime.name)

/-- A batch keeps up with the dashboard: if it is of a block, then not of one below the latest. -/
def KeepsUp (dashboard : Dashboard α) (batch : Batch α) : Prop :=
  ∀ height ∈ batch.blockHeight?, ∀ last ∈ dashboard.lastHeight, last ≤ height

-- left to itself, the search would try all words
instance (dashboard : Dashboard α) (batch : Batch α) : Decidable (dashboard.KeepsUp batch) :=
  @Option.decidableForallMem _ _ (fun _ => Option.decidableForallMem dashboard.lastHeight)
    batch.blockHeight?

variable {capacity : Nat} {dashboard : Dashboard α} {batch : Batch α}

omit [Scalar α] in
theorem heightAfter_of_other (h : batch.blockHeight? = none) (last : Option UInt64) :
    heightAfter batch.kind last = last := by
  unfold Batch.blockHeight? at h
  unfold heightAfter
  cases hkind : batch.kind with
  | block height =>
    rw [hkind] at h
    cases h
  | network time => rfl
  | queueStatus => rfl

theorem consistent_empty (sizes : HistorySizes) :
    (Dashboard.empty (.ofDescriptors catalogue sizes) : Dashboard α).Consistent sizes.chart := by
  constructor
  · intro metric hmetric
    obtain ⟨hcharted, haxis⟩ := Metric.mem_alongHeights.1 hmetric
    obtain ⟨series, hseries, hcapacity, hplaces⟩ :=
      (SeriesStore.aligned_ofDescriptors (α := α) sizes).exists_series hcharted
    rw [haxis] at hseries hcapacity
    refine ⟨series, hseries, hcapacity, fun _ => List.map_eq_nil_iff.1 hplaces, ?_⟩
    exact fun last hlast => nomatch hlast
  · exact fun hlast => absurd rfl hlast

theorem Consistent.neutral (h : dashboard.Consistent capacity) (hbatch : batch.Neutral) :
    (dashboard.apply batch).Consistent capacity := by
  have hcharts : ∀ metric ∈ Metric.alongHeights,
      (dashboard.apply batch).series.charts.get? metric.name =
        dashboard.series.charts.get? metric.name := by
    intro metric hmetric
    rw [series_apply, SeriesStore.get?_insertAll, hbatch.points metric hmetric]
    exact Option.map_id'
  have hlast : (dashboard.apply batch).lastHeight = dashboard.lastHeight := by
    rw [lastHeight_apply, heightAfter_of_other hbatch.blockHeight]
  constructor
  · intro metric hmetric
    rw [hcharts metric hmetric, hlast]
    exact h.charts metric hmetric
  · intro hsome metric hmetric
    rw [hlast] at hsome
    obtain ⟨stored, hstored, hvalue⟩ := h.values hsome metric hmetric
    refine ⟨stored, ?_, ?_⟩
    · rw [readouts_apply, get?_overlay, Readout.latest?_eq_none (hbatch.readouts metric hmetric)]
      exact hstored
    · rw [SeriesStore.latest_congr (hcharts metric hmetric),
        SeriesStore.latest_congr (hcharts .pushTime (by decide))]
      exact hvalue

private theorem get?_truncate_of_removed_eq_zero {height : UInt64}
    (hremoved : dashboard.series.beyond .height (ofWord height) = 0) {name : String}
    {series : Series α} (hseries : dashboard.series.charts.get? name = some ⟨.height, series⟩) :
    (dashboard.truncate height).1.series.charts.get? name =
      dashboard.series.charts.get? name := by
  have hle := NameMap.le_total (fun _ chart => if chart.axis = .height
    then chart.series.beyond (ofWord height) else 0) hseries
  rw [← SeriesStore.beyond_eq_total, hremoved, if_pos rfl] at hle
  rw [series_truncate, SeriesStore.get?_truncate, hseries, Option.map_some, if_pos rfl,
    Series.truncate_of_beyond_eq_zero (Nat.le_zero.1 hle)]

theorem readouts_truncate (dashboard : Dashboard α) (height : UInt64) (name : String) :
    (dashboard.truncate height).1.readouts.get? name =
      if dashboard.series.beyond .height (ofWord height) = 0 then dashboard.readouts.get? name
      else (Readout.latest? name (dashboard.truncate height).1.series.readouts).or
        (dashboard.readouts.get? name) := by
  rw [truncate, get?_overlay]
  split
  · rfl
  · rfl

section ordered

variable [LawfulWords α]

theorem Consistent.exists_climbs (h : dashboard.Consistent capacity) {next : UInt64}
    (hnext : ∀ last ∈ dashboard.lastHeight, last ≤ next) {metric : Metric}
    (hmetric : metric ∈ Metric.alongHeights) :
    ∃ series, dashboard.series.charts.get? metric.name = some ⟨.height, series⟩ ∧
      series.capacity = capacity ∧ series.Climbs (ofWord next) := by
  obtain ⟨series, hseries, hcapacity, hempty, hclimbs⟩ := h.charts metric hmetric
  refine ⟨series, hseries, hcapacity, ?_⟩
  cases hlast : dashboard.lastHeight with
  | none => exact Series.climbs_of_empty (hempty hlast) _
  | some last => exact (hclimbs last hlast).mono (LawfulWords.ofWord_mono (hnext last hlast))

theorem Consistent.block (h : dashboard.Consistent capacity) (hroom : 0 < capacity)
    {record : Record α} (hkeepsUp : dashboard.KeepsUp record.batch) :
    (dashboard.apply record.batch).Consistent capacity := by
  let height := record.sample.height
  have hnext : ∀ last ∈ dashboard.lastHeight, last ≤ height := hkeepsUp height rfl
  have hle : Scalar.le (ofWord height : α) (ofWord height) = true :=
    LawfulWords.ofWord_mono (UInt64.le_refl height)
  have hcharts : ∀ metric ∈ Metric.alongHeights, ∃ series,
      (dashboard.apply record.batch).series.charts.get? metric.name = some ⟨.height, series⟩ ∧
        series.capacity = capacity ∧ series.Climbs (ofWord height) ∧
        series.last?.map (·.y) = some (record.reading metric).value := by
    intro metric hmetric
    obtain ⟨series, hseries, hcapacity, hclimbs⟩ := h.exists_climbs hnext hmetric
    refine ⟨(series.insert (ofWord height) (record.reading metric).value).1, ?_, ?_,
      hclimbs.insert hle _, ?_⟩
    · rw [series_apply, SeriesStore.get?_insertAll, hseries, Option.map_some, Record.batch,
        Group.pointsFor_blockBatch _ _ hmetric]
      rfl
    · rw [Series.insert_capacity, hcapacity]
    · exact Series.last?_insert (hcapacity ▸ hroom) (hclimbs.accepts hle _)
  have hlast : (dashboard.apply record.batch).lastHeight = some height := by
    rw [lastHeight_apply]
    rfl
  have hlatest : ∀ metric ∈ Metric.alongHeights,
      (dashboard.apply record.batch).series.latest metric.name = (record.reading metric).value := by
    intro metric hmetric
    obtain ⟨series, hseries, -, -, hnewest⟩ := hcharts metric hmetric
    exact SeriesStore.latest_of_last? hseries hnewest
  constructor
  · intro metric hmetric
    obtain ⟨series, hseries, hcapacity, hclimbs, -⟩ := hcharts metric hmetric
    rw [hlast]
    refine ⟨series, hseries, hcapacity, fun hnone => absurd hnone (Option.some_ne_none _), ?_⟩
    rintro last ⟨⟩
    exact hclimbs
  · intro _ metric hmetric
    refine ⟨record.readout metric, ?_, ?_⟩
    · rw [readouts_apply, get?_overlay, Record.batch, Group.latest?_readouts_blockBatch _ _ hmetric]
      rfl
    · rw [record.value_readout hmetric, hlatest metric hmetric, hlatest .pushTime (by decide)]

/-- A rollback lowers the latest height with the charts. What it gives anew the charts tell, and if it
gives nothing anew it has not changed the charts. -/
theorem Consistent.truncate (h : dashboard.Consistent capacity) (height : UInt64) :
    (dashboard.truncate height).1.Consistent capacity := by
  have hcharts : ∀ metric ∈ Metric.alongHeights, ∃ series,
      dashboard.series.charts.get? metric.name = some ⟨.height, series⟩ ∧
        (dashboard.truncate height).1.series.charts.get? metric.name =
          some ⟨.height, series.truncate (ofWord height)⟩ := by
    intro metric hmetric
    obtain ⟨series, hseries, -⟩ := h.charts metric hmetric
    refine ⟨series, hseries, ?_⟩
    rw [series_truncate, SeriesStore.get?_truncate, hseries, Option.map_some, if_pos rfl]
  have hlast : (dashboard.truncate height).1.lastHeight =
      dashboard.lastHeight.map fun last => if height < last then height else last := rfl
  constructor
  · intro metric hmetric
    obtain ⟨series, hseries, hcapacity, hempty, hclimbs⟩ := h.charts metric hmetric
    refine ⟨series.truncate (ofWord height), ?_, hcapacity, fun hnone => ?_, fun last hmem => ?_⟩
    · rw [series_truncate, SeriesStore.get?_truncate, hseries, Option.map_some, if_pos rfl]
    · rw [hlast, Option.map_eq_none_iff] at hnone
      simp [Series.truncate, hempty hnone]
    · rw [hlast] at hmem
      obtain ⟨before, hbefore, rfl⟩ := Option.mem_map.1 hmem
      split
      · exact (hclimbs before hbefore).truncate_below (ofWord height)
      · exact (hclimbs before hbefore).truncate (ofWord height)
  · intro hsome metric hmetric
    have hbefore : dashboard.lastHeight ≠ none := by
      intro hnone
      rw [hlast, hnone] at hsome
      exact hsome rfl
    rw [readouts_truncate]
    by_cases hremoved : dashboard.series.beyond .height (ofWord height) = 0
    · rw [if_pos hremoved]
      obtain ⟨stored, hstored, hvalue⟩ := h.values hbefore metric hmetric
      obtain ⟨series, hseries, -⟩ := hcharts metric hmetric
      obtain ⟨pushes, hpushes, -⟩ := hcharts .pushTime (by decide)
      refine ⟨stored, hstored, ?_⟩
      rw [SeriesStore.latest_congr (get?_truncate_of_removed_eq_zero hremoved hseries),
        SeriesStore.latest_congr (get?_truncate_of_removed_eq_zero hremoved hpushes)]
      exact hvalue
    · rw [if_neg hremoved]
      obtain ⟨series, -, hcut⟩ := hcharts metric hmetric
      obtain ⟨rebuilt, hrebuilt, hvalue⟩ := SeriesStore.exists_rebuilt hmetric hcut
      refine ⟨rebuilt, ?_, hvalue⟩
      rw [hrebuilt]
      rfl

/-- All points for charts along heights are taken, in the order of the updates. -/
def TakesHeights (dashboard : Dashboard α) (batch : Batch α) : Prop :=
  ∀ metric ∈ Metric.alongHeights, ∀ before x y later,
    batch.updates = before ++ .point metric.name x y :: later →
      (before.foldl update dashboard).series.accepts metric.name x y = true

omit [LawfulWords α] in
theorem takesHeights_neutral (hbatch : batch.Neutral) : dashboard.TakesHeights batch := by
  intro metric hmetric before x y later hsplit
  have hnone := hbatch.points metric hmetric
  rw [Batch.pointsFor, hsplit, List.filterMap_append, List.filterMap_cons] at hnone
  simp [Update.pointFor?] at hnone

theorem Consistent.takesHeights (h : dashboard.Consistent capacity) {record : Record α}
    (hkeepsUp : dashboard.KeepsUp record.batch) : dashboard.TakesHeights record.batch := by
  intro metric hmetric before x y later hsplit
  have hnext : ∀ last ∈ dashboard.lastHeight, last ≤ record.sample.height := hkeepsUp _ rfl
  obtain ⟨series, hseries, -, hclimbs⟩ := h.exists_climbs hnext hmetric
  have honly := Group.pointsFor_blockBatch record.sample record.acc hmetric
  rw [Batch.pointsFor, ← Record.batch, hsplit, List.filterMap_append, List.filterMap_cons] at honly
  simp only [Update.pointFor?, if_true] at honly
  -- the point is the only one for its chart, which is thus as it was before the batch
  obtain ⟨hbefore, hpoint⟩ : before.filterMap (Update.pointFor? metric.name) = [] ∧
      x = ofWord record.sample.height := by
    rcases List.append_eq_singleton_iff.1 honly with ⟨hnil, hpoint⟩ | ⟨-, hnil⟩
    · exact ⟨hnil, congrArg Point.x (List.cons.inj hpoint).1⟩
    · cases hnil
  have hchart : (before.foldl update dashboard).series.charts.get? metric.name =
      some ⟨.height, series⟩ := by
    rw [series_foldl_update, SeriesStore.get?_insertAll, hseries, hbefore]
    rfl
  rw [SeriesStore.accepts, SeriesStore.series?_of_get? hchart, hpoint]
  exact hclimbs.accepts (LawfulWords.ofWord_mono (UInt64.le_refl _)) y

end ordered

end Dashboard

end NodeTelemetry
