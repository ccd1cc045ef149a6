import NodeTelemetry.Proofs.Dashboard.Consistency

/-!
Readouts on their scales, in exact arithmetic. The charts along heights hold points of the same records,
whatever the heights of the samples; so what a rollback reads off them stands in the same proportions as
what the samples have shown: from zero to the maximum, and the parts of the push time within it.
-/

set_option autoImplicit false

namespace NodeTelemetry

open Scalar (LawfulRounding Nonneg ofInt ofWord)

/-! ### Percentages -/

namespace Label

variable {part total x y : Rat}

theorem whole_mono (h : x ≤ y) : whole x ≤ whole y := LawfulRounding.rounded_mono (Scalar.le_rat.2 h)

theorem whole_nonneg (h : 0 ≤ x) : 0 ≤ whole x := by
  have hmono := whole_mono h
  have hzero : whole (0 : Rat) = 0 := LawfulRounding.rounded_zero
  omega

private theorem share_zero (part : Rat) : share part 0 = 0 := by
  have hnot : ¬Scalar.lt (0 : Rat) 0 = true := fun hlt => lt_irrefl 0 (Scalar.lt_rat.1 hlt)
  exact if_neg hnot

private theorem share_mem (hnonneg : 0 ≤ part) (hle : part ≤ total) :
    0 ≤ share part total ∧ share part total ≤ 100 := by
  unfold share
  split
  next hlt =>
    have hpos : 0 < total := Scalar.lt_rat.1 hlt
    have hlow : (0 : Rat) ≤ ofInt 100 * part / total := by
      have hhundred : (0 : Rat) ≤ ofInt 100 := by decide
      exact div_nonneg (mul_nonneg hhundred hnonneg) hpos.le
    have hhigh : (ofInt 100 : Rat) * part / total ≤ ofInt 100 := by
      have hhundred : (0 : Rat) ≤ ofInt 100 := by decide
      rw [div_le_iff₀ hpos]
      exact mul_le_mul_of_nonneg_left hle hhundred
    have htop : whole (ofInt 100 : Rat) = 100 := by decide +kernel
    have hmono := whole_mono hhigh
    have hlowest := whole_nonneg hlow
    omega
  next => omega

end Label

/-! ### Readings that belong together -/

def Metric.shares : List Metric :=
  averaged.filter fun metric => metric.descriptor.formatter = some .millisShare

def Metric.speeds : List Metric := [uploadSpeed, downloadSpeed]

theorem Metric.mem_shares {metric : Metric} :
    metric ∈ shares ↔ metric ∈ averaged ∧ metric.descriptor.formatter = some .millisShare := by
  simp [shares]

private theorem Metric.averaged_eq :
    averaged = Group.Timing.components.map (·.1) ++ (Group.rateMetrics ++ Group.countMetrics) := by
  decide

theorem Metric.shares_eq : shares = (Group.Timing.components.map (·.1)).tail := by
  decide

private theorem Metric.not_alongHeights_of_speeds {metric : Metric} (h : metric ∈ speeds) :
    metric ∉ alongHeights := by
  revert metric
  decide

/-- The value of a readout is on the scale from zero to its maximum. -/
def Readout.OnScale (readout : Readout Rat) : Prop := 0 ≤ readout.value ∧ readout.value ≤ readout.max

/-- Readings of the averaged metrics that go together: each is from zero to its maximum, the push time
is whole, and the shares are taken of it and are parts of it. -/
structure Reading.Coherent (readings : Metric → Reading Rat) : Prop where
  nonneg : ∀ metric ∈ Metric.averaged, 0 ≤ (readings metric).value
  le_max : ∀ metric ∈ Metric.averaged, (readings metric).value ≤ (readings metric).max
  whole : Group.Timing.wholeOf (readings .pushTime).value = (readings .pushTime).value
  total : ∀ metric ∈ Metric.shares, (readings metric).total = (readings .pushTime).value
  within : ∀ metric ∈ Metric.shares, (readings metric).value ≤ (readings .pushTime).value

namespace Reading.Coherent

variable {readings : Metric → Reading Rat} {metric : Metric}

private theorem onScale (h : Coherent readings) (hmetric : metric ∈ Metric.averaged) :
    (Readout.render metric.descriptor (readings metric)).OnScale := by
  have hnonneg := h.nonneg metric hmetric
  have hle := h.le_max metric hmetric
  unfold Readout.OnScale Readout.render
  rcases Metric.formatter_of_averaged hmetric with hform | ⟨hform, -⟩ | hform
  · simp only [hform, Formatter.gauge]
    exact ⟨Int.cast_nonneg (Label.whole_nonneg hnonneg), Int.cast_le.2 (Label.whole_mono hle)⟩
  · have hshare : metric ∈ Metric.shares := Metric.mem_shares.2 ⟨hmetric, hform⟩
    obtain ⟨hlow, hhigh⟩ := Label.share_mem hnonneg (h.within metric hshare)
    simp only [hform, Formatter.gauge, h.total metric hshare]
    exact ⟨Int.cast_nonneg hlow, Int.cast_le.2 hhigh⟩
  · simp only [hform, Formatter.gauge]
    exact ⟨hnonneg, hle⟩

private theorem max_of_shares (readings : Metric → Reading Rat) (hmetric : metric ∈ Metric.shares) :
    (Readout.render metric.descriptor (readings metric)).max = 100 := by
  have hform := (Metric.mem_shares.1 hmetric).2
  simp only [Readout.render, hform, Formatter.gauge]
  rfl

/-- The push time is whole, so where none of it shows there is none, and its parts have no share. -/
theorem share_eq_zero (h : Coherent readings) (hmetric : metric ∈ Metric.shares)
    (hpush : (Readout.render Metric.pushTime.descriptor (readings .pushTime)).value = 0) :
    (Readout.render metric.descriptor (readings metric)).value = 0 := by
  have hzero : (readings .pushTime).value = 0 := h.whole.symm.trans hpush
  have hform := (Metric.mem_shares.1 hmetric).2
  simp only [Readout.render, hform, Formatter.gauge]
  rw [h.total metric hmetric, hzero, Label.share_zero]
  exact Int.cast_zero

end Reading.Coherent

def Record.Coherent (record : Record Rat) : Prop :=
  Reading.Coherent fun metric => record.reading metric

/-! ### Charts of records at any heights -/

namespace Series

variable {α : Type} [Scalar α] {capacity : Nat} {record : Record α} {records : List (Record α)}

def ofRecords (capacity : Nat) (records : List (Record α)) (metric : Metric) : Series α :=
  ⟨capacity, (records.map (Record.point metric)).take capacity⟩

private theorem ofRecords_take (capacity : Nat) (records : List (Record α)) (metric : Metric) :
    ofRecords capacity (records.take capacity) metric = ofRecords capacity records metric := by
  rw [ofRecords, ofRecords, List.map_take, List.take_take, Nat.min_self]

private theorem exists_insert_ofRecords [LawfulRounding α] (hroom : records.length ≤ capacity)
    (record : Record α) :
    ∃ kept : List (Record α), (∀ own ∈ kept, own = record ∨ own ∈ records) ∧
      ∀ metric, ((ofRecords capacity records metric).insert record.height
        (record.reading metric).value).1 = ofRecords capacity kept metric := by
  cases records with
  | nil =>
    refine ⟨[record], fun own hown => .inl (List.mem_singleton.1 hown), fun metric => ?_⟩
    rw [ofRecords, List.map_nil, List.take_nil]
    rfl
  | cons newest older =>
    have hpoints : ∀ metric, ofRecords capacity (newest :: older) metric =
        ⟨capacity, newest.point metric :: older.map (Record.point metric)⟩ := by
      intro metric
      have hlength : ((newest :: older).map (Record.point metric)).length ≤ capacity := by
        rw [List.length_map]
        exact hroom
      rw [ofRecords, List.take_of_length_le hlength, List.map_cons]
    by_cases hlt : Scalar.lt record.height newest.height = true
    · refine ⟨newest :: older, fun own hown => .inr hown, fun metric => ?_⟩
      simp only [hpoints, insert, Record.point, if_pos hlt]
    · by_cases hsame : Scalar.same record.height newest.height = true
      · have hheight : record.height = newest.height :=
          Nonneg.eq_of_same (Scalar.nonneg_ofWord _) (Scalar.nonneg_ofWord _) hsame
        refine ⟨record :: older, fun own hown => ?_, fun metric => ?_⟩
        · rcases List.mem_cons.1 hown with rfl | hown
          · exact .inl rfl
          · exact .inr (List.mem_cons_of_mem _ hown)
        · have hkept : ((record :: older).map (Record.point metric)).length ≤ capacity := by
            rw [List.length_map]
            exact hroom
          have hself : ¬Scalar.lt newest.height newest.height = true := hheight ▸ hlt
          rw [hheight] at hsame
          rw [hpoints, ofRecords, List.take_of_length_le hkept]
          simp [insert, Record.point, hself, hsame, hheight]
      · refine ⟨record :: newest :: older, fun own hown => ?_, fun metric => ?_⟩
        · rcases List.mem_cons.1 hown with rfl | hown
          · exact .inl rfl
          · exact .inr hown
        · rw [hpoints, ofRecords]
          simp [insert, push, Record.point, hlt, hsame]

private theorem exists_truncate_ofRecords (hroom : records.length ≤ capacity) (bound : α) :
    ∃ kept : List (Record α), (∀ own ∈ kept, own ∈ records) ∧
      ∀ metric, (ofRecords capacity records metric).truncate bound =
        ofRecords capacity kept metric := by
  let kept := records.dropWhile fun record => !Scalar.le record.height bound
  have hsuffix : kept <:+ records := List.dropWhile_suffix _
  refine ⟨kept, fun own hown => hsuffix.subset hown, fun metric => ?_⟩
  have hbefore : (records.map (Record.point metric)).length ≤ capacity := by
    rw [List.length_map]
    exact hroom
  have hafter : (kept.map (Record.point metric)).length ≤ capacity := by
    rw [List.length_map]
    exact hsuffix.length_le.trans hroom
  rw [ofRecords, ofRecords, List.take_of_length_le hbefore, List.take_of_length_le hafter, truncate,
    List.dropWhile_map]
  rfl

end Series

namespace SeriesStore

variable {α : Type} [Scalar α] {store : SeriesStore α} {capacity : Nat} {records : List (Record α)}

private theorem Holds.take (h : store.Holds capacity records) :
    store.Holds capacity (records.take capacity) := by
  intro metric hmetric
  rw [h metric hmetric]
  exact congrArg (fun series => some (Chart.mk Axis.height series))
    (Series.ofRecords_take capacity records metric).symm

private theorem Holds.block [LawfulRounding α] (h : store.Holds capacity records)
    (record : Record α) :
    ∃ kept, (store.insertAll fun name => record.batch.pointsFor name).Holds capacity kept ∧
      ∀ own ∈ kept, own = record ∨ own ∈ records := by
  have hroom : (records.take capacity).length ≤ capacity := List.length_take_le _ _
  obtain ⟨kept, hkept, hinsert⟩ := Series.exists_insert_ofRecords hroom record
  refine ⟨kept, fun metric hmetric => ?_, fun own hown => ?_⟩
  · rw [get?_insertAll, h.take metric hmetric, Option.map_some, Record.batch,
      Group.pointsFor_blockBatch _ _ hmetric]
    exact congrArg (fun series => some (Chart.mk Axis.height series)) (hinsert metric)
  · exact (hkept own hown).imp_right List.mem_of_mem_take

private theorem Holds.truncate (h : store.Holds capacity records) (bound : α) :
    ∃ kept, (store.truncate .height bound).Holds capacity kept ∧ ∀ own ∈ kept, own ∈ records := by
  have hroom : (records.take capacity).length ≤ capacity := List.length_take_le _ _
  obtain ⟨kept, hkept, hcut⟩ := Series.exists_truncate_ofRecords hroom bound
  refine ⟨kept, fun metric hmetric => ?_, fun own hown => List.mem_of_mem_take (hkept own hown)⟩
  rw [get?_truncate, h.take metric hmetric, Option.map_some, if_pos rfl]
  exact congrArg (fun series => some (Chart.mk Axis.height series)) (hcut metric)

def told (store : SeriesStore α) (capacity : Nat) (records : List (Record α)) (metric : Metric) :
    Reading α :=
  store.reading metric.name (.ofRecords capacity records metric)

private theorem Holds.latest_nil (h : store.Holds capacity []) {metric : Metric}
    (hmetric : metric ∈ Metric.alongHeights) : store.latest metric.name = 0 := by
  rw [SeriesStore.latest, h.series? hmetric, List.map_nil, List.take_nil]
  rfl

/-- What the charts tell of coherent records is coherent: the newest points are those of one record, and
each is among the points that the bounds are taken of. -/
theorem Holds.coherent {store : SeriesStore Rat} {records : List (Record Rat)}
    (h : store.Holds capacity records) (hpos : 0 < capacity)
    (hrecords : ∀ record ∈ records, record.Coherent) :
    Reading.Coherent (store.told capacity records) := by
  cases records with
  | nil =>
    have hvalue : ∀ metric ∈ Metric.averaged, (store.told capacity [] metric).value = 0 :=
      fun metric hmetric => h.latest_nil (Metric.mem_averaged.1 hmetric).1
    have hmax : ∀ metric, (store.told capacity [] metric).max = 0 := by
      intro metric
      rw [told, Series.ofRecords, List.map_nil, List.take_nil]
      rfl
    have hpush : (store.told capacity [] .pushTime).value = 0 := hvalue .pushTime (by decide)
    constructor
    · intro metric hmetric
      rw [hvalue metric hmetric]
    · intro metric hmetric
      rw [hvalue metric hmetric, hmax]
    · rw [hpush]
      decide
    · intro metric hmetric
      rfl
    · intro metric hmetric
      rw [hvalue metric (Metric.mem_shares.1 hmetric).1, hpush]
  | cons record older =>
    have hvalue : ∀ metric ∈ Metric.averaged,
        (store.told capacity (record :: older) metric).value = (record.reading metric).value :=
      fun metric hmetric => h.latest hpos (Metric.mem_averaged.1 hmetric).1
    have hpush := hvalue .pushTime (by decide)
    have hrecord := hrecords record List.mem_cons_self
    constructor
    · intro metric hmetric
      rw [hvalue metric hmetric]
      exact hrecord.nonneg metric hmetric
    · intro metric hmetric
      obtain ⟨room, rfl⟩ := Nat.exists_eq_add_one.2 hpos
      let series := Series.ofRecords (room + 1) (record :: older) metric
      have hmem : (record.reading metric).value ∈ series.points.map (·.y) := by
        show _ ∈ (((record :: older).map (Record.point metric)).take (room + 1)).map (·.y)
        rw [List.map_cons, List.take_succ_cons, List.map_cons]
        exact List.mem_cons_self
      have hne : series.points ≠ [] := by
        intro hnil
        rw [hnil] at hmem
        cases hmem
      have hlargest := (Series.isLargest_bounds hne fun point _ => Scalar.isNumber_rat point.y).1
      rw [hvalue metric hmetric]
      exact Scalar.le_rat.1 (hlargest.bound _ hmem)
    · rw [hpush]
      exact hrecord.whole
    · intro metric hmetric
      rfl
    · intro metric hmetric
      rw [hvalue metric (Metric.mem_shares.1 hmetric).1, hpush]
      exact hrecord.within metric hmetric

end SeriesStore

/-! ### Dashboards -/

/-- A batch of a coherent record, or one that is of no block and shows speeds on their scales. -/
inductive Batch.Scaled : Batch Rat → Prop where
  | block {record : Record Rat} (h : record.Coherent) : Scaled record.batch
  | other {batch : Batch Rat} (hneutral : batch.Neutral)
      (hspeeds : ∀ metric ∈ Metric.speeds, ∀ readout ∈ batch.readouts,
        readout.name = metric.name → readout.OnScale) : Scaled batch

namespace Dashboard

/-- The charts hold points of coherent records, the stored readouts along heights are those of coherent
readings or not there yet, and the stored speeds are on their scales. -/
structure Scaled (capacity : Nat) (dashboard : Dashboard Rat) : Prop where
  charts : ∃ records, dashboard.series.Holds capacity records ∧ ∀ record ∈ records, record.Coherent
  stored : (∀ metric ∈ Metric.averaged, dashboard.readouts.get? metric.name = none) ∨
    ∃ readings, Reading.Coherent readings ∧ ∀ metric ∈ Metric.averaged,
      dashboard.readouts.get? metric.name = some (.render metric.descriptor (readings metric))
  speeds : ∀ metric ∈ Metric.speeds, ∀ readout ∈ dashboard.readouts.get? metric.name, readout.OnScale

variable {capacity : Nat} {dashboard : Dashboard Rat} {batch : Batch Rat}

theorem scaled_empty (sizes : HistorySizes) :
    (Dashboard.empty (.ofDescriptors catalogue sizes) : Dashboard Rat).Scaled sizes.chart := by
  refine ⟨⟨[], fun metric hmetric => ?_, fun record hrecord => nomatch hrecord⟩,
    .inl fun metric hmetric => rfl, fun metric hmetric readout hreadout => nomatch hreadout⟩
  obtain ⟨hcharted, haxis⟩ := Metric.mem_alongHeights.1 hmetric
  obtain ⟨series, hseries, hcapacity, hplaces⟩ :=
    (SeriesStore.aligned_ofDescriptors (α := Rat) sizes).exists_series hcharted
  rw [haxis] at hseries hcapacity
  have hpoints : series.points = [] := List.map_eq_nil_iff.1 hplaces
  have hsame : series = ⟨sizes.chart, []⟩ := by
    cases series
    cases hcapacity
    cases hpoints
    rfl
  rw [List.map_nil, List.take_nil, ← hsame]
  exact hseries

theorem Scaled.block (h : dashboard.Scaled capacity) {record : Record Rat} (hrecord : record.Coherent) :
    (dashboard.apply record.batch).Scaled capacity := by
  obtain ⟨records, hholds, hcoherent⟩ := h.charts
  constructor
  · obtain ⟨kept, hkept, hmem⟩ := hholds.block record
    refine ⟨kept, ?_, fun own hown => ?_⟩
    · rw [series_apply]
      exact hkept
    · rcases hmem own hown with rfl | hown
      · exact hrecord
      · exact hcoherent own hown
  · refine .inr ⟨fun metric => record.reading metric, hrecord, fun metric hmetric => ?_⟩
    rw [readouts_apply, get?_overlay, Record.batch,
      Group.latest?_readouts_blockBatch _ _ (Metric.mem_averaged.1 hmetric).1]
    rfl
  · intro metric hmetric readout hreadout
    have hnone : Readout.latest? metric.name record.batch.readouts = none := by
      refine Readout.latest?_eq_none fun shown hshown hname => ?_
      rw [Record.batch, Group.readouts_blockBatch] at hshown
      obtain ⟨other, hother, rfl⟩ := List.mem_map.1 hshown
      rw [Readout.render_name, Metric.descriptor_name] at hname
      exact Metric.not_alongHeights_of_speeds hmetric (Metric.name_injective hname ▸ hother)
    rw [readouts_apply, get?_overlay, hnone] at hreadout
    exact h.speeds metric hmetric readout hreadout

theorem Scaled.other (h : dashboard.Scaled capacity) (hneutral : batch.Neutral)
    (hspeeds : ∀ metric ∈ Metric.speeds, ∀ readout ∈ batch.readouts,
      readout.name = metric.name → readout.OnScale) :
    (dashboard.apply batch).Scaled capacity := by
  have hreadouts : ∀ metric ∈ Metric.averaged,
      (dashboard.apply batch).readouts.get? metric.name = dashboard.readouts.get? metric.name := by
    intro metric hmetric
    have halong := (Metric.mem_averaged.1 hmetric).1
    rw [readouts_apply, get?_overlay, Readout.latest?_eq_none (hneutral.readouts metric halong)]
    rfl
  constructor
  · obtain ⟨records, hholds, hcoherent⟩ := h.charts
    refine ⟨records, fun metric hmetric => ?_, hcoherent⟩
    rw [series_apply, SeriesStore.get?_insertAll, hneutral.points metric hmetric, hholds metric hmetric]
    rfl
  · rcases h.stored with hnone | ⟨readings, hreadings, hstored⟩
    · refine .inl fun metric hmetric => ?_
      rw [hreadouts metric hmetric]
      exact hnone metric hmetric
    · refine .inr ⟨readings, hreadings, fun metric hmetric => ?_⟩
      rw [hreadouts metric hmetric]
      exact hstored metric hmetric
  · intro metric hmetric readout hreadout
    rw [readouts_apply, get?_overlay] at hreadout
    cases hlatest : Readout.latest? metric.name batch.readouts with
    | none =>
      rw [hlatest] at hreadout
      exact h.speeds metric hmetric readout hreadout
    | some shown =>
      rw [hlatest] at hreadout
      cases hreadout
      obtain ⟨hmem, hname⟩ := Readout.mem_of_latest? hlatest
      exact hspeeds metric hmetric readout hmem hname

theorem Scaled.truncate (h : dashboard.Scaled capacity) (hpos : 0 < capacity) (height : UInt64) :
    (dashboard.truncate height).1.Scaled capacity := by
  obtain ⟨records, hholds, hcoherent⟩ := h.charts
  obtain ⟨kept, hkept, hmem⟩ := hholds.truncate (ofWord height : Rat)
  have hkeptCoherent : ∀ record ∈ kept, record.Coherent :=
    fun record hrecord => hcoherent record (hmem record hrecord)
  constructor
  · exact ⟨kept, hkept, hkeptCoherent⟩
  · by_cases hremoved : dashboard.series.beyond .height (ofWord height : Rat) = 0
    · have hsame : ∀ name, (dashboard.truncate height).1.readouts.get? name =
          dashboard.readouts.get? name := by
        intro name
        rw [readouts_truncate, if_pos hremoved]
      simp only [hsame]
      exact h.stored
    · refine .inr ⟨_, hkept.coherent hpos hkeptCoherent, fun metric hmetric => ?_⟩
      have halong := (Metric.mem_averaged.1 hmetric).1
      have hseries : (dashboard.truncate height).1.series.series? metric.name =
          some (.ofRecords capacity kept metric) :=
        hkept.series? halong
      rw [readouts_truncate, if_neg hremoved, SeriesStore.latest?_readouts halong hseries]
      rfl
  · intro metric hmetric readout hreadout
    have haxis : ∀ own ∈ Metric.speeds, own.descriptor.axis = .timestamp := by decide
    have hsame := dashboard.readouts_truncate_of_timestamp height (mem_catalogue metric)
      (haxis metric hmetric)
    rw [Metric.descriptor_name] at hsame
    rw [hsame] at hreadout
    exact h.speeds metric hmetric readout hreadout

/-- What the stored readouts have to show: no value is below zero or beyond its maximum, and shares of
the push time are percentages of it, none of them where there is no push time. -/
structure OnScale (dashboard : Dashboard Rat) : Prop where
  bounded : ∀ metric ∈ Group.Timing.components.map (·.1) ++ (Group.rateMetrics ++ Group.countMetrics)
      ++ Metric.speeds,
    ∀ stored ∈ dashboard.readouts.get? metric.name, 0 ≤ stored.value ∧ stored.value ≤ stored.max
  shares : ∀ metric ∈ Metric.shares, ∀ stored ∈ dashboard.readouts.get? metric.name,
    stored.max = 100 ∧ ∃ push ∈ dashboard.readouts.get? Metric.pushTime.name,
      push.value = 0 → stored.value = 0

theorem Scaled.onScale (h : dashboard.Scaled capacity) : dashboard.OnScale := by
  constructor
  · intro metric hmetric stored hstored
    rw [← Metric.averaged_eq] at hmetric
    rcases List.mem_append.1 hmetric with hmetric | hmetric
    · rcases h.stored with hnone | ⟨readings, hreadings, hall⟩
      · rw [hnone metric hmetric] at hstored
        cases hstored
      · rw [hall metric hmetric] at hstored
        cases hstored
        exact hreadings.onScale hmetric
    · exact h.speeds metric hmetric stored hstored
  · intro metric hmetric stored hstored
    have haveraged := (Metric.mem_shares.1 hmetric).1
    rcases h.stored with hnone | ⟨readings, hreadings, hall⟩
    · rw [hnone metric haveraged] at hstored
      cases hstored
    · rw [hall metric haveraged] at hstored
      cases hstored
      exact ⟨Reading.Coherent.max_of_shares readings hmetric, _, hall .pushTime (by decide),
        hreadings.share_eq_zero hmetric⟩

end Dashboard

end NodeTelemetry
