import NodeTelemetry.Proofs.Dashboard.Rebuild
import NodeTelemetry.Proofs.Dashboard.Rollback

/-!
Chronicles: the batches of samples among batches that do not concern the metrics along heights. The
dashboard shows the latest sample of its chronicle, and after a rollback the sample that the rollback
goes back to.
-/

set_option autoImplicit false

namespace NodeTelemetry

open Scalar (LawfulRounding LawfulOrder ofWord)

variable {α : Type} [Scalar α]

def Batch.blockHeight? (batch : Batch α) : Option UInt64 :=
  match batch.kind with
  | .block height => some height
  | .network _ | .queueStatus => none

/-- A batch that is of no block and brings nothing for the metrics along heights. -/
structure Batch.Neutral (batch : Batch α) : Prop where
  blockHeight : batch.blockHeight? = none
  points : ∀ metric ∈ Metric.alongHeights, batch.pointsFor metric.name = []
  readouts : ∀ metric ∈ Metric.alongHeights, ∀ readout ∈ batch.readouts,
    readout.name ≠ metric.name

/-- Batches, oldest first, and the records whose batches are among them, newest first. -/
inductive Chronicle : List (Batch α) → List (Record α) → Prop where
  | nil : Chronicle [] []
  | block {batches : List (Batch α)} {records : List (Record α)} (h : Chronicle batches records)
      (record : Record α) : Chronicle (batches ++ [record.batch]) (record :: records)
  | other {batches : List (Batch α)} {records : List (Record α)} {batch : Batch α}
      (h : Chronicle batches records) (hbatch : batch.Neutral) :
      Chronicle (batches ++ [batch]) records

namespace Chronicle

variable {batches first later : List (Batch α)} {records : List (Record α)} {metric : Metric}

theorem exists_prefix (h : Chronicle (first ++ later) records) :
    ∃ earlier, earlier <:+ records ∧ Chronicle first earlier := by
  generalize hall : first ++ later = batches at h
  induction h generalizing later with
  | nil =>
    rw [(List.append_eq_nil_iff.1 hall).1]
    exact ⟨[], List.suffix_rfl, .nil⟩
  | @block batches records h record ih =>
    rcases later.eq_nil_or_concat' with rfl | ⟨later, batch, rfl⟩
    · rw [List.append_nil] at hall
      rw [hall]
      exact ⟨_, List.suffix_rfl, h.block record⟩
    · rw [← List.append_assoc] at hall
      obtain ⟨earlier, hsuffix, hearlier⟩ := ih (List.append_inj' hall rfl).1
      exact ⟨earlier, hsuffix.trans (List.suffix_cons _ _), hearlier⟩
  | @other batches records other h hother ih =>
    rcases later.eq_nil_or_concat' with rfl | ⟨later, batch, rfl⟩
    · rw [List.append_nil] at hall
      rw [hall]
      exact ⟨_, List.suffix_rfl, h.other hother⟩
    · rw [← List.append_assoc] at hall
      exact ih (List.append_inj' hall rfl).1

theorem insert (h : Chronicle (first ++ later) records) {batch : Batch α} (hbatch : batch.Neutral) :
    Chronicle (first ++ batch :: later) records := by
  generalize hall : first ++ later = batches at h
  induction h generalizing later with
  | nil =>
    obtain ⟨rfl, rfl⟩ := List.append_eq_nil_iff.1 hall
    exact Chronicle.nil.other hbatch
  | @block batches records h record ih =>
    rcases later.eq_nil_or_concat' with rfl | ⟨later, last, rfl⟩
    · rw [List.append_nil] at hall
      rw [hall]
      exact (h.block record).other hbatch
    · rw [← List.append_assoc] at hall
      obtain ⟨hinit, hlast⟩ := List.append_inj' hall rfl
      rw [List.singleton_inj.1 hlast, ← List.cons_append, ← List.append_assoc]
      exact (ih hinit).block record
  | @other batches records other h hother ih =>
    rcases later.eq_nil_or_concat' with rfl | ⟨later, last, rfl⟩
    · rw [List.append_nil] at hall
      rw [hall]
      exact (h.other hother).other hbatch
    · rw [← List.append_assoc] at hall
      obtain ⟨hinit, hlast⟩ := List.append_inj' hall rfl
      rw [List.singleton_inj.1 hlast, ← List.cons_append, ← List.append_assoc]
      exact (ih hinit).other hother

theorem blockHeights (h : Chronicle batches records) :
    batches.filterMap Batch.blockHeight? = (records.map (·.sample.height)).reverse := by
  induction h with
  | nil => rfl
  | block h record ih =>
    rw [List.filterMap_append, ih, List.map_cons, List.reverse_cons]
    rfl
  | other h hother ih =>
    rw [List.filterMap_append, ih, List.filterMap_cons, hother.blockHeight]
    exact List.append_nil _

theorem exists_split (h : Chronicle (first ++ later) records) {last next : UInt64}
    {rest : List UInt64} (hlast : last ∈ (first.filterMap Batch.blockHeight?).getLast?)
    (hnext : (first ++ later).filterMap Batch.blockHeight? =
      first.filterMap Batch.blockHeight? ++ next :: rest) :
    ∃ newer oldest record older, records = newer ++ [oldest] ++ record :: older ∧
      Chronicle first (record :: older) ∧ record.sample.height = last ∧
      oldest.sample.height = next := by
  obtain ⟨earlier, ⟨newer, rfl⟩, hearlier⟩ := h.exists_prefix
  rw [h.blockHeights, hearlier.blockHeights, List.map_append, List.reverse_append] at hnext
  rw [hearlier.blockHeights] at hlast
  have hnewer : (newer.map (·.sample.height)).reverse = next :: rest :=
    List.append_cancel_left hnext
  rcases newer.eq_nil_or_concat' with rfl | ⟨newest, oldest, rfl⟩
  · cases hnewer
  · rw [List.map_append, List.map_singleton, List.reverse_append] at hnewer
    cases earlier with
    | nil => cases hlast
    | cons record older =>
      rw [List.map_cons, List.reverse_cons, List.getLast?_concat] at hlast
      exact ⟨newest, oldest, record, older, rfl, hearlier, Option.some.inj hlast,
        (List.cons.inj hnewer).1⟩

private theorem pointsFor (h : Chronicle batches records) (hmetric : metric ∈ Metric.alongHeights) :
    batches.flatMap (Batch.pointsFor metric.name) = (records.map (Record.point metric)).reverse := by
  induction h with
  | nil => rfl
  | block h record ih =>
    rw [List.flatMap_append, ih, List.map_cons, List.reverse_cons, List.flatMap_singleton,
      Record.batch, Group.pointsFor_blockBatch _ _ hmetric]
    rfl
  | other h hother ih =>
    rw [List.flatMap_append, ih, List.flatMap_singleton, hother.points metric hmetric,
      List.append_nil]

private theorem latest? (h : Chronicle batches records) (hmetric : metric ∈ Metric.alongHeights) :
    Readout.latest? metric.name (batches.flatMap Batch.readouts) =
      records.head?.map (Record.readout metric) := by
  induction h with
  | nil => rfl
  | block h record ih =>
    rw [List.flatMap_append, List.flatMap_singleton, Readout.latest?_append, Record.batch,
      Group.latest?_readouts_blockBatch _ _ hmetric]
    rfl
  | other h hother ih =>
    rw [List.flatMap_append, List.flatMap_singleton, Readout.latest?_append,
      Readout.latest?_eq_none (hother.readouts metric hmetric), Option.none_or, ih]

end Chronicle

/-! ### The dashboard of a chronicle -/

def Record.Increasing (records : List (Record α)) : Prop :=
  records.Pairwise fun newer older => Scalar.lt older.height newer.height = true

section increasing

variable [LawfulOrder α] {record oldest : Record α} {newer older : List (Record α)} {bound : α}

theorem Record.Increasing.below (h : Record.Increasing (record :: older))
    (hle : Scalar.le record.height bound = true) :
    ∀ below ∈ record :: older, Scalar.le below.height bound = true := by
  intro below hbelow
  rcases List.mem_cons.1 hbelow with rfl | hbelow
  · exact hle
  · have hlt := (List.pairwise_cons.1 h).1 below hbelow
    exact LawfulOrder.le_trans (Scalar.lt_iff.1 hlt).1 hle

theorem Record.Increasing.above (h : Record.Increasing (newer ++ [oldest]))
    (hlt : Scalar.lt bound oldest.height = true) :
    ∀ above ∈ newer ++ [oldest], Scalar.lt bound above.height = true := by
  intro above habove
  rcases List.mem_append.1 habove with habove | habove
  · have hnewer : Scalar.lt oldest.height above.height = true :=
      (List.pairwise_append.1 h).2.2 above habove oldest (List.mem_singleton_self oldest)
    exact Scalar.lt_of_lt_of_le hlt (Scalar.lt_iff.1 hnewer).1
  · rwa [List.mem_singleton.1 habove]

end increasing

namespace Dashboard

variable {sizes : HistorySizes} {batches : List (Batch α)} {record : Record α}
  {records newer earlier : List (Record α)} {metric : Metric}

/-- The dashboard that batches make of an empty one with all charts. -/
def ofBatches (sizes : HistorySizes) (batches : List (Batch α)) : Dashboard α :=
  (Dashboard.empty (.ofDescriptors catalogue sizes)).applyAll batches

theorem holds_ofBatches (h : Chronicle batches records) (hincreasing : Record.Increasing records) :
    (ofBatches sizes batches).series.Holds sizes.chart records := by
  intro metric hmetric
  obtain ⟨hcharted, haxis⟩ := Metric.mem_alongHeights.1 hmetric
  have hempty : (SeriesStore.ofDescriptors catalogue sizes : SeriesStore α).charts.get? metric.name =
      some ⟨.height, .empty sizes.chart⟩ := by
    have hmem : metric.descriptor ∈ catalogue.filter (·.charted) :=
      List.mem_filter.2 ⟨mem_catalogue metric, hcharted⟩
    have hfound := NameMap.get?_ofList_of_mem
      (fun d : Descriptor => (⟨d.axis, .empty (sizes.along d.axis)⟩ : Chart α))
      (fun a ha b hb => eq_of_name_eq (List.mem_filter.1 ha).1 (List.mem_filter.1 hb).1) hmem
    rw [Metric.descriptor_name, haxis] at hfound
    exact hfound
  have hpoints : ((records.map (Record.point metric)).reverse).Pairwise fun earlier later =>
      Scalar.lt earlier.x later.x = true := by
    rw [List.pairwise_reverse, List.pairwise_map]
    exact hincreasing
  rw [ofBatches, series_applyAll, SeriesStore.get?_insertAll, Dashboard.empty, hempty,
    Option.map_some, h.pointsFor hmetric, Series.insertAll_of_increasing _ hpoints,
    List.reverse_reverse]

theorem readouts_ofBatches (h : Chronicle batches records) (hmetric : metric ∈ Metric.alongHeights) :
    (ofBatches sizes batches).readouts.get? metric.name =
      records.head?.map (Record.readout metric) := by
  rw [ofBatches, readouts_applyAll, get?_overlay, h.latest? hmetric]
  exact Option.or_none

/-! ### Rolling back to an earlier sample -/

private theorem truncate_points {capacity : Nat} {bound : α} (metric : Metric)
    (hroom : (newer ++ earlier).length ≤ capacity)
    (habove : ∀ record ∈ newer, Scalar.lt bound record.height = true)
    (hbelow : ∀ record ∈ earlier, Scalar.le record.height bound = true) :
    (⟨capacity, ((newer ++ earlier).map (Record.point metric)).take capacity⟩ : Series α).truncate
        bound = ⟨capacity, (earlier.map (Record.point metric)).take capacity⟩ := by
  have hearlier : (earlier.map (Record.point metric)).length ≤ capacity := by
    rw [List.length_append] at hroom
    rw [List.length_map]
    omega
  have hall : ((newer ++ earlier).map (Record.point metric)).length ≤ capacity := by
    rwa [List.length_map]
  have hcut : ((newer ++ earlier).map (Record.point metric)).dropWhile
      (fun point => !Scalar.le point.x bound) = earlier.map (Record.point metric) := by
    rw [List.map_append, List.dropWhile_append_of_pos]
    · cases earlier with
      | nil => rfl
      | cons record earlier =>
        have hrecord : Scalar.le (record.point metric).x bound = true :=
          hbelow record List.mem_cons_self
        simp [hrecord]
    · intro point hpoint
      obtain ⟨record, hrecord, rfl⟩ := List.mem_map.1 hpoint
      have hfalse : Scalar.le (record.point metric).x bound = false :=
        (Scalar.lt_iff.1 (habove record hrecord)).2
      rw [hfalse]
      rfl
  rw [Series.truncate, List.take_of_length_le hall, hcut, List.take_of_length_le hearlier]

private theorem holds_truncate {store : SeriesStore α} {capacity : Nat} {bound : α}
    (h : store.Holds capacity (newer ++ earlier)) (hroom : (newer ++ earlier).length ≤ capacity)
    (habove : ∀ record ∈ newer, Scalar.lt bound record.height = true)
    (hbelow : ∀ record ∈ earlier, Scalar.le record.height bound = true) :
    (store.truncate .height bound).Holds capacity earlier := by
  intro metric hmetric
  rw [SeriesStore.get?_truncate, h metric hmetric, Option.map_some, if_pos rfl,
    truncate_points metric hroom habove hbelow]

private theorem beyond_ne_zero {store : SeriesStore α} {capacity : Nat} {bound : α}
    (h : store.Holds capacity (newer ++ earlier)) (hroom : (newer ++ earlier).length ≤ capacity)
    (habove : ∀ record ∈ newer, Scalar.lt bound record.height = true)
    (hbelow : ∀ record ∈ earlier, Scalar.le record.height bound = true) (hnewer : newer ≠ []) :
    store.beyond .height bound ≠ 0 := by
  have hle := NameMap.le_total (fun _ chart => if chart.axis = .height
    then chart.series.beyond bound else 0) (h .pushTime (by decide))
  rw [← SeriesStore.beyond_eq_total, if_pos rfl, Series.beyond,
    truncate_points .pushTime hroom habove hbelow] at hle
  have hpos : 0 < newer.length := List.length_pos_iff.2 hnewer
  simp only [List.length_take, List.length_map, List.length_append] at hle hroom
  omega

theorem readouts_rollback [LawfulRounding α] (h : Chronicle batches (newer ++ record :: earlier))
    (hincreasing : Record.Increasing (newer ++ record :: earlier))
    (hremembered : Record.Remembered sizes.chart (record :: earlier))
    (hroom : (newer ++ record :: earlier).length ≤ sizes.chart) {height : UInt64}
    (habove : ∀ record ∈ newer, Scalar.lt (ofWord height) record.height = true)
    (hbelow : ∀ older ∈ record :: earlier, Scalar.le older.height (ofWord height) = true)
    (hnewer : newer ≠ []) (hmetric : metric ∈ Metric.alongHeights) :
    ∃ rebuilt, ((ofBatches sizes batches).truncate height).1.readouts.get? metric.name =
      some rebuilt ∧ (record.readout metric).Agrees metric rebuilt := by
  have hpos : 0 < sizes.chart := by
    simp only [List.length_append, List.length_cons] at hroom
    omega
  have hholds : (ofBatches sizes batches).series.Holds sizes.chart (newer ++ record :: earlier) :=
    holds_ofBatches h hincreasing
  have hcut := holds_truncate hholds hroom habove hbelow
  obtain ⟨rebuilt, hrebuilt, hagrees⟩ := hcut.agrees hremembered hpos hmetric
  refine ⟨rebuilt, ?_, hagrees⟩
  rw [truncate, get?_overlay, if_neg (beyond_ne_zero hholds hroom habove hbelow hnewer), hrebuilt]
  rfl

end Dashboard

end NodeTelemetry
