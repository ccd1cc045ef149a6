import NodeTelemetry.Proofs.Accumulator.Recall
import NodeTelemetry.Proofs.Group.Block

/-!
Readouts rebuilt from charts. A chart along heights holds what the accumulator of its metric recalls,
point by point, so that the newest point and the bounds of the chart tell the readout that the latest
sample has made.
-/

set_option autoImplicit false

namespace NodeTelemetry

open Scalar (LawfulRounding IsLargest Nonneg ofWord)

variable {α : Type} [Scalar α]

def Metric.averaged : List Metric := alongHeights.filter (· ≠ payloadFullness)

theorem Metric.mem_averaged {metric : Metric} :
    metric ∈ averaged ↔ metric ∈ alongHeights ∧ metric ≠ payloadFullness := by
  simp [averaged]

theorem Metric.formatter_of_averaged {metric : Metric} (h : metric ∈ averaged) :
    metric.descriptor.formatter = some .millis ∨
      metric.descriptor.formatter = some .millisShare ∧ metric.descriptor.group = .timing ∨
      metric.descriptor.formatter = some .ratio := by
  revert metric
  decide

theorem Metric.accumulated_of_averaged {metric : Metric} (h : metric ∈ averaged) :
    metric.descriptor.accumulated = true := by
  revert metric
  decide

theorem Metric.group_of_averaged {metric : Metric} (h : metric ∈ averaged) :
    metric.descriptor.group ≠ .network := by
  revert metric
  decide

theorem Metric.fed_of_averaged {metric : Metric} (h : metric ∈ averaged) :
    metric ∈ fedBySample := by
  revert metric
  decide

private theorem Metric.isSome_formatter {metric : Metric} (h : metric ∈ alongHeights) :
    metric.descriptor.formatter.isSome = true := by
  revert metric
  decide

/-- A sample that was worked on, and the accumulators right after it. -/
structure Record (α : Type) where
  sample : BlockSample
  acc : Metric → Accumulator α

namespace Record

def height (record : Record α) : α := ofWord record.sample.height

def mean (metric : Metric) (record : Record α) : α := (record.acc metric).mean

def reading (metric : Metric) (record : Record α) : Reading α :=
  Group.reading record.sample record.acc metric

def point (metric : Metric) (record : Record α) : Point α :=
  ⟨record.height, (record.reading metric).value⟩

def readout (metric : Metric) (record : Record α) : Readout α :=
  .render metric.descriptor (record.reading metric)

def batch (record : Record α) : Batch α := Group.blockBatch record.sample record.acc

/-- The accumulators after each sample recall the means that it and the samples before it have made,
all of them numbers from zero on. The latest sample stands first. -/
inductive Remembered (capacity : Nat) : List (Record α) → Prop where
  | nil : Remembered capacity []
  | cons {record : Record α} {earlier : List (Record α)} (h : Remembered capacity earlier)
      (hrecalls : ∀ metric ∈ Metric.averaged,
        (record.acc metric).Recalls capacity ((record :: earlier).map (mean metric)))
      (hnonneg : ∀ metric ∈ Metric.averaged, Nonneg (record.mean metric)) :
      Remembered capacity (record :: earlier)

variable {capacity : Nat} {record : Record α} {records earlier : List (Record α)}

theorem Remembered.of_suffix (h : Remembered capacity records) (hsuffix : earlier <:+ records) :
    Remembered capacity earlier := by
  induction h with
  | nil =>
    rw [List.suffix_nil.1 hsuffix]
    exact .nil
  | cons h hrecalls hnonneg ih =>
    rcases List.suffix_cons_iff.1 hsuffix with rfl | hsuffix
    · exact .cons h hrecalls hnonneg
    · exact ih hsuffix

theorem Remembered.nonneg (h : Remembered capacity records) {metric : Metric}
    (hmetric : metric ∈ Metric.averaged) : ∀ x ∈ records.map (mean metric), Nonneg x := by
  induction h with
  | nil =>
    intro x hx
    cases hx
  | cons h hrecalls hnonneg ih =>
    intro x hx
    rcases List.mem_cons.1 hx with rfl | hx
    · exact hnonneg metric hmetric
    · exact ih x hx

private theorem Remembered.averages_ne_nil (h : Remembered capacity (record :: earlier))
    {metric : Metric} (hmetric : metric ∈ Metric.averaged) (hpos : 0 < capacity) :
    (record.acc metric).averages ≠ [] := by
  cases h with
  | cons h hrecalls hnonneg =>
    obtain ⟨room, rfl⟩ := Nat.exists_eq_add_one.2 hpos
    rw [(hrecalls metric hmetric).averages, List.map_cons, List.take_succ_cons]
    exact List.cons_ne_nil _ _

/-! ### What is shown of an average -/

theorem reading_of_averaged {metric : Metric} (hmetric : metric ∈ Metric.averaged)
    (record : Record α) :
    (record.reading metric).value = Group.shown metric (record.acc metric).average ∧
      (record.reading metric).max = Group.shown metric (record.acc metric).max := by
  have hne : metric ≠ .payloadFullness := (Metric.mem_averaged.1 hmetric).2
  rw [reading, Group.reading, if_neg hne]
  exact ⟨rfl, rfl⟩

section shown

variable [LawfulRounding α] {x y : α}

private theorem nonneg_shown (metric : Metric) (h : Nonneg x) : Nonneg (Group.shown metric x) := by
  unfold Group.shown
  split
  · exact Scalar.nonneg_ofInt_rounded h
  · exact h

private theorem shown_mono (metric : Metric) (hx : Nonneg x) (hy : Nonneg y)
    (h : Scalar.le x y = true) :
    Scalar.le (Group.shown metric x) (Group.shown metric y) = true := by
  unfold Group.shown
  split
  · exact Scalar.ofInt_rounded_mono hx hy h
  · exact h

private theorem Remembered.value_eq (h : Remembered capacity records) {metric : Metric}
    (hmetric : metric ∈ Metric.averaged) (hpos : 0 < capacity) :
    ∀ record ∈ records, (record.reading metric).value = Group.shown metric (record.mean metric) := by
  induction h with
  | nil =>
    intro record hrecord
    cases hrecord
  | @cons newest earlier h hrecalls hnonneg ih =>
    intro record hrecord
    rcases List.mem_cons.1 hrecord with rfl | hrecord
    · have hne : (record.acc metric).averages ≠ [] :=
        (Remembered.cons h hrecalls hnonneg).averages_ne_nil hmetric hpos
      rw [(reading_of_averaged hmetric record).1,
        Accumulator.average_of_nonneg hne (hnonneg metric hmetric), mean]
    · exact ih record hrecord

private theorem Remembered.heights_eq (h : Remembered capacity (record :: earlier))
    {metric : Metric} (hmetric : metric ∈ Metric.averaged) (hpos : 0 < capacity) :
    (((record :: earlier).map (point metric)).take capacity).map (·.y) =
      (record.acc metric).averages.map (Group.shown metric) := by
  have hvalues : (record :: earlier).map (fun record => (point metric record).y) =
      ((record :: earlier).map (mean metric)).map (Group.shown metric) := by
    rw [List.map_map]
    exact List.map_congr_left fun record hrecord => h.value_eq hmetric hpos record hrecord
  cases h with
  | cons h hrecalls hnonneg =>
    rw [(hrecalls metric hmetric).averages, List.map_take, List.map_take, List.map_map]
    exact congrArg (List.take capacity) hvalues

private theorem Remembered.bounds_eq (h : Remembered capacity (record :: earlier)) {metric : Metric}
    (hmetric : metric ∈ Metric.averaged) (hpos : 0 < capacity) :
    (⟨capacity, ((record :: earlier).map (point metric)).take capacity⟩ : Series α).bounds.2 =
      (record.reading metric).max := by
  have hheights := h.heights_eq hmetric hpos
  have hne := h.averages_ne_nil hmetric hpos
  have hrecalls : (record.acc metric).Recalls capacity ((record :: earlier).map (mean metric)) := by
    cases h with
    | cons h hrecalls hnonneg => exact hrecalls metric hmetric
  obtain ⟨hmax, hlargest, hmem⟩ := hrecalls.max_mem hne (h.nonneg hmetric)
  have haverages : ∀ a ∈ (record.acc metric).averages, Nonneg a := by
    intro a ha
    rw [hrecalls.averages] at ha
    exact h.nonneg hmetric a (List.mem_of_mem_take ha)
  have hshown : ∀ y ∈ (record.acc metric).averages.map (Group.shown metric), Nonneg y :=
    List.forall_mem_map.2 fun a ha => nonneg_shown metric (haverages a ha)
  have htop : IsLargest (record.reading metric).max
        ((record.acc metric).averages.map (Group.shown metric)) := by
    rw [(reading_of_averaged hmetric record).2]
    refine ⟨fun y hy => ?_, _, List.mem_map_of_mem hmem, (nonneg_shown metric hmax).isNumber⟩
    obtain ⟨a, ha, rfl⟩ := List.mem_map.1 hy
    exact shown_mono metric (haverages a ha) hmax (hlargest.bound a ha)
  have htopNonneg : Nonneg (record.reading metric).max := by
    rw [(reading_of_averaged hmetric record).2]
    exact nonneg_shown metric hmax
  generalize ((record :: earlier).map (point metric)).take capacity = points at hheights ⊢
  let series : Series α := ⟨capacity, points⟩
  have hpoints : series.points ≠ [] := by
    rintro rfl
    exact hne (List.map_eq_nil_iff.1 hheights.symm)
  have hnumber : ∀ point ∈ series.points, Scalar.isNumber point.y = true := fun point hpoint =>
    (hshown point.y (hheights ▸ List.mem_map_of_mem hpoint)).isNumber
  have hbounds : IsLargest series.bounds.2 (points.map (·.y)) ∧
      series.bounds.2 ∈ points.map (·.y) := Series.isLargest_bounds hpoints hnumber
  rw [hheights] at hbounds
  exact Scalar.eq_of_isLargest hbounds.1 htop (hshown _ hbounds.2) htopNonneg

end shown

end Record

/-! ### What the charts tell -/

/-- Two readouts of a metric show the same, down to the label except for how full payloads are. -/
def Readout.Agrees (metric : Metric) (stored rebuilt : Readout α) : Prop :=
  stored.value = rebuilt.value ∧ stored.max = rebuilt.max ∧
    (metric ≠ .payloadFullness → stored = rebuilt)

private theorem Readout.render_congr {metric : Metric} (hmetric : metric ∈ Metric.averaged)
    {first second : Reading α} (hvalue : first.value = second.value) (hmax : first.max = second.max)
    (htotal : metric.descriptor.group = .timing → first.total = second.total) :
    render metric.descriptor first = render metric.descriptor second := by
  unfold render
  rcases Metric.formatter_of_averaged hmetric with h | ⟨h, htiming⟩ | h
  · simp [h, Formatter.gauge, Formatter.label, hvalue, hmax]
  · simp [h, Formatter.gauge, Formatter.label, hvalue, hmax, htotal htiming]
  · simp [h, Formatter.gauge, Formatter.label, hvalue, hmax]

namespace SeriesStore

def Holds (store : SeriesStore α) (capacity : Nat) (records : List (Record α)) : Prop :=
  ∀ metric ∈ Metric.alongHeights, store.charts.get? metric.name =
    some ⟨.height, ⟨capacity, (records.map (Record.point metric)).take capacity⟩⟩

variable {store : SeriesStore α} {capacity : Nat} {record : Record α}
  {records earlier : List (Record α)} {metric : Metric}

theorem Holds.series? (h : store.Holds capacity records) (hmetric : metric ∈ Metric.alongHeights) :
    store.series? metric.name =
      some ⟨capacity, (records.map (Record.point metric)).take capacity⟩ := by
  rw [SeriesStore.series?, h metric hmetric]
  rfl

theorem Holds.latest (h : store.Holds capacity (record :: earlier)) (hpos : 0 < capacity)
    (hmetric : metric ∈ Metric.alongHeights) :
    store.latest metric.name = (record.reading metric).value := by
  obtain ⟨room, rfl⟩ := Nat.exists_eq_add_one.2 hpos
  rw [SeriesStore.latest, h.series? hmetric]
  rfl

theorem latest?_readouts {series : Series α} (hmetric : metric ∈ Metric.alongHeights)
    (hseries : store.series? metric.name = some series) :
    Readout.latest? metric.name store.readouts =
      some (.render metric.descriptor (store.reading metric.name series)) := by
  let rebuilt := Readout.render metric.descriptor (store.reading metric.name series)
  have hname : rebuilt.name = metric.name := by
    rw [Readout.render_name, Metric.descriptor_name]
  have hmem : rebuilt ∈ store.readouts := by
    refine List.mem_filterMap.2 ⟨metric.descriptor, List.mem_filter.2 ⟨mem_catalogue metric, ?_⟩, ?_⟩
    · simp [Metric.mem_alongHeights.1 hmetric, Metric.isSome_formatter hmetric]
    · rw [Metric.descriptor_name, hseries]
      rfl
  have hunique : ∀ other ∈ store.readouts, other.name = rebuilt.name → other = rebuilt := by
    intro other hother hsame
    obtain ⟨descriptor, hdescriptor, hreadout⟩ := List.mem_filterMap.1 hother
    obtain ⟨found, hfound, rfl⟩ := Option.map_eq_some_iff.1 hreadout
    rw [Readout.render_name, hname, ← Metric.descriptor_name] at hsame
    obtain rfl := eq_of_name_eq (List.mem_filter.1 hdescriptor).1 (mem_catalogue metric) hsame
    rw [Metric.descriptor_name, hseries] at hfound
    cases hfound
    rw [Metric.descriptor_name]
  have hlatest := Readout.latest?_of_unique hmem hunique
  rwa [hname] at hlatest

theorem Holds.agrees [LawfulRounding α] (h : store.Holds capacity (record :: earlier))
    (hremembered : Record.Remembered capacity (record :: earlier)) (hpos : 0 < capacity)
    (hmetric : metric ∈ Metric.alongHeights) :
    ∃ rebuilt, Readout.latest? metric.name store.readouts = some rebuilt ∧
      (record.readout metric).Agrees metric rebuilt := by
  refine ⟨_, latest?_readouts hmetric (h.series? hmetric), ?_⟩
  have hvalue := h.latest hpos hmetric
  by_cases hpayload : metric = .payloadFullness
  · subst hpayload
    exact ⟨hvalue.symm, rfl, fun hne => absurd rfl hne⟩
  · have haveraged : metric ∈ Metric.averaged := Metric.mem_averaged.2 ⟨hmetric, hpayload⟩
    have hpush : store.latest Metric.pushTime.name = (record.reading .pushTime).value :=
      h.latest hpos (by decide)
    have heq : record.readout metric = .render metric.descriptor (store.reading metric.name
        ⟨capacity, ((record :: earlier).map (Record.point metric)).take capacity⟩) := by
      refine Readout.render_congr haveraged hvalue.symm
        (hremembered.bounds_eq haveraged hpos).symm fun htiming => ?_
      have htotal : (record.reading metric).total = (record.reading .pushTime).value := by
        rw [Record.reading, Group.reading, if_neg hpayload, if_pos htiming]
        rfl
      exact htotal.trans hpush.symm
    rw [heq]
    exact ⟨rfl, rfl, fun _ => rfl⟩

end SeriesStore

end NodeTelemetry
