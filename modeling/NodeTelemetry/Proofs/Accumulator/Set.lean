import Mathlib.Logic.Function.Basic
import Mathlib.Order.Bounds.Defs
import NodeTelemetry.Accumulator.Set
import NodeTelemetry.Proofs.Accumulator.Run
import NodeTelemetry.Proofs.Catalogue
import NodeTelemetry.Proofs.NameMap

/-!
Sets of accumulators as functions of the metric. A set that shows such a function holds its values under
the names of the accumulated metrics, each with the group that owns it, and every operation on the set
is an operation on the function.
-/

set_option autoImplicit false

namespace NodeTelemetry.AccumulatorSet

variable {α : Type}

/-- The set holds the accumulator that a function gives for each accumulated metric. -/
def Shows (set : AccumulatorSet α) (acc : Metric → Accumulator α) : Prop :=
  ∀ metric : Metric, metric.descriptor.accumulated = true →
    set.entries.get? metric.name = some ⟨metric.descriptor.group, acc metric⟩

variable {set : AccumulatorSet α} {acc : Metric → Accumulator α}

theorem Shows.lookup (h : set.Shows acc) {metric : Metric} {view : GroupKind}
    (haccumulated : metric.descriptor.accumulated = true) (hview : metric.descriptor.group = view) :
    set.lookup view metric.name = .ok (acc metric) := by
  have hentry : (set.entries.filter fun _ entry => entry.owner = view).get? metric.name =
      some ⟨metric.descriptor.group, acc metric⟩ := by
    rw [NameMap.get?_filter, h metric haccumulated, Option.filter_some]
    simp [hview]
  rw [AccumulatorSet.lookup, hentry]

theorem Shows.get? (h : set.Shows acc) {metric : Metric}
    (haccumulated : metric.descriptor.accumulated = true) :
    set.get? metric.name = some (acc metric) := by
  rw [AccumulatorSet.get?, h metric haccumulated]
  rfl

theorem Shows.modify (h : set.Shows acc) (metric : Metric) (fed : Accumulator α) :
    (set.modify metric.name fun _ => fed).Shows (Function.update acc metric fed) := by
  intro other haccumulated
  rw [AccumulatorSet.modify, NameMap.get?_modify, h other haccumulated]
  by_cases hother : other = metric
  · subst hother
    rw [if_pos rfl, Function.update_self]
    rfl
  · have hname : other.name ≠ metric.name := fun hname => hother (Metric.name_injective hname)
    rw [if_neg hname, Function.update_of_ne hother]

/-! ### The smallest capacity -/

theorem smallestCapacity_of_empty (h : set.entries.values = []) :
    set.smallestCapacity = Word.largest := by
  rw [smallestCapacity, h]
  rfl

theorem isLeast_smallestCapacity (h : set.entries.values ≠ []) :
    IsLeast {capacity | ∃ entry ∈ set.entries.values, entry.accumulator.capacity = capacity}
      set.smallestCapacity := by
  cases hmin : (set.entries.values.map (·.accumulator.capacity)).min? with
  | none =>
    exact absurd (List.map_eq_nil_iff.1 (List.min?_eq_none_iff.1 hmin)) h
  | some least =>
    obtain ⟨hmem, hle⟩ := List.min?_eq_some_iff.1 hmin
    rw [smallestCapacity, hmin]
    refine ⟨List.mem_map.1 hmem, ?_⟩
    rintro capacity ⟨entry, hentry, rfl⟩
    exact hle _ (List.mem_map_of_mem hentry)

theorem smallestCapacity_le {entry : OwnedAccumulator α}
    (h : entry ∈ set.entries.values) : set.smallestCapacity ≤ entry.accumulator.capacity :=
  (isLeast_smallestCapacity (List.ne_nil_of_mem h)).2 ⟨entry, h, rfl⟩

theorem mem_values_of_get? {name : String} {entry : OwnedAccumulator α}
    (h : set.entries.get? name = some entry) : entry ∈ set.entries.values :=
  List.mem_map_of_mem (set.entries.get?_eq_some_iff.1 h)

theorem fits_of_le {window : Nat} (hpos : 0 < window) (hle : window ≤ set.smallestCapacity)
    {entry : OwnedAccumulator α} (hentry : entry ∈ set.entries.values) :
    entry.accumulator.Fits window :=
  ⟨hpos, hle.trans (smallestCapacity_le hentry)⟩

/-! ### Requests for a window -/

variable [Scalar α] {window : Nat}

/-- A request that passes the first check is refused by no accumulator: none has less room than that
check allows for. -/
theorem requestWindow_of_le (hpos : 0 < window) (hle : window ≤ set.smallestCapacity) :
    set.requestWindow window = (⟨set.entries.map fun _ entry =>
      { entry with accumulator := entry.accumulator.resized window }⟩, none) := by
  have hpasses : ¬(window = 0 ∨ set.smallestCapacity < window) := by omega
  have hall : ∀ entry ∈ set.entries.values,
      (do return { entry with accumulator := ← entry.accumulator.setWindow window } :
        Except SizeError (OwnedAccumulator α)) =
        .ok { entry with accumulator := entry.accumulator.resized window } := by
    intro entry hentry
    rw [Accumulator.setWindow_of_fits (fits_of_le hpos hle hentry)]
    rfl
  rw [requestWindow, if_neg hpasses, NameMap.change_eq_map hall]

theorem requestWindow_of_not_fits (h : ¬(0 < window ∧ window ≤ set.smallestCapacity)) :
    set.requestWindow window = (set, some (.window window set.smallestCapacity)) :=
  if_pos (by omega)

theorem setWindow_eq_ok_iff {changed : AccumulatorSet α} :
    set.setWindow window = .ok changed ↔ set.requestWindow window = (changed, none) := by
  unfold setWindow
  split
  next hrequest => simp [hrequest]
  next hrequest => simp [hrequest]

theorem setWindow_of_le (hpos : 0 < window) (hle : window ≤ set.smallestCapacity) :
    set.setWindow window = .ok ⟨set.entries.map fun _ entry =>
      { entry with accumulator := entry.accumulator.resized window }⟩ :=
  setWindow_eq_ok_iff.2 (requestWindow_of_le hpos hle)

theorem setWindow_eq_error_iff {error : SizeError} :
    set.setWindow window = .error error ↔
      ¬(0 < window ∧ window ≤ set.smallestCapacity) ∧
        error = .window window set.smallestCapacity := by
  by_cases hfits : 0 < window ∧ window ≤ set.smallestCapacity
  · simp [setWindow_of_le hfits.1 hfits.2, hfits]
  · rw [setWindow, requestWindow_of_not_fits hfits]
    simp [hfits, eq_comm]

theorem exists_setWindow_iff :
    (∃ changed, set.setWindow window = .ok changed) ↔ 0 < window ∧ window ≤ set.smallestCapacity := by
  constructor
  · rintro ⟨changed, hchanged⟩
    by_contra hnot
    rw [setWindow_eq_error_iff.2 ⟨hnot, rfl⟩] at hchanged
    cases hchanged
  · rintro ⟨hpos, hle⟩
    exact ⟨_, setWindow_of_le hpos hle⟩

theorem Shows.setWindow (h : set.Shows acc) {resized : AccumulatorSet α}
    (hresized : set.setWindow window = .ok resized) :
    resized.Shows fun metric => (acc metric).resized window := by
  intro metric haccumulated
  obtain ⟨hpos, hle⟩ := exists_setWindow_iff.1 ⟨resized, hresized⟩
  rw [setWindow_of_le hpos hle] at hresized
  cases hresized
  rw [NameMap.get?_map, h metric haccumulated]
  rfl

theorem exists_ofDescriptors {sizes : HistorySizes} (hpos : 0 < window)
    (hle : ∀ axis, window ≤ sizes.along axis) :
    ∃ set : AccumulatorSet α, ofDescriptors catalogue sizes window = .ok set ∧
      set.Shows fun metric =>
        .empty (sizes.along metric.descriptor.axis) window hpos (hle metric.descriptor.axis) := by
  let entry (d : Descriptor) : OwnedAccumulator α :=
    ⟨d.group, .empty (sizes.along d.axis) window hpos (hle d.axis)⟩
  refine ⟨⟨.ofList ((catalogue.filter (·.accumulated)).map fun d => (d.name, entry d))⟩, ?_, ?_⟩
  · have hmake : (fun d : Descriptor => do
        let accumulator ← Accumulator.ofSizes (α := α) (sizes.along d.axis) window
        return (d.name, (⟨d.group, accumulator⟩ : OwnedAccumulator α))) =
        fun d => (pure (d.name, entry d) : Except SizeError (String × OwnedAccumulator α)) := by
      funext d
      rw [Accumulator.ofSizes_of_fits hpos (hle d.axis)]
      rfl
    rw [ofDescriptors, hmake, List.mapM_pure]
    rfl
  · intro metric haccumulated
    have hmem : metric.descriptor ∈ catalogue.filter (·.accumulated) :=
      List.mem_filter.2 ⟨mem_catalogue metric, haccumulated⟩
    have hfound := NameMap.get?_ofList_of_mem entry (fun a ha b hb =>
      eq_of_name_eq (List.mem_filter.1 ha).1 (List.mem_filter.1 hb).1) hmem
    rwa [Metric.descriptor_name] at hfound

end NodeTelemetry.AccumulatorSet
