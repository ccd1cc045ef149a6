import NodeTelemetry.Proofs.Accumulator.Windows

/-!
Sizes of accumulators. A set over the catalogue is refused for the first history that has no room; in a
set that was made the smallest capacity is the size of the smaller history, and no window, feed or
computation changes a capacity.
-/

set_option autoImplicit false

namespace NodeTelemetry

variable {α : Type} [Scalar α]

/-! ### One accumulator -/

namespace Accumulator

theorem ofSizes_eq_error_iff {capacity window : Nat} {error : SizeError} :
    (ofSizes capacity window : Except SizeError (Accumulator α)) = .error error ↔
      ¬(0 < window ∧ window ≤ capacity) ∧
        error = if capacity = 0 then .capacity else .window window capacity := by
  unfold ofSizes
  by_cases hnone : capacity = 0
  · have hfits : ¬(0 < window ∧ window ≤ capacity) := by omega
    simp [hnone, eq_comm]
    omega
  · by_cases hfits : 0 < window ∧ window ≤ capacity
    · simp [hnone, hfits]
    · simp [hnone, hfits, eq_comm]

private theorem capacity_of_ofSizes {capacity window : Nat} {acc : Accumulator α}
    (h : ofSizes capacity window = .ok acc) : acc.capacity = capacity := by
  unfold ofSizes at h
  split at h
  · cases h
  · split at h
    · cases h
      rfl
    · cases h

end Accumulator

/-! ### Sets over the catalogue -/

namespace AccumulatorSet

def capacities (set : AccumulatorSet α) : NameMap Nat :=
  set.entries.map fun _ entry => entry.accumulator.capacity

variable {set changed : AccumulatorSet α} {sizes : HistorySizes} {window : Nat}

omit [Scalar α] in
theorem smallestCapacity_eq (set : AccumulatorSet α) :
    set.smallestCapacity = set.capacities.values.min?.getD Word.largest := by
  have hvalues : set.capacities.values = set.entries.values.map (·.accumulator.capacity) :=
    NameMap.values_map _ _
  rw [hvalues]
  rfl

theorem capacities_setWindow (h : set.setWindow window = .ok changed) :
    changed.capacities = set.capacities := by
  obtain ⟨hpos, hle⟩ := exists_setWindow_iff.1 ⟨changed, h⟩
  rw [setWindow_of_le hpos hle] at h
  cases h
  rw [capacities, NameMap.map_map]
  exact NameMap.map_congr fun name entry _ => Accumulator.resized_capacity entry.accumulator window

/-- The catalogue has accumulated metrics along both axes, so the smallest capacity is the size of the
smaller history. -/
theorem smallestCapacity_ofDescriptors (h : ofDescriptors catalogue sizes window = .ok set) :
    set.smallestCapacity = min sizes.chart sizes.speed := by
  have hoccurs : ∀ metric : Metric, metric.descriptor.accumulated = true →
      ∃ entry ∈ set.entries.values,
        entry.accumulator.capacity = sizes.along metric.descriptor.axis := by
    intro metric haccumulated
    obtain ⟨acc, hsizes, hentry⟩ := exists_entry_of_ofDescriptors h haccumulated
    exact ⟨_, mem_values_of_get? hentry, Accumulator.capacity_of_ofSizes hsizes⟩
  have hcapacity : ∀ entry ∈ set.entries.values,
      ∃ axis, entry.accumulator.capacity = sizes.along axis := by
    intro entry hentry
    obtain ⟨entries, hentries, hset⟩ := exists_of_bind h
    cases hset
    obtain ⟨⟨name, entry⟩, hmem, rfl⟩ := List.mem_map.1 hentry
    obtain ⟨d, -, hmade⟩ := exists_of_mem_mapM hentries (NameMap.mem_ofList hmem)
    obtain ⟨acc, hacc, hmade⟩ := exists_of_bind hmade
    cases hmade
    exact ⟨d.axis, Accumulator.capacity_of_ofSizes hacc⟩
  obtain ⟨first, hfirst, hchart⟩ := hoccurs .pushTime rfl
  obtain ⟨other, hother, hspeed⟩ := hoccurs .uploadSpeed rfl
  refine (isLeast_smallestCapacity (List.ne_nil_of_mem hfirst)).unique ⟨?_, ?_⟩
  · rcases Nat.le_total sizes.chart sizes.speed with hle | hle
    · exact ⟨first, hfirst, hchart.trans (Nat.min_eq_left hle).symm⟩
    · exact ⟨other, hother, hspeed.trans (Nat.min_eq_right hle).symm⟩
  · rintro capacity ⟨entry, hentry, rfl⟩
    obtain ⟨axis, haxis⟩ := hcapacity entry hentry
    rw [haxis]
    cases axis with
    | height => exact Nat.min_le_left _ _
    | timestamp => exact Nat.min_le_right _ _

/-- The catalogue begins along heights. So the sizes along heights are refused first, and those along
time only once the former are fine. -/
theorem ofDescriptors_eq_error {error : SizeError}
    (h : (ofDescriptors catalogue sizes window : Except SizeError (AccumulatorSet α)) = .error error) :
    (Accumulator.ofSizes sizes.chart window : Except SizeError (Accumulator α)) = .error error ∨
      (∃ acc : Accumulator α, Accumulator.ofSizes sizes.chart window = .ok acc) ∧
        (Accumulator.ofSizes sizes.speed window : Except SizeError (Accumulator α)) =
          .error error := by
  obtain ⟨d, later, hcatalogue, haxis⟩ :
      ∃ d later, catalogue.filter (·.accumulated) = d :: later ∧ d.axis = .height :=
    ⟨_, _, rfl, rfl⟩
  have hfails := error_of_bind (fun entries => ⟨_, rfl⟩) h
  obtain ⟨earlier, item, rest, hsplit, hitem, hearlier⟩ := exists_of_mapM_eq_error hfails
  have hmade := error_of_bind (fun acc => ⟨_, rfl⟩) hitem
  rw [hcatalogue] at hsplit
  cases earlier with
  | nil =>
    -- the first accumulator of all is refused
    cases hsplit
    rw [haxis] at hmade
    exact .inl hmade
  | cons first others =>
    cases hsplit
    obtain ⟨entry, hentry⟩ := hearlier d List.mem_cons_self
    obtain ⟨acc, hacc, -⟩ := exists_of_bind hentry
    rw [haxis] at hacc
    cases hitemAxis : item.axis with
    | height =>
      rw [hitemAxis] at hmade
      exact .inl hmade
    | timestamp =>
      rw [hitemAxis] at hmade
      exact .inr ⟨⟨acc, hacc⟩, hmade⟩

end AccumulatorSet

theorem Computation.capacities_run {β : Type} (computation : Computation α β)
    (set : AccumulatorSet α) : (computation.run set).2.capacities = set.capacities :=
  computation.map_run Accumulator.insert_capacity set

end NodeTelemetry
