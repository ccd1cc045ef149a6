import NodeTelemetry.Proofs.Accumulator.Extremes
import NodeTelemetry.Proofs.Scalar.Rounding

/-!
What an accumulator recalls of its past. However its window was changed, the history holds the latest of
the means that the insertions have made, and the highest of them is one of these means itself.
-/

set_option autoImplicit false

namespace NodeTelemetry.Accumulator

open Scalar (LawfulOrder LawfulRounding LawfulAverages IsLargest Nonneg)

variable {α : Type} [Scalar α]

/-- The history holds the latest of the means that were made, newest first. -/
structure Recalls (acc : Accumulator α) (capacity : Nat) (means : List α) : Prop where
  capacity_eq : acc.capacity = capacity
  averages : acc.averages = means.take capacity
  highest : IsLargest acc.highest (0 :: acc.averages)
  highest_mem : acc.highest ∈ 0 :: acc.averages

variable {acc : Accumulator α} {capacity : Nat} {means : List α}

theorem Recalls.resized (h : acc.Recalls capacity means) (window : Nat) :
    (acc.resized window).Recalls capacity means where
  capacity_eq := by rw [resized_capacity, h.capacity_eq]
  averages := by rw [resized_averages, h.averages]
  highest := by
    rw [resized_highest, resized_averages]
    exact h.highest
  highest_mem := by
    rw [resized_highest, resized_averages]
    exact h.highest_mem

theorem recalls_empty [LawfulOrder α] {window : Nat} (hpos : 0 < window) (hle : window ≤ capacity) :
    (empty capacity window hpos hle : Accumulator α).Recalls capacity [] where
  capacity_eq := rfl
  averages := List.take_nil.symm
  highest := Scalar.selects_max.extreme_singleton LawfulOrder.isNumber_zero
  highest_mem := List.mem_singleton_self 0

theorem Recalls.insert [LawfulOrder α] {value : α} (h : acc.Recalls capacity means)
    (hnumber : ∀ mean ∈ (acc.insert value).mean :: means, Scalar.isNumber mean = true) :
    (acc.insert value).Recalls capacity ((acc.insert value).mean :: means) := by
  have hlength : acc.averages.length ≤ acc.capacity := by
    rw [h.averages, h.capacity_eq]
    exact List.length_take_le _ _
  have hnumbers : ∀ a ∈ (acc.insert value).mean :: acc.averages, Scalar.isNumber a = true := by
    intro a ha
    rw [h.averages] at ha
    refine hnumber a ?_
    rcases List.mem_cons.1 ha with rfl | ha
    · exact List.mem_cons_self
    · exact List.mem_cons_of_mem _ (List.mem_of_mem_take ha)
  refine ⟨by rw [insert_capacity, h.capacity_eq], ?_, isLargest_insert hlength hnumbers h.highest, ?_⟩
  · rw [insert_averages, kept, h.averages, ← h.capacity_eq, acc.take_cons_take]
  · rw [insert_highest, insert_averages]
    exact acc.extremeAfter_mem Scalar.selects_max (fun _ _ => Iff.rfl) hlength hnumbers h.highest_mem

section nonneg

variable [LawfulRounding α]

theorem Recalls.max_mem (h : acc.Recalls capacity means) (hne : acc.averages ≠ [])
    (hnonneg : ∀ mean ∈ means, Nonneg mean) :
    Nonneg acc.max ∧ IsLargest acc.max acc.averages ∧ acc.max ∈ acc.averages := by
  have haverages : ∀ a ∈ acc.averages, Nonneg a := by
    intro a ha
    rw [h.averages] at ha
    exact hnonneg a (List.mem_of_mem_take ha)
  have hhighest : Nonneg acc.highest := by
    rcases List.mem_cons.1 h.highest_mem with heq | hmem
    · rw [heq]
      exact Scalar.nonneg_zero
    · exact haverages acc.highest hmem
  have hmem : acc.highest ∈ acc.averages := by
    rcases List.mem_cons.1 h.highest_mem with heq | hmem
    · -- if zero is the largest, every average is zero
      obtain ⟨a, ha⟩ := List.exists_mem_of_ne_nil _ hne
      have hle : Scalar.le a acc.highest = true := h.highest.bound a (List.mem_cons_of_mem _ ha)
      have hge : Scalar.le acc.highest a = true := by
        rw [heq]
        exact (haverages a ha).le_zero
      rwa [hhighest.eq_of_same (haverages a ha) (Scalar.same_iff.2 ⟨hge, hle⟩)]
    · exact hmem
  have hmax : acc.max = acc.highest := hhighest.floored
  rw [hmax]
  exact ⟨hhighest, ⟨fun a ha => h.highest.bound a (List.mem_cons_of_mem _ ha),
    acc.highest, hmem, hhighest.isNumber⟩, hmem⟩

theorem average_of_nonneg (hne : acc.averages ≠ []) (hmean : Nonneg acc.mean) :
    acc.average = acc.mean := by
  have hempty : acc.averages.isEmpty = false := by simpa using hne
  rw [Accumulator.average, hempty]
  exact hmean.floored

end nonneg

section averages

variable [LawfulAverages α]

private theorem nonneg_meanOf (sum : CompensatedSum α) (count window : Nat) :
    Nonneg (meanOf sum.floored count window) := by
  refine LawfulAverages.nonneg_div _ ?_
  unfold CompensatedSum.floored
  split
  · exact Scalar.nonneg_zero
  next hnot => exact LawfulAverages.nonneg_of_not_lt (Bool.eq_false_iff.2 hnot)

theorem nonneg_mean_insert (acc : Accumulator α) (value : α) : Nonneg (acc.insert value).mean := by
  rw [insert_mean, insert_sum]
  split
  · exact nonneg_meanOf _ _ _
  · exact nonneg_meanOf _ _ _

theorem nonneg_mean_resized (h : Nonneg acc.mean) (window : Nat) :
    Nonneg (acc.resized window).mean := by
  unfold Accumulator.resized
  split
  next hfits =>
    show Nonneg (if acc.values.isEmpty then 0 else _)
    split
    · exact Scalar.nonneg_zero
    · exact nonneg_meanOf _ _ _
  next => exact h

end averages

end NodeTelemetry.Accumulator
