import Mathlib
import NodeTelemetry.Label
import NodeTelemetry.Proofs.Scalar.Order

/-!
Binary units. The loop behind the labels of byte counts and byte rates divides exactly as often as it
takes to have less than one of the next unit, so that the unit of a label is determined by the amount
alone and grows with it. Counts and rates are labelled alike.
-/

set_option autoImplicit false

namespace NodeTelemetry.Label

open Scalar (ofInt)

/-- The units from the smallest on; each is 1024 of the one before. -/
def units : List String := "B" :: largerUnits

/-- A value is an amount of the unit at a position: less than one of the next unit, unless the position
is the last, and at least one of its own, unless the position is the first. -/
structure IsAmount (last : Nat) (value amount : Rat) (position : Nat) : Prop where
  exact : amount * 1024 ^ position = value
  known : position ≤ last
  below_next : position ≠ last → amount < 1024
  reached : position ≠ 0 → 1 ≤ amount

namespace IsAmount

variable {last position position' : Nat} {value value' amount amount' : Rat}

private theorem position_le (h : IsAmount last value amount position)
    (h' : IsAmount last value' amount' position') (hle : value ≤ value') :
    position ≤ position' := by
  by_contra hnot
  have hless : position' < position := Nat.lt_of_not_le hnot
  have hnext : amount' < 1024 := h'.below_next (by have := h.known; omega)
  have hown : 1 ≤ amount := h.reached (by omega)
  have hpow : (1024 : Rat) ^ (position' + 1) ≤ 1024 ^ position :=
    pow_le_pow_right₀ (by norm_num) hless
  have hsmaller : value' < value := calc
    value' = amount' * 1024 ^ position' := h'.exact.symm
    _ < 1024 * 1024 ^ position' := mul_lt_mul_of_pos_right hnext (by positivity)
    _ = 1024 ^ (position' + 1) := by ring
    _ ≤ 1024 ^ position := hpow
    _ ≤ amount * 1024 ^ position := le_mul_of_one_le_left (by positivity) hown
    _ = value := h.exact
  exact absurd hle (not_le.2 hsmaller)

private theorem unique (h : IsAmount last value amount position)
    (h' : IsAmount last value amount' position') : position' = position ∧ amount' = amount := by
  obtain rfl : position' = position :=
    le_antisymm (h'.position_le h le_rfl) (h.position_le h' le_rfl)
  exact ⟨rfl, mul_right_cancel₀ (by positivity) (h'.exact.trans h.exact.symm)⟩

private theorem amount_le (h : IsAmount last value amount position)
    (h' : IsAmount last value' amount' position) (hle : value ≤ value') : amount ≤ amount' := by
  rw [← h.exact, ← h'.exact] at hle
  exact le_of_mul_le_mul_right hle (by positivity)

private theorem succ (h : IsAmount last (value / 1024) amount position) (hreached : 1024 ≤ value) :
    IsAmount (last + 1) value amount (position + 1) where
  exact := by
    rw [pow_succ, ← mul_assoc, h.exact]
    exact div_mul_cancel₀ value (by norm_num)
  known := Nat.succ_le_succ h.known
  below_next hne := h.below_next fun heq => hne (congrArg (· + 1) heq)
  reached _ := by
    by_cases hfirst : position = 0
    · have hamount : amount = value / 1024 := by rw [← h.exact, hfirst, pow_zero, mul_one]
      rw [hamount, le_div_iff₀ (by norm_num), one_mul]
      exact hreached
    · exact h.reached hfirst

end IsAmount

private theorem inUnits_isAmount (value : Rat) (unit : String) (larger : List String) :
    ∃ position, (unit :: larger)[position]? = some (inUnits value unit larger).2 ∧
      IsAmount larger.length value (inUnits value unit larger).1 position := by
  induction larger generalizing value unit with
  | nil => exact ⟨0, rfl, by simp [inUnits], le_rfl, fun h => absurd rfl h, fun h => absurd rfl h⟩
  | cons next larger ih =>
    by_cases hreached : 1024 ≤ value
    · obtain ⟨position, hunit, hamount⟩ := ih (value / 1024) next
      have hloop : inUnits value unit (next :: larger) = inUnits (value / 1024) next larger :=
        if_pos (Scalar.le_rat.2 hreached)
      rw [hloop]
      exact ⟨position + 1, hunit, hamount.succ hreached⟩
    · have hloop : inUnits value unit (next :: larger) = (value, unit) :=
        if_neg (mt Scalar.le_rat.1 hreached)
      rw [hloop]
      exact ⟨0, rfl, by simp, Nat.zero_le _, fun _ => not_le.1 hreached, fun h => absurd rfl h⟩

def amountOf (value : Rat) : Rat := (inUnits value "B" largerUnits).1

def positionOf (value : Rat) : Nat := units.idxOf (inUnits value "B" largerUnits).2

private theorem isAmount_positionOf (value : Rat) :
    units[positionOf value]? = some (inUnits value "B" largerUnits).2 ∧
      IsAmount 6 value (amountOf value) (positionOf value) := by
  obtain ⟨position, hunit, hamount⟩ := inUnits_isAmount value "B" largerUnits
  have hposition : positionOf value = position := by
    obtain ⟨hlt, hget⟩ := List.getElem?_eq_some_iff.1 hunit
    have hdistinct : units.Nodup := by decide
    rw [positionOf, ← hget]
    exact hdistinct.idxOf_getElem position hlt
  rw [hposition]
  exact ⟨hunit, hamount⟩

private theorem dataSize_eq {value : Rat} (hpos : 0 < value) :
    ∃ unit, units[positionOf value]? = some unit ∧
      dataSize value = Scalar.fixed 2 (amountOf value) ++ " " ++ unit := by
  refine ⟨_, (isAmount_positionOf value).1, ?_⟩
  exact if_neg (mt Scalar.le_rat.1 (not_le.2 hpos))

private theorem dataRate_eq {α : Type} [Scalar α] (value : α) :
    dataRate value = dataSize value ++ "/s" := by
  unfold dataRate dataSize
  by_cases hnone : Scalar.le value 0 = true
  · rw [if_pos hnone, if_pos hnone]
    rfl
  · rw [if_neg hnone, if_neg hnone]

/-- In exact arithmetic a positive byte count is told as an amount of one unit, the only one that leaves
less than one of the next unit and at least one of its own. A larger count is never told in a smaller
unit, nor as a smaller amount of the same unit. A rate has the label of a count with `/s` behind it. -/
theorem labels_scale_exactly :
    (∀ value : Rat, 0 < value →
      (∃ unit, inUnits value "B" largerUnits = (amountOf value, unit) ∧
        units[positionOf value]? = some unit ∧
        dataSize value = Scalar.fixed 2 (amountOf value) ++ " " ++ unit) ∧
      IsAmount 6 value (amountOf value) (positionOf value) ∧
      ∀ amount position, IsAmount 6 value amount position →
        position = positionOf value ∧ amount = amountOf value) ∧
    (∀ value value' : Rat, value ≤ value' →
      positionOf value ≤ positionOf value' ∧
        (positionOf value = positionOf value' → amountOf value ≤ amountOf value')) ∧
    ∀ {α : Type} [Scalar α] (value : α), dataRate value = dataSize value ++ "/s" := by
  refine ⟨fun value hpos => ?_, fun value value' hle => ?_, fun value => dataRate_eq value⟩
  · obtain ⟨hunit, hamount⟩ := isAmount_positionOf value
    obtain ⟨unit, hfound, hlabel⟩ := dataSize_eq hpos
    have hname : (inUnits value "B" largerUnits).2 = unit := Option.some.inj (hunit.symm.trans hfound)
    exact ⟨⟨unit, Prod.ext rfl hname, hfound, hlabel⟩, hamount, fun amount position h =>
      hamount.unique h⟩
  · have hamount := (isAmount_positionOf value).2
    have hamount' := (isAmount_positionOf value').2
    refine ⟨hamount.position_le hamount' hle, fun heq => ?_⟩
    rw [heq] at hamount
    exact hamount.amount_le hamount' hle

/-- The last value below a unit and the unit itself. -/
theorem labels_scale_exactly_kilobyte :
    (0 : Rat) < 1023 ∧ (1023 : Rat) ≤ 1024 ∧
      dataSize (1023 : Rat) = "1023.00 B" ∧ dataSize (1024 : Rat) = "1.00 KB" ∧
      dataRate (1024 : Rat) = "1.00 KB/s" ∧
      IsAmount 6 1024 1 1 ∧ positionOf 1023 ≤ positionOf 1024 := by
  obtain ⟨hscaled, hmonotone, hrate⟩ := labels_scale_exactly
  have hpos : (0 : Rat) < 1023 := by norm_num
  have hle : (1023 : Rat) ≤ 1024 := by norm_num
  have hamount : IsAmount 6 1024 (amountOf 1024) (positionOf 1024) :=
    (hscaled 1024 (by norm_num)).2.1
  have hone : amountOf 1024 = 1 := by decide +kernel
  have hposition : positionOf 1024 = 1 := by decide +kernel
  rw [hone, hposition] at hamount
  refine ⟨hpos, hle, by decide +kernel, by decide +kernel, ?_, hamount,
    (hmonotone 1023 1024 hle).1⟩
  rw [hrate]
  decide +kernel

end NodeTelemetry.Label
