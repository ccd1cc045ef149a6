import Mathlib
import NodeTelemetry.Proofs.Scalar.Order
import NodeTelemetry.Scalar.Float

/-!
Floats are ordered lawfully. The place of a float is read off its sign, exponent and significand; the
order test compares places, which are linearly ordered, and a NaN has none.
-/

set_option autoImplicit false

namespace NodeTelemetry.Scalar

open Float.Model

/-- Where a float stands among all others: by class, then exponent, then significand. -/
abbrev Place := ℤ ×ₗ ℤ ×ₗ ℤ

def placeAt (rank exponent significand : ℤ) : Place := toLex (rank, toLex (exponent, significand))

/-- The place of an unpacked float. The further a negative one is from zero the further back it
stands, and both zeros stand at one place. -/
def place? : UnpackedFloat → Option Place
  | .notANumber => none
  | .infinity .negative => some (placeAt (-2) 0 0)
  | .finite .negative m e _ => some (placeAt (-1) (-e) (-m))
  | .zero _ => some (placeAt 0 0 0)
  | .finite .positive m e _ => some (placeAt 1 e m)
  | .infinity .positive => some (placeAt 2 0 0)

theorem placeAt_le_iff {r e m r' e' m' : ℤ} :
    placeAt r e m ≤ placeAt r' e' m' ↔ r < r' ∨ r = r' ∧ (e < e' ∨ e = e' ∧ m ≤ m') := by
  simp [placeAt, Prod.Lex.le_iff]

private theorem isLE_compare_then {e e' : ℤ} {m m' : ℕ} :
    ((compare e e').then (compare m m')).isLE ↔ e < e' ∨ e = e' ∧ m ≤ m' := by
  rcases lt_trichotomy e e' with h | rfl | h
  · simp [compare_lt_iff_lt.2 h, h]
  · simp [Ordering.then, Nat.isLE_compare]
  · have hne : e ≠ e' := by omega
    have hnot : ¬e < e' := by omega
    simp [compare_gt_iff_gt.2 h, hne, hnot]

private theorem isGE_compare_then {e e' : ℤ} {m m' : ℕ} :
    ((compare e e').then (compare m m')).isGE ↔ e' < e ∨ e = e' ∧ m' ≤ m := by
  have hswap : ((compare e e').then (compare m m')).swap =
      (compare e' e).then (compare m' m) := by
    rw [Ordering.swap_then, Int.compare_swap, Nat.compare_swap]
  rw [← Ordering.isLE_swap, hswap, isLE_compare_then, eq_comm]

/-- The order test of unpacked floats compares places. -/
theorem unpacked_le_iff (x y : UnpackedFloat) :
    x.le y = true ↔ ∃ i ∈ place? x, ∃ j ∈ place? y, i ≤ j := by
  have hminus : compare UnpackedFloat.Sign.negative .negative = .eq := rfl
  have hplus : compare UnpackedFloat.Sign.positive .positive = .eq := rfl
  have hup : compare UnpackedFloat.Sign.negative .positive = .lt := rfl
  have hdown : compare UnpackedFloat.Sign.positive .negative = .gt := rfl
  rcases x with (_ | _) | _ | _ | ⟨_ | _, m, e, hm⟩ <;>
    rcases y with (_ | _) | _ | _ | ⟨_ | _, m', e', hm'⟩ <;>
    simp [UnpackedFloat.le, UnpackedFloat.compare, place?, placeAt_le_iff, isLE_compare_then,
      isGE_compare_then, hminus, hplus, hup, hdown]

def placeOf? (x : Float) : Option Place := place? x.toModel.unpack

theorem le_float_iff (x y : Float) :
    le x y = true ↔ ∃ i ∈ placeOf? x, ∃ j ∈ placeOf? y, i ≤ j := by
  calc
    le x y = true ↔ x ≤ y := decide_eq_true_iff
    _ ↔ x.toModel ≤ y.toModel := decide_eq_true_iff
    _ ↔ ∃ i ∈ placeOf? x, ∃ j ∈ placeOf? y, i ≤ j := unpacked_le_iff _ _

instance : LawfulOrder Float where
  isNumber_of_le {x y} h := by
    obtain ⟨i, hi, j, hj, -⟩ := (le_float_iff x y).1 h
    exact ⟨(le_float_iff x x).2 ⟨i, hi, i, hi, le_rfl⟩, (le_float_iff y y).2 ⟨j, hj, j, hj, le_rfl⟩⟩
  le_trans {x y z} hxy hyz := by
    obtain ⟨i, hi, j, hj, hij⟩ := (le_float_iff x y).1 hxy
    obtain ⟨j', hj', k, hk, hjk⟩ := (le_float_iff y z).1 hyz
    obtain rfl : j' = j := Option.mem_unique hj' hj
    exact (le_float_iff x z).2 ⟨i, hi, k, hk, hij.trans hjk⟩
  le_total {x y} hx hy := by
    obtain ⟨i, hi, -⟩ := (le_float_iff x x).1 hx
    obtain ⟨j, hj, -⟩ := (le_float_iff y y).1 hy
    rcases le_total i j with hij | hji
    · exact .inl ((le_float_iff x y).2 ⟨i, hi, j, hj, hij⟩)
    · exact .inr ((le_float_iff y x).2 ⟨j, hj, i, hi, hji⟩)
  isNumber_zero := by decide
  isNumber_largest := by decide

end NodeTelemetry.Scalar
