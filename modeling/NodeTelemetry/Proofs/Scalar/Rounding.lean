import NodeTelemetry.Readout
import NodeTelemetry.Proofs.Scalar.Order

/-!
Rounding and the order. A scalar with a `LawfulRounding` rounds monotonically to whole numbers and back,
and has one value at each place beyond zero, so that the largest of several values is one and the same
however it is found.
-/

set_option autoImplicit false

namespace NodeTelemetry

namespace Decimal

/-- Halves going up, the nearest whole number is the whole part of the number plus one half. -/
theorem roundDiv_up_eq {num den : Nat} (hden : 0 < den) :
    roundDiv .up num den = (2 * num + den) / (2 * den) := by
  have hmod := Nat.mod_lt num hden
  have hdiv := Nat.div_add_mod num den
  have hsucc : (num / den + 1) * den = num / den * den + den := Nat.succ_mul _ _
  have hcomm : den * (num / den) = num / den * den := Nat.mul_comm _ _
  symm
  have hcases : roundDiv .up num den =
      if 2 * (num % den) < den then num / den else num / den + 1 := by
    simp only [roundDiv, Tie.goesUp, if_true, ite_self]
  rw [hcases]
  split
  · rw [Nat.div_eq_iff (by omega)]
    have hassoc : num / den * (2 * den) = 2 * (num / den * den) := by ring
    omega
  · rw [Nat.div_eq_iff (by omega)]
    have hassoc : (num / den + 1) * (2 * den) = 2 * ((num / den + 1) * den) := by ring
    omega

private theorem roundDiv_up_mono {num den num' den' : Nat} (hden : 0 < den) (hden' : 0 < den')
    (h : num * den' ≤ num' * den) : roundDiv .up num den ≤ roundDiv .up num' den' := by
  rw [roundDiv_up_eq hden, roundDiv_up_eq hden', Nat.le_div_iff_mul_le (by omega)]
  have hquotient : (2 * num + den) / (2 * den) * (2 * den) ≤ 2 * num + den := Nat.div_mul_le_self _ _
  generalize (2 * num + den) / (2 * den) = q at hquotient ⊢
  refine Nat.le_of_mul_le_mul_right (c := den) ?_ hden
  calc
    q * (2 * den') * den = q * (2 * den) * den' := by ring
    _ ≤ (2 * num + den) * den' := Nat.mul_le_mul_right den' hquotient
    _ = 2 * (num * den') + den * den' := by ring
    _ ≤ 2 * (num' * den) + den * den' := by omega
    _ = (2 * num' + den') * den := by ring

end Decimal

namespace Binary64

theorem clampInt64_mono {m n : Int} (h : m ≤ n) : clampInt64 m ≤ clampInt64 n := by
  unfold clampInt64 Word.smallestSigned Word.largestSigned
  omega

theorem signed_roundDiv_mono {a b : Int} {d e : Nat} (hd : 0 < d) (he : 0 < e) (h : a * e ≤ b * d) :
    signed (decide (a < 0)) (Decimal.roundDiv .up a.natAbs d) ≤
      signed (decide (b < 0)) (Decimal.roundDiv .up b.natAbs e) := by
  have hd' : (0 : Int) < d := by exact_mod_cast hd
  have he' : (0 : Int) < e := by exact_mod_cast he
  unfold signed
  by_cases ha : a < 0
  · by_cases hb : b < 0
    · have hcross : b.natAbs * d ≤ a.natAbs * e := by
        zify
        rw [abs_of_neg ha, abs_of_neg hb]
        linarith
      have hround := Decimal.roundDiv_up_mono he hd hcross
      simp only [ha, hb, decide_true, if_true]
      omega
    · simp only [ha, hb, decide_true, decide_false, if_true, Bool.false_eq_true, if_false]
      omega
  · have hb : ¬b < 0 := by
      intro hb
      have hleft : 0 ≤ a * e := mul_nonneg (by omega) he'.le
      have hright : b * d < 0 := mul_neg_of_neg_of_pos hb hd'
      omega
    have hcross : a.natAbs * e ≤ b.natAbs * d := by
      zify
      rwa [abs_of_nonneg (by omega), abs_of_nonneg (by omega)]
    have hround := Decimal.roundDiv_up_mono hd he hcross
    simp only [ha, hb, decide_false, Bool.false_eq_true, if_false]
    omega

end Binary64

namespace Scalar

variable {α : Type} [Scalar α]

/-- Zero or beyond it. Neither a negative zero nor a value that is no number is meant. -/
def Nonneg (x : α) : Prop := x = 0 ∨ lt 0 x = true

instance [DecidableEq α] (x : α) : Decidable (Nonneg x) := inferInstanceAs (Decidable (_ ∨ _))

/-- Words keep their order as scalars, though two of them may stand at one place. -/
class LawfulWords (α : Type) [Scalar α] : Prop extends LawfulOrder α where
  ofWord_mono {m n : UInt64} : m ≤ n → le (ofWord m : α) (ofWord n) = true

/-- Rounding keeps the order, and values beyond zero are told apart by the order. -/
class LawfulRounding (α : Type) [Scalar α] : Prop extends LawfulWords α where
  eq_of_same {x y : α} : lt 0 x = true → same x y = true → x = y
  rounded_mono {x y : α} : le x y = true → rounded x ≤ rounded y
  rounded_zero : rounded (0 : α) = 0
  rounded_le (x : α) : rounded x ≤ Word.largestSigned
  ofWord_zero : (ofWord 0 : α) = 0
  ofWord_pos {n : UInt64} : 0 < n → lt (0 : α) (ofWord n) = true

/-- What is not below zero is zero or beyond it, and so is every part of it. A float that is no number
is not below zero either, so floats are left out. -/
class LawfulAverages (α : Type) [Scalar α] : Prop extends LawfulRounding α where
  nonneg_of_not_lt {x : α} : lt x 0 = false → Nonneg x
  nonneg_div {x : α} (n : Nat) : Nonneg x → Nonneg (x / ofNat n)

/-! ### Exact numbers -/

private theorem rounded_rat (x : Rat) :
    rounded x = Binary64.clampInt64 (Binary64.signed (x.num < 0)
      (Decimal.roundDiv .up x.num.natAbs x.den)) :=
  rfl

instance : LawfulRounding Rat where
  ofWord_mono h := decide_eq_true (Int.cast_le.2 (Int.ofNat_le.2 (UInt64.le_iff_toNat_le.1 h)))
  eq_of_same {x y} _ h := by
    obtain ⟨hxy, hyx⟩ := same_iff.1 h
    exact le_antisymm (of_decide_eq_true hxy) (of_decide_eq_true hyx)
  rounded_mono {x y} h := by
    rw [rounded_rat, rounded_rat]
    refine Binary64.clampInt64_mono (Binary64.signed_roundDiv_mono x.den_pos y.den_pos ?_)
    exact (Rat.le_iff x y).1 (of_decide_eq_true h)
  rounded_zero := by decide
  rounded_le x := by
    rw [rounded_rat]
    unfold Binary64.clampInt64 Word.smallestSigned Word.largestSigned
    omega
  ofWord_zero := Int.cast_zero
  ofWord_pos {n} h := lt_rat.2 (Int.cast_pos.2 (Int.ofNat_lt.2 (UInt64.lt_iff_toNat_lt.1 h)))

private theorem nonneg_rat {x : Rat} : Nonneg x ↔ 0 ≤ x := by
  rw [Nonneg, lt_rat, le_iff_eq_or_lt, eq_comm]

instance : LawfulAverages Rat where
  nonneg_of_not_lt h := nonneg_rat.2 (not_lt.1 fun hlt => Bool.eq_false_iff.1 h (lt_rat.2 hlt))
  nonneg_div n h := nonneg_rat.2 (div_nonneg (nonneg_rat.1 h) (Int.cast_nonneg (Int.natCast_nonneg n)))

private theorem rounded_ofInt (n : Int) : rounded (ofInt n : Rat) = Binary64.clampInt64 n := by
  have hround : Decimal.roundDiv .up n.natAbs 1 = n.natAbs := by
    rw [Decimal.roundDiv_up_eq Nat.one_pos]
    omega
  have hsigned : Binary64.signed (decide (n < 0)) n.natAbs = n := by
    unfold Binary64.signed
    by_cases hneg : n < 0
    · simp only [hneg, decide_true, if_true]
      omega
    · simp only [hneg, decide_false, Bool.false_eq_true, if_false]
      omega
  have hnum : (ofInt n : Rat).num = n := Rat.num_intCast n
  have hden : (ofInt n : Rat).den = 1 := Rat.den_intCast n
  rw [rounded_rat, hnum, hden, hround, hsigned]

theorem rounded_ofInt_rounded (x : Rat) : rounded (ofInt (rounded x) : Rat) = rounded x := by
  have hclamp : ∀ m : Int, Binary64.clampInt64 (Binary64.clampInt64 m) = Binary64.clampInt64 m := by
    intro m
    unfold Binary64.clampInt64 Word.smallestSigned Word.largestSigned
    omega
  rw [rounded_ofInt, rounded_rat, hclamp]

/-! ### Values from zero on -/

theorem nonneg_zero : Nonneg (0 : α) := .inl rfl

section nonneg

variable [LawfulRounding α] {x y : α}

theorem Nonneg.le_zero (hx : Nonneg x) : le 0 x = true := by
  rcases hx with rfl | hx
  · exact LawfulOrder.isNumber_zero
  · exact (lt_iff.1 hx).1

theorem Nonneg.isNumber (hx : Nonneg x) : isNumber x = true :=
  (LawfulOrder.isNumber_of_le hx.le_zero).2

theorem Nonneg.floored (hx : Nonneg x) : floored x = x := by
  have hnot : lt x 0 = false := by
    simp [lt, hx.le_zero]
  simp [Scalar.floored, Scalar.max, hx.isNumber, hnot]

theorem Nonneg.eq_of_same (hx : Nonneg x) (hy : Nonneg y) (h : same x y = true) : x = y := by
  obtain ⟨hxy, hyx⟩ := same_iff.1 h
  rcases hx with rfl | hx
  · rcases hy with rfl | hy
    · rfl
    · rw [(lt_iff.1 hy).2] at hyx
      exact Bool.noConfusion hyx
  · exact LawfulRounding.eq_of_same hx h

theorem eq_of_isLargest {xs : List α} (hx : IsLargest x xs) (hy : IsLargest y xs) (hnx : Nonneg x)
    (hny : Nonneg y) : x = y := by
  obtain ⟨z, hz, hxz⟩ := hx.attained
  obtain ⟨w, hw, hyw⟩ := hy.attained
  refine hnx.eq_of_same hny (same_iff.2 ⟨?_, ?_⟩)
  · exact LawfulOrder.le_trans hxz (hy.bound z hz)
  · exact LawfulOrder.le_trans hyw (hx.bound w hw)

theorem nonneg_ofWord (n : UInt64) : Nonneg (ofWord n : α) := by
  by_cases h : n = 0
  · exact .inl (h ▸ LawfulRounding.ofWord_zero)
  · exact .inr (LawfulRounding.ofWord_pos (UInt64.pos_iff_ne_zero.2 h))

private theorem Nonneg.exists_rounded (hx : Nonneg x) :
    ∃ n : UInt64, rounded x = (n.toNat : Int) := by
  have hlow : rounded (0 : α) ≤ rounded x := LawfulRounding.rounded_mono hx.le_zero
  have hhigh : rounded x ≤ Word.largestSigned := LawfulRounding.rounded_le x
  rw [LawfulRounding.rounded_zero] at hlow
  obtain ⟨n, hn⟩ := Int.eq_ofNat_of_zero_le hlow
  rw [hn] at hhigh
  obtain ⟨word, hword⟩ := Word.le_largest_iff.1 (show n ≤ Word.largest by
    unfold Word.largest
    unfold Word.largestSigned at hhigh
    omega)
  exact ⟨word, by rw [hn, hword]⟩

theorem nonneg_ofInt_rounded (hx : Nonneg x) : Nonneg (ofInt (rounded x) : α) := by
  obtain ⟨n, hn⟩ := hx.exists_rounded
  rw [hn]
  exact nonneg_ofWord n

theorem ofInt_rounded_mono (hx : Nonneg x) (hy : Nonneg y) (h : le x y = true) :
    le (ofInt (rounded x) : α) (ofInt (rounded y)) = true := by
  obtain ⟨m, hm⟩ := hx.exists_rounded
  obtain ⟨n, hn⟩ := hy.exists_rounded
  have hle : (m.toNat : Int) ≤ n.toNat := hm ▸ hn ▸ LawfulRounding.rounded_mono h
  rw [hm, hn]
  exact LawfulWords.ofWord_mono (UInt64.le_iff_toNat_le.2 (Int.ofNat_le.1 hle))

end nonneg

end Scalar

end NodeTelemetry
