import NodeTelemetry.Proofs.Scalar.FloatWords

/-!
Rounding floats. What is read off the bits of a float is the exact number that it stands for. A float
that compares below another stands for a number that is not larger, and rounding to whole numbers keeps
that order, so floats round lawfully and what rests on lawful rounding alone holds of the machine's own
arithmetic.
-/

set_option autoImplicit false

namespace NodeTelemetry.Binary64

open Float.Model Float.Model.UnpackedFloat

/-! ### The bits of a float -/

private def isNegative : Sign → Bool
  | .negative => true
  | .positive => false

private def ofUnpacked : UnpackedFloat → Binary64
  | .notANumber => .nan
  | .infinity sign => .infinite (isNegative sign)
  | .zero sign => .finite (isNegative sign) 0 (-1074)
  | .finite sign m e _ => .finite (isNegative sign) m e

private theorem toNat_unpackMantissa (b : BitVec 64) :
    (@unpackMantissa Format.binary64 b).toNat = b.toNat % 2 ^ 52 := by
  simp [unpackMantissa]

private theorem toNat_unpackExponent (b : BitVec 64) :
    (@unpackExponent Format.binary64 b).toNat = b.toNat / 2 ^ 52 % 2 ^ 11 := by
  simp [unpackExponent, Nat.shiftRight_eq_div_pow]

private theorem isNegative_unpackSign (b : BitVec 64) :
    isNegative (.ofBitVec (@unpackSign Format.binary64 b)) = decide (2 ^ 63 ≤ b.toNat) := by
  have hlt : b.toNat < 2 ^ 64 := b.isLt
  have hsign : (@unpackSign Format.binary64 b).toNat = b.toNat / 2 ^ 63 := by
    simp [unpackSign, Nat.shiftRight_eq_div_pow]
    omega
  have hzero : @unpackSign Format.binary64 b = 0#1 ↔ b.toNat / 2 ^ 63 = 0 := by
    rw [← BitVec.toNat_inj, hsign]
    rfl
  by_cases hpositive : b.toNat / 2 ^ 63 = 0
  · rw [Sign.ofBitVec, if_pos (hzero.2 hpositive)]
    exact (decide_eq_false (by omega)).symm
  · rw [Sign.ofBitVec, if_neg (mt hzero.1 hpositive)]
    exact (decide_eq_true (by omega)).symm

private theorem ofBits_eq (w : Nat) : ofBits w =
    if w / 2 ^ 52 % 2 ^ 11 = 2047 then
      if w % 2 ^ 52 = 0 then .infinite (decide (2 ^ 63 ≤ w)) else .nan
    else if w / 2 ^ 52 % 2 ^ 11 = 0 then .finite (decide (2 ^ 63 ≤ w)) (w % 2 ^ 52) (-1074)
    else .finite (decide (2 ^ 63 ≤ w)) (2 ^ 52 + w % 2 ^ 52)
      ((w / 2 ^ 52 % 2 ^ 11 : Nat) - 1075) :=
  rfl

/-- What is read off the bits of a float is the number that it stands for. -/
private theorem ofFloat_eq (x : Float) : ofFloat x = ofUnpacked x.toModel.unpack := by
  let b := x.toModel.toBits.toBitVec
  have hexponent := toNat_unpackExponent b
  have hmantissa := toNat_unpackMantissa b
  have hsign := isNegative_unpackSign b
  have hfull : @unpackExponent Format.binary64 b = -1#11 ↔ b.toNat / 2 ^ 52 % 2 ^ 11 = 2047 := by
    rw [← BitVec.toNat_inj, hexponent]
    rfl
  have hempty : @unpackExponent Format.binary64 b = 0#11 ↔ b.toNat / 2 ^ 52 % 2 ^ 11 = 0 := by
    rw [← BitVec.toNat_inj, hexponent]
    rfl
  have hnone : @unpackMantissa Format.binary64 b = 0#52 ↔ b.toNat % 2 ^ 52 = 0 := by
    rw [← BitVec.toNat_inj, hmantissa]
    rfl
  have hwhole : (1#1 ++ @unpackMantissa Format.binary64 b).toNat = 2 ^ 52 + b.toNat % 2 ^ 52 := by
    rw [toNat_one_append, hmantissa]
  show ofBits b.toNat = ofUnpacked (UnpackedFloat.unpack Format.binary64 b)
  have hunpack : UnpackedFloat.unpack Format.binary64 b =
      if @unpackExponent Format.binary64 b = -1#11 then
        if @unpackMantissa Format.binary64 b = 0#52 then
          .infinity (.ofBitVec (@unpackSign Format.binary64 b)) else .notANumber
      else if @unpackExponent Format.binary64 b = 0#11 then
        if h : @unpackMantissa Format.binary64 b = 0#52 then
          .zero (.ofBitVec (@unpackSign Format.binary64 b))
        else .finite (.ofBitVec (@unpackSign Format.binary64 b))
          (@unpackMantissa Format.binary64 b).toNat
          (((@unpackExponent Format.binary64 b).toNat : Int) - (1023 + 52) + 1)
          (Nat.pos_of_ne_zero fun hzero => h (BitVec.eq_of_toNat_eq hzero))
      else .finite (.ofBitVec (@unpackSign Format.binary64 b))
        (1#1 ++ @unpackMantissa Format.binary64 b).toNat
        (((@unpackExponent Format.binary64 b).toNat : Int) - (1023 + 52))
        (by rw [hwhole]; omega) := rfl
  rw [ofBits_eq, hunpack, ← hsign]
  by_cases hbiased : b.toNat / 2 ^ 52 % 2 ^ 11 = 2047
  · rw [if_pos hbiased, if_pos (hfull.2 hbiased)]
    by_cases hfraction : b.toNat % 2 ^ 52 = 0
    · rw [if_pos hfraction, if_pos (hnone.2 hfraction), ofUnpacked]
    · rw [if_neg hfraction, if_neg (mt hnone.1 hfraction), ofUnpacked]
  · rw [if_neg hbiased, if_neg (mt hfull.1 hbiased)]
    by_cases hsmall : b.toNat / 2 ^ 52 % 2 ^ 11 = 0
    · rw [if_pos hsmall, if_pos (hempty.2 hsmall), hexponent, hsmall]
      by_cases hfraction : b.toNat % 2 ^ 52 = 0
      · rw [dif_pos (hnone.2 hfraction), ofUnpacked, hfraction]
      · rw [dif_neg (mt hnone.1 hfraction), ofUnpacked, hmantissa]
        rfl
    · rw [if_neg hsmall, if_neg (mt hempty.1 hsmall), ofUnpacked, hwhole, hexponent]
      rfl

private theorem ofBits_inj {w w' : Nat} (hw : w < 2 ^ 64) (hw' : w' < 2 ^ 64)
    (h : ofBits w = ofBits w') (hnumber : ofBits w ≠ .nan) : w = w' := by
  rw [ofBits_eq w] at h hnumber
  rw [ofBits_eq w'] at h
  split_ifs at h hnumber <;> simp only [reduceCtorEq, infinite.injEq, finite.injEq,
    decide_eq_decide, ne_eq, not_true_eq_false] at h hnumber <;> omega

private def Canonical (significand : Nat) (exponent : Int) : Prop :=
  significand < 2 ^ 53 ∧ -1074 ≤ exponent ∧ (2 ^ 52 ≤ significand ∨ exponent = -1074)

private theorem canonical_ofBits {w significand : Nat} {negative : Bool} {exponent : Int}
    (h : ofBits w = .finite negative significand exponent) :
    Canonical significand exponent := by
  have hfraction : w % Nat.pow 2 52 < 2 ^ 52 := Nat.mod_lt _ (Nat.two_pow_pos 52)
  simp only [ofBits] at h
  split at h
  · split at h <;> cases h
  · split at h
    · cases h
      exact ⟨hfraction.trans (by decide), le_rfl, .inr rfl⟩
    next hsmall =>
      cases h
      exact ⟨Nat.add_lt_add_left hfraction _, by omega, .inl (Nat.le_add_right _ _)⟩

/-! ### Rounding -/

private theorem rounded_finite (negative : Bool) (m : Nat) (e : Int) :
    (Binary64.finite negative m e).rounded = clampInt64 (signed negative
      (Decimal.roundDiv .up (quotient m e).1 (quotient m e).2)) :=
  rfl

/-- The number that a sign, a significand and an exponent stand for. -/
private def exactly (negative : Bool) (m : Nat) (e : Int) : Rat :=
  if negative then -(m * 2 ^ e) else m * 2 ^ e

private theorem quotient_pos (m : Nat) (e : Int) : 0 < (quotient m e).2 := by
  unfold quotient
  split
  · exact Nat.one_pos
  · exact Nat.two_pow_pos _

private theorem quotient_div (m : Nat) (e : Int) :
    ((quotient m e).1 : Rat) / (quotient m e).2 = m * 2 ^ e := by
  unfold quotient
  split
  next h =>
    have hpow : ((2 : Rat) ^ e) = 2 ^ e.toNat := by
      rw [← zpow_natCast, Int.toNat_of_nonneg h]
    show ((m * 2 ^ e.toNat : Nat) : Rat) / ((1 : Nat) : Rat) = _
    rw [hpow]
    push_cast
    ring
  next h =>
    have hpow : ((2 : Rat) ^ e) = (2 ^ (-e).toNat)⁻¹ := by
      rw [← zpow_natCast, ← zpow_neg, Int.toNat_of_nonneg (by omega), neg_neg]
    show (m : Rat) / ((2 ^ (-e).toNat : Nat) : Rat) = _
    rw [hpow]
    push_cast
    ring

private theorem roundDiv_zero {den : Nat} (hden : 0 < den) : Decimal.roundDiv .up 0 den = 0 := by
  rw [Decimal.roundDiv_up_eq hden]
  exact Nat.div_eq_of_lt (by omega)

private theorem signed_roundDiv (negative : Bool) (num : Nat) {den : Nat} (hden : 0 < den) :
    signed negative (Decimal.roundDiv .up num den) =
      signed (decide (signed negative num < 0))
        (Decimal.roundDiv .up (signed negative num).natAbs den) := by
  cases negative
  · simp [signed]
  · rcases Nat.eq_zero_or_pos num with rfl | hnum
    · simp [signed, roundDiv_zero hden]
    · simp [signed, hnum]

private theorem signed_div (negative : Bool) (m : Nat) (e : Int) :
    (signed negative (quotient m e).1 : Rat) / (quotient m e).2 = exactly negative m e := by
  rw [exactly, ← quotient_div]
  cases negative
  · simp [signed]
  · simp [signed, neg_div]

private theorem rounded_finite_mono {negative negative' : Bool} {m m' : Nat} {e e' : Int}
    (h : exactly negative m e ≤ exactly negative' m' e') :
    (Binary64.finite negative m e).rounded ≤ (Binary64.finite negative' m' e').rounded := by
  have hpos := quotient_pos m e
  have hpos' := quotient_pos m' e'
  rw [← signed_div negative, ← signed_div negative',
    div_le_div_iff₀ (Nat.cast_pos.2 hpos) (Nat.cast_pos.2 hpos')] at h
  rw [rounded_finite, rounded_finite, signed_roundDiv negative _ hpos,
    signed_roundDiv negative' _ hpos']
  exact clampInt64_mono (signed_roundDiv_mono hpos hpos' (by exact_mod_cast h))

private theorem rounded_bounds (x : Binary64) :
    Word.smallestSigned ≤ x.rounded ∧ x.rounded ≤ Word.largestSigned := by
  have hclamp : ∀ n, Word.smallestSigned ≤ clampInt64 n ∧ clampInt64 n ≤ Word.largestSigned := by
    intro n
    unfold clampInt64 Word.smallestSigned Word.largestSigned
    omega
  cases x with
  | nan => decide
  | infinite negative => cases negative <;> decide
  | finite negative m e => exact hclamp _

/-- The exponent decides first, since the first of 53 bits is set in a number that has not the
smallest exponent. -/
private theorem magnitude_mono {m m' : Nat} {e e' : Int} (hm : Canonical m e) (hm' : Canonical m' e')
    (h : e < e' ∨ e = e' ∧ m ≤ m') : (m : Rat) * 2 ^ e ≤ m' * 2 ^ e' := by
  rcases h with h | ⟨rfl, h⟩
  · have hlow : (m : Rat) ≤ 2 ^ 53 := by exact_mod_cast hm.1.le
    have hnormal : 2 ^ 52 ≤ m' := hm'.2.2.resolve_right (by have := hm.2.1; omega)
    have hhigh : (2 : Rat) ^ 52 ≤ m' := by exact_mod_cast hnormal
    calc
      (m : Rat) * 2 ^ e ≤ 2 ^ 53 * 2 ^ e := by gcongr
      _ = 2 ^ 52 * 2 ^ (e + 1) := by
        rw [zpow_add_one₀ two_ne_zero]
        ring
      _ ≤ m' * 2 ^ e' := by
        gcongr
        · norm_num
        · omega
  · gcongr

end NodeTelemetry.Binary64

namespace NodeTelemetry.Scalar

open NodeTelemetry.Binary64 Float.Model Float.Model.UnpackedFloat

/-! ### Places and numbers -/

private def exactly? : UnpackedFloat → Option Rat
  | .zero sign => some (exactly (isNegative sign) 0 (-1074))
  | .finite sign m e _ => some (exactly (isNegative sign) m e)
  | .infinity _ | .notANumber => none

/-- What bits can hold: an unpacked float whose number is canonical. -/
private def Held : UnpackedFloat → Prop
  | .finite _ m e _ => Canonical m e
  | .zero _ | .infinity _ | .notANumber => True

private theorem held_unpack (x : Float) : Held x.toModel.unpack := by
  have hread := ofFloat_eq x
  cases hunpack : x.toModel.unpack with
  | finite sign m e hpos =>
    rw [hunpack] at hread
    exact canonical_ofBits hread
  | _ => trivial

private theorem exactly_le_of_place {x y : UnpackedFloat} {a b : Rat} {i j : Place} (hx : Held x)
    (hy : Held y) (ha : exactly? x = some a) (hb : exactly? y = some b) (hi : place? x = some i)
    (hj : place? y = some j) (hij : i ≤ j) : a ≤ b := by
  have hzero : ∀ sign, exactly (isNegative sign) 0 (-1074) = 0 := by
    intro sign
    cases sign <;> simp [exactly]
  have hpositive : ∀ (m : Nat) (e : Int), 0 ≤ exactly (isNegative .positive) m e := by
    intro m e
    show 0 ≤ (m : Rat) * 2 ^ e
    positivity
  have hnegative : ∀ (m : Nat) (e : Int), exactly (isNegative .negative) m e ≤ 0 := by
    intro m e
    exact neg_nonpos.2 (hpositive m e)
  cases x with
  | infinity _ | notANumber => cases ha
  | zero sign =>
    cases y with
    | infinity _ | notANumber => cases hb
    | zero sign' =>
      cases ha
      cases hb
      rw [hzero, hzero]
    | finite sign' m' e' hm' =>
      cases ha
      cases hb
      cases sign' with
      | positive => exact (hzero sign).trans_le (hpositive m' e')
      | negative =>
        cases hi
        cases hj
        exact absurd (placeAt_le_iff.1 hij) (by omega)
  | finite sign m e hm =>
    cases y with
    | infinity _ | notANumber => cases hb
    | zero sign' =>
      cases ha
      cases hb
      cases sign with
      | negative => exact (hnegative m e).trans_eq (hzero sign').symm
      | positive =>
        cases hi
        cases hj
        exact absurd (placeAt_le_iff.1 hij) (by omega)
    | finite sign' m' e' hm' =>
      cases ha
      cases hb
      cases sign <;> cases sign' <;> cases hi <;> cases hj <;> rw [placeAt_le_iff] at hij
      · exact neg_le_neg (magnitude_mono hy hx (by omega))
      · exact (hnegative m e).trans (hpositive m' e')
      · omega
      · exact magnitude_mono hx hy (by omega)

private theorem infinite_or_exactly? {x : UnpackedFloat} {i : Place} (hi : place? x = some i) :
    (∃ sign, x = .infinity sign) ∨
      ∃ negative m e, ofUnpacked x = .finite negative m e ∧
        exactly? x = some (exactly negative m e) := by
  cases x with
  | infinity sign => exact .inl ⟨sign, rfl⟩
  | notANumber => cases hi
  | zero sign => exact .inr ⟨_, _, _, rfl, rfl⟩
  | finite sign m e hm => exact .inr ⟨_, _, _, rfl, rfl⟩

private theorem eq_infinity_of_place {x : UnpackedFloat} {i : Place} (hi : place? x = some i) :
    (placeAt 2 0 0 ≤ i → x = .infinity .positive) ∧
      (i ≤ placeAt (-2) 0 0 → x = .infinity .negative) := by
  rcases x with (_ | _) | _ | _ | ⟨_ | _, m, e, hm⟩ <;> cases hi <;>
    simp [placeAt_le_iff]

private theorem rounded_le_of_place {x y : UnpackedFloat} {i j : Place} (hx : Held x) (hy : Held y)
    (hi : place? x = some i) (hj : place? y = some j) (hij : i ≤ j) :
    (ofUnpacked x).rounded ≤ (ofUnpacked y).rounded := by
  rcases infinite_or_exactly? hi with ⟨sign, rfl⟩ | ⟨negative, m, e, hxread, ha⟩
  · cases sign with
    | negative => exact (rounded_bounds _).1
    | positive =>
      cases hi
      rw [(eq_infinity_of_place hj).1 hij]
  · rcases infinite_or_exactly? hj with ⟨sign, rfl⟩ | ⟨negative', m', e', hyread, hb⟩
    · cases sign with
      | negative =>
        cases hj
        rw [(eq_infinity_of_place hi).2 hij]
      | positive => exact (rounded_bounds _).2
    · rw [hxread, hyread]
      exact rounded_finite_mono (exactly_le_of_place hx hy ha hb hi hj hij)

private theorem eq_of_place {x y : UnpackedFloat} {i : Place} (hne : i ≠ placeAt 0 0 0)
    (hx : place? x = some i) (hy : place? y = some i) : x = y := by
  rcases x with (_ | _) | _ | _ | ⟨_ | _, m, e, hm⟩ <;>
    rcases y with (_ | _) | _ | _ | ⟨_ | _, m', e', hm'⟩ <;> cases hx <;>
    simp_all [place?, placeAt]

private theorem lt_zero_float {x : Float} :
    lt 0 x = true ↔ ∃ i ∈ placeOf? x, placeAt 0 0 0 < i := by
  have hzero : placeOf? 0 = some (placeAt 0 0 0) := rfl
  simp only [lt_iff, Bool.eq_false_iff, ne_eq, le_float_iff, hzero, Option.mem_some_iff,
    exists_eq_left']
  constructor
  · rintro ⟨⟨i, hi, hle⟩, hnot⟩
    exact ⟨i, hi, lt_of_not_ge fun hge => hnot ⟨i, hi, hge⟩⟩
  · rintro ⟨i, hi, hlt⟩
    refine ⟨⟨i, hi, hlt.le⟩, ?_⟩
    rintro ⟨i', hi', hge⟩
    obtain rfl : i' = i := Option.mem_unique hi' hi
    exact hge.not_gt hlt

private theorem ofFloat_inj {x y : Float} (h : ofFloat x = ofFloat y) (hnumber : ofFloat x ≠ .nan) :
    x = y := by
  have hbits : x.toModel.toBits = y.toModel.toBits :=
    UInt64.toNat_inj.1 (ofBits_inj (UInt64.toNat_lt _) (UInt64.toNat_lt _) h hnumber)
  rcases x with ⟨⟨bits, hvalid⟩⟩
  rcases y with ⟨⟨bits', hvalid'⟩⟩
  cases hbits
  rfl

instance : LawfulRounding Float where
  eq_of_same {x y} hpos h := by
    obtain ⟨hxy, hyx⟩ := same_iff.1 h
    obtain ⟨i, hi, j, hj, hij⟩ := (le_float_iff x y).1 hxy
    obtain ⟨j', hj', i', hi', hji⟩ := (le_float_iff y x).1 hyx
    obtain rfl : j' = j := Option.mem_unique hj' hj
    obtain rfl : i' = i := Option.mem_unique hi' hi
    obtain rfl : j' = i' := le_antisymm hji hij
    obtain ⟨k, hk, hzero⟩ := lt_zero_float.1 hpos
    obtain rfl : k = j' := Option.mem_unique hk hi
    have hunpack := eq_of_place hzero.ne' hi hj
    have hread : ofFloat x = ofFloat y := by
      rw [ofFloat_eq, ofFloat_eq, hunpack]
    refine ofFloat_inj hread ?_
    rw [ofFloat_eq]
    rcases infinite_or_exactly? hi with ⟨sign, hinfinite⟩ | ⟨negative, m, e, hfinite, -⟩
    · rw [hinfinite]
      exact Binary64.noConfusion
    · rw [hfinite]
      exact Binary64.noConfusion
  rounded_mono {x y} h := by
    obtain ⟨i, hi, j, hj, hij⟩ := (le_float_iff x y).1 h
    show (ofFloat x).rounded ≤ (ofFloat y).rounded
    rw [ofFloat_eq, ofFloat_eq]
    exact rounded_le_of_place (held_unpack x) (held_unpack y) hi hj hij
  rounded_zero := by
    show (Binary64.finite false 0 (-1074)).rounded = 0
    have hround : Decimal.roundDiv .up (quotient 0 (-1074)).1 (quotient 0 (-1074)).2 = 0 :=
      roundDiv_zero (quotient_pos 0 (-1074))
    rw [rounded_finite, hround]
    decide
  rounded_le x := (rounded_bounds (ofFloat x)).2
  ofWord_zero := rfl
  ofWord_pos {n} h := by
    have hne : n.toNat ≠ 0 := (UInt64.lt_iff_toNat_lt.1 h).ne'
    refine lt_zero_float.2 ?_
    show ∃ i ∈ place? (Float.ofNat n.toNat).toModel.unpack, _
    rw [unpack_ofNat hne n.toNat_lt, place?_carried]
    refine ⟨_, rfl, ?_⟩
    split
    · exact lt_of_not_ge fun h => absurd (placeAt_le_iff.1 h) (by omega)
    · exact lt_of_not_ge fun h => absurd (placeAt_le_iff.1 h) (by omega)

end NodeTelemetry.Scalar
