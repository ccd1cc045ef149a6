import NodeTelemetry.Readout
import NodeTelemetry.Proofs.Scalar.FloatOrder
import NodeTelemetry.Proofs.Scalar.Rounding

/-!
Words as scalars. A scalar with `LawfulWords` takes 64-bit words in without changing their order,
though it may put two of them at one place. Exact rationals do so, and so do floats: beyond 53 bits a
word is rounded, which never carries it past a larger one.
-/

set_option autoImplicit false

namespace NodeTelemetry.Binary64

open Float.Model Float.Model.UnpackedFloat

/-! ### Rounding off the last bits -/

/-- Where an extended mantissa stands, in quarters of its last bit. The sticky bit stands for any part
of a half and counts as a quarter. -/
private def quarters (mantissa : ExtendedMantissa) : Nat :=
  4 * mantissa.mantissa + 2 * mantissa.roundBit.toNat + mantissa.stickyBit.toNat

private theorem quarters_shiftRightOne (mantissa : ExtendedMantissa) :
    quarters mantissa.shiftRightOne =
      2 * (quarters mantissa / 4) + min 1 (quarters mantissa % 4) := by
  rcases mantissa with ⟨m, _ | _, _ | _⟩ <;> rcases Nat.mod_two_eq_zero_or_one m with hm | hm <;>
    simp [quarters, ExtendedMantissa.shiftRightOne, hm] <;> omega

private theorem quarters_shiftRight_mono {first second : ExtendedMantissa}
    (h : quarters first ≤ quarters second) (k : Nat) :
    quarters (first >>> k) ≤ quarters (second >>> k) := by
  induction k with
  | zero => exact h
  | succ k ih =>
    show quarters (first >>> k).shiftRightOne ≤ quarters (second >>> k).shiftRightOne
    rw [quarters_shiftRightOne, quarters_shiftRightOne]
    omega

private theorem roundedMantissa_mono {first second : ExtendedMantissa}
    (h : quarters first ≤ quarters second) : first.roundedMantissa ≤ second.roundedMantissa := by
  rcases first with ⟨m, _ | _, _ | _⟩ <;> rcases second with ⟨n, _ | _, _ | _⟩ <;>
    simp [quarters, ExtendedMantissa.roundedMantissa, ExtendedMantissa.accuracy,
      Accuracy.roundToNearestEven] at h ⊢ <;> omega

/-- A mantissa without its last `k` bits, rounded to the nearest. -/
def roundedOff (m k : Nat) : Nat :=
  (ExtendedMantissa.ofMantissaAndAccuracy m .exact >>> k).roundedMantissa

private theorem roundedOff_mono {m n : Nat} (h : m ≤ n) (k : Nat) :
    roundedOff m k ≤ roundedOff n k :=
  roundedMantissa_mono (quarters_shiftRight_mono (by simp [quarters,
    ExtendedMantissa.ofMantissaAndAccuracy, h]) k)

private theorem ofMantissa_shiftRight (m k : Nat) :
    ExtendedMantissa.ofMantissaAndAccuracy (m * 2 ^ k) .exact >>> k =
      ExtendedMantissa.ofMantissaAndAccuracy m .exact := by
  induction k generalizing m with
  | zero => rw [pow_zero, mul_one]; rfl
  | succ k ih =>
    show (ExtendedMantissa.ofMantissaAndAccuracy (m * 2 ^ (k + 1)) .exact >>> k).shiftRightOne = _
    rw [pow_succ', ← mul_assoc, ih]
    simp [ExtendedMantissa.shiftRightOne, ExtendedMantissa.ofMantissaAndAccuracy]

private theorem roundedOff_mul (m k : Nat) : roundedOff (m * 2 ^ k) k = m := by
  rw [roundedOff, ofMantissa_shiftRight]
  rfl

private theorem log2_mul_two_pow {n : Nat} (hne : n ≠ 0) (k : Nat) :
    (n * 2 ^ k).log2 = n.log2 + k := by
  obtain ⟨hlow, hhigh⟩ := (Nat.log2_eq_iff hne).1 rfl
  have hpos : 0 < 2 ^ k := Nat.two_pow_pos k
  refine (Nat.log2_eq_iff (Nat.mul_pos (Nat.pos_of_ne_zero hne) hpos).ne').2 ⟨?_, ?_⟩
  · rw [pow_add]
    exact Nat.mul_le_mul_right _ hlow
  · rw [Nat.add_right_comm, pow_add]
    exact Nat.mul_lt_mul_of_pos_right hhigh hpos

private theorem roundedOff_bounds {m k : Nat} (hlog : m.log2 = 52 + k) :
    2 ^ 52 ≤ roundedOff m k ∧ roundedOff m k ≤ 2 ^ 53 := by
  have hne : m ≠ 0 := by
    rintro rfl
    simp at hlog
    omega
  obtain ⟨hlow, hhigh⟩ := (Nat.log2_eq_iff hne).1 hlog
  constructor
  · rw [← roundedOff_mul (2 ^ 52) k]
    exact roundedOff_mono (by rwa [← pow_add]) k
  · rw [← roundedOff_mul (2 ^ 53) k]
    refine roundedOff_mono ?_ k
    rw [← pow_add]
    have hsum : 52 + k + 1 = 53 + k := by omega
    exact (hsum ▸ hhigh).le

/-! ### Rounding to 53 bits -/

/-- The float of a mantissa that rounding may have carried to one more bit. -/
def carried (m : Nat) (e : Int) : UnpackedFloat :=
  if h : 2 ^ 52 ≤ m ∧ m < 2 ^ 53 then .finite .positive m e (by omega)
  else .finite .positive (2 ^ 52) (e + 1) (by decide)

private theorem shiftToTargetExponent_eq {m k : Nat} {e : Int} (hlog : m.log2 = 52 + k)
    (he : -1074 ≤ e + k) :
    shiftToTargetExponent Format.binary64 m e .exact =
      (ExtendedMantissa.ofMantissaAndAccuracy m .exact >>> k, e + k) := by
  have htarget : Format.binary64.targetExponent (totalExponent m e) = e + k := by
    simp only [Format.targetExponent, totalExponent, Format.mantissaBits, Format.minExponent, hlog]
    omega
  have hshift : (e + k - e).toNat = k := by omega
  rw [shiftToTargetExponent, htarget, shiftToExponent, hshift]

private theorem log2_of_bounds {m : Nat} (h : 2 ^ 52 ≤ m ∧ m < 2 ^ 53) : m.log2 = 52 :=
  (Nat.log2_eq_iff (by omega)).2 h

/-- The float of a mantissa and an exponent that were shifted into place. -/
def ofShifted (shifted : ExtendedMantissa × Int) : UnpackedFloat :=
  if h : shifted.1.mantissa = 0 then .zero .positive
  else .finite .positive shifted.1.mantissa shifted.2 (Nat.pos_of_ne_zero h)

/-- A second shift mends what rounding has carried over. -/
theorem ofShifted_shiftToTargetExponent {m : Nat} {e : Int} (hlow : 2 ^ 52 ≤ m)
    (hhigh : m ≤ 2 ^ 53) (he : -1074 ≤ e) :
    ofShifted (shiftToTargetExponent Format.binary64 m e .exact) = carried m e := by
  rcases hhigh.lt_or_eq with hlt | rfl
  · have hlog : m.log2 = 52 + 0 := log2_of_bounds ⟨hlow, hlt⟩
    have hne : (ExtendedMantissa.ofMantissaAndAccuracy m .exact >>> 0).mantissa ≠ 0 := by
      show m ≠ 0
      omega
    rw [shiftToTargetExponent_eq hlog (by omega), ofShifted, dif_neg hne, carried,
      dif_pos ⟨hlow, hlt⟩]
    congr 1
    omega
  · have hlog : (2 ^ 53 : Nat).log2 = 52 + 1 := Nat.log2_two_pow
    rw [shiftToTargetExponent_eq hlog (by omega)]
    rfl

private theorem roundWithAccuracy_eq {m k : Nat} {e : Int} (hlog : m.log2 = 52 + k)
    (he : -1074 ≤ e + k) :
    roundWithAccuracy Format.binary64 .positive m e .exact = carried (roundedOff m k) (e + k) := by
  obtain ⟨hlow, hhigh⟩ := roundedOff_bounds hlog
  have hfirst := shiftToTargetExponent_eq hlog he
  calc
    roundWithAccuracy Format.binary64 .positive m e .exact =
        ofShifted (shiftToTargetExponent Format.binary64
          (shiftToTargetExponent Format.binary64 m e .exact).1.roundedMantissa
          (shiftToTargetExponent Format.binary64 m e .exact).2 .exact) := rfl
    _ = ofShifted (shiftToTargetExponent Format.binary64 (roundedOff m k) (e + k) .exact) := by
      rw [hfirst]
      rfl
    _ = carried (roundedOff m k) (e + k) := ofShifted_shiftToTargetExponent hlow hhigh he

private theorem roundWithAccuracy_mul {m k : Nat} {e : Int} (hm : 2 ^ 52 ≤ m ∧ m < 2 ^ 53)
    (he : -1074 ≤ e + k) :
    roundWithAccuracy Format.binary64 .positive (m * 2 ^ k) e .exact = carried m (e + k) := by
  have hlog : (m * 2 ^ k).log2 = 52 + k := by
    rw [log2_mul_two_pow (by omega), log2_of_bounds hm]
  rw [roundWithAccuracy_eq hlog he, roundedOff_mul]

/-! ### Packing -/

private theorem unpackSign_packComponents (sign : Sign) (exponent : BitVec 11)
    (mantissa : BitVec 52) :
    unpackSign (packComponents Format.binary64 sign exponent mantissa) = sign.toBitVec := by
  show (sign.toBitVec ++ exponent ++ mantissa).extractLsb' 63 1 = sign.toBitVec
  rw [BitVec.extractLsb'_append_eq_of_le (by decide), BitVec.extractLsb'_append_eq_of_le (by decide)]
  cases sign <;> rfl

theorem toNat_one_append (m : BitVec 52) : (1#1 ++ m).toNat = 2 ^ 52 + m.toNat := by
  rw [BitVec.toNat_append, Nat.shiftLeft_eq]
  show 1 * 2 ^ 52 ||| m.toNat = _
  rw [one_mul, Nat.or_comm, Nat.or_two_pow_eq_add_of_lt m.isLt, Nat.add_comm]

private theorem unpack_pack_finite {m : Nat} {e : Int} (hm : 2 ^ 52 ≤ m ∧ m < 2 ^ 53)
    (hlow : -1074 ≤ e) (hhigh : e ≤ 971) (hpos : 0 < m) :
    (Float.Model.pack (.finite .positive m e hpos)).unpack = .finite .positive m e hpos := by
  have hbiased : ∀ n : Int, n = e + 1023 + 52 → n.toNat < 2047 ∧ 0 < n.toNat := by omega
  have hfits : ¬2 ^ Format.binary64.exponentBits ≤
      (e + Format.binary64.exponentBias + Format.binary64.mantissaBitsWithoutImplicit).toNat + 1 := by
    show ¬2048 ≤ (e + 1023 + 52).toNat + 1
    omega
  have hexponent : (BitVec.ofNat 11 (e + 1023 + 52).toNat).toNat = (e + 1075).toNat := by
    rw [BitVec.toNat_ofNat]
    omega
  have hnotFull : BitVec.ofNat 11 (e + 1023 + 52).toNat ≠ -1#11 := by
    intro h
    have hnat := congrArg BitVec.toNat h
    rw [hexponent] at hnat
    have hfull : (-1#11).toNat = 2047 := rfl
    omega
  have hnotZero : BitVec.ofNat 11 (e + 1023 + 52).toNat ≠ 0#11 := by
    intro h
    have hnat := congrArg BitVec.toNat h
    rw [hexponent] at hnat
    have hzero : (0#11).toNat = 0 := rfl
    omega
  have hmantissa : (1#1 ++ BitVec.ofNat 52 m).toNat = m := by
    rw [toNat_one_append, BitVec.toNat_ofNat]
    omega
  have hpacked : UnpackedFloat.pack Format.binary64 (.finite .positive m e hpos) =
      packComponents Format.binary64 .positive (BitVec.ofNat 11 (e + 1023 + 52).toNat)
        (BitVec.ofNat 52 m) := by
    simp only [UnpackedFloat.pack, if_neg hfits, log2_of_bounds hm]
    exact if_pos rfl
  show UnpackedFloat.unpack Format.binary64 (UnpackedFloat.pack Format.binary64 _) = _
  rw [hpacked]
  simp only [UnpackedFloat.unpack, unpackMantissa_packComponents, unpackExponent_packComponents,
    unpackSign_packComponents]
  rw [if_neg hnotFull, if_neg hnotZero]
  have hback : ((BitVec.ofNat 11 (e + 1023 + 52).toNat).toNat : Int) -
      (Format.binary64.exponentBias + Format.binary64.mantissaBitsWithoutImplicit) = e := by
    rw [hexponent]
    show ((e + 1075).toNat : Int) - (1023 + 52) = e
    omega
  simp only [hback, hmantissa]
  rfl

private theorem unpack_pack_carried {m : Nat} {e : Int} (hlow : -1074 ≤ e) (hhigh : e ≤ 970) :
    (Float.Model.pack (carried m e)).unpack = carried m e := by
  unfold carried
  split
  next hm => exact unpack_pack_finite hm hlow (by omega) _
  next => exact unpack_pack_finite ⟨le_rfl, by decide⟩ (by omega) (by omega) _

/-! ### Whole numbers -/

private theorem scaled_bounds {n : Nat} (hne : n ≠ 0) (hlog : n.log2 ≤ 52) :
    2 ^ 52 ≤ n * 2 ^ (52 - n.log2) ∧ n * 2 ^ (52 - n.log2) < 2 ^ 53 := by
  obtain ⟨hlow, hhigh⟩ := (Nat.log2_eq_iff hne).1 rfl
  have hpos : 0 < 2 ^ (52 - n.log2) := Nat.two_pow_pos _
  have hfirst : n.log2 + (52 - n.log2) = 52 := by omega
  have hsecond : n.log2 + 1 + (52 - n.log2) = 53 := by omega
  constructor
  · calc
      2 ^ 52 = 2 ^ n.log2 * 2 ^ (52 - n.log2) := by rw [← pow_add, hfirst]
      _ ≤ n * 2 ^ (52 - n.log2) := Nat.mul_le_mul_right _ hlow
  · calc
      n * 2 ^ (52 - n.log2) < 2 ^ (n.log2 + 1) * 2 ^ (52 - n.log2) :=
        Nat.mul_lt_mul_of_pos_right hhigh hpos
      _ = 2 ^ 53 := by rw [← pow_add, hsecond]

private theorem round_small {n : Nat} (hne : n ≠ 0) (hlog : n.log2 ≤ 52) :
    UnpackedFloat.round Format.binary64 .positive n 0 =
      carried (n * 2 ^ (52 - n.log2)) (n.log2 - 52) := by
  have htarget : Format.binary64.targetExponent (totalExponent n 0) = n.log2 - 52 := by
    simp only [Format.targetExponent, totalExponent, Format.mantissaBits, Format.minExponent]
    omega
  have hshift : (0 - ((n.log2 : Int) - 52)).toNat = 52 - n.log2 := by omega
  have hexponent : (0 : Int) - ((52 - n.log2 : Nat) : Int) = n.log2 - 52 := by omega
  have hround := roundWithAccuracy_mul (k := 0) (e := (n.log2 : Int) - 52)
    (scaled_bounds hne hlog) (by omega)
  rw [pow_zero, mul_one] at hround
  rw [UnpackedFloat.round, htarget, decreaseExponent, hshift, hexponent, Nat.shiftLeft_eq]
  simpa using hround

private theorem unpack_one : (Float.ofBits 0x3FF0000000000000).toModel.unpack =
    .finite .positive (2 ^ 52) (-52) (by decide) := rfl

private theorem unpack_ofNat_small {n : Nat} (hne : n ≠ 0) (hlt : n < 2 ^ 53) :
    (Float.ofNat n).toModel.unpack = carried (n * 2 ^ (52 - n.log2)) (n.log2 - 52) := by
  have hlog : n.log2 ≤ 52 := Nat.le_of_lt_succ ((Nat.log2_lt hne).2 hlt)
  have hbounds := scaled_bounds hne hlog
  have hcarried : carried (n * 2 ^ (52 - n.log2)) (n.log2 - 52) =
      .finite .positive (n * 2 ^ (52 - n.log2)) (n.log2 - 52) (by omega) := dif_pos hbounds
  have hofNat : Float.ofNat n = n.toUInt64.toFloat * Float.ofBits 0x3FF0000000000000 := by
    show Float.ofScientific n false 0 = _
    rw [Float.ofScientific, dif_pos ⟨hlt, Nat.zero_le _⟩]
    rfl
  have hword : n.toUInt64.toNat = n := UInt64.toNat_ofNat_of_lt (by
    show n < 2 ^ 64
    omega)
  have hpositive : compare (n : Int) 0 = .gt := Int.compare_eq_gt.2 (by omega)
  have hunpack : n.toUInt64.toFloat.toModel.unpack =
      carried (n * 2 ^ (52 - n.log2)) (n.log2 - 52) := by
    have hnormal : UnpackedFloat.normalize Format.binary64 n 0 .positive =
        UnpackedFloat.round Format.binary64 .positive n 0 := by
      simp only [UnpackedFloat.normalize, hpositive, Int.toNat_natCast]
    show (Float.Model.pack (UnpackedFloat.normalize Format.binary64 (n.toUInt64.toNat : Int) 0
      .positive)).unpack = _
    rw [hword, hnormal, round_small hne hlog, unpack_pack_carried (by omega) (by omega)]
  have hproduct := roundWithAccuracy_mul (k := 52) (e := (n.log2 : Int) - 52 + -52) hbounds
    (by omega)
  have hexponent : (n.log2 : Int) - 52 + -52 + (52 : Nat) = n.log2 - 52 := by omega
  rw [hexponent] at hproduct
  rw [hofNat]
  show (Float.Model.pack (mul Format.binary64 n.toUInt64.toFloat.toModel.unpack
    (Float.ofBits 0x3FF0000000000000).toModel.unpack)).unpack = _
  rw [hunpack, unpack_one, hcarried]
  show (Float.Model.pack (roundWithAccuracy Format.binary64 .positive _ _ .exact)).unpack = _
  rw [hproduct, unpack_pack_carried (by omega) (by omega), hcarried]

private theorem log2_mul_two_pow_53 {n : Nat} (hne : n ≠ 0) :
    (n * 2 ^ 53).log2 = 52 + (n.log2 + 1) := by
  rw [log2_mul_two_pow hne]
  omega

theorem unpack_ofNat {n : Nat} (hne : n ≠ 0) (hlt : n < 2 ^ 64) :
    (Float.ofNat n).toModel.unpack =
      carried (roundedOff (n * 2 ^ 53) (n.log2 + 1)) (n.log2 - 52) := by
  by_cases hsmall : n < 2 ^ 53
  · have hlog : n.log2 ≤ 52 := Nat.le_of_lt_succ ((Nat.log2_lt hne).2 hsmall)
    have hscaled : n * 2 ^ 53 = n * 2 ^ (52 - n.log2) * 2 ^ (n.log2 + 1) := by
      have hsum : 52 - n.log2 + (n.log2 + 1) = 53 := by omega
      rw [mul_assoc, ← pow_add, hsum]
    rw [unpack_ofNat_small hne hsmall, hscaled, roundedOff_mul]
  · have hlog : n.log2 < 64 := (Nat.log2_lt hne).2 hlt
    have hofNat : Float.ofNat n = Float.ofModel (.ofScientific n 0) := by
      show Float.ofScientific n false 0 = _
      rw [Float.ofScientific, dif_neg fun h => hsmall h.1]
      rfl
    have hround := roundWithAccuracy_eq (e := -53) (log2_mul_two_pow_53 hne) (by omega)
    have hexponent : (-53 : Int) + (n.log2 + 1 : Nat) = n.log2 - 52 := by omega
    rw [hexponent] at hround
    have hscientific : UnpackedFloat.ofScientific Format.binary64 n 0 =
        roundWithAccuracy Format.binary64 .positive (n * 2 ^ 53) (-53) .exact := by
      have hsafe : ¬(0 : Int) < -(2 ^ 11 + (n.log2 : Int)) := by
        omega
      rw [UnpackedFloat.ofScientific, dif_neg hne, if_neg (by decide), if_neg hsafe, if_pos le_rfl]
      show roundWithAccuracy Format.binary64 .positive (n <<< 53 * 1) (-53 + 0) .exact = _
      rw [mul_one, Nat.shiftLeft_eq]
      rfl
    rw [hofNat]
    show (Float.Model.pack (UnpackedFloat.ofScientific Format.binary64 n 0)).unpack = _
    rw [hscientific, hround, unpack_pack_carried (by omega) (by omega)]

end NodeTelemetry.Binary64

namespace NodeTelemetry.Scalar

open NodeTelemetry.Binary64

theorem place?_carried (m : Nat) (e : Int) :
    place? (carried m e) = some (if 2 ^ 52 ≤ m ∧ m < 2 ^ 53 then placeAt 1 e m
      else placeAt 1 (e + 1) (2 ^ 52 : Nat)) := by
  by_cases h : 2 ^ 52 ≤ m ∧ m < 2 ^ 53
  · rw [carried, dif_pos h, if_pos h]
    rfl
  · rw [carried, dif_neg h, if_neg h]
    rfl

/-- Between mantissas of 53 bits the exponent decides first, and a carry goes at most as far as the
next exponent. -/
theorem place_carried_mono {m m' : Nat} {e e' : Int} (hm : 2 ^ 52 ≤ m ∧ m ≤ 2 ^ 53)
    (hm' : 2 ^ 52 ≤ m' ∧ m' ≤ 2 ^ 53) (h : e < e' ∨ e = e' ∧ m ≤ m') :
    ∃ i ∈ place? (carried m e), ∃ j ∈ place? (carried m' e'), i ≤ j := by
  rw [place?_carried, place?_carried]
  refine ⟨_, rfl, _, rfl, ?_⟩
  split <;> split <;> rw [placeAt_le_iff] <;> omega

private theorem log2_mono {m n : Nat} (hne : m ≠ 0) (h : m ≤ n) : m.log2 ≤ n.log2 :=
  (Nat.le_log2 (by omega)).2 ((Nat.log2_self_le hne).trans h)

private theorem ofNat_float_mono {m n : Nat} (h : m ≤ n) (hlt : n < 2 ^ 64) :
    le (Float.ofNat m) (Float.ofNat n) = true := by
  rw [le_float_iff, placeOf?, placeOf?]
  rcases Nat.eq_zero_or_pos m with rfl | hm
  · rcases Nat.eq_zero_or_pos n with rfl | hn
    · exact ⟨placeAt 0 0 0, rfl, placeAt 0 0 0, rfl, le_rfl⟩
    · rw [unpack_ofNat hn.ne' hlt, place?_carried]
      refine ⟨placeAt 0 0 0, rfl, _, rfl, ?_⟩
      split <;> exact placeAt_le_iff.2 (.inl (by decide))
  · have hm0 : m ≠ 0 := hm.ne'
    have hn0 : n ≠ 0 := by omega
    have hmBounds := roundedOff_bounds (log2_mul_two_pow_53 hm0)
    have hnBounds := roundedOff_bounds (log2_mul_two_pow_53 hn0)
    rw [unpack_ofNat hm0 (by omega), unpack_ofNat hn0 hlt]
    refine place_carried_mono hmBounds hnBounds ?_
    rcases (log2_mono hm0 h).lt_or_eq with hlog | hlog
    · left
      omega
    · right
      rw [hlog]
      exact ⟨rfl, roundedOff_mono (Nat.mul_le_mul_right _ h) _⟩

instance : LawfulWords Float where
  ofWord_mono {_ n} h := ofNat_float_mono (UInt64.le_iff_toNat_le.1 h) n.toNat_lt

end NodeTelemetry.Scalar
