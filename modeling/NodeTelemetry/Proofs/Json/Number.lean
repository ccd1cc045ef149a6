import NodeTelemetry.Proofs.Json.Grammar
import NodeTelemetry.Proofs.Text

/-!
Numbers in JSON texts. A number is read up to its end, as far as it is not too large. It reads as an
integer if it is written as a plain one that 64 bits hold, and else as none.
-/

set_option autoImplicit false

namespace NodeTelemetry.Json

/-! ### Reading to the end -/

def NoDigit (text : List Char) : Prop := ∀ c ∈ text.head?, c.isDigit = false

def EndsNumber (text : List Char) : Prop :=
  ∀ c ∈ text.head?, c.isDigit = false ∧ c ≠ '.' ∧ c ≠ 'e' ∧ c ≠ 'E'

private theorem readDigits?_append {digits rest : List Char} (h : IsNumeral digits)
    (hrest : NoDigit rest) : readDigits? (digits ++ rest) = some (digits, rest) := by
  have hstop : rest.takeWhile Char.isDigit = [] ∧ rest.dropWhile Char.isDigit = rest := by
    cases rest with
    | nil => exact ⟨rfl, rfl⟩
    | cons c rest =>
      have hc : ¬c.isDigit = true := Bool.not_eq_true _ ▸ hrest c rfl
      exact ⟨List.takeWhile_cons_of_neg hc, List.dropWhile_cons_of_neg hc⟩
  obtain ⟨hsome, hdigits⟩ := h
  rw [readDigits?, List.takeWhile_append_of_pos hdigits, List.dropWhile_append_of_pos hdigits,
    hstop.1, hstop.2, List.append_nil]
  split
  · contradiction
  · rfl

private theorem readWhole?_append {whole rest : List Char} (h : IsNumeral whole)
    (hzero : whole.head? = some '0' → whole = ['0']) (hrest : NoDigit rest) :
    readWhole? (whole ++ rest) = some (whole, rest) := by
  have hleading : ¬(whole.head? = some '0' ∧ 1 < whole.length) := by
    rintro ⟨hhead, hlong⟩
    rw [hzero hhead] at hlong
    exact absurd hlong (by decide)
  rw [readWhole?, readDigits?_append h hrest]
  exact if_neg hleading

private theorem readFraction?_append {fraction : Option (List Char)} {behind rest : List Char}
    (h : FractionText fraction behind) (hrest : NoDigit rest) (hpoint : rest.head? ≠ some '.') :
    readFraction? (behind ++ rest) = some (fraction, rest) := by
  cases h with
  | none =>
    rw [List.nil_append]
    unfold readFraction?
    split
    · exact absurd rfl hpoint
    · rfl
  | some h =>
    rw [List.cons_append, readFraction?, readDigits?_append h hrest]
    rfl

private theorem exponentSign_append {negative : Bool} {sign digits rest : List Char}
    (hsign : (negative, sign) ∈ [(false, []), (false, ['+']), (true, ['-'])]) (h : IsNumeral digits) :
    exponentSign (sign ++ (digits ++ rest)) = (negative, digits ++ rest) := by
  obtain ⟨hsome, hdigits⟩ := h
  obtain ⟨c, digits, rfl⟩ := List.exists_cons_of_ne_nil hsome
  have hc := hdigits c List.mem_cons_self
  simp only [List.mem_cons, Prod.mk.injEq, List.not_mem_nil, or_false] at hsign
  rcases hsign with ⟨rfl, rfl⟩ | ⟨rfl, rfl⟩ | ⟨rfl, rfl⟩
  · rw [List.nil_append, List.cons_append]
    unfold exponentSign
    split
    next heq =>
      cases heq
      exact absurd hc (by decide)
    next heq =>
      cases heq
      exact absurd hc (by decide)
    · rfl
  · rfl
  · rfl

private theorem readExponent?_append {exponent : Option (Bool × List Char)} {power rest : List Char}
    (h : ExponentText exponent power) (hrest : EndsNumber rest) :
    readExponent? (power ++ rest) = some (exponent, rest) := by
  cases h with
  | none =>
    cases rest with
    | nil => rfl
    | cons c rest =>
      obtain ⟨-, -, hlower, hupper⟩ := hrest c rfl
      exact if_neg fun hmark => hmark.elim hlower hupper
  | @some mark negative sign digits hmark hsign h =>
    have hdigit : NoDigit rest := fun c hc => (hrest c hc).1
    rw [List.append_assoc, List.cons_append, readExponent?, if_pos hmark, exponentSign_append hsign h]
    show (readDigits? (digits ++ rest)).bind _ = _
    rw [readDigits?_append h hdigit]
    rfl

private theorem noDigit_of_exponentText {exponent : Option (Bool × List Char)}
    {power rest : List Char} (h : ExponentText exponent power) (hrest : EndsNumber rest) :
    NoDigit (power ++ rest) ∧ (power ++ rest).head? ≠ some '.' := by
  cases h with
  | none =>
    refine ⟨fun c hc => (hrest c hc).1, fun hpoint => ?_⟩
    obtain ⟨-, hno, -⟩ := hrest '.' hpoint
    exact hno rfl
  | @some mark _ _ _ hmark =>
    have hplain : mark.isDigit = false ∧ mark ≠ '.' := by
      rcases hmark with rfl | rfl <;> decide
    refine ⟨fun c hc => ?_, fun hpoint => ?_⟩
    · cases hc
      exact hplain.1
    · cases hpoint
      exact hplain.2 rfl

private theorem noDigit_of_fractionText {fraction : Option (List Char)} {behind rest : List Char}
    (h : FractionText fraction behind) (hrest : NoDigit rest) : NoDigit (behind ++ rest) := by
  cases h with
  | none => exact hrest
  | some h =>
    intro c hc
    cases hc
    rfl

private theorem readUnsigned?_append {negative : Bool} {whole behind power rest : List Char}
    {fraction : Option (List Char)} {exponent : Option (Bool × List Char)} (hwhole : IsNumeral whole)
    (hzero : whole.head? = some '0' → whole = ['0']) (hfraction : FractionText fraction behind)
    (hexponent : ExponentText exponent power) (hrest : EndsNumber rest) :
    readUnsigned? negative (whole ++ (behind ++ (power ++ rest))) =
      (Literal.number? ⟨negative, whole, fraction, exponent⟩).map (·, rest) := by
  obtain ⟨hpower, hpoint⟩ := noDigit_of_exponentText hexponent hrest
  rw [readUnsigned?, readWhole?_append hwhole hzero (noDigit_of_fractionText hfraction hpower)]
  show (readFraction? (behind ++ (power ++ rest))).bind _ = _
  rw [readFraction?_append hfraction hpower hpoint]
  show (readExponent? (power ++ rest)).bind _ = _
  rw [readExponent?_append hexponent hrest, Option.map_eq_bind]
  rfl

private theorem readToken?_of_isDigit {c : Char} (hc : c.isDigit = true) (rest : List Char) :
    readToken? (c :: rest) =
      (readUnsigned? false (c :: rest)).map fun (n, after) => (.number n, after) := by
  rw [readToken?] <;>
    · intro _ heq
      cases heq
      exact absurd hc (by decide)

theorem readToken?_number {literal : Literal} {text rest : List Char} (h : LiteralText literal text)
    (hrest : EndsNumber rest) :
    readToken? (text ++ rest) = literal.number?.map fun n => (.number n, rest) := by
  obtain @⟨negative, whole, fraction, exponent, behind, power, hwhole, hzero, hfraction, hexponent⟩ := h
  have hunsigned : readUnsigned? negative (whole ++ (behind ++ (power ++ rest))) =
      (Literal.number? ⟨negative, whole, fraction, exponent⟩).map (·, rest) :=
    readUnsigned?_append hwhole hzero hfraction hexponent hrest
  have hread : readToken? ((if negative then ['-'] else []) ++ (whole ++ (behind ++ (power ++ rest)))) =
      (readUnsigned? negative (whole ++ (behind ++ (power ++ rest)))).map fun (n, after) =>
        (.number n, after) := by
    cases negative with
    | true => rfl
    | false =>
      obtain ⟨c, digits, rfl⟩ := List.exists_cons_of_ne_nil hwhole.1
      exact readToken?_of_isDigit (hwhole.2 c List.mem_cons_self) _
  rw [List.append_assoc, List.append_assoc, List.append_assoc, hread, hunsigned, Option.map_map]
  rfl

/-! ### Integers -/

private theorem absorbWhole_of_le {digits : List Char} {n : Nat}
    (h : Nat.ofDigitChars 10 digits n ≤ Word.largest) :
    absorbWhole n digits = (Nat.ofDigitChars 10 digits n, 0) := by
  induction digits generalizing n with
  | nil => rfl
  | cons c digits ih =>
    rw [Nat.ofDigitChars_cons] at h ⊢
    have hfits : fits (10 * n + digitValue c) = true :=
      decide_eq_true (Nat.le_trans (Text.le_ofDigitChars digits _) h)
    rw [absorbWhole, if_pos hfits]
    exact ih h

private theorem absorbWhole_eq_zero {digits : List Char} {n whole : Nat} (hn : n ≤ Word.largest)
    (h : absorbWhole n digits = (whole, 0)) :
    whole = Nat.ofDigitChars 10 digits n ∧ whole ≤ Word.largest := by
  induction digits generalizing n with
  | nil =>
    cases h
    exact ⟨rfl, hn⟩
  | cons c digits ih =>
    rw [absorbWhole] at h
    split at h
    next hfits =>
      rw [Nat.ofDigitChars_cons]
      exact ih (of_decide_eq_true hfits) h
    next => cases h

theorem number?_ofInt {n : Int} (hlow : Word.smallestSigned ≤ n) (hhigh : n ≤ Word.largest) :
    (Literal.ofInt n).number? = some (.integer n) := by
  have hsize : n.natAbs ≤ Word.largest := by
    simp only [Word.smallestSigned, Word.largest] at *
    omega
  have hwhole : absorbWhole 0 (Nat.toDigits 10 n.natAbs) = (n.natAbs, 0) := by
    rw [absorbWhole_of_le] <;> rw [Nat.ofDigitChars_ten_toDigits]
    exact hsize
  rw [Literal.number?, Literal.ofInt]
  simp only [hwhole]
  by_cases hsign : n < 0
  · have habs : -(n.natAbs : Int) = n := by omega
    have hpos : 0 < n.natAbs := by omega
    have hfits : Word.smallestSigned ≤ -(n.natAbs : Int) := habs.symm ▸ hlow
    rw [decide_eq_true hsign, decide_eq_true hpos, decide_eq_true hfits, if_neg (by decide),
      if_pos (by decide), habs]
  · have habs : (n.natAbs : Int) = n := by omega
    rw [decide_eq_false hsign, if_pos (by decide), habs]

private theorem cases_of_number? {literal : Literal} {n : Int}
    (h : literal.number? = some (.integer n)) : literal.fraction = none ∧ literal.exponent = none ∧
      ∃ value, absorbWhole 0 literal.whole = (value, 0) ∧
        (literal.negative = false ∧ n = value ∨
          literal.negative = true ∧ 0 < value ∧ Word.smallestSigned ≤ n ∧ n = -value) := by
  obtain ⟨value, beyond, habsorbed⟩ : ∃ value beyond, absorbWhole 0 literal.whole = (value, beyond) :=
    ⟨_, _, rfl⟩
  simp only [Literal.number?, habsorbed] at h
  split at h
  next hplain =>
    cases h
    simp only [Bool.and_eq_true, Option.isNone_iff_eq_none, beq_iff_eq, Bool.not_eq_true'] at hplain
    obtain ⟨⟨⟨hfraction, hexponent⟩, rfl⟩, hsign⟩ := hplain
    exact ⟨hfraction, hexponent, value, habsorbed, .inl ⟨hsign, rfl⟩⟩
  next hplain =>
    split at h
    next hminus =>
      cases h
      simp only [Bool.and_eq_true, Option.isNone_iff_eq_none, beq_iff_eq, decide_eq_true_eq] at hminus
      obtain ⟨⟨⟨⟨hfraction, hexponent⟩, rfl⟩, hpos⟩, hlow⟩ := hminus
      have hsign : literal.negative = true := by
        simpa [hfraction, hexponent] using hplain
      exact ⟨hfraction, hexponent, value, habsorbed, .inr ⟨hsign, hpos, hlow, rfl⟩⟩
    next =>
      obtain ⟨x, -, hx⟩ := Option.bind_eq_some_iff.1 h
      cases hx

theorem eq_ofInt_of_number? {literal : Literal} {text : List Char} {n : Int}
    (h : LiteralText literal text) (hn : literal.number? = some (.integer n)) :
    literal = .ofInt n ∧ Word.smallestSigned ≤ n ∧ n ≤ Word.largest := by
  obtain @⟨negative, whole, fraction, exponent, -, -, hwhole, hzero, -, -⟩ := h
  obtain ⟨rfl, rfl, value, habsorbed, hvalue⟩ := cases_of_number? hn
  obtain ⟨hdigits, hlargest⟩ := absorbWhole_eq_zero (Nat.zero_le _) habsorbed
  have hwhole : whole = Nat.toDigits 10 value := by
    rw [hdigits, Text.toDigits_ofDigitChars hwhole.1 hwhole.2 hzero]
  simp only [Word.smallestSigned, Word.largest] at *
  rcases hvalue with ⟨rfl, rfl⟩ | ⟨rfl, hpos, hlow, rfl⟩
  · have hsign : ¬(value : Int) < 0 := by omega
    refine ⟨?_, by omega, by omega⟩
    rw [Literal.ofInt, decide_eq_false hsign, Int.natAbs_natCast, hwhole]
  · have hsign : -(value : Int) < 0 := by omega
    refine ⟨?_, hlow, by omega⟩
    rw [Literal.ofInt, decide_eq_true hsign, Int.natAbs_neg, Int.natAbs_natCast, hwhole]

theorem Literal.ofInt_injective {n m : Int} (h : ofInt n = ofInt m) : n = m := by
  simp only [ofInt, Literal.mk.injEq, decide_eq_decide] at h
  obtain ⟨hsign, hdigits, -⟩ := h
  have hsize : n.natAbs = m.natAbs := by
    rw [← @Nat.ofDigitChars_ten_toDigits n.natAbs, hdigits, Nat.ofDigitChars_ten_toDigits]
  omega

theorem literalText_ofInt (n : Int) : LiteralText (.ofInt n) (toString n).toList := by
  have hwhole : IsNumeral (Nat.toDigits 10 n.natAbs) :=
    ⟨Nat.toDigits_ne_nil, Text.isDigit_of_mem_toDigits⟩
  have htext : (toString n).toList =
      (if decide (n < 0) = true then ['-'] else []) ++ Nat.toDigits 10 n.natAbs ++ [] ++ [] := by
    rw [List.append_nil, List.append_nil]
    cases n with
    | ofNat n =>
      have hsign : ¬Int.ofNat n < 0 := Int.not_lt.2 (Int.natCast_nonneg n)
      show (toString n).toList = _
      rw [Text.toList_toString, decide_eq_false hsign]
      rfl
    | negSucc n =>
      show ("-" ++ toString (n + 1)).toList = _
      rw [String.toList_append, Text.toList_toString, decide_eq_true (Int.negSucc_lt_zero n)]
      rfl
  rw [htext]
  exact .parts hwhole Text.toDigits_eq_zero_of_head .none .none

end NodeTelemetry.Json
