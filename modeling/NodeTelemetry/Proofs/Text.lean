import NodeTelemetry.Text

/-!
White space around a text, and decimal digits. What is cut off a text is white space by its Unicode
property, and the text stays that neither begins nor ends with it. Digits that do not begin with a
superfluous zero are those of the number that they stand for.
-/

set_option autoImplicit false

namespace NodeTelemetry.Text

/-! ### White space -/

def whiteSpace : List Nat :=
  [0x09, 0x0a, 0x0b, 0x0c, 0x0d, 0x20, 0x85, 0xa0, 0x1680, 0x2000, 0x2001, 0x2002, 0x2003, 0x2004,
    0x2005, 0x2006, 0x2007, 0x2008, 0x2009, 0x200a, 0x2028, 0x2029, 0x202f, 0x205f, 0x3000]

def IsWhiteSpace (c : Char) : Prop := c.toNat ∈ whiteSpace

theorem isBlank_of_isWhiteSpace {c : Char} (h : IsWhiteSpace c) : isBlank c = true := by
  have hall : ∀ n ∈ whiteSpace, isBlank (Char.ofNat n) = true := by
    decide
  rw [← Char.ofNat_toNat c]
  exact hall c.toNat h

theorem trimmed_eq {before text after tail init : List Char} {first last : Char}
    (hbefore : ∀ c ∈ before, isBlank c = true) (hafter : ∀ c ∈ after, isBlank c = true)
    (htail : text = first :: tail) (hfirst : isBlank first = false) (hinit : text = init ++ [last])
    (hlast : isBlank last = false) : trimmed (before ++ text ++ after) = text := by
  have hfront : (before ++ text ++ after).dropWhile isBlank = text ++ after := by
    rw [List.append_assoc, List.dropWhile_append_of_pos hbefore, htail, List.cons_append,
      List.dropWhile_cons_of_neg (Bool.not_eq_true _ ▸ hfirst)]
  have hback : (text ++ after).reverse.dropWhile isBlank = text.reverse := by
    rw [List.reverse_append, List.dropWhile_append_of_pos fun c hc => hafter c (List.mem_reverse.1 hc),
      hinit, List.reverse_append, List.reverse_singleton, List.singleton_append,
      List.dropWhile_cons_of_neg (Bool.not_eq_true _ ▸ hlast)]
  rw [trimmed, hfront, hback, List.reverse_reverse]

/-! ### Decimal digits -/

variable {c : Char} {digits : List Char}

theorem toNat_of_isDigit (h : c.isDigit = true) : 48 ≤ c.toNat ∧ c.toNat ≤ 57 := by
  simpa [Char.isDigit, UInt32.le_iff_toNat_le] using h

theorem isDigit_of_mem_toDigits {n : Nat} : ∀ c ∈ Nat.toDigits 10 n, c.isDigit = true :=
  fun _ h => Nat.isDigit_of_mem_toDigits (by decide) (by decide) h

theorem toList_toString (n : Nat) : (toString n).toList = Nat.toDigits 10 n := by
  rw [Nat.toString_eq_ofList_toDigits, String.toList_ofList]

private theorem digitChar_of_isDigit (h : c.isDigit = true) :
    c.toNat - '0'.toNat < 10 ∧ (c.toNat - '0'.toNat).digitChar = c := by
  obtain ⟨hlow, hhigh⟩ := toNat_of_isDigit h
  have hzero : '0'.toNat = 48 := rfl
  have hsmall : c.toNat - '0'.toNat < 10 := by
    omega
  refine ⟨hsmall, Char.toNat_inj.1 ?_⟩
  rw [Nat.toNat_digitChar_of_lt_ten hsmall]
  omega

theorem le_ofDigitChars (digits : List Char) (n : Nat) : n ≤ Nat.ofDigitChars 10 digits n := by
  induction digits generalizing n with
  | nil => exact Nat.le_refl n
  | cons c digits ih =>
    rw [Nat.ofDigitChars_cons]
    refine Nat.le_trans ?_ (ih _)
    omega

private theorem toDigits_append {n : Nat} (hn : 0 < n) (h : ∀ c ∈ digits, c.isDigit = true) :
    Nat.toDigits 10 n ++ digits = Nat.toDigits 10 (Nat.ofDigitChars 10 digits n) := by
  induction digits generalizing n with
  | nil => exact List.append_nil _
  | cons c digits ih =>
    obtain ⟨hsmall, hchar⟩ := digitChar_of_isDigit (h c List.mem_cons_self)
    have hnext : Nat.toDigits 10 n ++ [c] = Nat.toDigits 10 (10 * n + (c.toNat - '0'.toNat)) := by
      rw [← Nat.toDigits_append_toDigits (by decide) hn hsmall, Nat.toDigits_of_lt_base hsmall, hchar]
    have hpos : 0 < 10 * n + (c.toNat - '0'.toNat) := by
      omega
    rw [Nat.ofDigitChars_cons, List.append_cons, hnext]
    exact ih hpos fun c hc => h c (List.mem_cons_of_mem _ hc)

theorem toDigits_ofDigitChars (hsome : digits ≠ []) (h : ∀ c ∈ digits, c.isDigit = true)
    (hzero : digits.head? = some '0' → digits = ['0']) :
    Nat.toDigits 10 (Nat.ofDigitChars 10 digits 0) = digits := by
  obtain ⟨c, digits, rfl⟩ := List.exists_cons_of_ne_nil hsome
  obtain ⟨hsmall, hchar⟩ := digitChar_of_isDigit (h c List.mem_cons_self)
  by_cases hlead : c.toNat - '0'.toNat = 0
  · have hc : c = '0' := by
      rw [← hchar, hlead]
      rfl
    rw [hzero (congrArg some hc)]
    rfl
  · rw [Nat.ofDigitChars_cons, Nat.mul_zero, Nat.zero_add,
      ← toDigits_append (Nat.pos_of_ne_zero hlead) fun c hc => h c (List.mem_cons_of_mem _ hc),
      Nat.toDigits_of_lt_base hsmall, hchar]
    rfl

theorem toDigits_eq_zero_of_head {n : Nat} (h : (Nat.toDigits 10 n).head? = some '0') :
    Nat.toDigits 10 n = ['0'] := by
  induction n using Nat.strongRecOn with
  | ind n ih =>
    by_cases hsmall : n < 10
    · rw [Nat.toDigits_of_lt_base hsmall] at h ⊢
      exact congrArg ([·]) (Option.some.inj h)
    · obtain ⟨c, digits, hdigits⟩ := List.exists_cons_of_ne_nil (@Nat.toDigits_ne_nil (n / 10) 10)
      have hhead : (Nat.toDigits 10 (n / 10)).head? = some '0' := by
        rw [Nat.toDigits_of_base_le (by decide) (Nat.le_of_not_lt hsmall), hdigits] at h
        rw [hdigits]
        exact h
      have hzero : n / 10 = 0 := by
        rw [← @Nat.ofDigitChars_ten_toDigits (n / 10), ih (n / 10) (by omega) hhead]
        rfl
      omega
end NodeTelemetry.Text
