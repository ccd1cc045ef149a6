import NodeTelemetry.Binary64

/-!
Numbers in JSON texts. A number without fraction and exponent is an integer as long as 64 bits hold it;
any other number is a double-precision one, got by scaling the digits that 64 bits hold by a power of
ten. The scaling rounds once more than the nearest double would ask for.
-/

set_option autoImplicit false

namespace NodeTelemetry.Json

inductive Number where
  /-- A whole number from `-2 ^ 63` to `2 ^ 64 - 1`. -/
  | integer (n : Int)
  | float (x : Binary64)
  deriving Repr, DecidableEq

def digitValue (c : Char) : Nat := c.toNat - '0'.toNat

def fits (significand : Nat) : Bool := significand ≤ Word.largest

/-- Appends the digits of a whole part to a significand. Digits that do not fit only raise the exponent,
which is the second component. -/
def absorbWhole (significand : Nat) : List Char → Nat × Nat
  | [] => (significand, 0)
  | c :: digits =>
    let next := 10 * significand + digitValue c
    if fits next then absorbWhole next digits else (significand, digits.length + 1)

/-- Appends the digits of a fraction to a significand, each lowering the exponent. Digits from the first
one on that does not fit are left out. -/
def absorbFraction (significand : Nat) (exponent : Int) : List Char → Nat × Int
  | [] => (significand, exponent)
  | c :: digits =>
    let next := 10 * significand + digitValue c
    if fits next then absorbFraction next (exponent - 1) digits else (significand, exponent)

def largestScale : Nat := 308

/-- Divides by powers of ten until the exponent is in reach of a single scaling. -/
def scaleDown (x : Float) (exponent : Int) : Float :=
  if exponent < -(largestScale : Int) then
    if x == 0 then x else scaleDown (x / Float.ofScientific 1 false largestScale) (exponent + largestScale)
  else x / Float.ofScientific 1 false (-exponent).toNat
termination_by (-exponent).toNat
decreasing_by
  simp only [largestScale] at *
  omega

/-- The double `significand * 10 ^ exponent`; none where it is too large. -/
def scaled? (significand : Nat) (exponent : Int) : Option Float :=
  let x := Float.ofNat significand
  if exponent < 0 then some (scaleDown x exponent)
  else if exponent ≤ largestScale then
    let y := x * Float.ofScientific 1 false exponent.toNat
    if y.isInf then none else some y
  else if x == 0 then some x
  else none

/-- The largest exponent that is taken at its word; beyond it a number is zero or too large. -/
def largestExponent : Nat := 2147483647

structure Literal where
  negative : Bool
  whole : List Char
  /-- The digits behind the point, if there is one. -/
  fraction : Option (List Char)
  /-- Whether the exponent is negative, and its digits, if there is one. -/
  exponent : Option (Bool × List Char)
  deriving Repr, DecidableEq

namespace Literal

/-- The digits before any exponent as a significand and a power of ten. -/
def significand (literal : Literal) : Nat × Int :=
  let (significand, beyond) := absorbWhole 0 literal.whole
  absorbFraction significand beyond (literal.fraction.getD [])

/-- The size of a number that is written with a fraction, an exponent or too many digits. -/
def magnitude? (literal : Literal) : Option Float :=
  let (significand, exponent) := literal.significand
  match literal.exponent with
  | none => scaled? significand exponent
  | some (negative, digits) =>
    let n := digits.foldl (fun n c => 10 * n + digitValue c) 0
    if n ≤ largestExponent then
      scaled? significand (if negative then exponent - n else exponent + n)
    else if negative || significand == 0 then some 0
    else none

/-- The number that a literal stands for; none where it is too large for a double. -/
def number? (literal : Literal) : Option Number :=
  let (whole, beyond) := absorbWhole 0 literal.whole
  let isWhole := literal.fraction.isNone && literal.exponent.isNone && beyond == 0
  if isWhole && !literal.negative then some (.integer whole)
  else if isWhole && 0 < whole && Word.smallestSigned ≤ -(whole : Int) then some (.integer (-(whole : Int)))
  else do
    let x ← literal.magnitude?
    return .float (.ofFloat (if literal.negative then -x else x))

end Literal

def readDigits? (text : List Char) : Option (List Char × List Char) :=
  match text.takeWhile Char.isDigit with
  | [] => none
  | digits => some (digits, text.dropWhile Char.isDigit)

def readWhole? (text : List Char) : Option (List Char × List Char) := do
  let (digits, rest) ← readDigits? text
  if digits.head? = some '0' ∧ 1 < digits.length then none else some (digits, rest)

def readFraction? (text : List Char) : Option (Option (List Char) × List Char) :=
  match text with
  | '.' :: rest => do
    let (digits, rest) ← readDigits? rest
    return (some digits, rest)
  | _ => some (none, text)

def exponentSign (text : List Char) : Bool × List Char :=
  match text with
  | '-' :: rest => (true, rest)
  | '+' :: rest => (false, rest)
  | _ => (false, text)

def readExponent? (text : List Char) : Option (Option (Bool × List Char) × List Char) :=
  match text with
  | c :: rest =>
    if c = 'e' ∨ c = 'E' then do
      let (negative, rest) := exponentSign rest
      let (digits, rest) ← readDigits? rest
      return (some (negative, digits), rest)
    else some (none, text)
  | [] => some (none, [])

def readUnsigned? (negative : Bool) (text : List Char) : Option (Number × List Char) := do
  let (whole, rest) ← readWhole? text
  let (fraction, rest) ← readFraction? rest
  let (exponent, rest) ← readExponent? rest
  let number ← ({ negative, whole, fraction, exponent } : Literal).number?
  return (number, rest)

theorem length_lt_of_readDigits? {text digits rest : List Char}
    (h : readDigits? text = some (digits, rest)) : rest.length < text.length := by
  unfold readDigits? at h
  split at h
  · cases h
  next hne =>
    simp only [Option.some.injEq, Prod.mk.injEq] at h
    obtain ⟨-, rfl⟩ := h
    have hsplit := congrArg List.length (List.takeWhile_append_dropWhile (p := Char.isDigit) (l := text))
    have hpos : 0 < (text.takeWhile Char.isDigit).length := List.length_pos_iff.2 hne
    simp only [List.length_append] at hsplit
    omega

theorem length_lt_of_readWhole? {text digits rest : List Char}
    (h : readWhole? text = some (digits, rest)) : rest.length < text.length := by
  obtain ⟨⟨found, rest'⟩, hread, hif⟩ := Option.bind_eq_some_iff.1 h
  dsimp only at hif
  split at hif
  · cases hif
  · cases hif
    exact length_lt_of_readDigits? hread

theorem length_le_of_readFraction? {text rest : List Char} {fraction : Option (List Char)}
    (h : readFraction? text = some (fraction, rest)) : rest.length ≤ text.length := by
  unfold readFraction? at h
  split at h
  next behind =>
    obtain ⟨⟨digits, rest'⟩, hread, hsome⟩ := Option.bind_eq_some_iff.1 h
    cases hsome
    exact Nat.le_succ_of_le (Nat.le_of_lt (length_lt_of_readDigits? hread))
  · cases h
    exact Nat.le_refl _

theorem length_exponentSign_le (text : List Char) : (exponentSign text).2.length ≤ text.length := by
  unfold exponentSign
  split <;> simp

theorem length_le_of_readExponent? {text rest : List Char} {exponent : Option (Bool × List Char)}
    (h : readExponent? text = some (exponent, rest)) : rest.length ≤ text.length := by
  unfold readExponent? at h
  split at h
  next c behind =>
    split at h
    · obtain ⟨⟨digits, rest'⟩, hread, hsome⟩ := Option.bind_eq_some_iff.1 h
      cases hsome
      have hsign := length_exponentSign_le behind
      have hdigits : rest.length < (exponentSign behind).2.length :=
        length_lt_of_readDigits? hread
      simp only [List.length_cons]
      omega
    · cases h
      exact Nat.le_refl _
  · cases h
    exact Nat.le_refl _

theorem length_lt_of_readUnsigned? {negative : Bool} {text rest : List Char} {number : Number}
    (h : readUnsigned? negative text = some (number, rest)) : rest.length < text.length := by
  obtain ⟨⟨whole, r₁⟩, hwhole, h⟩ := Option.bind_eq_some_iff.1 h
  obtain ⟨⟨fraction, r₂⟩, hfraction, h⟩ := Option.bind_eq_some_iff.1 h
  obtain ⟨⟨exponent, r₃⟩, hexponent, h⟩ := Option.bind_eq_some_iff.1 h
  obtain ⟨n, hn, hsome⟩ := Option.bind_eq_some_iff.1 h
  cases hsome
  have h₁ := length_lt_of_readWhole? hwhole
  have h₂ := length_le_of_readFraction? hfraction
  have h₃ := length_le_of_readExponent? hexponent
  omega

end NodeTelemetry.Json
