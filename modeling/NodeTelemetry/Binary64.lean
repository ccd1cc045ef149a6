/-!
Double-precision numbers, read exactly. A word is a sign, a whole significand and a power of two, or
one of the special values; `Binary64.ofFloat` reads it off the bits. All rounding to whole numbers and
to decimal digits is then done on whole numbers, where nothing is lost: `Decimal.roundDiv` is the one
place of the library where a quotient becomes a whole number.
-/

set_option autoImplicit false

namespace NodeTelemetry.Word

/-! ### The ranges of 64 bits -/

def largest : Nat := 18446744073709551615

def smallestSigned : Int := -9223372036854775808

def largestSigned : Int := 9223372036854775807

theorem le_largest_iff {n : Nat} : n ≤ largest ↔ ∃ word : UInt64, word.toNat = n := by
  constructor
  · intro h
    refine ⟨n.toUInt64, UInt64.toNat_ofNat_of_lt ?_⟩
    exact Nat.lt_succ_of_le h
  · rintro ⟨word, rfl⟩
    exact Nat.le_of_lt_succ word.toNat_lt_size

end NodeTelemetry.Word

namespace NodeTelemetry.Decimal

/-! ### Rounding of quotients -/

/-- Where a quotient exactly half way between two whole numbers goes. -/
inductive Tie where
  | toEven
  /-- To the larger neighbour, which is away from zero for a magnitude. -/
  | up
  deriving Repr, DecidableEq

def Tie.goesUp : Tie → Nat → Bool
  | .toEven, q => q % 2 == 1
  | .up, _ => true

/-- The whole number nearest to `num / den`, a tie going where `tie` says. -/
def roundDiv (tie : Tie) (num den : Nat) : Nat :=
  let q := num / den
  let r := num % den
  if 2 * r < den then q
  else if den < 2 * r then q + 1
  else if tie.goesUp q then q + 1 else q

example : (List.range 5).map (fun n => roundDiv .toEven n 2) = [0, 0, 1, 2, 2] := by decide
example : (List.range 5).map (fun n => roundDiv .up n 2) = [0, 1, 1, 2, 2] := by decide

end NodeTelemetry.Decimal

namespace NodeTelemetry

/-! ### Double-precision numbers -/

inductive Binary64 where
  | nan
  | infinite (negative : Bool)
  /-- The number `significand * 2 ^ exponent`, negated where `negative` says so; zero has a sign. -/
  | finite (negative : Bool) (significand : Nat) (exponent : Int)
  deriving Repr, DecidableEq

namespace Binary64

def ofBits (word : Nat) : Binary64 :=
  let negative := decide (Nat.pow 2 63 ≤ word)
  let biased : Nat := word / Nat.pow 2 52 % Nat.pow 2 11
  let fraction : Nat := word % Nat.pow 2 52
  if biased = 2047 then
    if fraction = 0 then .infinite negative else .nan
  else if biased = 0 then .finite negative fraction (-1074)
  else .finite negative (Nat.pow 2 52 + fraction) ((biased : Int) - 1075)

def ofFloat (x : Float) : Binary64 := ofBits x.toBits.toNat

def negative : Binary64 → Bool
  | .nan => false
  | .infinite negative => negative
  | .finite negative _ _ => negative

/-- A magnitude `significand * 2 ^ exponent` as a quotient of whole numbers. -/
def quotient (significand : Nat) (exponent : Int) : Nat × Nat :=
  if 0 ≤ exponent then (significand * Nat.pow 2 exponent.toNat, 1)
  else (significand, Nat.pow 2 (-exponent).toNat)

def signed (negative : Bool) (magnitude : Nat) : Int :=
  if negative then -(magnitude : Int) else magnitude

def clampInt64 (n : Int) : Int := max Word.smallestSigned (min Word.largestSigned n)

/-- A whole number in the 64-bit signed range, by `toWhole` for finite numbers; an infinity goes to an
end of the range and a NaN to zero. -/
private def toInt64 (toWhole : Nat → Nat → Nat) : Binary64 → Int
  | .nan => 0
  | .infinite negative => if negative then Word.smallestSigned else Word.largestSigned
  | .finite negative significand exponent =>
    let (num, den) := quotient significand exponent
    clampInt64 (signed negative (toWhole num den))

/-- The nearest whole number, halves going away from zero, kept in the 64-bit signed range. -/
def rounded : Binary64 → Int := toInt64 (Decimal.roundDiv .up)

def truncated : Binary64 → Int := toInt64 (· / ·)

/-- The whole part as a count: negative numbers and NaN count as none, and no count exceeds 64 bits. -/
def count : Binary64 → Nat
  | .nan => 0
  | .infinite negative => if negative then 0 else Word.largest
  | .finite negative significand exponent =>
    let (num, den) := quotient significand exponent
    if negative then 0 else min (num / den) Word.largest

example : ofBits 0x3ff8000000000000 = .finite false (3 * 2 ^ 51) (-52) := by decide
example : (ofBits 0xc004000000000000).rounded = -3 := by decide
example : (ofBits 0xc004000000000000).truncated = -2 := by decide

end Binary64

end NodeTelemetry
