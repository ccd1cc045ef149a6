import NodeTelemetry.Binary64

/-!
Decimal texts of binary numbers. With a fixed number of places the digits are those of the exact value
rounded once, a tie going to the even neighbour, and a negative value keeps its sign when it rounds to
zero. All other notations write the shortest digits that read back.

A number occupies an interval of reals that all round to it. For one digit, two digits and so on up to
seventeen, the two neighbours of the number on the grid of decimals with that many digits are tried; the
first grid with a neighbour inside the interval wins, and of two such neighbours the nearer.
-/

set_option autoImplicit false

namespace NodeTelemetry.Decimal

/-! ### Fixed places -/

def leadingZeros (width : Nat) (digits : String) : String :=
  String.ofList (List.replicate (width - digits.length) '0') ++ digits

def sign (negative : Bool) : String := if negative then "-" else ""

def placesText (places units : Nat) : String :=
  let whole := toString (units / Nat.pow 10 places)
  if places = 0 then whole
  else whole ++ "." ++ leadingZeros places (toString (units % Nat.pow 10 places))

def fixedQuotient (places : Nat) (negative : Bool) (num den : Nat) : String :=
  sign negative ++ placesText places (roundDiv .toEven (num * Nat.pow 10 places) den)

def fixed (places : Nat) : Binary64 → String
  | .nan => "NaN"
  | .infinite negative => sign negative ++ "inf"
  | .finite negative significand exponent =>
    let (num, den) := Binary64.quotient significand exponent
    fixedQuotient places negative num den

/-- Widens a number's text to `width` characters by zeros that stand behind its sign. -/
def zeroPadded (width : Nat) (text : String) : String :=
  match text.toList with
  | '-' :: digits => "-" ++ leadingZeros (width - 1) (String.ofList digits)
  | _ => leadingZeros width text

example : fixedQuotient 2 false 12345 1000 = "12.34" := by decide +kernel
example : fixedQuotient 2 true 1 1000 = "-0.00" := by decide +kernel
example : zeroPadded 6 "-1.50" = "-01.50" := by decide +kernel

/-! ### Shortest digits -/

structure Scientific where
  digits : Nat
  exponent : Int
  deriving Repr, DecidableEq

/-- The reals that round to `significand * 2 ^ exponent`, all scaled to whole numbers over `unit`. -/
structure RoundingInterval where
  value : Nat
  low : Nat
  high : Nat
  unit : Nat
  /-- Whether the ends themselves round to the number. -/
  closed : Bool
  deriving Repr, DecidableEq

/-- The rounding interval of a positive number. The gap below a power of two is half the gap above. -/
def RoundingInterval.of (significand : Nat) (exponent : Int) : RoundingInterval :=
  let (num, den) := Binary64.quotient significand exponent
  let (gap, gapDen) := Binary64.quotient 1 exponent
  let value := 4 * num
  let below := if significand = Nat.pow 2 52 ∧ exponent ≠ -1074 then gap else 2 * gap
  { value
    low := value - below * (den / gapDen)
    high := value + 2 * gap * (den / gapDen)
    unit := 4 * den
    closed := significand % 2 == 0 }

def RoundingInterval.contains (interval : RoundingInterval) (n : Nat) : Bool :=
  if interval.closed then interval.low ≤ n && n ≤ interval.high
  else interval.low < n && n < interval.high

def RoundingInterval.scaled (interval : RoundingInterval) (shift : Int) : RoundingInterval :=
  if 0 ≤ shift then
    let factor := Nat.pow 10 shift.toNat
    { interval with
      value := interval.value * factor
      low := interval.low * factor
      high := interval.high * factor }
  else { interval with unit := interval.unit * Nat.pow 10 (-shift).toNat }

/-- The place of the first decimal digit of `num / den`, at least one of whose digits is not zero. -/
def leadingPlace (num den : Nat) : Int :=
  if den ≤ num then ((toString (num / den)).length : Int) - 1
  else
    let zeros := (toString (den / num)).length
    if Nat.pow 10 zeros * num < den then -(zeros : Int) - 1
    else if den ≤ Nat.pow 10 (zeros - 1) * num then -(zeros : Int) + 1
    else -(zeros : Int)

/-- The neighbour of the number on the grid of whole multiples of `10 ^ place` that reads back, if one
does: the nearer of two, `tie` deciding between two at one distance. -/
def gridNeighbour (tie : Tie) (interval : RoundingInterval) (place : Int) : Option Nat :=
  let scaled := interval.scaled (-place)
  let below := scaled.value / scaled.unit
  let inside (n : Nat) : Bool := scaled.contains (n * scaled.unit)
  let nearest := roundDiv tie scaled.value scaled.unit
  if inside below && inside (below + 1) then some nearest
  else if inside below then some below
  else if inside (below + 1) then some (below + 1)
  else none

/-- Tries the grids of one digit more each time, from the given place on; the last grid takes what it
has. -/
def searchGrids (tie : Tie) (interval : RoundingInterval) : Nat → Int → Scientific
  | 0, place =>
    let scaled := interval.scaled (-place)
    ⟨roundDiv tie scaled.value scaled.unit, place⟩
  | more + 1, place =>
    match gridNeighbour tie interval place with
    | some digits => ⟨digits, place⟩
    | none => searchGrids tie interval more (place - 1)

def Scientific.reduced (number : Scientific) : Scientific :=
  let text := (toString number.digits).toList.reverse
  let zeros := (text.takeWhile (· == '0')).length
  ⟨number.digits / Nat.pow 10 zeros, number.exponent + zeros⟩

/-- The shortest decimal that reads back as `significand * 2 ^ exponent`, which is not zero. -/
def shortest (tie : Tie) (significand : Nat) (exponent : Int) : Scientific :=
  let interval := RoundingInterval.of significand exponent
  (searchGrids tie interval 17 (leadingPlace interval.value interval.unit)).reduced

example : shortest .up 0x1999999999999a (-56) = ⟨1, -1⟩ := by decide +kernel

/-! ### Notations -/

structure NumberStyle where
  /-- The places of the first digit that are written positionally; all of them where none are given. -/
  positional : Option (Int × Int)
  wholeEnding : String
  /-- What stands before an exponent that is not negative. -/
  positiveExponent : String
  tie : Tie

namespace NumberStyle

/-- Decides whether a number whose first digit has the given place is written positionally. -/
def writesPositionally (style : NumberStyle) (place : Int) : Bool :=
  match style.positional with
  | none => true
  | some (first, last) => first ≤ place && place ≤ last

def positionalText (style : NumberStyle) (number : Scientific) : String :=
  if 0 ≤ number.exponent then
    toString (number.digits * Nat.pow 10 number.exponent.toNat) ++ style.wholeEnding
  else placesText (-number.exponent).toNat number.digits

def exponentText (style : NumberStyle) (number : Scientific) (place : Int) : String :=
  let mantissa := match (toString number.digits).toList with
    | [] => ""
    | first :: [] => first.toString
    | first :: rest => first.toString ++ "." ++ String.ofList rest
  let exponent := if place < 0 then toString place else style.positiveExponent ++ toString place
  mantissa ++ "e" ++ exponent

def magnitudeText (style : NumberStyle) (number : Scientific) : String :=
  let place := number.exponent + (toString number.digits).length - 1
  if style.writesPositionally place then style.positionalText number
  else style.exponentText number place

def text (style : NumberStyle) : Binary64 → String
  | .nan => "NaN"
  | .infinite negative => sign negative ++ "inf"
  | .finite negative significand exponent =>
    sign negative ++
      if significand = 0 then "0" ++ style.wholeEnding
      else style.magnitudeText (shortest style.tie significand exponent)

end NumberStyle

/-- Numbers in a state's debugging text: positional from `1e-4` to below `1e16`. -/
def debugStyle : NumberStyle := ⟨some (-4, 15), ".0", "", .up⟩

/-- Numbers in an exposition of health figures: always positional, and whole numbers bare. -/
def expositionStyle : NumberStyle := ⟨none, "", "", .up⟩

/-- Numbers that a reading error quotes: positional from `1e-5` to below `1e16`, exponents signed. -/
def quotedStyle : NumberStyle := ⟨some (-5, 15), ".0", "+", .toEven⟩

example : debugStyle.text (.finite false 1 0) = "1.0" := by decide +kernel
example : debugStyle.text (.finite true 10000000000000000 0) = "-1e16" := by decide +kernel
example : expositionStyle.text (.finite false 3 (-1)) = "1.5" := by decide +kernel
example : quotedStyle.text (.finite false (2 ^ 52) 12) = "1.8446744073709552e+19" := by decide +kernel

end NodeTelemetry.Decimal
