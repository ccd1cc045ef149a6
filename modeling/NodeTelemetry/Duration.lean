import NodeTelemetry.Binary64
import NodeTelemetry.Text

/-!
Lengths of time, in whole nanoseconds. As text they are numbers with units, which are summed, as in `1h
30m` or `1.5s`. Every number and every product of a number and a unit has to fit in 64 bits, and so do
the seconds of the sum. A decimal fraction has to make a whole number of nanoseconds, or of seconds for
the hour and longer units.
-/

set_option autoImplicit false

namespace NodeTelemetry

structure Duration where
  nanoseconds : Nat
  deriving Repr, DecidableEq

namespace Duration

def zero : Duration := ⟨0⟩

def nanosecondsPerSecond : Nat := 1000000000

def ofMilliseconds (n : Nat) : Duration := ⟨n * 1000000⟩

def seconds (d : Duration) : Nat := d.nanoseconds / nanosecondsPerSecond

def subsecond (d : Duration) : Nat := d.nanoseconds % nanosecondsPerSecond

end Duration

end NodeTelemetry

namespace NodeTelemetry.Duration

/-! ### Durations as text -/

inductive Measure where
  | nanoseconds (n : Nat)
  | seconds (n : Nat)
  deriving Repr, DecidableEq

/-- A unit of time: what one of it is, and in which measure its decimal fractions are taken, if it has
any. -/
structure TimeUnit where
  whole : Measure
  fraction : Option Measure
  deriving Repr, DecidableEq

def TimeUnit.ofNanoseconds (n : Nat) : TimeUnit := ⟨.nanoseconds n, some (.nanoseconds n)⟩

def TimeUnit.ofSeconds (n : Nat) : TimeUnit := ⟨.seconds n, some (.seconds n)⟩

def units : List (List String × TimeUnit) :=
  [(["nanos", "nsec", "ns"], ⟨.nanoseconds 1, none⟩),
    (["usec", "us", "µs"], .ofNanoseconds 1000),
    (["millis", "msec", "ms"], .ofNanoseconds 1000000),
    (["seconds", "second", "secs", "sec", "s"], ⟨.seconds 1, some (.nanoseconds 1000000000)⟩),
    (["minutes", "minute", "mins", "min", "m"], ⟨.seconds 60, some (.nanoseconds 60000000000)⟩),
    (["hours", "hour", "hrs", "hr", "h"], .ofSeconds 3600),
    (["days", "day", "d"], .ofSeconds 86400),
    (["weeks", "week", "wks", "wk", "w"], .ofSeconds 604800),
    (["months", "month", "M"], .ofSeconds 2630016),
    (["years", "year", "yrs", "yr", "y"], .ofSeconds 31557600)]

def unit? (name : String) : Option TimeUnit := (units.find? (·.1.contains name)).map (·.2)

def fitting? (n : Nat) : Option Nat := if n ≤ Word.largest then some n else none

def quotient? (n divisor : Nat) : Option Nat := if n % divisor = 0 then some (n / divisor) else none

/-- The given part of a number, which has to be a whole number itself. -/
def part? (numerator denominator n : Nat) : Option Nat :=
  (fitting? (numerator * n)).bind (quotient? · denominator)

def Measure.part? (numerator denominator : Nat) : Measure → Option Measure
  | .nanoseconds n => (Duration.part? numerator denominator n).map .nanoseconds
  | .seconds n => (Duration.part? numerator denominator n).map .seconds

def add? (d : Duration) (measure : Measure) : Option Duration := do
  let sum ← match measure with
    | .nanoseconds n => (fitting? (d.subsecond + n)).map fun _ => d.nanoseconds + n
    | .seconds n => some (d.nanoseconds + n * nanosecondsPerSecond)
  let _ ← fitting? (sum / nanosecondsPerSecond)
  return ⟨sum⟩

structure Fraction where
  numerator : Nat
  denominator : Nat

def addUnits? (d : Duration) (n : Nat) (fraction : Option Fraction) (name : List Char) :
    Option Duration := do
  let unit ← unit? (String.ofList name)
  let sum ← d.add? (← unit.whole.part? n 1)
  match fraction with
  | none => return sum
  | some fraction =>
    sum.add? (← (← unit.fraction).part? fraction.numerator fraction.denominator)

inductive Place where
  /-- Before a number; what was read before, if anything. -/
  | before (sum : Option Duration)
  | whole (sum : Duration) (n : Nat)
  | places (sum : Duration) (n : Nat) (fraction : Fraction)
  /-- In the name of a unit, given backwards. -/
  | name (sum : Duration) (n : Nat) (fraction : Option Fraction) (letters : List Char)

def isLetter (c : Char) : Bool := c.isAlpha || c == 'µ'

def Fraction.append? (fraction : Fraction) (digit : Char) : Option Fraction := do
  let numerator ← fitting? (← Text.appendDigit? 10 fraction.numerator digit)
  return ⟨numerator, ← fitting? (10 * fraction.denominator)⟩

def readFrom? : Place → List Char → Option Duration
  | .before sum, [] => sum
  | .before sum, c :: rest =>
    if c.isDigit then
      (Text.appendDigit? 10 0 c).bind fun n => readFrom? (.whole (sum.getD zero) n) rest
    else if Text.isBlank c then readFrom? (.before sum) rest
    else none
  | .whole _ _, [] => none
  | .whole sum n, c :: rest =>
    if c.isDigit then
      ((Text.appendDigit? 10 n c).bind fitting?).bind fun n => readFrom? (.whole sum n) rest
    else if Text.isBlank c then readFrom? (.whole sum n) rest
    else if isLetter c then readFrom? (.name sum n none [c]) rest
    else if c = '.' then readFrom? (.places sum n ⟨0, 1⟩) rest
    else none
  | .places _ _ _, [] => none
  | .places sum n fraction, c :: rest =>
    if c.isDigit then
      (fraction.append? c).bind fun fraction => readFrom? (.places sum n fraction) rest
    else if Text.isBlank c then readFrom? (.places sum n fraction) rest
    else if isLetter c && 1 < fraction.denominator then
      readFrom? (.name sum n (some fraction) [c]) rest
    else none
  | .name sum n fraction letters, [] => sum.addUnits? n fraction letters.reverse
  | .name sum n fraction letters, c :: rest =>
    if isLetter c then readFrom? (.name sum n fraction (c :: letters)) rest
    else if c.isDigit then
      (sum.addUnits? n fraction letters.reverse).bind fun sum =>
        (Text.appendDigit? 10 0 c).bind fun n => readFrom? (.whole sum n) rest
    else if Text.isBlank c then
      (sum.addUnits? n fraction letters.reverse).bind fun sum => readFrom? (.before (some sum)) rest
    else none

def ofText? (text : String) : Option Duration :=
  if text = "0" then some zero else readFrom? (.before none) text.toList

end NodeTelemetry.Duration
