import NodeTelemetry.Decimal

/-!
The numbers that measured values are made of. `Scalar` lists what the rest of the library asks of them:
arithmetic, an order test, and the three ways to a whole number that labels use. Double-precision
floats are scalars: their arithmetic and order are the machine's, and their roundings and decimal texts
are computed exactly from the bits. A law about the arithmetic can be stated for exact rationals
instead, and a law about the order for any scalar whose order is lawful.
-/

set_option autoImplicit false

namespace NodeTelemetry

class Scalar (α : Type) extends Zero α, Add α, Sub α, Mul α, Div α, Neg α where
  /-- Decides `x ≤ y`; nothing is comparable to a value that is not a number. -/
  le : α → α → Bool
  /-- The upper bound that a running minimum starts from. -/
  largest : α
  ofInt : Int → α
  /-- The nearest whole number, halves away from zero, kept in the 64-bit signed range. -/
  rounded : α → Int
  truncated : α → Int
  /-- The whole part as a count of at most 64 bits; none for a negative value. -/
  count : α → Nat
  fixed : Nat → α → String

namespace Scalar

variable {α : Type} [Scalar α]

def ofNat (n : Nat) : α := ofInt (n : Int)

def lt (x y : α) : Bool := le x y && !le y x

def same (x y : α) : Bool := le x y && le y x

/-- Decides whether `x` is comparable to itself, which only a value that is no number fails. -/
def isNumber (x : α) : Bool := le x x

/-- The larger of two values, the first of two equal ones; a value that is no number gives way. -/
def max (x y : α) : α := if isNumber x && !lt x y then x else y

/-- The smaller of two values, the first of two equal ones; a value that is no number gives way. -/
def min (x y : α) : α := if isNumber x && !lt y x then x else y

def floored (x : α) : α := max x 0

end Scalar

end NodeTelemetry

namespace NodeTelemetry

/-! ### Floats -/

instance zeroFloat : Zero Float := ⟨0.0⟩

instance : Scalar Float where
  le x y := decide (x ≤ y)
  largest := Float.ofBits 0x7fefffffffffffff
  ofInt := Float.ofInt
  rounded x := (Binary64.ofFloat x).rounded
  truncated x := (Binary64.ofFloat x).truncated
  count x := (Binary64.ofFloat x).count
  fixed places x := Decimal.fixed places (Binary64.ofFloat x)

end NodeTelemetry
