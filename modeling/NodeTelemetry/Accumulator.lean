import NodeTelemetry.Decimal
import NodeTelemetry.EngineError
import NodeTelemetry.Scalar.Float

/-!
Moving averages over a bounded history. An `Accumulator` keeps the latest values, their sum over a
window by compensated addition, the average after every insertion, and the extremes of those averages.
Both histories hold the newest value first.
-/

set_option autoImplicit false

namespace NodeTelemetry

/-- A running sum and the part of it that rounding has lost so far. -/
structure CompensatedSum (α : Type) where
  total : α
  carry : α

namespace CompensatedSum

variable {α : Type} [Scalar α]

def zero : CompensatedSum α := ⟨0, 0⟩

def add (sum : CompensatedSum α) (value : α) : CompensatedSum α :=
  let corrected := value - sum.carry
  let total := sum.total + corrected
  ⟨total, (total - sum.total) - corrected⟩

/-- A sum floored at zero: values are not negative, so a sum below zero is a rounding error. -/
def floored (sum : CompensatedSum α) : CompensatedSum α :=
  if Scalar.lt sum.total 0 then zero else sum

def ofList (values : List α) : CompensatedSum α := (values.foldl add zero).floored

end CompensatedSum

structure Accumulator (α : Type) where
  capacity : Nat
  window : Nat
  /-- The latest values, newest first. -/
  values : List α
  /-- The averages after the latest insertions, newest first. -/
  averages : List α
  sum : CompensatedSum α
  mean : α
  /-- The largest of zero and the averages. -/
  highest : α
  /-- The smallest of the averages. -/
  lowest : α
  sinceRebuild : Nat
  window_pos : 0 < window
  window_le_capacity : window ≤ capacity

structure AccumulatorSnapshot (α : Type) where
  average : α
  max : α
  min : α
  sum : α
  size : Nat
  window : Nat

namespace Accumulator

variable {α : Type} [Scalar α]

/-- After this many insertions the sum is added up anew, which bounds its drift. -/
def rebuildPeriod : Nat := 10000

def empty (capacity window : Nat) (hpos : 0 < window) (hle : window ≤ capacity) : Accumulator α where
  capacity := capacity
  window := window
  values := []
  averages := []
  sum := .zero
  mean := 0
  highest := 0
  lowest := Scalar.largest
  sinceRebuild := 0
  window_pos := hpos
  window_le_capacity := hle

/-- An empty accumulator, if there is room for a value and the window fits. -/
def ofSizes (capacity window : Nat) : Except SizeError (Accumulator α) :=
  if capacity = 0 then .error .capacity
  else if h : 0 < window ∧ window ≤ capacity then .ok (empty capacity window h.1 h.2)
  else .error (.window window capacity)

def meanOf (sum : CompensatedSum α) (count window : Nat) : α :=
  sum.total / Scalar.ofNat (min count window)

/-- Records an average. When the oldest one leaves and held an extreme, that extreme is looked up
anew among those that stay. -/
def record (acc : Accumulator α) (average : α) : Accumulator α :=
  let all := average :: acc.averages
  let kept := all.take acc.capacity
  let highest := Scalar.max acc.highest average
  let lowest := Scalar.min acc.lowest average
  match all[acc.capacity]? with
  | none => { acc with averages := kept, highest, lowest }
  | some leaving =>
    { acc with
      averages := kept
      highest :=
        if Scalar.le highest leaving then kept.foldr (fun a best => Scalar.max best a) 0 else highest
      lowest :=
        if Scalar.le leaving lowest then kept.foldr (fun a best => Scalar.min best a) Scalar.largest
        else lowest }

/-- The sum after a value entered the window and another one left it. -/
def slide (acc : Accumulator α) (value : α) : CompensatedSum α :=
  let entered := acc.sum.add value
  let slid := match (value :: acc.values)[acc.window]? with
    | some leaving => entered.add (-leaving)
    | none => entered
  slid.floored

def insert (acc : Accumulator α) (value : α) : Accumulator α :=
  let values := (value :: acc.values).take acc.capacity
  let due := rebuildPeriod ≤ acc.sinceRebuild + 1
  let sum := if due then CompensatedSum.ofList (values.take acc.window) else acc.slide value
  let mean := meanOf sum values.length acc.window
  record
    { acc with
      values
      sum
      mean
      sinceRebuild := if due then 0 else acc.sinceRebuild + 1 }
    mean

def Fits (acc : Accumulator α) (window : Nat) : Prop := 0 < window ∧ window ≤ acc.capacity

instance (acc : Accumulator α) (window : Nat) : Decidable (acc.Fits window) :=
  inferInstanceAs (Decidable (_ ∧ _))

/-- Changes the window to one that fits, adding the sum up anew; the histories stay. -/
def withWindow (acc : Accumulator α) (window : Nat) (h : acc.Fits window) : Accumulator α :=
  let sum := CompensatedSum.ofList (acc.values.take window)
  { acc with
    window
    sum
    mean := if acc.values.isEmpty then 0 else meanOf sum acc.values.length window
    window_pos := h.1
    window_le_capacity := h.2 }

/-- Changes the window; one that does not fit is refused and changes nothing. -/
def setWindow (acc : Accumulator α) (window : Nat) : Except SizeError (Accumulator α) :=
  if h : acc.Fits window then .ok (acc.withWindow window h)
  else .error (.window window acc.capacity)

/-- The accumulator after a request for a window, granted or not. -/
def resized (acc : Accumulator α) (window : Nat) : Accumulator α :=
  if h : acc.Fits window then acc.withWindow window h else acc

def clear (acc : Accumulator α) : Accumulator α :=
  empty acc.capacity acc.window acc.window_pos acc.window_le_capacity

/-- The current average, floored at zero; zero before the first insertion. -/
def average (acc : Accumulator α) : α :=
  if acc.averages.isEmpty then 0 else Scalar.floored acc.mean

def max (acc : Accumulator α) : α := Scalar.floored acc.highest

/-- The smallest average in the history, floored at zero; zero before the first insertion. -/
def min (acc : Accumulator α) : α :=
  if acc.averages.isEmpty then 0 else Scalar.floored acc.lowest

def windowSum (acc : Accumulator α) : α := Scalar.floored acc.sum.total

def size (acc : Accumulator α) : Nat := acc.values.length

/-- The kept value at a position counted from the oldest; zero beyond the newest. -/
def get (acc : Accumulator α) (i : Nat) : α := (acc.values.reverse[i]?).getD 0

def last (acc : Accumulator α) : α := (acc.values.head?).getD 0

def snapshot (acc : Accumulator α) : AccumulatorSnapshot α :=
  ⟨acc.average, acc.max, acc.min, acc.windowSum, acc.size, acc.window⟩

def description (acc : Accumulator Float) : String :=
  s!"WindowedAccumulator \x7b capacity: {acc.capacity}, window_size: {acc.window}, "
    ++ s!"raw_count: {acc.size}, average: "
    ++ Decimal.debugStyle.text (Binary64.ofFloat acc.mean) ++ " \x7d"

end Accumulator

end NodeTelemetry
