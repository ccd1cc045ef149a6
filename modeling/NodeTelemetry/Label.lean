import NodeTelemetry.Scalar.Float
import NodeTelemetry.Decimal

/-!
The texts that readouts carry, and the whole numbers and percentages in them.
-/

set_option autoImplicit false

namespace NodeTelemetry.Label

variable {α : Type} [Scalar α]

open Scalar (ofInt ofNat)

def whole (x : α) : Int := Scalar.rounded x

/-- The percentage of `part` in `total` as a number; none of nothing. -/
def percent (part total : α) : α :=
  if Scalar.lt 0 total then ofInt 100 * part / total else 0

/-- The rounded percentage of `part` in `total`; zero where the total is not positive. -/
def share (part total : α) : Int :=
  if Scalar.lt 0 total then whole (ofInt 100 * part / total) else 0

/-- The percentage of `part` in `total` without its fraction; zero where the total is not positive. -/
def percentFloor (part total : α) : Int :=
  if Scalar.lt 0 total then Scalar.truncated (ofInt 100 * part / total) else 0

/-- Divides by 1024 while the value reaches 1024 and a larger unit is left. -/
def inUnits (value : α) (unit : String) : List String → α × String
  | [] => (value, unit)
  | next :: larger =>
    if Scalar.le (ofInt 1024) value then inUnits (value / ofInt 1024) next larger else (value, unit)

def largerUnits : List String := ["KB", "MB", "GB", "TB", "PB", "EB"]

/-- A byte count with two places and a binary unit; `0 B` for nothing and less. -/
def dataSize (bytes : α) : String :=
  if Scalar.le bytes 0 then "0 B"
  else
    let (value, unit) := inUnits bytes "B" largerUnits
    Scalar.fixed 2 value ++ " " ++ unit

def dataRate (bytesPerSecond : α) : String :=
  if Scalar.le bytesPerSecond 0 then "0 B/s"
  else
    let (value, unit) := inUnits bytesPerSecond "B" largerUnits
    Scalar.fixed 2 value ++ " " ++ unit ++ "/s"

def millis (average max : α) : String :=
  s!"{whole average} ms - max: {whole max} ms"

def millisShare (average max : α) (share : Int) : String :=
  millis average max ++ s!" | {share}%"

def ratio (value max : α) : String :=
  Scalar.fixed 2 value ++ " - max: " ++ Scalar.fixed 2 max

/-- The figures of a payload's fullness: percentages of the largest payload, and the two sizes. -/
structure Fullness (α : Type) where
  averagePercent : α
  currentPercent : Int
  payloadSize : Nat
  maxPayloadSize : Nat
  minPercent : Int
  maxPercent : Int

/-- The fullness of the current payload and of the averages, in columns of fixed width. -/
def fullness (figures : Fullness α) : String :=
  let columns (width : Nat) (n : Int) := Decimal.zeroPadded width (toString n)
  Decimal.zeroPadded 6 (Scalar.fixed 2 figures.averagePercent) ++ "% - C: "
    ++ columns 3 figures.currentPercent ++ "% (" ++ columns 6 figures.payloadSize ++ " / "
    ++ toString figures.maxPayloadSize ++ " bytes) - min: " ++ columns 3 figures.minPercent
    ++ "% - max: " ++ columns 3 figures.maxPercent ++ "%"

/-- The fullness as far as a chart tells it, where the current payload is not known. -/
def fullnessSummary (averagePercent minPercent maxPercent : α) : String :=
  "MA: " ++ Scalar.fixed 2 averagePercent ++ s!"% - min: {whole minPercent}% - max: {whole maxPercent}%"

def mebibytes (α : Type) [Scalar α] (bytes : Nat) : String :=
  Scalar.fixed 2 (ofNat bytes / (ofInt 1024 * ofInt 1024) : α)

def cacheFullness (α : Type) [Scalar α] (usedBytes capacityBytes : Nat) (percent : Int) : String :=
  mebibytes α usedBytes ++ " / " ++ mebibytes α capacityBytes ++ s!" MB | {percent}%"

def fraction (part total : Nat) (percent : Int) : String :=
  s!"{part} / {total} | {percent}%"

end NodeTelemetry.Label
