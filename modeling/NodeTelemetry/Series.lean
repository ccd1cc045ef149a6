import NodeTelemetry.NameMap
import NodeTelemetry.Readout
import NodeTelemetry.Scalar.Float

/-!
Chart series: a bounded run of points along an axis that never goes back. The newest point stands
first. A store has the charts of all charted metrics, by name, and the readouts that they tell by
themselves.
-/

set_option autoImplicit false

namespace NodeTelemetry

structure Point (α : Type) where
  x : α
  y : α

/-- The latest points of a chart, newest first. -/
structure Series (α : Type) where
  capacity : Nat
  points : List (Point α)

namespace Series

variable {α : Type} [Scalar α]

def empty (capacity : Nat) : Series α := ⟨capacity, []⟩

/-- Puts a point in front of all others; the oldest one leaves when there is no room. -/
def push (series : Series α) (point : Point α) : Series α :=
  { series with points := (point :: series.points).take series.capacity }

/-- Adds a point. A point behind the newest is dropped, one at its place replaces its height. The flag
tells whether the point was taken. -/
def insert (series : Series α) (x y : α) : Series α × Bool :=
  match series.points with
  | [] => (series.push ⟨x, y⟩, true)
  | newest :: older =>
    if Scalar.lt x newest.x then (series, false)
    else if Scalar.same x newest.x then
      ({ series with points := { newest with y } :: older }, true)
    else (series.push ⟨x, y⟩, true)

/-- The series without the newest points that lie beyond a bound. -/
def truncate (series : Series α) (bound : α) : Series α :=
  { series with points := series.points.dropWhile fun point => !Scalar.le point.x bound }

def beyond (series : Series α) (bound : α) : Nat :=
  series.points.length - (series.truncate bound).points.length

def last? (series : Series α) : Option (Point α) := series.points.head?

def size (series : Series α) : Nat := series.points.length

/-- The points in the order of the chart, oldest first. -/
def toList (series : Series α) : List (Point α) := series.points.reverse

/-- The smallest and the largest height in the chart, zero where it is empty. Of largest heights that
are equal, which zeros of both signs are, the newest one is taken. -/
def bounds (series : Series α) : α × α :=
  match series.toList.map (·.y) with
  | [] => (0, 0)
  | y :: ys => (ys.foldl Scalar.min y, ys.foldl (fun largest y => Scalar.max y largest) y)

end Series

end NodeTelemetry

namespace NodeTelemetry

/-! ### The series of all charts -/

structure Chart (α : Type) where
  axis : Axis
  series : Series α

structure SeriesStore (α : Type) where
  charts : NameMap (Chart α)

namespace SeriesStore

variable {α : Type} [Scalar α]

def ofDescriptors (descriptors : List Descriptor) (sizes : HistorySizes) : SeriesStore α :=
  ⟨.ofList <| (descriptors.filter (·.charted)).map fun d =>
    (d.name, ⟨d.axis, .empty (sizes.along d.axis)⟩)⟩

def series? (store : SeriesStore α) (name : String) : Option (Series α) :=
  (store.charts.get? name).map (·.series)

/-- Adds a point to the chart of a name; a name without a chart is ignored. -/
def insert (store : SeriesStore α) (name : String) (x y : α) : SeriesStore α :=
  ⟨store.charts.modify name fun chart => { chart with series := (chart.series.insert x y).1 }⟩

def accepts (store : SeriesStore α) (name : String) (x y : α) : Bool :=
  match store.series? name with
  | some series => (series.insert x y).2
  | none => false

def truncate (store : SeriesStore α) (axis : Axis) (bound : α) : SeriesStore α :=
  ⟨store.charts.map fun _ chart =>
    if chart.axis = axis then { chart with series := chart.series.truncate bound } else chart⟩

def beyond (store : SeriesStore α) (axis : Axis) (bound : α) : Nat :=
  store.charts.values.foldr
    (fun chart n => if chart.axis = axis then chart.series.beyond bound + n else n) 0

/-- The height of the newest point of a chart; zero where there is none. -/
def latest (store : SeriesStore α) (name : String) : α :=
  match (store.series? name).bind Series.last? with
  | some point => point.y
  | none => 0

/-- What a chart tells about its metric: the newest height and the bounds of the chart. Shares are
taken of the newest push time. -/
def reading (store : SeriesStore α) (name : String) (series : Series α) : Reading α :=
  let (min, max) := series.bounds
  ⟨store.latest name, max, min, store.latest Metric.pushTime.name, none⟩

/-- The readouts of all charts along heights, in display order, as far as the charts tell them. -/
def readouts (store : SeriesStore α) : List (Readout α) :=
  (catalogue.filter fun d => d.charted && d.axis = .height && d.formatter.isSome).filterMap fun d =>
    (store.series? d.name).map fun series => Readout.render d (store.reading d.name series)

def filled (store : SeriesStore α) : List (String × Series α) :=
  (store.charts.toList.map fun entry => (entry.1, entry.2.series)).filter fun entry =>
    !entry.2.points.isEmpty

end SeriesStore

end NodeTelemetry
