import NodeTelemetry.Decimal
import NodeTelemetry.Ingestion
import NodeTelemetry.Scalar.Float

/-!
Health figures: what the engine counts about itself, and their exposition as text. Figures form
families; each family is written with a help line, a type line and the lines of its figures, and a
family without figures is left out.

Durations are counted but not measured here: in the exposition each of them took no time.
-/

set_option autoImplicit false

namespace NodeTelemetry

structure Health where
  ingest : IngestFigures := {}
  commit : CommitFigures := {}
  errors : ErrorLog := {}
  /-- How many measurements of the traffic have yielded a rate. -/
  rateTicks : Nat := 0
  window : Nat := 0

inductive FamilyKind where
  | counter
  | gauge
  /-- How often something took at most so many seconds, for each of the bounds as they are written. -/
  | histogram (bounds : List String)
  deriving Repr, DecidableEq

def FamilyKind.name : FamilyKind → String
  | .counter => "counter"
  | .gauge => "gauge"
  | .histogram _ => "histogram"

structure Figure where
  group : Option String
  value : Float

structure Family where
  name : String
  help : String
  kind : FamilyKind
  figures : List Figure

namespace Figure

def plain (n : Nat) : List Figure := [⟨none, Scalar.ofNat n⟩]

def byGroup (counts : NameMap Nat) : List Figure :=
  counts.toList.map fun entry => ⟨some entry.1, Scalar.ofNat entry.2⟩

end Figure

namespace Family

def line (name : String) (labels : List (String × String)) (value : Float) : String :=
  let shown := ",".intercalate (labels.map fun label => label.1 ++ "=\"" ++ label.2 ++ "\"")
  name ++ (if labels.isEmpty then "" else "\x7b" ++ shown ++ "\x7d") ++ " "
    ++ Decimal.expositionStyle.text (Binary64.ofFloat value)

/-- The lines of one figure. A duration of no time is within every bound. -/
def figureLines (family : Family) (figure : Figure) : List String :=
  let labels := figure.group.toList.map fun group => ("group", group)
  match family.kind with
  | .counter | .gauge => [line family.name labels figure.value]
  | .histogram bounds =>
    (bounds ++ ["+Inf"]).map (fun bound =>
        line (family.name ++ "_bucket") (labels ++ [("le", bound)]) figure.value)
      ++ [line (family.name ++ "_sum") labels 0.0, line (family.name ++ "_count") labels figure.value]

def lines (family : Family) : List String :=
  ("# HELP " ++ family.name ++ " " ++ family.help)
    :: ("# TYPE " ++ family.name ++ " " ++ family.kind.name)
    :: family.figures.flatMap family.figureLines

end Family

namespace Health

def computeBounds : List String := ["0.00001", "0.00005", "0.0001", "0.0005", "0.001", "0.005"]

def commitBounds : List String := computeBounds ++ ["0.01"]

def allFamilies (health : Health) : List Family :=
  [⟨"chainmeter_commit_duration_seconds", "Time to apply one commit batch.",
      .histogram commitBounds, Figure.plain health.commit.durations⟩,
    ⟨"chainmeter_commits_applied_total", "Total commit batches applied.", .counter,
      Figure.plain health.commit.applied⟩,
    ⟨"chainmeter_computation_errors_total", "Total failed metric group computations by group.",
      .counter, Figure.byGroup health.errors.counts⟩,
    ⟨"chainmeter_current_height", "Height of the latest committed sample.", .gauge,
      Figure.plain health.commit.currentHeight.toNat⟩,
    ⟨"chainmeter_group_compute_duration_seconds", "Time to compute one metric group for a sample.",
      .histogram computeBounds, Figure.byGroup health.ingest.groupRuns⟩,
    ⟨"chainmeter_points_truncated_total", "Total series points removed by rollbacks.", .counter,
      Figure.plain health.commit.pointsTruncated⟩,
    ⟨"chainmeter_queue_updates_total", "Total download queue status updates handled.", .counter,
      Figure.plain health.ingest.queueUpdates⟩,
    ⟨"chainmeter_rate_ticks_total", "Total network rate ticks that produced a rate sample.", .counter,
      Figure.plain health.rateTicks⟩,
    ⟨"chainmeter_rollbacks_total", "Total block rollback events handled.", .counter,
      Figure.plain health.ingest.rollbacks⟩,
    ⟨"chainmeter_samples_missing_total", "Total cycles that delivered no performance sample.",
      .counter, Figure.plain health.ingest.samplesMissing⟩,
    ⟨"chainmeter_samples_received_total", "Total performance samples accepted for processing.",
      .counter, Figure.plain health.ingest.samplesReceived⟩,
    ⟨"chainmeter_window_size", "Current moving average window.", .gauge, Figure.plain health.window⟩]

def families (health : Health) : List Family :=
  health.allFamilies.filter fun family => !family.figures.isEmpty

def exposition (health : Health) : List String := health.families.flatMap Family.lines

end Health

end NodeTelemetry
