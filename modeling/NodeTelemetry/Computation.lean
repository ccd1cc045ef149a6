import NodeTelemetry.Accumulator.Set

/-!
Computations over accumulators. A computation is a tree of single steps, each of which looks at one
accumulator or feeds it a value, always through the view of one group. A step that finds no accumulator
ends the computation with an error, and what earlier steps have fed stays fed. Since the steps are
apart, several computations over one set can also be run step by step in any order.
-/

set_option autoImplicit false

namespace NodeTelemetry

/-- Steps over the accumulators that end in a result or an error. -/
inductive Computation (α β : Type) where
  | done (result : β)
  | fail (error : EngineError)
  | look (view : GroupKind) (metric : Metric) (next : Accumulator α → Computation α β)
  /-- Feeds a value into the accumulator of a metric and looks at it afterwards. -/
  | enter (view : GroupKind) (metric : Metric) (value : α) (next : Accumulator α → Computation α β)

namespace Computation

variable {α β γ : Type}

/-- Goes on with another computation after the first has ended well. -/
def andThen (next : β → Computation α γ) : Computation α β → Computation α γ
  | done result => next result
  | fail error => fail error
  | look view metric k => look view metric fun accumulator => andThen next (k accumulator)
  | enter view metric value k => enter view metric value fun accumulator => andThen next (k accumulator)

instance : Monad (Computation α) where
  pure := done
  bind computation next := andThen next computation

def reach (view : GroupKind) (metric : Metric) : Computation α (Accumulator α) := look view metric done

/-- Feeds a value into the accumulator of a metric and looks at it afterwards. -/
def feed (view : GroupKind) (metric : Metric) (value : α) : Computation α (Accumulator α) :=
  enter view metric value done

variable [Scalar α]

/-- Runs a computation: how it ends, and the accumulators afterwards. -/
def run : Computation α β → AccumulatorSet α → Except EngineError β × AccumulatorSet α
  | done result, set => (.ok result, set)
  | fail error, set => (.error error, set)
  | look view metric next, set =>
    match set.lookup view metric.name with
    | .ok accumulator => run (next accumulator) set
    | .error error => (.error error, set)
  | enter view metric value next, set =>
    match set.lookup view metric.name with
    | .ok accumulator =>
      let fed := accumulator.insert value
      run (next fed) (set.modify metric.name fun _ => fed)
    | .error error => (.error error, set)

end Computation

end NodeTelemetry
