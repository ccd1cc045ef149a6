import NodeTelemetry.Accumulator
import NodeTelemetry.NameMap
import NodeTelemetry.Binary64

/-!
The accumulators of all accumulated metrics. Each belongs to one group, and a group reaches only its
own: a look-up names the group through whose view it goes.
-/

set_option autoImplicit false

namespace NodeTelemetry

structure OwnedAccumulator (α : Type) where
  owner : GroupKind
  accumulator : Accumulator α

structure AccumulatorSet (α : Type) where
  entries : NameMap (OwnedAccumulator α)

namespace AccumulatorSet

variable {α : Type} [Scalar α]

/-- An empty accumulator for every accumulated metric, or what is wrong with the sizes of the first
one that cannot be had. -/
def ofDescriptors (descriptors : List Descriptor) (sizes : HistorySizes) (window : Nat) :
    Except SizeError (AccumulatorSet α) := do
  let entries ← (descriptors.filter (·.accumulated)).mapM fun d => do
    let accumulator ← Accumulator.ofSizes (sizes.along d.axis) window
    return (d.name, (⟨d.group, accumulator⟩ : OwnedAccumulator α))
  return ⟨.ofList entries⟩

def get? (set : AccumulatorSet α) (name : String) : Option (Accumulator α) :=
  (set.entries.get? name).map (·.accumulator)

def modify (set : AccumulatorSet α) (name : String) (f : Accumulator α → Accumulator α) :
    AccumulatorSet α :=
  ⟨set.entries.modify name fun entry => { entry with accumulator := f entry.accumulator }⟩

def namesOf (set : AccumulatorSet α) (view : GroupKind) : List String :=
  (set.entries.filter fun _ entry => entry.owner = view).names

def lookup (set : AccumulatorSet α) (view : GroupKind) (name : String) :
    Except EngineError (Accumulator α) :=
  match (set.entries.filter fun _ entry => entry.owner = view).get? name with
  | some entry => .ok entry.accumulator
  | none => .error (.computation view (.noAccumulator name))

/-- The smallest capacity in the set; a set without accumulators limits no 64-bit size. -/
def smallestCapacity (set : AccumulatorSet α) : Nat :=
  (set.entries.values.map (·.accumulator.capacity)).min?.getD Word.largest

/-- A request for a window. It is checked against the smallest capacity, and then the accumulators are
asked one by one, each of which checks it again; the accumulators afterwards, and what was refused. -/
def requestWindow (set : AccumulatorSet α) (window : Nat) : AccumulatorSet α × Option SizeError :=
  if window = 0 ∨ set.smallestCapacity < window then
    (set, some (.window window set.smallestCapacity))
  else
    let (entries, refusal) := set.entries.change fun entry => do
      return { entry with accumulator := ← entry.accumulator.setWindow window }
    (⟨entries⟩, refusal)

def setWindow (set : AccumulatorSet α) (window : Nat) : Except SizeError (AccumulatorSet α) :=
  match set.requestWindow window with
  | (changed, none) => .ok changed
  | (_, some error) => .error error

/-- The window of the first accumulator, which all share; zero in an empty set. -/
def window (set : AccumulatorSet α) : Nat :=
  match set.entries.values with
  | [] => 0
  | entry :: _ => entry.accumulator.window

def size (set : AccumulatorSet α) : Nat := set.entries.size

def snapshot (set : AccumulatorSet α) : NameMap (AccumulatorSnapshot α) :=
  set.entries.map fun _ entry => entry.accumulator.snapshot

end AccumulatorSet

end NodeTelemetry
