import NodeTelemetry.Accumulator

/-!
Runs of an accumulator: any sequence of insertions, requests for a window and clearings. The lemmas
say what one operation does to each part of the state; everything that holds along a run is derived
from them.
-/

set_option autoImplicit false

namespace NodeTelemetry.Accumulator

variable {α : Type} [Scalar α]

inductive Operation (α : Type) where
  | insert (value : α)
  /-- A request for a window, which may be refused. -/
  | setWindow (window : Nat)
  | clear

/-- The accumulator after one use. A refused request leaves it as it was. -/
def perform (acc : Accumulator α) : Operation α → Accumulator α
  | .insert value => acc.insert value
  | .setWindow window =>
    match acc.setWindow window with
    | .ok resized => resized
    | .error _ => acc
  | .clear => acc.clear

def performAll (acc : Accumulator α) (operations : List (Operation α)) : Accumulator α :=
  operations.foldl perform acc

theorem perform_setWindow (acc : Accumulator α) (window : Nat) :
    acc.perform (.setWindow window) = acc.resized window := by
  by_cases hfits : acc.Fits window
  · simp [perform, setWindow, resized, hfits]
  · simp [perform, setWindow, resized, hfits]

theorem setWindow_of_fits {acc : Accumulator α} {window : Nat} (h : acc.Fits window) :
    acc.setWindow window = .ok (acc.resized window) := by
  rw [setWindow, dif_pos h, resized, dif_pos h]

theorem ofSizes_of_fits {capacity window : Nat} (hpos : 0 < window) (hle : window ≤ capacity) :
    (ofSizes capacity window : Except SizeError (Accumulator α)) =
      .ok (empty capacity window hpos hle) := by
  have hcapacity : ¬capacity = 0 := by omega
  rw [ofSizes, if_neg hcapacity, dif_pos ⟨hpos, hle⟩]

/-! ### Room for the histories -/

omit [Scalar α] in
theorem capacity_pos (acc : Accumulator α) : 0 < acc.capacity :=
  Nat.lt_of_lt_of_le acc.window_pos acc.window_le_capacity

omit [Scalar α] in
theorem take_cons_take {β : Type} (acc : Accumulator α) (x : β) (xs : List β) :
    (x :: xs.take acc.capacity).take acc.capacity = (x :: xs).take acc.capacity := by
  obtain ⟨room, hroom⟩ := Nat.exists_eq_add_one.2 acc.capacity_pos
  rw [hroom, List.take_succ_cons, List.take_succ_cons, List.take_take,
    Nat.min_eq_left (Nat.le_succ room)]

omit [Scalar α] in
theorem eq_nil_of_take {β : Type} (acc : Accumulator α) {xs : List β}
    (h : xs.take acc.capacity = []) : xs = [] := by
  have hpos := acc.capacity_pos
  rcases List.take_eq_nil_iff.1 h with hzero | hnil
  · omega
  · exact hnil

/-! ### Recording an average -/

section record

variable (acc : Accumulator α) (average : α)

/-- The average that leaves the full history when another one is recorded. -/
def leaving? : Option α := (average :: acc.averages)[acc.capacity]?

def kept : List α := (average :: acc.averages).take acc.capacity

/-- An extreme of the averages after recording one: the new average may take its place, and if the one
that leaves reaches it, it is looked up anew. -/
def extremeAfter (reaches : α → α → Bool) (pick : α → α → α) (base extreme : α) : α :=
  let next := pick extreme average
  match acc.leaving? average with
  | none => next
  | some leaving =>
    if reaches leaving next then (acc.kept average).foldr (fun a best => pick best a) base else next

def highestAfter : α :=
  acc.extremeAfter average (fun leaving highest => Scalar.le highest leaving) Scalar.max 0 acc.highest

def lowestAfter : α :=
  acc.extremeAfter average (fun leaving lowest => Scalar.le leaving lowest) Scalar.min Scalar.largest
    acc.lowest

theorem record_eq :
    acc.record average =
      { acc with
        averages := acc.kept average
        highest := acc.highestAfter average
        lowest := acc.lowestAfter average } := by
  simp only [record, highestAfter, lowestAfter, extremeAfter, leaving?, kept]
  cases (average :: acc.averages)[acc.capacity]? with
  | none => rfl
  | some leaving => rfl

end record

/-! ### Inserting a value -/

section insert

variable (acc : Accumulator α) (value : α)

@[simp] theorem insert_capacity : (acc.insert value).capacity = acc.capacity := by
  simp only [insert, record_eq]

@[simp] theorem insert_window : (acc.insert value).window = acc.window := by
  simp only [insert, record_eq]

theorem insert_values : (acc.insert value).values = (value :: acc.values).take acc.capacity := by
  simp only [insert, record_eq]

theorem insert_mean :
    (acc.insert value).mean =
      meanOf (acc.insert value).sum (acc.insert value).values.length acc.window := by
  simp only [insert, record_eq]

theorem insert_averages :
    (acc.insert value).averages = acc.kept (acc.insert value).mean := by
  simp only [insert, record_eq, kept]

theorem insert_highest :
    (acc.insert value).highest = acc.highestAfter (acc.insert value).mean := by
  simp only [insert, record_eq, highestAfter, extremeAfter, leaving?, kept]

theorem insert_lowest :
    (acc.insert value).lowest = acc.lowestAfter (acc.insert value).mean := by
  simp only [insert, record_eq, lowestAfter, extremeAfter, leaving?, kept]

theorem insert_sum :
    (acc.insert value).sum =
      if rebuildPeriod ≤ acc.sinceRebuild + 1
      then CompensatedSum.ofList ((acc.insert value).values.take acc.window)
      else acc.slide value := by
  simp only [insert, record_eq]

/-- A value was inserted: it and the average that it makes are the newest of their histories, where the
oldest ones leave if there is no room. -/
structure Gains (before : Accumulator α) (value : α) (after : Accumulator α) : Prop where
  inserted : after = before.insert value
  values : after.values = (value :: before.values).take before.capacity
  averages : after.averages = (after.mean :: before.averages).take before.capacity
  capacity : after.capacity = before.capacity
  window : after.window = before.window

theorem gains_insert : acc.Gains value (acc.insert value) :=
  ⟨rfl, insert_values acc value, insert_averages acc value, insert_capacity acc value,
    insert_window acc value⟩

end insert

/-! ### Changing the window -/

section resized

variable (acc : Accumulator α) (window : Nat)

@[simp] theorem resized_capacity : (acc.resized window).capacity = acc.capacity := by
  unfold resized
  split <;> rfl

@[simp] theorem resized_values : (acc.resized window).values = acc.values := by
  unfold resized
  split <;> rfl

@[simp] theorem resized_averages : (acc.resized window).averages = acc.averages := by
  unfold resized
  split <;> rfl

@[simp] theorem resized_highest : (acc.resized window).highest = acc.highest := by
  unfold resized
  split <;> rfl

@[simp] theorem resized_lowest : (acc.resized window).lowest = acc.lowest := by
  unfold resized
  split <;> rfl

end resized

@[simp] theorem perform_capacity (acc : Accumulator α) (operation : Operation α) :
    (acc.perform operation).capacity = acc.capacity := by
  cases operation with
  | insert value => exact insert_capacity acc value
  | setWindow window => rw [perform_setWindow, resized_capacity]
  | clear => rfl

@[simp] theorem performAll_capacity (acc : Accumulator α) (operations : List (Operation α)) :
    (acc.performAll operations).capacity = acc.capacity := by
  induction operations generalizing acc with
  | nil => rfl
  | cons operation operations ih => exact (ih (acc.perform operation)).trans (perform_capacity acc _)

end NodeTelemetry.Accumulator
