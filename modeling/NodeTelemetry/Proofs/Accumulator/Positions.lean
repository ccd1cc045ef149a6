import NodeTelemetry.Proofs.Accumulator.Run

/-!
An accumulator by positions. Here the history of values is counted from the oldest, every position is
computed from its length, and a value outside it, a difference below zero and a division by zero are
faults. None of them occurs: what an accumulator does by positions is what it does.
-/

set_option autoImplicit false

namespace NodeTelemetry.Accumulator

inductive Fault where
  | outside (position length : Nat)
  | belowZero (minuend subtrahend : Nat)
  | noDivisor
  deriving Repr, DecidableEq

variable {α : Type}

def difference (minuend subtrahend : Nat) : Except Fault Nat :=
  if subtrahend ≤ minuend then .ok (minuend - subtrahend)
  else .error (.belowZero minuend subtrahend)

def valueAt (history : List α) (position : Nat) : Except Fault α :=
  match history[position]? with
  | some value => .ok value
  | none => .error (.outside position history.length)

def valueBefore (history : List α) (back : Nat) : Except Fault α := do
  let newest ← difference history.length 1
  let position ← difference newest back
  valueAt history position

variable [Scalar α]

def quotient (total : α) (count : Nat) : Except Fault α :=
  if count = 0 then .error .noDivisor else .ok (total / Scalar.ofNat count)

/-- Adds the value that came in so many insertions before the newest. -/
def addBefore (history : List α) (sum : CompensatedSum α) (back : Nat) :
    Except Fault (CompensatedSum α) := do
  return sum.add (← valueBefore history back)

/-- The sum of the newest values, as many as the window covers, added up from the newest back. -/
def sumByPosition (history : List α) (window : Nat) : Except Fault (CompensatedSum α) := do
  let sum ← (List.range (Min.min history.length window)).foldlM (addBefore history) .zero
  return sum.floored

/-- The sum after a value, the newest of the history, entered the window and another one left it. -/
def slideByPosition (acc : Accumulator α) (history : List α) (value : α) :
    Except Fault (CompensatedSum α) := do
  let entered := acc.sum.add value
  if acc.window < history.length then
    let leaving ← valueBefore history acc.window
    return (entered.add (-leaving)).floored
  else return entered.floored

/-- Inserts a value. The one that leaves the window is read while the history may be one over its
capacity. -/
def insertByPosition (acc : Accumulator α) (value : α) : Except Fault (Accumulator α) := do
  let entered := acc.values.reverse ++ [value]
  let slid ← acc.slideByPosition entered value
  let history := if acc.capacity < entered.length then entered.drop 1 else entered
  let due := rebuildPeriod ≤ acc.sinceRebuild + 1
  let sum ← (if due then sumByPosition history acc.window else pure slid)
  let mean ← quotient sum.total (Min.min history.length acc.window)
  return record
    { acc with
      values := history.reverse
      sum
      mean
      sinceRebuild := if due then 0 else acc.sinceRebuild + 1 }
    mean

def setWindowByPosition (acc : Accumulator α) (window : Nat) :
    Except Fault (Except SizeError (Accumulator α)) :=
  if h : 0 < window ∧ window ≤ acc.capacity then do
    let history := acc.values.reverse
    let sum ← sumByPosition history window
    let mean ← (if history.isEmpty then pure 0
      else quotient sum.total (Min.min history.length window))
    return .ok
      { acc with
        window
        sum
        mean
        window_pos := h.1
        window_le_capacity := h.2 }
  else return .error (.window window acc.capacity)

def performByPosition (acc : Accumulator α) : Operation α → Except Fault (Accumulator α)
  | .insert value => acc.insertByPosition value
  | .setWindow window => do
    match ← acc.setWindowByPosition window with
    | .ok resized => return resized
    | .error _ => return acc
  | .clear => return acc.clear

/-! ### Reading -/

omit [Scalar α] in
private theorem valueBefore_reverse {values : List α} {back : Nat} (h : back < values.length) :
    valueBefore values.reverse back = pure values[back] := by
  have hnewest : difference values.reverse.length 1 = pure (values.length - 1) := by
    rw [List.length_reverse]
    exact if_pos (by omega)
  have hposition : difference (values.length - 1) back = pure (values.length - 1 - back) :=
    if_pos (by omega)
  have hvalue : values.reverse[values.length - 1 - back]? = some values[back] := by
    have hlt : values.length - 1 - back < values.length := by omega
    have hback : values.length - 1 - (values.length - 1 - back) = back := by omega
    rw [List.getElem?_reverse hlt, hback, List.getElem?_eq_getElem h]
  rw [valueBefore, hnewest, pure_bind, hposition, pure_bind, valueAt, hvalue]
  rfl

private theorem foldlM_addBefore (values : List α) (sum : CompensatedSum α) {count : Nat}
    (h : count ≤ values.length) :
    (List.range count).foldlM (addBefore values.reverse) sum =
      pure ((values.take count).foldl CompensatedSum.add sum) := by
  induction count with
  | zero => rfl
  | succ count ih =>
    have hlt : count < values.length := h
    rw [List.range_succ, List.foldlM_append, ih (Nat.le_of_lt hlt), pure_bind,
      List.take_succ_eq_append_getElem hlt, List.foldl_append, List.foldlM_cons, addBefore,
      valueBefore_reverse hlt, pure_bind, pure_bind]
    rfl

private theorem sumByPosition_reverse (values : List α) (window : Nat) :
    sumByPosition values.reverse window = pure (CompensatedSum.ofList (values.take window)) := by
  have hcount : Min.min window values.length ≤ values.length := Nat.min_le_right _ _
  rw [sumByPosition, List.length_reverse, Nat.min_comm, foldlM_addBefore values .zero hcount,
    ← List.take_eq_take_min, pure_bind]
  rfl

private theorem slideByPosition_eq (acc : Accumulator α) (value : α) :
    acc.slideByPosition (value :: acc.values).reverse value = pure (acc.slide value) := by
  rw [slideByPosition, List.length_reverse, slide]
  by_cases hlt : acc.window < (value :: acc.values).length
  · rw [if_pos hlt, valueBefore_reverse hlt, pure_bind, List.getElem?_eq_getElem hlt]
  · rw [if_neg hlt, List.getElem?_eq_none (Nat.not_lt.1 hlt)]

private theorem quotient_eq (sum : CompensatedSum α) {count window : Nat} (hcount : 0 < count)
    (hwindow : 0 < window) :
    quotient sum.total (Min.min count window) = pure (meanOf sum count window) := by
  have hne : ¬Min.min count window = 0 := by omega
  exact if_neg hne

omit [Scalar α] in
private theorem reverse_take_of_entered (acc : Accumulator α) (h : acc.values.length ≤ acc.capacity)
    (value : α) :
    (if acc.capacity < (value :: acc.values).reverse.length
      then (value :: acc.values).reverse.drop 1 else (value :: acc.values).reverse) =
      ((value :: acc.values).take acc.capacity).reverse := by
  rw [List.length_reverse]
  split
  next hover =>
    have hone : (value :: acc.values).length - acc.capacity = 1 := by
      rw [List.length_cons] at hover ⊢
      omega
    rw [List.reverse_take, hone]
  next hroom => rw [List.take_of_length_le (Nat.not_lt.1 hroom)]

/-! ### Uses -/

private theorem insertByPosition_eq (acc : Accumulator α) (h : acc.values.length ≤ acc.capacity)
    (value : α) : acc.insertByPosition value = pure (acc.insert value) := by
  have hentered : acc.values.reverse ++ [value] = (value :: acc.values).reverse :=
    List.reverse_cons.symm
  have hcount : 0 < (acc.insert value).values.length := by
    have hcapacity := acc.capacity_pos
    rw [insert_values, List.length_take, List.length_cons]
    omega
  have hsum : (if rebuildPeriod ≤ acc.sinceRebuild + 1
        then sumByPosition (acc.insert value).values.reverse acc.window
        else pure (acc.slide value)) = (pure (acc.insert value).sum : Except Fault _) := by
    rw [insert_sum]
    split
    · exact sumByPosition_reverse _ _
    · rfl
  rw [insertByPosition, hentered, slideByPosition_eq, pure_bind, reverse_take_of_entered acc h,
    ← insert_values]
  dsimp only
  rw [hsum, pure_bind, List.length_reverse, quotient_eq _ hcount acc.window_pos, pure_bind,
    ← insert_mean, List.reverse_reverse]
  refine congrArg pure ?_
  simp only [insert, record_eq]

private theorem setWindowByPosition_eq (acc : Accumulator α) (window : Nat) :
    acc.setWindowByPosition window = pure (acc.setWindow window) := by
  by_cases hfits : acc.Fits window
  · have hbounds : 0 < window ∧ window ≤ acc.capacity := hfits
    rw [setWindowByPosition, dif_pos hbounds, setWindow, dif_pos hfits]
    have hmean : (if acc.values.reverse.isEmpty then pure 0
          else quotient (CompensatedSum.ofList (acc.values.take window)).total
            (Min.min acc.values.reverse.length window)) =
        (pure (acc.withWindow window hfits).mean : Except Fault α) := by
      rw [List.isEmpty_reverse, List.length_reverse, withWindow]
      cases hvalues : acc.values with
      | nil => rfl
      | cons value values => exact quotient_eq _ (Nat.succ_pos _) hfits.1
    dsimp only
    rw [sumByPosition_reverse, pure_bind, hmean, pure_bind]
    rfl
  · have hbounds : ¬(0 < window ∧ window ≤ acc.capacity) := hfits
    rw [setWindowByPosition, dif_neg hbounds, setWindow, dif_neg hfits]

private theorem performByPosition_eq (acc : Accumulator α) (h : acc.values.length ≤ acc.capacity)
    (operation : Operation α) : acc.performByPosition operation = pure (acc.perform operation) := by
  cases operation with
  | insert value => exact acc.insertByPosition_eq h value
  | setWindow window =>
    rw [performByPosition, setWindowByPosition_eq, pure_bind, perform]
    cases acc.setWindow window <;> rfl
  | clear => rfl

private theorem length_values_perform_le (acc : Accumulator α)
    (h : acc.values.length ≤ acc.capacity) (operation : Operation α) :
    (acc.perform operation).values.length ≤ (acc.perform operation).capacity := by
  cases operation with
  | insert value =>
    show (acc.insert value).values.length ≤ (acc.insert value).capacity
    rw [insert_values, insert_capacity]
    exact List.length_take_le _ _
  | setWindow window =>
    rw [perform_setWindow, resized_values, resized_capacity]
    exact h
  | clear => exact Nat.zero_le _

theorem foldlM_performByPosition (acc : Accumulator α) (h : acc.values.length ≤ acc.capacity)
    (operations : List (Operation α)) :
    operations.foldlM performByPosition acc = pure (acc.performAll operations) := by
  induction operations generalizing acc with
  | nil => rfl
  | cons operation operations ih =>
    rw [List.foldlM_cons, performByPosition_eq acc h, pure_bind,
      ih _ (acc.length_values_perform_le h operation)]
    rfl

end NodeTelemetry.Accumulator
