import Mathlib
import NodeTelemetry.Proofs.Accumulator.Run
import NodeTelemetry.Proofs.Scalar.Order

/-!
The windowed sum in exact arithmetic. A `Ledger` is what an observer of an accumulator would write
down: the window that is in force, every value since the last clearing, and the mean after each of them.
The accumulator, which forgets values and never adds up the whole window if it can avoid it, tells the
same sum and the same means.
-/

set_option autoImplicit false

namespace NodeTelemetry

/-! ### Exact compensated addition -/

namespace CompensatedSum

def exact (total : Rat) : CompensatedSum Rat := ⟨total, 0⟩

theorem add_exact (total value : Rat) : (exact total).add value = exact (total + value) := by
  have htotal : total + (value - 0) = total + value := by ring
  have hcarry : total + value - total - (value - 0) = 0 := by ring
  show CompensatedSum.mk (total + (value - 0)) (total + (value - 0) - total - (value - 0)) = _
  rw [htotal, hcarry]
  rfl

private theorem foldl_add_exact (values : List Rat) (total : Rat) :
    values.foldl add (exact total) = exact (total + values.sum) := by
  induction values generalizing total with
  | nil => simp
  | cons value values ih => rw [List.foldl_cons, add_exact, ih, List.sum_cons, add_assoc]

theorem floored_eq (total : Rat) : (exact total).floored = exact (max 0 total) := by
  by_cases h : 0 ≤ total
  · have hle : Scalar.le (0 : Rat) total = true := decide_eq_true h
    have hlt : Scalar.lt total 0 = false := by simp [Scalar.lt, hle]
    rw [max_eq_right h]
    simp [floored, exact, hlt]
  · have hbelow : total < 0 := not_le.1 h
    have hlt : Scalar.lt total 0 = true := by
      have hle : Scalar.le total 0 = true := decide_eq_true hbelow.le
      have hnot : Scalar.le (0 : Rat) total = false := decide_eq_false h
      simp [Scalar.lt, hle, hnot]
    rw [max_eq_left hbelow.le]
    simp [floored, exact, hlt, zero]

private theorem floored_exact {total : Rat} (h : 0 ≤ total) :
    (exact total).floored = exact total := by
  rw [floored_eq, max_eq_right h]

theorem ofList_eq (values : List Rat) : ofList values = exact (max 0 values.sum) := by
  have hfold : values.foldl add zero = exact (0 + values.sum) := foldl_add_exact values 0
  rw [ofList, hfold, zero_add, floored_eq]

private theorem ofList_exact {values : List Rat} (h : ∀ value ∈ values, 0 ≤ value) :
    ofList values = exact values.sum := by
  rw [ofList_eq, max_eq_right (List.sum_nonneg h)]

end CompensatedSum

theorem Scalar.floored_of_nonneg {x : Rat} (h : 0 ≤ x) : Scalar.floored x = x := by
  have hle : Scalar.le (0 : Rat) x = true := decide_eq_true h
  have hself : Scalar.le x x = true := decide_eq_true le_rfl
  simp [Scalar.floored, Scalar.max, Scalar.isNumber, Scalar.lt, hle, hself]

/-! ### The ledger -/

/-- What an observer of an accumulator writes down, newest first. -/
structure Ledger where
  /-- The window that was accepted last. -/
  window : Nat
  /-- The values since the last clearing. -/
  values : List Rat
  /-- The mean in the window after each of these values. -/
  means : List Rat

namespace Ledger

open Accumulator (Operation)

def total (ledger : Ledger) : Rat := (ledger.values.take ledger.window).sum

/-- The mean of the latest values, as many as the window covers; zero where there are none. -/
def mean (ledger : Ledger) : Rat :=
  ledger.total / (min ledger.values.length ledger.window : Nat)

def opening (window : Nat) : Ledger := ⟨window, [], []⟩

def enter (ledger : Ledger) (value : Rat) : Ledger :=
  let entered := { ledger with values := value :: ledger.values }
  { entered with means := entered.mean :: ledger.means }

def note (capacity : Nat) (ledger : Ledger) : Operation Rat → Ledger
  | .insert value => ledger.enter value
  | .setWindow window =>
    if 0 < window ∧ window ≤ capacity then { ledger with window } else ledger
  | .clear => opening ledger.window

def noteAll (capacity : Nat) (ledger : Ledger) (operations : List (Operation Rat)) : Ledger :=
  operations.foldl (note capacity) ledger

private theorem total_nonneg {ledger : Ledger} (h : ∀ value ∈ ledger.values, 0 ≤ value) :
    0 ≤ ledger.total :=
  List.sum_nonneg fun value hvalue => h value (List.mem_of_mem_take hvalue)

private theorem covered_take (ledger : Ledger) {capacity : Nat} (h : ledger.window ≤ capacity) :
    min (ledger.values.take capacity).length ledger.window =
      min ledger.values.length ledger.window := by
  rw [List.length_take]
  omega

private theorem total_enter (ledger : Ledger) (value : Rat) :
    (ledger.enter value).total + ((value :: ledger.values)[ledger.window]?).getD 0 =
      ledger.total + value := by
  have hsucc : ((value :: ledger.values).take (ledger.window + 1)).sum =
      ((value :: ledger.values).take ledger.window).sum
        + ((value :: ledger.values)[ledger.window]?).getD 0 := by
    rw [List.take_add_one, List.sum_append]
    cases (value :: ledger.values)[ledger.window]? <;> simp
  rw [List.take_succ_cons, List.sum_cons] at hsucc
  show ((value :: ledger.values).take ledger.window).sum + _ = _
  rw [← hsucc, total, add_comm]

end Ledger

/-! ### The accumulator follows the ledger -/

namespace Accumulator

/-- The accumulator tells what the ledger tells, as far back as its histories go. -/
structure Follows (acc : Accumulator Rat) (ledger : Ledger) : Prop where
  window : acc.window = ledger.window
  values : acc.values = ledger.values.take acc.capacity
  averages : acc.averages = ledger.means.take acc.capacity
  sum : acc.sum = .exact ledger.total
  mean : acc.mean = ledger.mean
  paired : ledger.means.length = ledger.values.length

variable {acc : Accumulator Rat} {ledger : Ledger}

private theorem meanOf_total (ledger : Ledger) {capacity : Nat} (h : ledger.window ≤ capacity) :
    meanOf (.exact ledger.total) (ledger.values.take capacity).length ledger.window =
      ledger.mean := by
  rw [Ledger.mean, ← ledger.covered_take h]
  simp [meanOf, CompensatedSum.exact, Scalar.ofNat, Scalar.ofInt]

theorem take_window_eq (hwindow : acc.window = ledger.window)
    (hvalues : acc.values = ledger.values.take acc.capacity) :
    acc.values.take acc.window = ledger.values.take ledger.window := by
  have hle : ledger.window ≤ acc.capacity := hwindow ▸ acc.window_le_capacity
  rw [hvalues, hwindow, List.take_take, Nat.min_eq_left hle]

private theorem ofList_take_window (hwindow : acc.window = ledger.window)
    (hvalues : acc.values = ledger.values.take acc.capacity)
    (hnonneg : ∀ value ∈ ledger.values, 0 ≤ value) :
    CompensatedSum.ofList (acc.values.take acc.window) = .exact ledger.total := by
  rw [take_window_eq hwindow hvalues]
  exact CompensatedSum.ofList_exact fun value hvalue => hnonneg value (List.mem_of_mem_take hvalue)

/-- A sum slides by as much as the total of the ledger changes. What leaves the window is read from the
kept values before the oldest of them is forgotten. -/
theorem slide_eq (hwindow : acc.window = ledger.window)
    (hvalues : acc.values = ledger.values.take acc.capacity) {sum : Rat}
    (hsum : acc.sum = .exact sum) (value : Rat) :
    acc.slide value =
      (CompensatedSum.exact (sum + ((ledger.enter value).total - ledger.total))).floored := by
  have hleaving : (value :: acc.values)[acc.window]? = (value :: ledger.values)[ledger.window]? := by
    obtain ⟨window, hsucc⟩ := Nat.exists_eq_add_one.2 (hwindow ▸ acc.window_pos)
    have hlt : window < acc.capacity := by have := acc.window_le_capacity; omega
    rw [hwindow, hvalues, hsucc, List.getElem?_cons_succ, List.getElem?_cons_succ,
      List.getElem?_take_of_lt hlt]
  have htotal := ledger.total_enter value
  simp only [slide, hleaving, hsum, CompensatedSum.add_exact]
  cases hold : (value :: ledger.values)[ledger.window]? with
  | none =>
    rw [hold, Option.getD_none, add_zero] at htotal
    rw [htotal, add_sub_cancel_left]
  | some old =>
    rw [hold, Option.getD_some] at htotal
    have hslid : sum + value + -old = sum + ((ledger.enter value).total - ledger.total) := by
      linear_combination -htotal
    rw [← hslid]

private theorem slide_exact (h : acc.Follows ledger) {value : Rat}
    (hnonneg : 0 ≤ (ledger.enter value).total) :
    acc.slide value = .exact (ledger.enter value).total := by
  rw [slide_eq h.window h.values h.sum, add_sub_cancel, CompensatedSum.floored_exact hnonneg]

theorem Follows.insert (h : acc.Follows ledger) {value : Rat}
    (hnonneg : ∀ entered ∈ value :: ledger.values, 0 ≤ entered) :
    (acc.insert value).Follows (ledger.enter value) := by
  have hvalues : (acc.insert value).values =
      (ledger.enter value).values.take (acc.insert value).capacity := by
    rw [insert_values, h.values, insert_capacity, acc.take_cons_take]
    rfl
  have hwindow : (acc.insert value).window = (ledger.enter value).window := by
    rw [insert_window, h.window]
    rfl
  have hsum : (acc.insert value).sum = .exact (ledger.enter value).total := by
    rw [insert_sum]
    split
    · rw [← acc.insert_window value]
      exact ofList_take_window hwindow hvalues hnonneg
    · exact slide_exact h (Ledger.total_nonneg hnonneg)
  have hmean : (acc.insert value).mean = (ledger.enter value).mean := by
    have hle : (ledger.enter value).window ≤ (acc.insert value).capacity :=
      hwindow ▸ (acc.insert value).window_le_capacity
    rw [insert_mean, hsum, hvalues, ← acc.insert_window value, hwindow]
    exact meanOf_total (ledger.enter value) hle
  have haverages : (acc.insert value).averages =
      (ledger.enter value).means.take (acc.insert value).capacity := by
    rw [insert_averages, kept, hmean, h.averages, insert_capacity, acc.take_cons_take]
    rfl
  exact ⟨hwindow, hvalues, haverages, hsum, hmean, by simp [Ledger.enter, h.paired]⟩

private theorem Follows.withWindow (h : acc.Follows ledger) {window : Nat} (hfits : acc.Fits window)
    (hnonneg : ∀ value ∈ ledger.values, 0 ≤ value) :
    (acc.withWindow window hfits).Follows { ledger with window } := by
  let resized : Ledger := { ledger with window }
  have hsum : (acc.withWindow window hfits).sum = .exact resized.total := by
    have hvalues : (acc.withWindow window hfits).values =
        resized.values.take (acc.withWindow window hfits).capacity := h.values
    exact ofList_take_window rfl hvalues hnonneg
  refine ⟨rfl, h.values, h.averages, hsum, ?_, h.paired⟩
  show (if acc.values.isEmpty then 0
    else meanOf (acc.withWindow window hfits).sum acc.values.length window) = _
  have hmean := meanOf_total ({ ledger with window } : Ledger) hfits.2
  rw [hsum]
  split
  next hempty =>
    -- nothing was kept, so nothing was ever entered: the capacity is positive
    have hnil : ledger.values = [] := by
      refine acc.eq_nil_of_take ?_
      rw [← h.values]
      exact List.isEmpty_iff.1 hempty
    simp [Ledger.mean, Ledger.total, hnil]
  next => rw [h.values, hmean]

private theorem Follows.clear (h : acc.Follows ledger) :
    acc.clear.Follows (.opening ledger.window) := by
  refine ⟨h.window, by simp [Accumulator.clear, empty, Ledger.opening],
    by simp [Accumulator.clear, empty, Ledger.opening], ?_, ?_, rfl⟩
  · simp [Accumulator.clear, empty, Ledger.opening, Ledger.total, CompensatedSum.zero,
      CompensatedSum.exact]
  · simp [Accumulator.clear, empty, Ledger.opening, Ledger.mean, Ledger.total]

theorem Follows.perform (h : acc.Follows ledger) {operation : Operation Rat}
    (hledger : ∀ value ∈ ledger.values, 0 ≤ value)
    (hoperation : ∀ value, operation = .insert value → 0 ≤ value) :
    (acc.perform operation).Follows (ledger.note acc.capacity operation) ∧
      ∀ value ∈ (ledger.note acc.capacity operation).values, 0 ≤ value := by
  cases operation with
  | insert value =>
    have hentered : ∀ entered ∈ value :: ledger.values, 0 ≤ entered := by
      intro entered hmem
      rcases List.mem_cons.1 hmem with rfl | hold
      · exact hoperation entered rfl
      · exact hledger entered hold
    exact ⟨h.insert hentered, hentered⟩
  | setWindow window =>
    rw [perform_setWindow]
    by_cases hfits : acc.Fits window
    · have hnote : ledger.note acc.capacity (.setWindow window) = { ledger with window } :=
        if_pos hfits
      rw [hnote, resized, dif_pos hfits]
      exact ⟨h.withWindow hfits hledger, hledger⟩
    · have hnote : ledger.note acc.capacity (.setWindow window) = ledger := if_neg hfits
      rw [hnote, resized, dif_neg hfits]
      exact ⟨h, hledger⟩
  | clear => exact ⟨h.clear, by simp [Ledger.note, Ledger.opening]⟩

private theorem Follows.performAll (h : acc.Follows ledger) {operations : List (Operation Rat)}
    (hledger : ∀ value ∈ ledger.values, 0 ≤ value)
    (hoperations : ∀ value, .insert value ∈ operations → 0 ≤ value) :
    (acc.performAll operations).Follows (ledger.noteAll acc.capacity operations) ∧
      ∀ value ∈ (ledger.noteAll acc.capacity operations).values, 0 ≤ value := by
  induction operations generalizing acc ledger with
  | nil => exact ⟨h, hledger⟩
  | cons operation operations ih =>
    obtain ⟨hstep, hnonneg⟩ := h.perform hledger fun value hvalue =>
      hoperations value (hvalue ▸ List.mem_cons_self)
    have hrest := ih hstep hnonneg fun value hvalue =>
      hoperations value (List.mem_cons_of_mem _ hvalue)
    rwa [perform_capacity] at hrest

theorem follows_empty {capacity window : Nat} (hpos : 0 < window) (hle : window ≤ capacity) :
    (empty capacity window hpos hle).Follows (.opening window) := by
  refine ⟨rfl, by simp [empty, Ledger.opening], by simp [empty, Ledger.opening], ?_, ?_, rfl⟩
  · simp [empty, Ledger.opening, Ledger.total, CompensatedSum.zero, CompensatedSum.exact]
  · simp [empty, Ledger.opening, Ledger.mean, Ledger.total]

theorem Follows.told (h : acc.Follows ledger) (hledger : ∀ value ∈ ledger.values, 0 ≤ value) :
    acc.windowSum = ledger.total ∧ acc.average = ledger.mean := by
  have htotal : 0 ≤ ledger.total := Ledger.total_nonneg hledger
  have hmean : 0 ≤ ledger.mean := div_nonneg htotal (Nat.cast_nonneg _)
  constructor
  · rw [windowSum, h.sum]
    exact Scalar.floored_of_nonneg htotal
  · rw [Accumulator.average, h.mean, Scalar.floored_of_nonneg hmean]
    split
    next hempty =>
      have hnil : ledger.means = [] := by
        refine acc.eq_nil_of_take ?_
        rw [← h.averages]
        exact List.isEmpty_iff.1 hempty
      have hvalues : ledger.values = [] := by
        rw [← List.length_eq_zero_iff, ← h.paired, hnil]
        rfl
      simp [Ledger.mean, Ledger.total, hvalues]
    next => rfl

/-- In exact arithmetic, whatever is inserted, resized and cleared, the sum and the average are those of
the latest values in the window that was accepted last, and each recorded average is the mean that its
value made. Neither the compensation, nor forgetting values, nor the floor, nor the rebuilds show. -/
theorem statistics_follow_ledger (capacity window : Nat) (hpos : 0 < window)
    (hle : window ≤ capacity) (operations : List (Operation Rat))
    (hnonneg : ∀ value, .insert value ∈ operations → 0 ≤ value) :
    ∃ fresh : Accumulator Rat, ofSizes capacity window = .ok fresh ∧
      let acc := fresh.performAll operations
      let ledger := (Ledger.opening window).noteAll capacity operations
      acc.window = ledger.window ∧ acc.windowSum = ledger.total ∧ acc.average = ledger.mean ∧
        acc.averages = ledger.means.take capacity := by
  refine ⟨empty capacity window hpos hle, ofSizes_of_fits hpos hle, ?_⟩
  obtain ⟨hfollows, hledger⟩ :=
    (follows_empty hpos hle).performAll (by simp [Ledger.opening]) hnonneg
  obtain ⟨hsum, haverage⟩ := hfollows.told hledger
  have hcap : ((empty capacity window hpos hle).performAll operations).capacity = capacity :=
    performAll_capacity _ _
  have haverages := hfollows.averages
  rw [hcap] at haverages
  exact ⟨hfollows.window, hsum, haverage, haverages⟩

/-- A full window that slides, a window that does not fit and is refused, and one that is granted. -/
theorem statistics_follow_ledger_sliding :
    ∃ fresh : Accumulator Rat, ofSizes 2 2 = .ok fresh ∧
      let acc := fresh.performAll [.insert 9, .clear, .insert 10, .insert 4, .insert 2,
        .setWindow 3, .setWindow 1, .insert 6]
      acc.window = 1 ∧ acc.windowSum = 6 ∧ acc.average = 6 ∧ acc.averages = [6, 3] := by
  obtain ⟨fresh, hfresh, hwindow, hsum, haverage, haverages⟩ :=
    statistics_follow_ledger 2 2 (by decide) (by decide)
      [.insert 9, .clear, .insert 10, .insert 4, .insert 2, .setWindow 3, .setWindow 1, .insert 6]
      (by simp)
  refine ⟨fresh, hfresh, hwindow, hsum.trans ?_, haverage.trans ?_, haverages.trans ?_⟩ <;>
    decide +kernel

end Accumulator

end NodeTelemetry
