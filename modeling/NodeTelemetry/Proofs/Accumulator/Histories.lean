import NodeTelemetry.Proofs.Accumulator.Positions

/-!
What the histories of an accumulator hold. A `Journal` is what an observer writes down: the window that
was accepted last, and since the creation or the last clearing every value that was inserted and the
average that its insertion computed. The histories are the latest part of it, unchanged, whatever the
values are; they always cover the whole window, and every position that is read lies in them.
-/

set_option autoImplicit false

namespace NodeTelemetry

variable {α : Type}

/-- What an observer of an accumulator writes down, newest first. -/
structure Journal (α : Type) where
  /-- The window that was accepted last. -/
  window : Nat
  /-- The values that were inserted since the creation or the last clearing. -/
  values : List α
  /-- The averages that these insertions computed. -/
  averages : List α

namespace Journal

open Accumulator (Operation)

def opening (window : Nat) : Journal α := ⟨window, [], []⟩

variable [Scalar α]

def note (acc : Accumulator α) (journal : Journal α) : Operation α → Journal α
  | .insert value =>
    { journal with
      values := value :: journal.values
      averages := (acc.insert value).mean :: journal.averages }
  | .setWindow window =>
    if 0 < window ∧ window ≤ acc.capacity then { journal with window } else journal
  | .clear => opening journal.window

def noteAll : Accumulator α → Journal α → List (Operation α) → Journal α
  | _, journal, [] => journal
  | acc, journal, operation :: operations =>
    noteAll (acc.perform operation) (journal.note acc operation) operations

end Journal

namespace Accumulator

structure Holds (acc : Accumulator α) (journal : Journal α) : Prop where
  window : acc.window = journal.window
  values : acc.values = journal.values.take acc.capacity
  averages : acc.averages = journal.averages.take acc.capacity
  paired : journal.averages.length = journal.values.length

variable {acc : Accumulator α} {journal : Journal α}

private theorem Holds.length_values (h : acc.Holds journal) :
    acc.values.length = Min.min journal.values.length acc.capacity := by
  rw [h.values, List.length_take, Nat.min_comm]

private theorem Holds.length_averages (h : acc.Holds journal) :
    acc.averages.length = Min.min journal.values.length acc.capacity := by
  rw [h.averages, List.length_take, h.paired, Nat.min_comm]

private theorem Holds.covered (h : acc.Holds journal) :
    acc.values.take acc.window = journal.values.take journal.window := by
  rw [h.values, List.take_take, Nat.min_eq_left acc.window_le_capacity, h.window]

private theorem Holds.get_eq [Scalar α] (h : acc.Holds journal) {i : Nat}
    (hi : i < acc.values.length) :
    journal.values[acc.values.length - 1 - i]? = some (acc.get i) := by
  have hback : acc.values.length - 1 - i < acc.values.length := by omega
  have hkept : acc.values.length - 1 - i < acc.capacity := by
    have hlength := h.length_values
    omega
  rw [← List.getElem?_take_of_lt hkept, ← h.values, Accumulator.get, List.getElem?_reverse hi,
    List.getElem?_eq_getElem hback]
  rfl

variable [Scalar α]

private theorem get_of_size_le (acc : Accumulator α) {i : Nat} (h : acc.size ≤ i) :
    acc.get i = 0 := by
  have hlength : acc.values.reverse.length ≤ i := by
    rw [List.length_reverse]
    exact h
  rw [get, List.getElem?_eq_none hlength]
  rfl

private theorem last_eq_get (acc : Accumulator α) : acc.last = acc.get (acc.size - 1) := by
  rw [last, get, size]
  cases acc.values with
  | nil => rfl
  | cons newest older =>
    rw [List.length_cons, Nat.add_sub_cancel, List.reverse_cons, List.getElem?_append_right
      (Nat.le_of_eq List.length_reverse), List.length_reverse, Nat.sub_self]
    rfl

private theorem holds_empty {capacity window : Nat} (hpos : 0 < window) (hle : window ≤ capacity) :
    (empty capacity window hpos hle : Accumulator α).Holds (.opening window) where
  window := rfl
  values := List.take_nil.symm
  averages := List.take_nil.symm
  paired := rfl

private theorem Holds.insert (h : acc.Holds journal) (value : α) :
    (acc.insert value).Holds (journal.note acc (.insert value)) where
  window := by
    rw [insert_window, h.window]
    rfl
  values := by
    rw [insert_values, insert_capacity, h.values, acc.take_cons_take]
    rfl
  averages := by
    rw [insert_averages, insert_capacity, kept, h.averages, acc.take_cons_take]
    rfl
  paired := by simp [Journal.note, h.paired]

private theorem Holds.resized (h : acc.Holds journal) (window : Nat) :
    (acc.resized window).Holds (journal.note acc (.setWindow window)) := by
  by_cases hfits : acc.Fits window
  · have hnote : journal.note acc (.setWindow window) = { journal with window } := if_pos hfits
    rw [hnote, Accumulator.resized, dif_pos hfits]
    exact ⟨rfl, h.values, h.averages, h.paired⟩
  · have hnote : journal.note acc (.setWindow window) = journal := if_neg hfits
    rw [hnote, Accumulator.resized, dif_neg hfits]
    exact h

private theorem Holds.perform (h : acc.Holds journal) (operation : Operation α) :
    (acc.perform operation).Holds (journal.note acc operation) := by
  cases operation with
  | insert value => exact h.insert value
  | setWindow window =>
    rw [perform_setWindow]
    exact h.resized window
  | clear =>
    show acc.clear.Holds (.opening journal.window)
    rw [← h.window]
    exact holds_empty acc.window_pos acc.window_le_capacity

private theorem Holds.performAll (h : acc.Holds journal) (operations : List (Operation α)) :
    (acc.performAll operations).Holds (journal.noteAll acc operations) := by
  induction operations generalizing acc journal with
  | nil => exact h
  | cons operation operations ih => exact ih (h.perform operation)

private theorem perform_setWindow_of_not_fits {window : Nat} (h : ¬acc.Fits window) :
    acc.setWindow window = .error (.window window acc.capacity) ∧
      acc.perform (.setWindow window) = acc := by
  constructor
  · rw [setWindow, dif_neg h]
  · rw [perform_setWindow, resized, dif_neg h]

/-- Whatever is inserted, resized and cleared: the window is the one that was accepted last, and fits. The
two histories are the latest values and the latest averages, unchanged and as many of both as there is
room for, so that they cover the window; values are counted from the oldest that is kept, and zero lies
beyond the newest. No position that is read lies outside, and nothing is divided by zero. A window that
does not fit is refused and changes nothing. What follows a clearing is what a new accumulator of the
same sizes would do. -/
theorem histories_hold_latest (capacity window : Nat) (hpos : 0 < window) (hle : window ≤ capacity)
    (operations : List (Operation α)) :
    ∃ fresh : Accumulator α, ofSizes capacity window = .ok fresh ∧
      let acc := fresh.performAll operations
      let journal := (Journal.opening window).noteAll fresh operations
      let size := Min.min journal.values.length capacity
      (acc.window = journal.window ∧ 1 ≤ journal.window ∧ journal.window ≤ capacity) ∧
        (acc.values = journal.values.take capacity ∧ acc.averages = journal.averages.take capacity ∧
          acc.size = size ∧ acc.averages.length = size ∧
          acc.values.take acc.window = journal.values.take journal.window) ∧
        ((∀ i, i < size → journal.values[size - 1 - i]? = some (acc.get i)) ∧
          (∀ i, size ≤ i → acc.get i = 0) ∧ acc.last = acc.get (acc.size - 1)) ∧
        operations.foldlM performByPosition fresh = .ok acc ∧
        (∀ n, ¬(1 ≤ n ∧ n ≤ capacity) →
          acc.setWindow n = .error (.window n capacity) ∧ acc.perform (.setWindow n) = acc) ∧
        ∃ renewed, ofSizes capacity journal.window = .ok renewed ∧
          ∀ later, acc.performAll (.clear :: later) = renewed.performAll later := by
  refine ⟨empty capacity window hpos hle, ofSizes_of_fits hpos hle, ?_⟩
  intro acc journal size
  have hholds : acc.Holds journal := (holds_empty hpos hle).performAll operations
  have hcapacity : acc.capacity = capacity := performAll_capacity _ _
  have hsize : acc.values.length = size := by rw [hholds.length_values, hcapacity]
  have hfits : 0 < journal.window ∧ journal.window ≤ capacity :=
    ⟨hholds.window ▸ acc.window_pos, hholds.window ▸ hcapacity ▸ acc.window_le_capacity⟩
  refine ⟨⟨hholds.window, hfits⟩, ⟨?_, ?_, hsize, ?_, hholds.covered⟩, ⟨fun i hi => ?_, fun i hi => ?_,
    acc.last_eq_get⟩, ?_, fun n hn => ?_, ?_⟩
  · rw [hholds.values, hcapacity]
  · rw [hholds.averages, hcapacity]
  · rw [hholds.length_averages, hcapacity]
  · rw [← hsize] at hi ⊢
    exact hholds.get_eq hi
  · exact acc.get_of_size_le (Nat.le_trans (Nat.le_of_eq hsize) hi)
  · exact foldlM_performByPosition _ (Nat.zero_le _) operations
  · rw [← hcapacity] at hn ⊢
    exact perform_setWindow_of_not_fits hn
  · refine ⟨acc.clear, ?_, fun later => rfl⟩
    rw [← hholds.window, ← hcapacity]
    exact ofSizes_of_fits acc.window_pos acc.window_le_capacity

/-- Values that are no numbers and both zeros, in a history of two places behind a clearing; a window that
does not fit and a smaller one that does. -/
theorem histories_hold_latest_nan :
    ∃ fresh : Accumulator Float, ofSizes 2 2 = .ok fresh ∧
      let operations := [.insert 9, .clear, .insert 3, .insert (0 / 0), .setWindow 5, .setWindow 1,
        .insert (-0)]
      let acc := fresh.performAll operations
      acc.window = 1 ∧ acc.values = [-0, 0 / 0] ∧ acc.size = 2 ∧ acc.averages.length = 2 ∧
        acc.get 1 = -0 ∧ acc.get 2 = 0 ∧ operations.foldlM performByPosition fresh = .ok acc ∧
        acc.perform (.setWindow 3) = acc ∧
        ∃ renewed, ofSizes 2 1 = .ok renewed ∧
          ∀ later, acc.performAll (.clear :: later) = renewed.performAll later := by
  obtain ⟨fresh, hfresh, ⟨hwindow, -⟩, ⟨hvalues, -, hsize, haverages, -⟩, ⟨hget, hbeyond, -⟩, hfaults,
      hrefused, hrenewed⟩ :=
    histories_hold_latest 2 2 (by decide) (by decide)
      [.insert (9 : Float), .clear, .insert 3, .insert (0 / 0), .setWindow 5, .setWindow 1, .insert (-0)]
  cases (ofSizes_of_fits (by decide) (by decide)).symm.trans hfresh
  have hlast := hget 1 (by decide +kernel)
  refine ⟨_, hfresh, hwindow.trans ?_, hvalues.trans ?_, hsize.trans ?_, haverages.trans ?_, ?_,
    hbeyond 2 (by decide +kernel), hfaults, (hrefused 3 (by decide)).2, ?_⟩
  · decide +kernel
  · decide +kernel
  · decide +kernel
  · decide +kernel
  · exact (Option.some.inj hlast).symm.trans (by decide +kernel)
  · exact hrenewed

end Accumulator

end NodeTelemetry
