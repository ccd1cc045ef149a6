import Mathlib
import NodeTelemetry.Proofs.Accumulator.WindowSum
import NodeTelemetry.Proofs.Scalar.Order

/-!
The windowed sum of signed values in exact arithmetic. The floor at zero acts on the incremental sum, so
that what it has once added stays in the sum until the sum is added up anew. The sum that is told is the
true total of the window plus the depth of the lowest total since then: a walk reflected at zero.
-/

set_option autoImplicit false

namespace NodeTelemetry

open Accumulator (Operation rebuildPeriod)

/-! ### When the sum is added up anew -/

namespace Ledger

/-- A use after which the sum has been added up anew: a clearing, a window that is granted, and the last
insertion of a period. -/
def Rebuilds (capacity : Nat) (ledger : Ledger) : Operation Rat → Prop
  | .insert _ => rebuildPeriod ∣ ledger.values.length + 1
  | .setWindow window => 0 < window ∧ window ≤ capacity
  | .clear => True

instance (capacity : Nat) (ledger : Ledger) (operation : Operation Rat) :
    Decidable (ledger.Rebuilds capacity operation) :=
  match operation with
  | .insert _ => inferInstanceAs (Decidable (_ ∣ _))
  | .setWindow _ => inferInstanceAs (Decidable (_ ∧ _))
  | .clear => isTrue trivial

variable (capacity window : Nat) (operations : List (Operation Rat))

def after (k : Nat) : Ledger := (opening window).noteAll capacity (operations.take k)

/-- The true total of the values in the window after the first uses. -/
def totalAfter (k : Nat) : Rat := (after capacity window operations k).total

/-- The sum has just been added up anew, or the accumulator is new. -/
def RebuiltAt : Nat → Prop
  | 0 => True
  | k + 1 => ∃ operation ∈ operations[k]?, (after capacity window operations k).Rebuilds capacity operation

instance (k : Nat) : Decidable (RebuiltAt capacity window operations k) :=
  match k with
  | 0 => isTrue trivial
  | k + 1 => inferInstanceAs (Decidable (∃ operation ∈ operations[k]?, _))

/-- The latest of the first uses after which the sum had been added up anew. -/
def latestRebuild (k : Nat) : Nat := Nat.findGreatest (RebuiltAt capacity window operations) k

/-- How far below zero the total has been at its lowest since the sum was added up anew; zero if it has
not been below. -/
def depth (k : Nat) : Rat :=
  (Finset.Icc (latestRebuild capacity window operations k) k).fold max 0 fun j =>
    -totalAfter capacity window operations j

variable {capacity window : Nat} {operations : List (Operation Rat)} {k : Nat}

private theorem latestRebuild_le :
    latestRebuild capacity window operations k ≤ k := Nat.findGreatest_le k

private theorem after_succ : after capacity window operations (k + 1) =
    (operations[k]?).elim (after capacity window operations k)
      (note capacity (after capacity window operations k)) := by
  rw [after, List.take_add_one]
  cases operations[k]? with
  | none => rw [Option.toList_none, List.append_nil, Option.elim_none, after]
  | some operation =>
    rw [Option.toList_some, Option.elim_some, noteAll, List.foldl_append]
    rfl

private theorem depth_succ : depth capacity window operations (k + 1) =
    max (-totalAfter capacity window operations (k + 1))
      (if RebuiltAt capacity window operations (k + 1) then 0
        else depth capacity window operations k) := by
  rw [depth, latestRebuild, Nat.findGreatest_succ]
  split
  · rw [Finset.Icc_self, Finset.fold_singleton]
  · have hle : latestRebuild capacity window operations k ≤ k + 1 :=
      Nat.le_succ_of_le latestRebuild_le
    have hnew : k + 1 ∉ Finset.Icc (latestRebuild capacity window operations k) k := fun hmem =>
      absurd (Finset.mem_Icc.1 hmem).2 (Nat.not_succ_le_self k)
    rw [← latestRebuild, ← Finset.insert_Icc_right_eq_Icc_add_one hle, Finset.fold_insert hnew]
    rfl

private theorem depth_zero : depth capacity window operations 0 = 0 := by
  have htotal : totalAfter capacity window operations 0 = 0 := by
    simp [totalAfter, after, noteAll, opening, total]
  simp [depth, latestRebuild, htotal]

private theorem le_depth {j : Nat} (hlatest : latestRebuild capacity window operations k ≤ j)
    (hle : j ≤ k) : -totalAfter capacity window operations j ≤ depth capacity window operations k :=
  (Finset.le_fold_max _).2 (.inr ⟨j, Finset.mem_Icc.2 ⟨hlatest, hle⟩, le_rfl⟩)

private theorem depth_nonneg :
    0 ≤ depth capacity window operations k := (Finset.le_fold_max _).2 (.inl le_rfl)

private theorem depth_mono {j : Nat} (hlatest : latestRebuild capacity window operations k ≤ j)
    (hle : j ≤ k) : depth capacity window operations j ≤ depth capacity window operations k := by
  have hsame : latestRebuild capacity window operations k ≤ latestRebuild capacity window operations j :=
    Nat.le_findGreatest hlatest (Nat.findGreatest_spec (Nat.zero_le k) trivial)
  refine (Finset.fold_max_le _).2 ⟨depth_nonneg, fun i hi => ?_⟩
  obtain ⟨hfrom, hto⟩ := Finset.mem_Icc.1 hi
  exact le_depth (hsame.trans hfrom) (hto.trans hle)

private theorem depth_of_rebuilt (h : RebuiltAt capacity window operations k) :
    depth capacity window operations k = max 0 (-totalAfter capacity window operations k) := by
  cases k with
  | zero =>
    have hle : -totalAfter capacity window operations 0 ≤ depth capacity window operations 0 :=
      le_depth latestRebuild_le le_rfl
    rw [depth_zero] at hle ⊢
    rw [max_eq_left hle]
  | succ k => rw [depth_succ, if_pos h, max_comm]

end Ledger

/-! ### The accumulator reflects the ledger -/

namespace Accumulator

private theorem insert_sinceRebuild (acc : Accumulator Rat) (value : Rat) :
    (acc.insert value).sinceRebuild =
      if rebuildPeriod ≤ acc.sinceRebuild + 1 then 0 else acc.sinceRebuild + 1 := by
  simp only [insert, record_eq]

/-- The accumulator keeps the values of the ledger and counts them, and its sum is the total of the
ledger and some excess over it. -/
structure Reflects (acc : Accumulator Rat) (ledger : Ledger) (excess : Rat) : Prop where
  window : acc.window = ledger.window
  values : acc.values = ledger.values.take acc.capacity
  counted : acc.sinceRebuild = ledger.values.length % rebuildPeriod
  sum : acc.sum = .exact (ledger.total + excess)
  nonneg : 0 ≤ ledger.total + excess

/-- The excess after one more use: the floor keeps it at the depth of the new total at least. -/
private def excessAfter (capacity : Nat) (ledger : Ledger) (excess : Rat) (operation : Operation Rat) : Rat :=
  -- an accumulator has a `max` of its own
  Max.max (-(ledger.note capacity operation).total)
    (if ledger.Rebuilds capacity operation then 0 else excess)

namespace Reflects

variable {acc : Accumulator Rat} {ledger : Ledger} {excess : Rat}

private theorem total_le (h : acc.Reflects ledger excess) : -ledger.total ≤ excess :=
  neg_le_iff_add_nonneg'.2 h.nonneg

private theorem floored_total_add (total excess : Rat) :
    (CompensatedSum.exact (total + excess)).floored = .exact (total + Max.max (-total) excess) := by
  rw [CompensatedSum.floored_eq, ← max_add_add_left, add_neg_cancel]

private theorem nonneg_total_add (total excess : Rat) : 0 ≤ total + Max.max (-total) excess :=
  neg_le_iff_add_nonneg'.1 (le_max_left _ _)

private theorem ofList_window (hwindow : acc.window = ledger.window)
    (hvalues : acc.values = ledger.values.take acc.capacity) :
    CompensatedSum.ofList (acc.values.take acc.window) =
      .exact (ledger.total + Max.max (-ledger.total) 0) := by
  rw [take_window_eq hwindow hvalues, ← floored_total_add, add_zero, CompensatedSum.ofList_eq,
    CompensatedSum.floored_eq, Ledger.total]

private theorem insert (h : acc.Reflects ledger excess) (value : Rat) :
    (acc.insert value).Reflects (ledger.enter value)
      (excessAfter acc.capacity ledger excess (.insert value)) := by
  have hwindow : (acc.insert value).window = (ledger.enter value).window :=
    (insert_window acc value).trans h.window
  have hvalues : (acc.insert value).values =
      (ledger.enter value).values.take (acc.insert value).capacity := by
    rw [insert_values, h.values, insert_capacity, acc.take_cons_take]
    rfl
  have hlength : (ledger.enter value).values.length = ledger.values.length + 1 := rfl
  have hdue : rebuildPeriod ≤ acc.sinceRebuild + 1 ↔ rebuildPeriod ∣ ledger.values.length + 1 := by
    rw [h.counted, rebuildPeriod]
    omega
  refine ⟨hwindow, hvalues, ?_, ?_, nonneg_total_add _ _⟩
  · rw [insert_sinceRebuild, h.counted, hlength, rebuildPeriod]
    split <;> omega
  · rw [insert_sum, excessAfter]
    by_cases hrebuild : rebuildPeriod ∣ ledger.values.length + 1
    · have hwhether : ledger.Rebuilds acc.capacity (.insert value) := hrebuild
      rw [if_pos (hdue.2 hrebuild), if_pos hwhether, ← acc.insert_window value]
      exact ofList_window hwindow hvalues
    · have hwhether : ¬ledger.Rebuilds acc.capacity (.insert value) := hrebuild
      have hslid : ledger.total + excess + ((ledger.enter value).total - ledger.total) =
          (ledger.enter value).total + excess := by ring
      rw [if_neg (mt hdue.1 hrebuild), if_neg hwhether, slide_eq h.window h.values h.sum, hslid]
      exact floored_total_add _ _

private theorem setWindow (h : acc.Reflects ledger excess) (window : Nat) :
    (acc.resized window).Reflects (ledger.note acc.capacity (.setWindow window))
      (excessAfter acc.capacity ledger excess (.setWindow window)) := by
  by_cases hfits : acc.Fits window
  · have hnote : ledger.note acc.capacity (.setWindow window) = { ledger with window } := if_pos hfits
    have hwhether : ledger.Rebuilds acc.capacity (.setWindow window) := hfits
    rw [excessAfter, if_pos hwhether, hnote, resized, dif_pos hfits]
    refine ⟨rfl, h.values, h.counted, ?_, nonneg_total_add _ _⟩
    have hvalues : (acc.withWindow window hfits).values =
        ({ ledger with window } : Ledger).values.take (acc.withWindow window hfits).capacity :=
      h.values
    exact ofList_window rfl hvalues
  · have hnote : ledger.note acc.capacity (.setWindow window) = ledger := if_neg hfits
    have hwhether : ¬ledger.Rebuilds acc.capacity (.setWindow window) := hfits
    rw [excessAfter, if_neg hwhether, hnote, max_eq_right h.total_le, resized, dif_neg hfits]
    exact h

private theorem clear (h : acc.Reflects ledger excess) :
    acc.clear.Reflects (.opening ledger.window)
      (excessAfter acc.capacity ledger excess .clear) := by
  have htotal : (ledger.note acc.capacity .clear).total = 0 := by
    simp [Ledger.note, Ledger.opening, Ledger.total]
  have hexcess : excessAfter acc.capacity ledger excess .clear = 0 := by
    have hwhether : ledger.Rebuilds acc.capacity .clear := trivial
    rw [excessAfter, if_pos hwhether, htotal, neg_zero, max_self]
  have htotal' : (Ledger.opening ledger.window).total = 0 := htotal
  rw [hexcess]
  refine ⟨h.window, ?_, rfl, ?_, ?_⟩
  · simp [Accumulator.clear, empty, Ledger.opening]
  · rw [htotal', add_zero]
    rfl
  · rw [htotal', add_zero]

private theorem perform (h : acc.Reflects ledger excess) (operation : Operation Rat) :
    (acc.perform operation).Reflects (ledger.note acc.capacity operation)
      (excessAfter acc.capacity ledger excess operation) := by
  cases operation with
  | insert value => exact h.insert value
  | setWindow window =>
    rw [perform_setWindow]
    exact h.setWindow window
  | clear => exact h.clear

private theorem windowSum_eq (h : acc.Reflects ledger excess) :
    acc.windowSum = ledger.total + excess := by
  rw [windowSum, h.sum]
  exact Scalar.floored_of_nonneg h.nonneg

end Reflects

private theorem reflects_empty {capacity window : Nat} (hpos : 0 < window)
    (hle : window ≤ capacity) : (empty capacity window hpos hle).Reflects (.opening window) 0 := by
  have htotal : (Ledger.opening window).total = 0 := by simp [Ledger.opening, Ledger.total]
  refine ⟨rfl, by simp [empty, Ledger.opening], rfl, ?_, ?_⟩
  · rw [htotal, add_zero]
    rfl
  · rw [htotal, add_zero]

/-- After the first uses of a run the excess is the depth of the lowest total since the latest rebuild. -/
theorem reflects_after {capacity window : Nat} (hpos : 0 < window) (hle : window ≤ capacity)
    (operations : List (Operation Rat)) (k : Nat) :
    ((empty capacity window hpos hle).performAll (operations.take k)).Reflects
      (Ledger.after capacity window operations k) (Ledger.depth capacity window operations k) := by
  induction k with
  | zero =>
    rw [List.take_zero, Ledger.depth_zero]
    exact reflects_empty hpos hle
  | succ k ih =>
    rw [Ledger.depth_succ, Ledger.totalAfter, Ledger.after_succ, List.take_add_one]
    cases hnext : operations[k]? with
    | none =>
      -- the run has ended: nothing is added up anew, and the total is in view already
      have hrebuilt : ¬Ledger.RebuiltAt capacity window operations (k + 1) := by
        rintro ⟨operation, hoperation, -⟩
        rw [hnext] at hoperation
        cases hoperation
      rw [if_neg hrebuilt, Option.toList_none, List.append_nil, Option.elim_none,
        max_eq_right ih.total_le]
      exact ih
    | some operation =>
      have hrebuilt : Ledger.RebuiltAt capacity window operations (k + 1) ↔
          (Ledger.after capacity window operations k).Rebuilds capacity operation := by
        simp [Ledger.RebuiltAt, hnext]
      have hcapacity : ((empty capacity window hpos hle).performAll (operations.take k)).capacity =
          capacity := performAll_capacity _ _
      have hstep := ih.perform operation
      rw [hcapacity, excessAfter] at hstep
      rw [Option.toList_some, Option.elim_some, performAll, List.foldl_append]
      simp only [hrebuilt]
      exact hstep

/-- In exact arithmetic and for values of any sign, the sum that is told after any number of uses is the
true total of the window and, on top of it, the depth of the lowest total since the sum was last added up
anew. It is never below the total nor below zero, what it has on top does not shrink until the sum is
added up anew and is then no more than the total asks for, and while no total falls below zero the sum
is exact. -/
theorem sum_reflects_totals (capacity window : Nat) (hpos : 0 < window) (hle : window ≤ capacity)
    (operations : List (Operation Rat)) :
    ∃ fresh : Accumulator Rat, ofSizes capacity window = .ok fresh ∧
      let sum k := (fresh.performAll (operations.take k)).windowSum
      let total k := ((Ledger.opening window).noteAll capacity (operations.take k)).total
      let latest k := Nat.findGreatest (Ledger.RebuiltAt capacity window operations) k
      ∀ k,
        sum k = total k + (Finset.Icc (latest k) k).fold Max.max 0 (fun j => -total j) ∧
        Max.max 0 (total k) ≤ sum k ∧
        (∀ j, latest k ≤ j → j ≤ k → sum j - total j ≤ sum k - total k) ∧
        (Ledger.RebuiltAt capacity window operations k → sum k - total k = Max.max 0 (-total k)) ∧
        ((∀ j, latest k ≤ j → j ≤ k → 0 ≤ total j) → sum k = total k) := by
  refine ⟨empty capacity window hpos hle, ofSizes_of_fits hpos hle, ?_⟩
  intro sum total latest k
  have hsum : ∀ j, sum j = total j + Ledger.depth capacity window operations j := fun j =>
    (reflects_after hpos hle operations j).windowSum_eq
  have hexcess : ∀ j, sum j - total j = Ledger.depth capacity window operations j := fun j => by
    rw [hsum, add_sub_cancel_left]
  refine ⟨hsum k, max_le ?_ ?_, fun j hlatest hjk => ?_, fun hrebuilt => ?_, fun hnonneg => ?_⟩
  · rw [hsum]
    exact (reflects_after hpos hle operations k).nonneg
  · rw [hsum]
    exact le_add_of_nonneg_right Ledger.depth_nonneg
  · rw [hexcess, hexcess]
    exact Ledger.depth_mono hlatest hjk
  · rw [hexcess]
    exact Ledger.depth_of_rebuilt hrebuilt
  · have hdepth : Ledger.depth capacity window operations k = 0 := by
      refine le_antisymm ((Finset.fold_max_le _).2 ⟨le_rfl, fun j hj => ?_⟩) Ledger.depth_nonneg
      obtain ⟨hfrom, hto⟩ := Finset.mem_Icc.1 hj
      exact neg_nonpos.2 (hnonneg j hfrom hto)
    rw [hsum, hdepth, add_zero]

/-- A window of two that falls to minus five and recovers tells five too much until it is resized. -/
theorem sum_reflects_totals_negative :
    ∃ fresh : Accumulator Rat, ofSizes 2 2 = .ok fresh ∧
      let sum k := (fresh.performAll
        (([.insert (-5), .insert 3, .insert 1, .setWindow 1] : List (Operation Rat)).take k)).windowSum
      sum 1 = 0 ∧ sum 2 = 3 ∧ sum 3 = 9 ∧ sum 4 = 1 := by
  obtain ⟨fresh, hfresh, hsum⟩ := sum_reflects_totals 2 2 (by decide) (by decide)
    [.insert (-5), .insert 3, .insert 1, .setWindow 1]
  refine ⟨fresh, hfresh, (hsum 1).1.trans ?_, (hsum 2).1.trans ?_, (hsum 3).1.trans ?_,
    (hsum 4).1.trans ?_⟩ <;> decide +kernel

end Accumulator

end NodeTelemetry
