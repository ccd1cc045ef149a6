import Mathlib
import NodeTelemetry.Scalar.Float

/-!
Exact rationals as scalars, and the order of scalars. Rationals have the same operations as floats with
arithmetic that loses nothing. A scalar with a `LawfulOrder` compares its numbers as a total preorder;
values that are no numbers compare to nothing. Exact rationals have it, and so have floats, whose two
zeros stand at one place.
-/

set_option autoImplicit false

namespace NodeTelemetry

private def Scalar.parts (x : Rat) : Bool × Nat × Nat := (x.num < 0, x.num.natAbs, x.den)

instance : Scalar Rat where
  le x y := decide (x ≤ y)
  largest := (((2 ^ 53 - 1) * 2 ^ 971 : Nat) : Rat)
  ofInt n := (n : Rat)
  rounded x :=
    let (negative, num, den) := Scalar.parts x
    Binary64.clampInt64 (Binary64.signed negative (Decimal.roundDiv .up num den))
  truncated x :=
    let (negative, num, den) := Scalar.parts x
    Binary64.clampInt64 (Binary64.signed negative (num / den))
  count x :=
    let (negative, num, den) := Scalar.parts x
    if negative then 0 else min (num / den) Word.largest
  fixed places x :=
    let (negative, num, den) := Scalar.parts x
    Decimal.fixedQuotient places negative num den

namespace Scalar

/-- `x` is as far along `r` as every member of a list, and stands where some member does. -/
structure Extreme {α : Type} (r : α → α → Prop) (x : α) (xs : List α) : Prop where
  bound : ∀ y ∈ xs, r y x
  attained : ∃ y ∈ xs, r x y

namespace Extreme

variable {α : Type} {r : α → α → Prop} {x leaving : α} {xs ys : List α}

theorem of_mem_iff (h : Extreme r x xs) (hmem : ∀ y, y ∈ xs ↔ y ∈ ys) : Extreme r x ys := by
  obtain ⟨y, hy, hxy⟩ := h.attained
  exact ⟨fun z hz => h.bound z ((hmem z).2 hz), y, (hmem y).1 hy, hxy⟩

theorem of_not_reached (h : Extreme r x (leaving :: xs)) (hnot : ¬r x leaving) :
    Extreme r x xs := by
  obtain ⟨y, hy, hxy⟩ := h.attained
  refine ⟨fun z hz => h.bound z (List.mem_cons_of_mem _ hz), y, ?_, hxy⟩
  rcases List.mem_cons.1 hy with rfl | hy
  · exact absurd hxy hnot
  · exact hy

end Extreme

/-- The numbers are totally preordered, and zero and the largest of them are among them. -/
class LawfulOrder (α : Type) [Scalar α] : Prop where
  isNumber_of_le {x y : α} : le x y = true → isNumber x = true ∧ isNumber y = true
  le_trans {x y z : α} : le x y = true → le y z = true → le x z = true
  le_total {x y : α} : isNumber x = true → isNumber y = true → le x y = true ∨ le y x = true
  isNumber_zero : isNumber (0 : α) = true
  isNumber_largest : isNumber (largest : α) = true

theorem le_rat {x y : Rat} : le x y = true ↔ x ≤ y := decide_eq_true_iff

theorem isNumber_rat (x : Rat) : isNumber x = true := decide_eq_true (le_refl x)

instance : LawfulOrder Rat where
  isNumber_of_le {x y} _ := ⟨isNumber_rat x, isNumber_rat y⟩
  le_trans hxy hyz := decide_eq_true (le_trans (of_decide_eq_true hxy) (of_decide_eq_true hyz))
  le_total {x y} _ _ := (Rat.le_total (a := x) (b := y)).imp decide_eq_true decide_eq_true
  isNumber_zero := isNumber_rat 0
  isNumber_largest := isNumber_rat largest

variable {α : Type} [Scalar α]

theorem lt_iff {x y : α} : lt x y = true ↔ le x y = true ∧ le y x = false := by
  simp [lt]

theorem lt_rat {x y : Rat} : lt x y = true ↔ x < y := by
  rw [lt_iff, ← Bool.not_eq_true, le_rat, le_rat, not_le]
  exact ⟨And.right, fun h => ⟨h.le, h⟩⟩

theorem same_iff {x y : α} : same x y = true ↔ le x y = true ∧ le y x = true := by
  simp [same]

section lawful

variable [LawfulOrder α] {x y z : α}

open LawfulOrder

private theorem le_of_not_le (hx : isNumber x = true) (hy : isNumber y = true)
    (h : ¬le x y = true) : le y x = true :=
  (le_total hx hy).resolve_left h

theorem lt_of_not_le (hx : isNumber x = true) (hy : isNumber y = true) (h : ¬le x y = true) :
    lt y x = true :=
  lt_iff.2 ⟨le_of_not_le hx hy h, Bool.eq_false_iff.2 h⟩

theorem lt_of_lt_of_le (hxy : lt x y = true) (hyz : le y z = true) : lt x z = true := by
  obtain ⟨hle, hnot⟩ := lt_iff.1 hxy
  refine lt_iff.2 ⟨le_trans hle hyz, Bool.eq_false_iff.2 fun hzx => ?_⟩
  rw [le_trans hyz hzx] at hnot
  exact Bool.noConfusion hnot

theorem lt_of_le_of_lt (hxy : le x y = true) (hyz : lt y z = true) : lt x z = true := by
  obtain ⟨hle, hnot⟩ := lt_iff.1 hyz
  refine lt_iff.2 ⟨le_trans hxy hle, Bool.eq_false_iff.2 fun hzx => ?_⟩
  rw [le_trans hzx hxy] at hnot
  exact Bool.noConfusion hnot

theorem floored_mono (h : le x y = true) : le (floored x) (floored y) = true := by
  obtain ⟨hx, hy⟩ := isNumber_of_le h
  simp only [floored, max, hx, hy, Bool.true_and]
  by_cases hxneg : lt x 0 = true
  · by_cases hyneg : lt y 0 = true
    · have hzero : le (0 : α) 0 = true := isNumber_zero
      simpa [hxneg, hyneg] using hzero
    · have hzero : le 0 y = true := by
        by_contra hnot
        exact hyneg (lt_of_not_le isNumber_zero hy hnot)
      simpa [hxneg, hyneg] using hzero
  · have hyneg : ¬lt y 0 = true := fun hlt => hxneg (lt_of_le_of_lt h hlt)
    simpa [hxneg, hyneg] using h

end lawful

/-! ### Selecting extremes -/

/-- `pick` takes one of two numbers, and what it takes is at least as far along `r` as both. -/
structure Selects (r : α → α → Prop) (pick : α → α → α) : Prop where
  comparable {x y : α} : r x y → isNumber x = true ∧ isNumber y = true
  refl {x : α} : isNumber x = true → r x x
  trans {x y z : α} : r x y → r y z → r x z
  left {x y : α} : isNumber x = true → isNumber y = true → r x (pick x y)
  right {x y : α} : isNumber x = true → isNumber y = true → r y (pick x y)
  eq_or_eq (x y : α) : pick x y = x ∨ pick x y = y

def IsLargest (x : α) (xs : List α) : Prop := Extreme (fun x y => le x y = true) x xs

def IsSmallest (x : α) (xs : List α) : Prop := Extreme (fun x y => le y x = true) x xs

theorem selects_max [LawfulOrder α] : Selects (fun x y : α => le x y = true) max where
  comparable := LawfulOrder.isNumber_of_le
  refl hx := hx
  trans := LawfulOrder.le_trans
  left {x y} hx hy := by
    simp only [max, hx, Bool.true_and]
    split
    · exact hx
    next h => exact (lt_iff.1 (by simpa using h)).1
  right {x y} hx hy := by
    simp only [max, hx, Bool.true_and]
    split
    next h =>
      by_contra hle
      simp [lt_of_not_le hy hx hle] at h
    · exact hy
  eq_or_eq x y := by
    unfold max
    split
    · exact .inl rfl
    · exact .inr rfl

theorem selects_min [LawfulOrder α] : Selects (fun x y : α => le y x = true) min where
  comparable h := (LawfulOrder.isNumber_of_le h).symm
  refl hx := hx
  trans hxy hyz := LawfulOrder.le_trans hyz hxy
  left {x y} hx hy := by
    simp only [min, hx, Bool.true_and]
    split
    · exact hx
    next h => exact (lt_iff.1 (by simpa using h)).1
  right {x y} hx hy := by
    simp only [min, hx, Bool.true_and]
    split
    next h =>
      by_contra hle
      simp [lt_of_not_le hx hy hle] at h
    · exact hy
  eq_or_eq x y := by
    unfold min
    split
    · exact .inl rfl
    · exact .inr rfl

namespace Selects

variable {r : α → α → Prop} {pick : α → α → α} {x y : α} {xs : List α}

private theorem isNumber_extreme (h : Selects r pick) (hx : Extreme r x xs) :
    isNumber x = true := by
  obtain ⟨y, -, hxy⟩ := hx.attained
  exact (h.comparable hxy).1

theorem extreme_singleton (h : Selects r pick) (hx : isNumber x = true) :
    Extreme r x [x] := by
  refine ⟨fun y hy => ?_, x, List.mem_singleton_self x, h.refl hx⟩
  rw [List.mem_singleton.1 hy]
  exact h.refl hx

theorem extreme_cons (h : Selects r pick) (hx : Extreme r x xs) (hy : isNumber y = true) :
    Extreme r (pick x y) (y :: xs) := by
  have hnumber : isNumber x = true := h.isNumber_extreme hx
  obtain ⟨z, hz, hxz⟩ := hx.attained
  constructor
  · intro w hw
    rcases List.mem_cons.1 hw with rfl | hw
    · exact h.right hnumber hy
    · exact h.trans (hx.bound w hw) (h.left hnumber hy)
  · rcases h.eq_or_eq x y with heq | heq
    · exact ⟨z, List.mem_cons_of_mem _ hz, by rwa [heq]⟩
    · exact ⟨y, List.mem_cons_self, by rw [heq]; exact h.refl hy⟩

theorem extreme_foldr (h : Selects r pick) (hx : isNumber x = true)
    (hxs : ∀ y ∈ xs, isNumber y = true) :
    Extreme r (xs.foldr (fun y best => pick best y) x) (x :: xs) := by
  induction xs with
  | nil => exact h.extreme_singleton hx
  | cons y xs ih =>
    have hrest := ih fun z hz => hxs z (List.mem_cons_of_mem _ hz)
    have hall := h.extreme_cons hrest (hxs y List.mem_cons_self)
    refine hall.of_mem_iff fun z => ?_
    simp only [List.mem_cons]
    tauto

theorem swap (h : Selects r pick) : Selects r fun x y => pick y x where
  comparable := h.comparable
  refl := h.refl
  trans := h.trans
  left hx hy := h.right hy hx
  right hx hy := h.left hy hx
  eq_or_eq x y := (h.eq_or_eq y x).symm

theorem mem_foldr (h : Selects r pick) (x : α) (xs : List α) :
    xs.foldr (fun y best => pick best y) x ∈ x :: xs := by
  induction xs with
  | nil => exact List.mem_singleton_self x
  | cons y xs ih =>
    rw [List.foldr_cons]
    rcases h.eq_or_eq (xs.foldr (fun y best => pick best y) x) y with heq | heq
    · rw [heq]
      rcases List.mem_cons.1 ih with hbase | hmem
      · rw [hbase]
        exact List.mem_cons_self
      · exact List.mem_cons_of_mem _ (List.mem_cons_of_mem _ hmem)
    · rw [heq]
      exact List.mem_cons_of_mem _ List.mem_cons_self

theorem extreme_foldl (h : Selects r pick) (hx : isNumber x = true)
    (hxs : ∀ y ∈ xs, isNumber y = true) : Extreme r (xs.foldl pick x) (x :: xs) := by
  have hreverse := h.extreme_foldr hx fun y (hy : y ∈ xs.reverse) =>
    hxs y (List.mem_reverse.1 hy)
  rw [List.foldr_reverse] at hreverse
  exact hreverse.of_mem_iff fun y => by simp

theorem mem_foldl (h : Selects r pick) (x : α) (xs : List α) : xs.foldl pick x ∈ x :: xs := by
  have hreverse := h.mem_foldr x xs.reverse
  rw [List.foldr_reverse] at hreverse
  simpa using hreverse

end Selects

end Scalar

end NodeTelemetry
