import NodeTelemetry.Proofs.Scalar.FloatOrder
import NodeTelemetry.Proofs.Series

/-!
Runs of a series: any sequence of insertions and cuts. What becomes of a point is decided by the newest
one alone, and a cut stops at the first point that it keeps. Both are right for the whole series because
its points always go strictly forward.
-/

set_option autoImplicit false

namespace NodeTelemetry.Series

open Scalar (LawfulOrder)

variable {α : Type}

inductive Operation (α : Type) where
  | insert (x y : α)
  | truncate (bound : α)

def Operation.place : Operation α → α
  | .insert x _ => x
  | .truncate bound => bound

/-- What becomes of a point that is inserted. -/
inductive Fate where
  | dropped
  /-- Its height takes the place of the newest one's. -/
  | merged
  | appended
  deriving Repr, DecidableEq

variable [Scalar α]

/-- What becomes of a point at `x`, by the newest point of the series. -/
def fate (newest? : Option (Point α)) (x : α) : Fate :=
  match newest? with
  | none => .appended
  | some newest =>
    if Scalar.lt x newest.x then .dropped
    else if Scalar.same x newest.x then .merged
    else .appended

def perform (series : Series α) : Operation α → Series α
  | .insert x y => (series.insert x y).1
  | .truncate bound => series.truncate bound

def performAll (series : Series α) (operations : List (Operation α)) : Series α :=
  operations.foldl perform series

private theorem performAll_concat (series : Series α) (operations : List (Operation α))
    (operation : Operation α) :
    series.performAll (operations ++ [operation]) =
      (series.performAll operations).perform operation :=
  List.foldl_concat _ _ _ _

theorem insert_eq (series : Series α) (x y : α) :
    series.insert x y =
      match fate series.last? x with
      | .dropped => (series, false)
      | .merged =>
        ({ series with points := series.points.modifyHead fun newest => { newest with y } }, true)
      | .appended => (series.push ⟨x, y⟩, true) := by
  unfold insert fate last?
  cases hpoints : series.points with
  | nil => rfl
  | cons newest older =>
    by_cases hlt : Scalar.lt x newest.x = true
    · simp [hlt]
    · by_cases hsame : Scalar.same x newest.x = true
      · simp [hlt, hsame]
      · simp [hlt, hsame]

@[simp] theorem perform_capacity (series : Series α) (operation : Operation α) :
    (series.perform operation).capacity = series.capacity := by
  cases operation with
  | insert x y => exact insert_capacity series x y
  | truncate bound => rfl

@[simp] theorem performAll_capacity (series : Series α) (operations : List (Operation α)) :
    (series.performAll operations).capacity = series.capacity := by
  induction operations using List.reverseRecOn with
  | nil => rfl
  | append_singleton earlier operation ih => rw [performAll_concat, perform_capacity, ih]

/-! ### Points that go forward -/

/-- The points stand at numbers that go strictly forward, and there is room for all of them. -/
structure Ascends (series : Series α) : Prop where
  isNumber : ∀ point ∈ series.points, Scalar.isNumber point.x = true
  forward : series.points.Pairwise fun newer older => Scalar.lt older.x newer.x = true
  room : series.points.length ≤ series.capacity

private theorem ascends_empty (capacity : Nat) : (empty capacity : Series α).Ascends where
  isNumber _ hpoint := nomatch hpoint
  forward := .nil
  room := Nat.zero_le _

variable {series : Series α} {x bound : α}

private theorem Ascends.truncate (h : series.Ascends) (bound : α) :
    (series.truncate bound).Ascends := by
  have hsuffix : (series.truncate bound).points <:+ series.points := List.dropWhile_suffix _
  exact ⟨fun point hpoint => h.isNumber point (hsuffix.subset hpoint),
    h.forward.sublist hsuffix.sublist, hsuffix.length_le.trans h.room⟩

private theorem fate_of_before (h : ∀ point ∈ series.points, Scalar.lt point.x x = true) :
    fate series.last? x = .appended := by
  unfold fate last?
  cases hpoints : series.points with
  | nil => rfl
  | cons newest older =>
    have hlt := Scalar.lt_iff.1 (h newest (hpoints ▸ List.mem_cons_self))
    simp [Scalar.lt, Scalar.same, hlt.2]

variable [LawfulOrder α]

private theorem Ascends.before_of_appended (h : series.Ascends) (hx : Scalar.isNumber x = true)
    (hfate : fate series.last? x = .appended) :
    ∀ point ∈ series.points, Scalar.lt point.x x = true := by
  unfold fate last? at hfate
  cases hpoints : series.points with
  | nil => exact fun point hpoint => nomatch hpoint
  | cons newest older =>
    have hforward := h.forward
    have hnumber : Scalar.isNumber newest.x = true := h.isNumber newest (hpoints ▸ List.mem_cons_self)
    rw [hpoints] at hfate hforward
    have hnewest : Scalar.lt newest.x x = true := by
      refine Scalar.lt_of_not_le hx hnumber fun hle => ?_
      by_cases hback : Scalar.le newest.x x = true
      · simp [Scalar.lt, Scalar.same, hle, hback] at hfate
      · simp [Scalar.lt, hle, hback] at hfate
    intro point hpoint
    rcases List.mem_cons.1 hpoint with rfl | hpoint
    · exact hnewest
    · exact Scalar.lt_of_lt_of_le ((List.pairwise_cons.1 hforward).1 point hpoint)
        (Scalar.lt_iff.1 hnewest).1

private theorem Ascends.insert (h : series.Ascends) (hx : Scalar.isNumber x = true) (y : α) :
    (series.insert x y).1.Ascends := by
  rw [insert_eq]
  cases hfate : fate series.last? x with
  | dropped => exact h
  | merged =>
    -- the newest point keeps its place
    obtain ⟨hnumber, hforward, hroom⟩ := h
    cases hpoints : series.points with
    | nil => exact ⟨fun point hpoint => (nomatch hpoint), .nil, Nat.zero_le _⟩
    | cons newest older =>
      rw [hpoints] at hnumber hforward hroom
      rw [List.forall_mem_cons] at hnumber
      exact ⟨List.forall_mem_cons.2 hnumber, List.pairwise_cons.2 (List.pairwise_cons.1 hforward), hroom⟩
  | appended =>
    have hforward : (⟨x, y⟩ :: series.points).Pairwise fun newer older =>
        Scalar.lt older.x newer.x = true :=
      List.pairwise_cons.2 ⟨h.before_of_appended hx hfate, h.forward⟩
    have hnumber : ∀ point ∈ ⟨x, y⟩ :: series.points, Scalar.isNumber point.x = true :=
      List.forall_mem_cons.2 ⟨hx, h.isNumber⟩
    exact ⟨fun point hpoint => hnumber point (List.mem_of_mem_take hpoint),
      hforward.sublist (List.take_sublist _ _), List.length_take_le _ _⟩

private theorem Ascends.perform (h : series.Ascends) {operation : Operation α}
    (hnumber : Scalar.isNumber operation.place = true) : (series.perform operation).Ascends := by
  cases operation with
  | insert x y => exact h.insert hnumber y
  | truncate bound => exact h.truncate bound

private theorem Ascends.performAll (h : series.Ascends) {operations : List (Operation α)}
    (hnumbers : ∀ operation ∈ operations, Scalar.isNumber operation.place = true) :
    (series.performAll operations).Ascends := by
  induction operations generalizing series with
  | nil => exact h
  | cons operation operations ih =>
    rw [List.forall_mem_cons] at hnumbers
    exact ih (h.perform hnumbers.1) hnumbers.2

/-! ### Cuts -/

/-- Once a point is kept so are all before it, so a cut that stops there is a filter. -/
theorem Ascends.truncate_points (h : series.Ascends) (bound : α) :
    (series.truncate bound).points = series.points.filter fun point => Scalar.le point.x bound := by
  have hforward := h.forward
  show series.points.dropWhile (fun point => !Scalar.le point.x bound) = _
  generalize series.points = points at hforward
  induction points with
  | nil => rfl
  | cons newest older ih =>
    obtain ⟨hbefore, hrest⟩ := List.pairwise_cons.1 hforward
    by_cases hkept : Scalar.le newest.x bound = true
    · have hall : ∀ point ∈ newest :: older, Scalar.le point.x bound = true :=
        List.forall_mem_cons.2 ⟨hkept, fun point hpoint =>
          LawfulOrder.le_trans (Scalar.lt_iff.1 (hbefore point hpoint)).1 hkept⟩
      rw [List.dropWhile_cons_of_neg (by simp [hkept]), List.filter_eq_self.2 hall]
    · rw [List.dropWhile_cons_of_pos (by simp [hkept]), List.filter_cons, if_neg hkept]
      exact ih hrest

private theorem Ascends.beyond_eq_countP (h : series.Ascends)
    (hbound : Scalar.isNumber bound = true) :
    series.beyond bound = series.points.countP fun point => Scalar.lt bound point.x := by
  have hbeyond : series.points.countP (fun point => decide ¬Scalar.le point.x bound = true) =
      series.points.countP fun point => Scalar.lt bound point.x := by
    refine List.countP_congr fun point hpoint => ?_
    rw [decide_eq_true_iff]
    exact ⟨Scalar.lt_of_not_le (h.isNumber point hpoint) hbound,
      fun hlt => Bool.eq_false_iff.1 (Scalar.lt_iff.1 hlt).2⟩
  have hparts := List.length_eq_countP_add_countP (fun point : Point α => Scalar.le point.x bound)
    (l := series.points)
  rw [beyond, h.truncate_points, ← List.countP_eq_length_filter, ← hbeyond]
  omega

/-- However a series is used, its points go strictly forward and never outnumber its capacity. A cut
takes away exactly the points beyond the bound, tells how many these were, and what lies beyond the
bound is then appended. -/
theorem ascends_and_cuts_exactly (capacity : Nat) (operations : List (Operation α))
    (hnumbers : ∀ operation ∈ operations, Scalar.isNumber operation.place = true) :
    let series := (empty capacity).performAll operations
    series.toList.Pairwise (fun earlier later => Scalar.lt earlier.x later.x = true) ∧
      series.size ≤ capacity ∧
      ∀ bound, Scalar.isNumber bound = true →
        (series.truncate bound).toList =
            series.toList.filter (fun point => Scalar.le point.x bound) ∧
          series.beyond bound = series.toList.countP (fun point => Scalar.lt bound point.x) ∧
          ∀ x y, Scalar.lt bound x = true →
            (series.truncate bound).insert x y = ((series.truncate bound).push ⟨x, y⟩, true) := by
  intro series
  have hascends : series.Ascends := (ascends_empty capacity).performAll hnumbers
  have hcapacity : series.capacity = capacity := performAll_capacity _ _
  refine ⟨List.pairwise_reverse.2 hascends.forward, hcapacity ▸ hascends.room, fun bound hbound => ?_⟩
  refine ⟨?_, ?_, fun x y hx => ?_⟩
  · rw [toList, hascends.truncate_points, ← List.filter_reverse, ← toList]
  · rw [hascends.beyond_eq_countP hbound, toList, List.countP_reverse]
  · have hbefore : ∀ point ∈ (series.truncate bound).points, Scalar.lt point.x x = true := by
      intro point hpoint
      rw [hascends.truncate_points, List.mem_filter] at hpoint
      exact Scalar.lt_of_le_of_lt hpoint.2 hx
    rw [insert_eq, fate_of_before hbefore]

/-- The two zeros stand at one place, a point behind the newest is dropped, and the oldest is pushed out
before a cut. -/
theorem ascends_and_cuts_exactly_zeros :
    let series := (empty 2 : Series Float).performAll
      [.insert 0 1, .insert (-0) 2, .insert 5 3, .insert 4 4, .insert 7 5, .truncate 5, .insert 6 6]
    series.toList.map (·.x) = [5, 6] ∧
      series.toList.Pairwise (fun earlier later => Scalar.lt earlier.x later.x = true) ∧
      (series.truncate 5).toList = series.toList.filter (fun point => Scalar.le point.x 5) ∧
      series.beyond 5 = 1 ∧
      (series.truncate 5).insert 5.5 7 = ((series.truncate 5).push ⟨5.5, 7⟩, true) := by
  intro series
  obtain ⟨hforward, -, hcuts⟩ := ascends_and_cuts_exactly (α := Float) 2
    [.insert 0 1, .insert (-0) 2, .insert 5 3, .insert 4 4, .insert 7 5, .truncate 5, .insert 6 6]
    (by decide +kernel)
  obtain ⟨hkept, hbeyond, happends⟩ := hcuts 5 (by decide +kernel)
  refine ⟨by decide +kernel, hforward, hkept, hbeyond.trans ?_, happends 5.5 7 ?_⟩
  · decide +kernel
  · decide +kernel

end NodeTelemetry.Series
