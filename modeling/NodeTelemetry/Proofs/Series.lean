import NodeTelemetry.Proofs.Scalar.Order
import NodeTelemetry.Series

/-!
Runs of insertions into a series, and what cutting the series back makes of them. Points beyond a bound
stand in front of those below it, so a cut at the bound takes away what was appended and nothing else;
only what the appended points have pushed out stays lost.
-/

set_option autoImplicit false

namespace NodeTelemetry.Series

open Scalar (LawfulOrder)

variable {α : Type}

def dropOldest (series : Series α) (k : Nat) : Series α :=
  { series with points := series.points.take (series.size - k) }

/-- How many of the points of a series are pushed out when `m` points are appended. -/
def lostTo (series : Series α) (m : Nat) : Nat :=
  min series.size (series.size + m - series.capacity)

theorem dropOldest_lostTo (series : Series α) (m : Nat) :
    (series.dropOldest (series.lostTo m)).points = series.points.take (series.capacity - m) := by
  by_cases hm : series.size + m ≤ series.capacity
  · have hlost : series.lostTo m = 0 := by
      unfold lostTo
      omega
    have hkept : series.points.length ≤ series.capacity - m := by
      rw [← size]
      omega
    rw [dropOldest, hlost, Nat.sub_zero, size, List.take_length, List.take_of_length_le hkept]
  · have hkept : series.size - series.lostTo m = series.capacity - m := by
      unfold lostTo
      omega
    rw [dropOldest, hkept]

variable [Scalar α]

def insertAll (series : Series α) (points : List (Point α)) : Series α :=
  points.foldl (fun series point => (series.insert point.x point.y).1) series

/-- Decides whether an insertion appends a point: it is neither dropped nor a replacement. -/
def appends (series : Series α) (x : α) : Bool :=
  match series.points with
  | [] => true
  | newest :: _ => !Scalar.lt x newest.x && !Scalar.same x newest.x

def appended : Series α → List (Point α) → Nat
  | _, [] => 0
  | series, point :: points =>
    (if series.appends point.x then 1 else 0)
      + appended (series.insert point.x point.y).1 points

@[simp] theorem insert_capacity (series : Series α) (x y : α) :
    (series.insert x y).1.capacity = series.capacity := by
  unfold insert
  split
  · rfl
  · split
    · rfl
    · split <;> rfl

theorem insertAll_append (series : Series α) (first second : List (Point α)) :
    series.insertAll (first ++ second) = (series.insertAll first).insertAll second :=
  List.foldl_append

private theorem insert_of_appends {series : Series α} {x : α} (h : series.appends x = true)
    (y : α) : (series.insert x y).1 = series.push ⟨x, y⟩ := by
  unfold appends at h
  unfold insert
  split
  · rfl
  next newest older hpoints =>
    rw [hpoints] at h
    simp only [Bool.and_eq_true, Bool.not_eq_true'] at h
    simp [h.1, h.2]

private theorem insert_of_not_appends {series : Series α} {x : α} (h : series.appends x = false)
    (y : α) : ∃ newest older, series.points = newest :: older ∧
      ((series.insert x y).1.points = series.points ∨
        (series.insert x y).1.points = { newest with y } :: older) := by
  unfold appends at h
  unfold insert
  cases hpoints : series.points with
  | nil => simp [hpoints] at h
  | cons newest older =>
    refine ⟨newest, older, rfl, ?_⟩
    by_cases hlt : Scalar.lt x newest.x = true
    · simp [hlt, hpoints]
    · by_cases hsame : Scalar.same x newest.x = true
      · simp [hlt, hsame]
      · simp [hpoints, hlt, hsame] at h

/-- The points beyond a bound that `m` insertions have appended stand before the points that were there,
as far as there is room for both. -/
structure Extends (bound : α) (series : Series α) (m : Nat) (extended : Series α) : Prop where
  capacity : extended.capacity = series.capacity
  split : ∃ recent, extended.points = recent ++ series.points.take (series.capacity - m) ∧
    recent.length = min m series.capacity ∧ ∀ point ∈ recent, Scalar.lt bound point.x = true

theorem extends_refl (bound : α) {series : Series α}
    (hroom : series.points.length ≤ series.capacity) : Extends bound series 0 series := by
  refine ⟨rfl, [], ?_, by simp, by simp⟩
  rw [Nat.sub_zero, List.take_of_length_le hroom, List.nil_append]

/-- Cutting an extended series back takes away exactly the points that were appended. -/
theorem Extends.truncate {bound : α} {series extended : Series α} {m : Nat}
    (hbelow : ∀ point ∈ series.points, Scalar.le point.x bound = true)
    (h : Extends bound series m extended) :
    extended.truncate bound =
        { series with points := series.points.take (series.capacity - m) } ∧
      extended.beyond bound = min m series.capacity := by
  obtain ⟨recent, hpoints, hlength, hrecent⟩ := h.split
  have hcut : extended.points.dropWhile (fun point => !Scalar.le point.x bound) =
      series.points.take (series.capacity - m) := by
    rw [hpoints, List.dropWhile_append_of_pos]
    · cases hkept : series.points.take (series.capacity - m) with
      | nil => rfl
      | cons newest older =>
        have hmem : newest ∈ series.points :=
          List.mem_of_mem_take (hkept ▸ List.mem_cons_self)
        simp [hbelow newest hmem]
    · intro point hpoint
      simpa using (Scalar.lt_iff.1 (hrecent point hpoint)).2
  constructor
  · rw [Series.truncate, hcut, h.capacity]
  · rw [beyond, Series.truncate, hcut, hpoints, List.length_append, hlength]
    exact Nat.add_sub_cancel _ _

private theorem appends_of_lt {series : Series α} {x : α}
    (h : ∀ point ∈ series.points, Scalar.lt point.x x = true) : series.appends x = true := by
  unfold appends
  cases hpoints : series.points with
  | nil => rfl
  | cons newest older =>
    have hlt := Scalar.lt_iff.1 (h newest (hpoints ▸ List.mem_cons_self))
    simp [Scalar.lt, Scalar.same, hlt.2]

theorem insertAll_of_increasing (capacity : Nat) {points : List (Point α)}
    (h : points.Pairwise fun earlier later => Scalar.lt earlier.x later.x = true) :
    (empty capacity).insertAll points = ⟨capacity, points.reverse.take capacity⟩ := by
  induction points using List.reverseRecOn with
  | nil => simp [insertAll, empty]
  | append_singleton points point ih =>
    rw [List.pairwise_append] at h
    obtain ⟨hpoints, -, hlast⟩ := h
    have happends : appends ⟨capacity, points.reverse.take capacity⟩ point.x = true := by
      refine appends_of_lt fun earlier hearlier => hlast earlier ?_ point (List.mem_singleton_self _)
      exact List.mem_reverse.1 (List.mem_of_mem_take hearlier)
    rw [insertAll_append, ih hpoints]
    refine (insert_of_appends happends point.y).trans ?_
    rw [push, List.reverse_append, List.reverse_singleton, List.singleton_append]
    cases capacity with
    | zero => rfl
    | succ room => simp [List.take_take]

variable [LawfulOrder α]

private theorem appends_of_below {series : Series α} {bound x : α} (hx : Scalar.lt bound x = true)
    (h : ∀ point ∈ series.points, Scalar.le point.x bound = true) : series.appends x = true :=
  appends_of_lt fun point hpoint => Scalar.lt_of_le_of_lt (h point hpoint) hx

private theorem Extends.insert {bound : α} {series extended : Series α} {m : Nat} {x : α}
    (hbelow : ∀ point ∈ series.points, Scalar.le point.x bound = true)
    (h : Extends bound series m extended) (hx : Scalar.lt bound x = true) (y : α) :
    Extends bound series ((if extended.appends x then 1 else 0) + m) (extended.insert x y).1 := by
  obtain ⟨recent, hpoints, hlength, hrecent⟩ := h.split
  refine ⟨by rw [insert_capacity, h.capacity], ?_⟩
  by_cases happends : extended.appends x = true
  · refine ⟨(⟨x, y⟩ :: recent).take series.capacity, ?_, ?_, ?_⟩
    · have hrest : min (series.capacity - (recent.length + 1)) (series.capacity - m) =
          series.capacity - (1 + m) := by omega
      rw [insert_of_appends happends, if_pos happends, push, h.capacity, hpoints,
        ← List.cons_append, List.take_append, List.take_take, List.length_cons, hrest]
    · simp only [List.length_take, List.length_cons, happends, if_true]
      omega
    · intro point hpoint
      rcases List.mem_cons.1 (List.mem_of_mem_take hpoint) with rfl | hpoint
      · exact hx
      · exact hrecent point hpoint
  · have hfalse : extended.appends x = false := by simpa using happends
    obtain ⟨newest, older, hnewest, hafter⟩ := insert_of_not_appends hfalse y
    rw [if_neg happends, Nat.zero_add]
    -- the newest point is one that was appended, or the point would have been appended too
    cases recent with
    | nil =>
      refine absurd (appends_of_below hx fun point hpoint => ?_) happends
      rw [hpoints, List.nil_append] at hpoint
      exact hbelow point (List.mem_of_mem_take hpoint)
    | cons first recent =>
      rw [hpoints, List.cons_append, List.cons.injEq] at hnewest
      obtain ⟨rfl, rfl⟩ := hnewest
      rcases hafter with hafter | hafter
      · exact ⟨first :: recent, hafter.trans hpoints, hlength, hrecent⟩
      · refine ⟨{ first with y } :: recent, hafter, hlength, fun point hpoint => ?_⟩
        rcases List.mem_cons.1 hpoint with rfl | hpoint
        · exact hrecent first List.mem_cons_self
        · exact hrecent point (List.mem_cons_of_mem _ hpoint)

theorem Extends.insertAll {bound : α} {series extended : Series α} {m : Nat}
    (hbelow : ∀ point ∈ series.points, Scalar.le point.x bound = true)
    {points : List (Point α)} (habove : ∀ point ∈ points, Scalar.lt bound point.x = true)
    (h : Extends bound series m extended) :
    Extends bound series (extended.appended points + m) (extended.insertAll points) := by
  induction points generalizing extended m with
  | nil => rwa [appended, Nat.zero_add]
  | cons point points ih =>
    have hstep := h.insert hbelow (habove point List.mem_cons_self) point.y
    have hrest := ih (fun next hnext => habove next (List.mem_cons_of_mem _ hnext)) hstep
    rw [appended]
    rwa [← Nat.add_assoc, Nat.add_comm (appended _ points)] at hrest

/-! ### Bounds -/

theorem isLargest_bounds {series : Series α} (hne : series.points ≠ [])
    (hnumber : ∀ point ∈ series.points, Scalar.isNumber point.y = true) :
    Scalar.IsLargest series.bounds.2 (series.points.map (·.y)) ∧
      series.bounds.2 ∈ series.points.map (·.y) := by
  have hmem : ∀ y, y ∈ series.toList.map (·.y) ↔ y ∈ series.points.map (·.y) := by
    intro y
    simp [toList]
  unfold bounds
  cases hheights : series.toList.map (·.y) with
  | nil =>
    rw [List.map_eq_nil_iff, toList, List.reverse_eq_nil_iff] at hheights
    exact absurd hheights hne
  | cons first rest =>
    rw [hheights] at hmem
    have hnumbers : ∀ y ∈ first :: rest, Scalar.isNumber y = true := by
      intro y hy
      obtain ⟨point, hpoint, rfl⟩ := List.mem_map.1 ((hmem y).1 hy)
      exact hnumber point hpoint
    have hscan := Scalar.selects_max.swap.extreme_foldl (hnumbers first List.mem_cons_self)
      fun y hy => hnumbers y (List.mem_cons_of_mem _ hy)
    exact ⟨hscan.of_mem_iff hmem, (hmem _).1 (Scalar.selects_max.swap.mem_foldl first rest)⟩

end NodeTelemetry.Series
