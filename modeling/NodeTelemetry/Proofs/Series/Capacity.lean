import NodeTelemetry.Proofs.Series.Run

/-!
Series of different capacities. What becomes of a point does not depend on those that were pushed out,
so a series of any capacity holds the newest points of one that never pushes any out, and answers as it
does, until a cut takes all the points that it still had.
-/

set_option autoImplicit false

namespace NodeTelemetry.Series

variable {α : Type}

/-- The points of one series are the newest of another, and not none of them. -/
structure HoldsNewest (bounded wide : Series α) : Prop where
  newest : bounded.points <+: wide.points
  some : wide.points ≠ [] → bounded.points ≠ []

variable {bounded wide : Series α}

private theorem HoldsNewest.nil_of_nil (h : bounded.HoldsNewest wide) (hnil : bounded.points = []) :
    wide.points = [] := by
  by_contra hsome
  exact h.some hsome hnil

private theorem HoldsNewest.last?_eq (h : bounded.HoldsNewest wide) :
    bounded.last? = wide.last? := by
  obtain ⟨rest, hrest⟩ := h.newest
  rw [last?, last?, ← hrest]
  cases hpoints : bounded.points with
  | nil =>
    rw [hpoints, List.nil_append] at hrest
    rw [hrest, h.nil_of_nil hpoints]
    rfl
  | cons newest older => rfl

private theorem push_of_room {series : Series α} (h : series.points.length < series.capacity)
    (point : Point α) : series.push point = { series with points := point :: series.points } := by
  rw [push, List.take_of_length_le (by simpa using h)]

variable [Scalar α]

/-- What the insertions of a run answer, one after another: whether the point was taken. -/
def answers : Series α → List (Operation α) → List Bool
  | _, [] => []
  | series, .insert x y :: operations =>
    (series.insert x y).2 :: answers (series.insert x y).1 operations
  | series, .truncate bound :: operations => answers (series.truncate bound) operations

/-- A use that empties one series while another keeps points: a cut between what they hold. -/
def Drains (bounded wide : Series α) : Operation α → Prop
  | .insert _ _ => False
  | .truncate bound =>
    bounded.points ≠ [] ∧ (bounded.truncate bound).points = [] ∧ (wide.truncate bound).points ≠ []

/-- No cut of a run empties one series while another keeps points. -/
def NeverDrains : Series α → Series α → List (Operation α) → Prop
  | _, _, [] => True
  | bounded, wide, operation :: operations =>
    ¬bounded.Drains wide operation ∧
      NeverDrains (bounded.perform operation) (wide.perform operation) operations

instance decidableDrains (bounded wide : Series α) :
    (operation : Operation α) → Decidable (bounded.Drains wide operation)
  | .insert _ _ => inferInstanceAs (Decidable False)
  | .truncate _ => inferInstanceAs (Decidable (_ ∧ _ ∧ _))

instance decidableNeverDrains :
    (bounded wide : Series α) → (operations : List (Operation α)) →
      Decidable (bounded.NeverDrains wide operations)
  | _, _, [] => inferInstanceAs (Decidable True)
  | bounded, wide, operation :: operations =>
    have := decidableNeverDrains (bounded.perform operation) (wide.perform operation) operations
    inferInstanceAs (Decidable (_ ∧ _))

/-! ### One use -/

private theorem size_perform_le (series : Series α) (operation : Operation α) :
    (series.perform operation).points.length ≤ series.points.length + 1 := by
  cases operation with
  | insert x y =>
    rw [perform, insert_eq]
    cases fate series.last? x with
    | dropped => exact Nat.le_succ _
    | merged =>
      show (series.points.modifyHead _).length ≤ _
      rw [List.length_modifyHead]
      exact Nat.le_succ _
    | appended => exact List.length_take_le' _ _
  | truncate bound => exact (List.dropWhile_suffix _).length_le.trans (Nat.le_succ _)

private theorem HoldsNewest.insert (h : bounded.HoldsNewest wide) (hroom : 0 < bounded.capacity)
    (hwide : wide.points.length < wide.capacity) (x y : α) :
    (bounded.insert x y).1.HoldsNewest (wide.insert x y).1 ∧
      (bounded.insert x y).2 = (wide.insert x y).2 := by
  rw [insert_eq, insert_eq, h.last?_eq]
  cases fate wide.last? x with
  | dropped => exact ⟨h, rfl⟩
  | merged =>
    refine ⟨?_, rfl⟩
    obtain ⟨rest, hrest⟩ := h.newest
    cases hpoints : bounded.points with
    | nil =>
      have hnone := h.nil_of_nil hpoints
      exact ⟨List.nil_prefix, fun hsome => absurd (congrArg (List.modifyHead _) hnone) hsome⟩
    | cons newest older =>
      rw [hpoints] at hrest
      constructor
      · show (_ :: older) <+: wide.points.modifyHead _
        rw [← hrest]
        exact ⟨rest, rfl⟩
      · exact fun _ => List.cons_ne_nil _ _
  | appended =>
    rw [push_of_room hwide]
    refine ⟨⟨?_, fun _ => ?_⟩, rfl⟩
    · exact (List.take_prefix _ _).trans ((List.prefix_cons_inj _).2 h.newest)
    · obtain ⟨room, hroom⟩ := Nat.exists_eq_add_one.2 hroom
      show (_ :: bounded.points).take bounded.capacity ≠ []
      rw [hroom, List.take_succ_cons]
      exact List.cons_ne_nil _ _

private theorem HoldsNewest.truncate (h : bounded.HoldsNewest wide) {bound : α}
    (hdrains : ¬bounded.Drains wide (.truncate bound)) :
    (bounded.truncate bound).HoldsNewest (wide.truncate bound) := by
  obtain ⟨rest, hrest⟩ := h.newest
  have hcut : (wide.truncate bound).points =
      if (bounded.truncate bound).points.isEmpty
      then rest.dropWhile fun point => !Scalar.le point.x bound
      else (bounded.truncate bound).points ++ rest := by
    rw [Series.truncate, ← hrest]
    exact List.dropWhile_append
  cases hkept : (bounded.truncate bound).points with
  | nil =>
    -- both are empty then: either they were, or the cut would have drained the bounded series
    refine ⟨hkept ▸ List.nil_prefix, fun hsome => absurd ⟨?_, hkept, hsome⟩ hdrains⟩
    refine h.some fun hnone => hsome ?_
    rw [Series.truncate, hnone]
    rfl
  | cons newest older =>
    rw [hkept] at hcut
    exact ⟨⟨rest, by rw [hkept]; exact hcut.symm⟩, fun _ => hkept ▸ List.cons_ne_nil _ _⟩

/-! ### Runs -/

private theorem HoldsNewest.performAll {operations : List (Operation α)}
    (h : bounded.HoldsNewest wide)
    (hroom : 0 < bounded.capacity) (hwide : wide.points.length + operations.length ≤ wide.capacity)
    (hnever : bounded.NeverDrains wide operations) :
    (bounded.performAll operations).HoldsNewest (wide.performAll operations) ∧
      bounded.answers operations = wide.answers operations := by
  induction operations generalizing bounded wide with
  | nil => exact ⟨h, rfl⟩
  | cons operation operations ih =>
    obtain ⟨hdrains, hrest⟩ := hnever
    have hsize := wide.size_perform_le operation
    have hspare : (wide.perform operation).points.length + operations.length ≤
        (wide.perform operation).capacity := by
      rw [List.length_cons] at hwide
      rw [perform_capacity]
      omega
    have hroom' : 0 < (bounded.perform operation).capacity := by rwa [perform_capacity]
    cases operation with
    | insert x y =>
      have hfull : wide.points.length < wide.capacity := by
        rw [List.length_cons] at hwide
        omega
      obtain ⟨hstep, hanswer⟩ := h.insert hroom hfull x y
      obtain ⟨hlast, hanswers⟩ := ih hstep hroom' hspare hrest
      refine ⟨hlast, ?_⟩
      rw [answers, answers, hanswer, hanswers]
    | truncate bound => exact ih (h.truncate hdrains) hroom' hspare hrest

/-- An insertion keeps a series the newest part of a wide one, as long as it holds all that it has room
for. -/
theorem points_insert_of_take (hpoints : bounded.points = wide.points.take bounded.capacity)
    (hroom : 0 < bounded.capacity) (hwide : wide.points.length < wide.capacity) (x y : α) :
    (bounded.insert x y).1.points = (wide.insert x y).1.points.take bounded.capacity := by
  obtain ⟨room, hsucc⟩ := Nat.exists_eq_add_one.2 hroom
  have hlast : bounded.last? = wide.last? := by
    rw [last?, last?, hpoints, List.head?_take, if_neg (Nat.ne_of_gt hroom)]
  rw [insert_eq, insert_eq, hlast]
  cases fate wide.last? x with
  | dropped => exact hpoints
  | merged =>
    show bounded.points.modifyHead _ = (wide.points.modifyHead _).take _
    rw [hpoints, hsucc]
    cases wide.points <;> rfl
  | appended =>
    rw [push_of_room hwide]
    show (_ :: bounded.points).take _ = (_ :: wide.points).take _
    rw [hpoints, hsucc, List.take_succ_cons, List.take_succ_cons, List.take_take,
      Nat.min_eq_left (Nat.le_succ room)]

private theorem points_performAll_of_take {operations : List (Operation α)}
    (hpoints : bounded.points = wide.points.take bounded.capacity) (hroom : 0 < bounded.capacity)
    (hwide : wide.points.length + operations.length ≤ wide.capacity)
    (hcuts : ∀ bound, .truncate bound ∉ operations) :
    (bounded.performAll operations).points =
      (wide.performAll operations).points.take bounded.capacity := by
  induction operations generalizing bounded wide with
  | nil => exact hpoints
  | cons operation operations ih =>
    rw [List.length_cons] at hwide
    cases operation with
    | truncate bound => exact absurd List.mem_cons_self (hcuts bound)
    | insert x y =>
      have hsize := wide.size_perform_le (.insert x y)
      have hstep := points_insert_of_take hpoints hroom (by omega) x y
      have hrest := @ih (bounded.insert x y).1 (wide.insert x y).1
      rw [insert_capacity, insert_capacity] at hrest
      rw [perform] at hsize
      exact hrest hstep hroom (by omega) fun bound hmem =>
        hcuts bound (List.mem_cons_of_mem _ hmem)

/-- A series with some room runs like one that has room for every point: until a cut drains it, both
answer alike, and it holds the newest of the points, some if there are any; and as long as there is no
cut, it holds as many of them as it has room for. -/
theorem capacity_hides_only_oldest (capacity limit : Nat) (hroom : 0 < capacity)
    (operations : List (Operation α)) (hlimit : operations.length ≤ limit)
    (hnever : (empty capacity).NeverDrains (empty limit) operations) :
    let bounded := (empty capacity).performAll operations
    let wide := (empty limit).performAll operations
    (empty capacity).answers operations = (empty limit).answers operations ∧
      bounded.toList <:+ wide.toList ∧
      (wide.toList ≠ [] → bounded.toList ≠ []) ∧
      ((∀ bound, .truncate bound ∉ operations) →
        bounded.toList = wide.toList.drop (wide.size - min capacity wide.size)) := by
  intro bounded wide
  have hfresh : (empty capacity : Series α).HoldsNewest (empty limit) :=
    ⟨List.nil_prefix, fun hsome => absurd rfl hsome⟩
  have hwide : (empty limit : Series α).points.length + operations.length ≤ limit := by
    simpa [empty] using hlimit
  obtain ⟨hnewest, hanswers⟩ := hfresh.performAll hroom hwide hnever
  refine ⟨hanswers, List.reverse_suffix.2 hnewest.newest, ?_, fun hcuts => ?_⟩
  · rw [toList, toList, Ne, Ne, List.reverse_eq_nil_iff, List.reverse_eq_nil_iff]
    exact hnewest.some
  · have htaken : (empty capacity : Series α).points = (empty limit).points.take capacity :=
      List.take_nil.symm
    have hpoints : bounded.points = wide.points.take capacity :=
      points_performAll_of_take htaken hroom hwide hcuts
    have hcount : wide.size - min capacity wide.size = wide.points.length - capacity := by
      rw [size]
      omega
    rw [toList, hpoints, List.reverse_take, toList, hcount]

/-- The bounded series has pushed out three points when a cut comes between the two that it kept. -/
theorem capacity_hides_only_oldest_cut :
    let operations : List (Operation Float) :=
      [.insert 1 0, .insert 2 0, .insert 3 0, .insert 3 1, .insert 2 1, .insert 4 0, .insert 5 0,
        .truncate 4, .insert 4 2, .insert 6 0]
    (empty 2).answers operations = (empty 10).answers operations ∧
      ((empty 2).performAll operations).toList <:+ ((empty 10).performAll operations).toList ∧
      ((empty 10).performAll operations).toList.map (·.x) = [1, 2, 3, 4, 6] ∧
      ((empty 2).performAll operations).toList.map (·.x) = [4, 6] := by
  intro operations
  obtain ⟨hanswers, hsuffix, -, -⟩ := capacity_hides_only_oldest 2 10 (by decide) operations
    (by decide) (by decide +kernel)
  exact ⟨hanswers, hsuffix, by decide +kernel, by decide +kernel⟩

end NodeTelemetry.Series
