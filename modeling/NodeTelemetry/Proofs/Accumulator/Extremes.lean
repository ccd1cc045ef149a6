import NodeTelemetry.Proofs.Accumulator.Run
import NodeTelemetry.Proofs.Scalar.FloatOrder

/-!
The extremes of the averages. An accumulator keeps the highest and the lowest average beside the history
and looks them up anew only when the average that leaves reaches them. They always are what a scan of
the history finds, by the order alone, so for floats as well as for exact numbers.
-/

set_option autoImplicit false

namespace NodeTelemetry.Accumulator

open Scalar (LawfulOrder Selects Extreme IsLargest IsSmallest)

variable {α : Type}

private theorem mem_averages_of_leaving (acc : Accumulator α) {average leaving : α}
    (hlength : acc.averages.length ≤ acc.capacity)
    (hleaving : acc.leaving? average = some leaving) (y : α) :
    y ∈ average :: acc.averages ↔ y ∈ leaving :: acc.kept average := by
  have hsplit : average :: acc.averages = acc.kept average ++ [leaving] := by
    have hdrop : (average :: acc.averages).drop acc.capacity = [leaving] := by
      obtain ⟨hlt, hget⟩ := List.getElem?_eq_some_iff.1 hleaving
      rw [List.drop_eq_getElem_cons hlt, hget, List.drop_eq_nil_of_le]
      simp only [List.length_cons]
      omega
    rw [← List.take_append_drop acc.capacity (average :: acc.averages), hdrop, kept]
  rw [hsplit, List.mem_append, List.mem_singleton, List.mem_cons]
  exact or_comm

private theorem kept_of_leaving_none (acc : Accumulator α) {average : α}
    (hleaving : acc.leaving? average = none) : acc.kept average = average :: acc.averages :=
  List.take_of_length_le (List.getElem?_eq_none_iff.1 hleaving)

variable [Scalar α]

/-- The rescan is skipped only where it would find the same. -/
theorem extreme_extremeAfter (acc : Accumulator α) {r : α → α → Prop} {reaches : α → α → Bool}
    {pick : α → α → α} {base extreme average : α} (hselects : Selects r pick)
    (hreaches : ∀ leaving extreme, reaches leaving extreme = true ↔ r extreme leaving)
    (hlength : acc.averages.length ≤ acc.capacity) (hbase : Scalar.isNumber base = true)
    (hnumber : ∀ a ∈ average :: acc.averages, Scalar.isNumber a = true)
    (h : Extreme r extreme (base :: acc.averages)) :
    Extreme r (acc.extremeAfter average reaches pick base extreme) (base :: acc.kept average) := by
  have hnext : Extreme r (pick extreme average) (average :: base :: acc.averages) :=
    hselects.extreme_cons h (hnumber average List.mem_cons_self)
  unfold extremeAfter
  cases hleaving : acc.leaving? average with
  | none =>
    rw [acc.kept_of_leaving_none hleaving]
    exact hnext.of_mem_iff fun y => by simp only [List.mem_cons]; tauto
  | some leaving =>
    have hmem := acc.mem_averages_of_leaving hlength hleaving
    by_cases hreached : reaches leaving (pick extreme average) = true
    · simp only [hreached, if_true]
      refine hselects.extreme_foldr hbase fun a ha => hnumber a ?_
      exact (hmem a).2 (List.mem_cons_of_mem _ ha)
    · simp only [hreached]
      have hall : Extreme r (pick extreme average) (leaving :: base :: acc.kept average) :=
        hnext.of_mem_iff fun y => by
          have hy := hmem y
          simp only [List.mem_cons] at hy ⊢
          tauto
      exact hall.of_not_reached fun hr => hreached ((hreaches leaving _).2 hr)

theorem extremeAfter_mem (acc : Accumulator α) {r : α → α → Prop} {reaches : α → α → Bool}
    {pick : α → α → α} {base extreme average : α} (hselects : Selects r pick)
    (hreaches : ∀ leaving extreme, reaches leaving extreme = true ↔ r extreme leaving)
    (hlength : acc.averages.length ≤ acc.capacity)
    (hnumber : ∀ a ∈ average :: acc.averages, Scalar.isNumber a = true)
    (h : extreme ∈ base :: acc.averages) :
    acc.extremeAfter average reaches pick base extreme ∈ base :: acc.kept average := by
  have hnext : pick extreme average ∈ base :: average :: acc.averages := by
    simp only [List.mem_cons] at h ⊢
    rcases hselects.eq_or_eq extreme average with heq | heq
    · rw [heq]
      tauto
    · exact .inr (.inl heq)
  unfold extremeAfter
  cases hleaving : acc.leaving? average with
  | none => rwa [acc.kept_of_leaving_none hleaving]
  | some leaving =>
    have hmem := acc.mem_averages_of_leaving hlength hleaving
    by_cases hreached : reaches leaving (pick extreme average) = true
    · simp only [hreached, if_true]
      exact hselects.mem_foldr base (acc.kept average)
    · simp only [hreached]
      rcases List.mem_cons.1 hnext with hbase | hold
      · exact List.mem_cons.2 (.inl hbase)
      · rcases List.mem_cons.1 ((hmem _).1 hold) with hlast | hkept
        · -- the average that leaves reaches itself
          have hself : Scalar.isNumber leaving = true :=
            hnumber leaving ((hmem leaving).2 List.mem_cons_self)
          refine absurd ((hreaches leaving _).2 ?_) hreached
          rw [hlast]
          exact hselects.refl hself
        · exact List.mem_cons_of_mem _ hkept

/-! ### Reachable states -/

/-- The states that any use leads to, as long as no average is beyond the largest number or no number
at all. -/
inductive Reachable : Accumulator α → Prop where
  | empty (capacity window : Nat) (hpos : 0 < window) (hle : window ≤ capacity) :
      Reachable (.empty capacity window hpos hle)
  | perform {acc : Accumulator α} {operation : Operation α} (h : Reachable acc)
      (hbounded : ∀ value, operation = .insert value →
        Scalar.le (acc.insert value).mean Scalar.largest = true) :
      Reachable (acc.perform operation)

/-- The extremes that are kept are those of the history, which is no longer than its capacity. -/
structure ExtremesAgree (acc : Accumulator α) : Prop where
  length_le : acc.averages.length ≤ acc.capacity
  bounded : ∀ average ∈ acc.averages, Scalar.le average Scalar.largest = true
  highest : IsLargest acc.highest (0 :: acc.averages)
  lowest : IsSmallest acc.lowest (Scalar.largest :: acc.averages)

theorem length_averages_insert (acc : Accumulator α) (value : α) :
    (acc.insert value).averages.length ≤ (acc.insert value).capacity := by
  rw [insert_averages, insert_capacity, kept]
  exact List.length_take_le _ _

theorem mean_mem_averages_insert (acc : Accumulator α) (value : α) :
    (acc.insert value).mean ∈ (acc.insert value).averages := by
  obtain ⟨room, hroom⟩ := Nat.exists_eq_add_one.2 acc.capacity_pos
  rw [insert_averages, kept, hroom, List.take_succ_cons]
  exact List.mem_cons_self

variable [LawfulOrder α]

theorem isLargest_insert {acc : Accumulator α} {value : α}
    (hlength : acc.averages.length ≤ acc.capacity)
    (hnumber : ∀ a ∈ (acc.insert value).mean :: acc.averages, Scalar.isNumber a = true)
    (h : IsLargest acc.highest (0 :: acc.averages)) :
    IsLargest (acc.insert value).highest (0 :: (acc.insert value).averages) := by
  rw [insert_highest, insert_averages]
  exact extreme_extremeAfter acc Scalar.selects_max (fun _ _ => Iff.rfl) hlength
    LawfulOrder.isNumber_zero hnumber h

private theorem ExtremesAgree.insert {acc : Accumulator α} {value : α} (h : acc.ExtremesAgree)
    (hbounded : Scalar.le (acc.insert value).mean Scalar.largest = true) :
    (acc.insert value).ExtremesAgree := by
  have hall : ∀ a ∈ (acc.insert value).mean :: acc.averages,
      Scalar.le a Scalar.largest = true := by
    intro a ha
    rcases List.mem_cons.1 ha with rfl | ha
    · exact hbounded
    · exact h.bounded a ha
  have hnumber : ∀ a ∈ (acc.insert value).mean :: acc.averages, Scalar.isNumber a = true :=
    fun a ha => (LawfulOrder.isNumber_of_le (hall a ha)).1
  have hlargest : Scalar.isNumber (Scalar.largest : α) = true :=
    (LawfulOrder.isNumber_of_le hbounded).2
  refine ⟨length_averages_insert acc value, ?_, isLargest_insert h.length_le hnumber h.highest, ?_⟩
  · intro a ha
    rw [insert_averages] at ha
    exact hall a (List.mem_of_mem_take ha)
  · rw [insert_lowest, insert_averages]
    exact extreme_extremeAfter acc Scalar.selects_min (fun _ _ => Iff.rfl) h.length_le hlargest
      hnumber h.lowest

private theorem extremesAgree_empty (capacity window : Nat) (hpos : 0 < window)
    (hle : window ≤ capacity) : (empty capacity window hpos hle : Accumulator α).ExtremesAgree where
  length_le := Nat.zero_le _
  bounded := by simp [empty]
  highest := Scalar.selects_max.extreme_singleton LawfulOrder.isNumber_zero
  lowest := Scalar.selects_min.extreme_singleton LawfulOrder.isNumber_largest

private theorem Reachable.extremesAgree {acc : Accumulator α} (h : acc.Reachable) :
    acc.ExtremesAgree := by
  induction h with
  | empty capacity window hpos hle => exact extremesAgree_empty capacity window hpos hle
  | @perform acc operation h hbounded ih =>
    cases operation with
    | insert value => exact ih.insert (hbounded value rfl)
    | setWindow window =>
      rw [perform_setWindow]
      exact ⟨by simpa using ih.length_le, by simpa using ih.bounded, by simpa using ih.highest,
        by simpa using ih.lowest⟩
    | clear => exact extremesAgree_empty acc.capacity acc.window acc.window_pos acc.window_le_capacity

private theorem ExtremesAgree.isSmallest {acc : Accumulator α} (h : acc.ExtremesAgree)
    (hne : acc.averages ≠ []) : IsSmallest acc.lowest acc.averages := by
  obtain ⟨least, hleast, hle⟩ := h.lowest.attained
  refine ⟨fun a ha => h.lowest.bound a (List.mem_cons_of_mem _ ha), ?_⟩
  rcases List.mem_cons.1 hleast with rfl | hleast
  · obtain ⟨a, ha⟩ := List.exists_mem_of_ne_nil _ hne
    exact ⟨a, ha, LawfulOrder.le_trans (h.bounded a ha) hle⟩
  · exact ⟨least, hleast, hle⟩

private theorem ExtremesAgree.isLargest_max {acc : Accumulator α} (h : acc.ExtremesAgree) :
    IsLargest acc.max (0 :: acc.averages) := by
  have hzero := Scalar.selects_max.extreme_cons h.highest LawfulOrder.isNumber_zero
  exact hzero.of_mem_iff fun y => by simp

private theorem ExtremesAgree.ordered {acc : Accumulator α} (h : acc.ExtremesAgree)
    (hmean : acc.mean ∈ acc.averages) :
    Scalar.le acc.min acc.average = true ∧ Scalar.le acc.average acc.max = true := by
  have hne : acc.averages.isEmpty = false := by
    simpa using List.ne_nil_of_mem hmean
  have hlow : Scalar.le acc.lowest acc.mean = true :=
    h.lowest.bound acc.mean (List.mem_cons_of_mem _ hmean)
  have hhigh : Scalar.le acc.mean acc.highest = true :=
    h.highest.bound acc.mean (List.mem_cons_of_mem _ hmean)
  simp only [Accumulator.min, Accumulator.average, Accumulator.max, hne, Bool.false_eq_true,
    if_false]
  exact ⟨Scalar.floored_mono hlow, Scalar.floored_mono hhigh⟩

/-- In every reachable state the extremes are what a scan of the history finds: the maximum is the
largest of zero and the averages, and the minimum is the smallest average floored at zero, or zero where
there is none. Right after an insertion the average lies between them. -/
theorem extremes_eq_scan {acc : Accumulator α} (h : acc.Reachable) :
    IsLargest acc.max (0 :: acc.averages) ∧
      (acc.averages = [] → acc.min = 0) ∧
      (acc.averages ≠ [] →
        ∃ least, IsSmallest least acc.averages ∧ acc.min = Scalar.max least 0) ∧
      ∀ value, Scalar.le (acc.insert value).mean Scalar.largest = true →
        Scalar.le (acc.insert value).min (acc.insert value).average = true ∧
          Scalar.le (acc.insert value).average (acc.insert value).max = true := by
  have hagree := h.extremesAgree
  refine ⟨hagree.isLargest_max, fun hnil => ?_, fun hne => ?_, fun value hbounded => ?_⟩
  · simp [Accumulator.min, hnil]
  · have hempty : acc.averages.isEmpty = false := by simpa using hne
    refine ⟨acc.lowest, hagree.isSmallest hne, ?_⟩
    simp [Accumulator.min, hempty, Scalar.floored]
  · exact (hagree.insert hbounded).ordered (mean_mem_averages_insert acc value)

/-- The highest average leaves while another one that equals it stays, and then that one leaves too. -/
theorem extremes_eq_scan_tie :
    ∃ acc : Accumulator Float, acc.Reachable ∧ acc.averages = [2, 3] ∧
      IsLargest acc.max (0 :: acc.averages) ∧
      (∃ least, IsSmallest least acc.averages ∧ acc.min = Scalar.max least 0) ∧
      Scalar.le (acc.insert 7).min (acc.insert 7).average = true ∧
      Scalar.le (acc.insert 7).average (acc.insert 7).max = true := by
  let fresh : Accumulator Float := empty 2 1 (by decide) (by decide)
  have hfresh : fresh.Reachable := .empty 2 1 (by decide) (by decide)
  have hfirst : (fresh.perform (.insert 5)).Reachable :=
    hfresh.perform (by rintro value ⟨⟩; decide +kernel)
  have hsecond : ((fresh.perform (.insert 5)).perform (.insert 5)).Reachable :=
    hfirst.perform (by rintro value ⟨⟩; decide +kernel)
  have hthird : (((fresh.perform (.insert 5)).perform (.insert 5)).perform (.insert 3)).Reachable :=
    hsecond.perform (by rintro value ⟨⟩; decide +kernel)
  have hfourth : ((((fresh.perform (.insert 5)).perform (.insert 5)).perform (.insert 3)).perform
      (.insert 2)).Reachable :=
    hthird.perform (by rintro value ⟨⟩; decide +kernel)
  obtain ⟨hmax, -, hmin, hordered⟩ := extremes_eq_scan hfourth
  refine ⟨_, hfourth, by decide +kernel, hmax, hmin ?_, hordered 7 (by decide +kernel)⟩
  decide +kernel

end NodeTelemetry.Accumulator
