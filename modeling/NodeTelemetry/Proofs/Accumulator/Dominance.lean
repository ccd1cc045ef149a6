import NodeTelemetry.Proofs.Accumulator.Extremes
import NodeTelemetry.Proofs.Accumulator.WindowSum

/-!
Averages under bounds, in exact arithmetic. The average that an insertion makes is at most the maximum,
and of two accumulators that are fed and resized together the one with the smaller values has the
smaller average.
-/

set_option autoImplicit false

namespace NodeTelemetry

open Scalar (IsLargest)

/-! ### Two ledgers side by side -/

namespace Ledger

/-- The ledgers have one window, and each value of the first is from zero on and at most the one that
was entered into the second with it. -/
structure Below (part whole : Ledger) : Prop where
  window : part.window = whole.window
  values : List.Forall₂ (fun value bound => 0 ≤ value ∧ value ≤ bound) part.values whole.values

variable {part whole : Ledger}

private theorem below_opening (window : Nat) :
    (opening window).Below (opening window) := ⟨rfl, .nil⟩

private theorem Below.nonneg (h : part.Below whole) :
    (∀ value ∈ part.values, 0 ≤ value) ∧ ∀ bound ∈ whole.values, 0 ≤ bound := by
  have hvalues := h.values
  generalize part.values = values at hvalues
  generalize whole.values = bounds at hvalues
  induction hvalues with
  | nil =>
    constructor
    · intro value hvalue
      cases hvalue
    · intro bound hbound
      cases hbound
  | cons hpair _ ih =>
    obtain ⟨hnonneg, hle⟩ := hpair
    exact ⟨List.forall_mem_cons.2 ⟨hnonneg, ih.1⟩, List.forall_mem_cons.2 ⟨hnonneg.trans hle, ih.2⟩⟩

private theorem Below.enter (h : part.Below whole) {value bound : Rat} (hnonneg : 0 ≤ value)
    (hle : value ≤ bound) : (part.enter value).Below (whole.enter bound) :=
  ⟨h.window, .cons ⟨hnonneg, hle⟩ h.values⟩

private theorem Below.resized (h : part.Below whole) (capacity window : Nat) :
    (part.note capacity (.setWindow window)).Below (whole.note capacity (.setWindow window)) := by
  simp only [note]
  split
  · exact ⟨rfl, h.values⟩
  · exact h

private theorem Below.total_le (h : part.Below whole) : part.total ≤ whole.total := by
  rw [total, total, h.window]
  have hcovered := List.forall₂_take whole.window h.values
  exact (hcovered.imp fun _ _ hpair => hpair.2).sum_le_sum

private theorem Below.mean_le (h : part.Below whole) : part.mean ≤ whole.mean := by
  rw [mean, mean, h.window, h.values.length_eq]
  exact div_le_div_of_nonneg_right h.total_le (Nat.cast_nonneg _)

end Ledger

namespace Accumulator

/-! ### Averages under the maximum -/

/-- The highest average is that of the history, which is no longer than its capacity. -/
structure Peaked (acc : Accumulator Rat) : Prop where
  length_le : acc.averages.length ≤ acc.capacity
  highest : IsLargest acc.highest (0 :: acc.averages)

theorem peaked_empty {capacity window : Nat} (hpos : 0 < window) (hle : window ≤ capacity) :
    (empty capacity window hpos hle : Accumulator Rat).Peaked where
  length_le := Nat.zero_le _
  highest := Scalar.selects_max.extreme_singleton (Scalar.isNumber_rat 0)

variable {acc part whole : Accumulator Rat}

theorem Peaked.insert (h : acc.Peaked) (value : Rat) : (acc.insert value).Peaked :=
  ⟨length_averages_insert acc value,
    isLargest_insert h.length_le (fun average _ => Scalar.isNumber_rat average) h.highest⟩

theorem Peaked.resized (h : acc.Peaked) (window : Nat) : (acc.resized window).Peaked := by
  constructor
  · rw [resized_averages, resized_capacity]
    exact h.length_le
  · rw [resized_highest, resized_averages]
    exact h.highest

private theorem foldr_max_mem_and_bound (values : List Rat) :
    values.foldr Max.max 0 ∈ 0 :: values ∧ ∀ value ∈ 0 :: values, value ≤ values.foldr Max.max 0 := by
  induction values with
  | nil => simp
  | cons value values ih =>
    obtain ⟨hmem, hbound⟩ := ih
    rw [List.foldr_cons]
    simp only [List.mem_cons] at hmem hbound ⊢
    constructor
    · rcases le_total value (values.foldr Max.max 0) with hle | hle
      · rw [max_eq_right hle]
        tauto
      · rw [max_eq_left hle]
        exact .inr (.inl rfl)
    · rintro other (rfl | rfl | hother)
      · exact (hbound 0 (.inl rfl)).trans (le_max_right _ _)
      · exact le_max_left _ _
      · exact (hbound other (.inr hother)).trans (le_max_right _ _)

theorem Peaked.max_eq (h : acc.Peaked) : acc.max = acc.averages.foldr Max.max 0 := by
  obtain ⟨hmem, hbound⟩ := foldr_max_mem_and_bound acc.averages
  obtain ⟨largest, hlargest, hle⟩ := h.highest.attained
  have hzero : 0 ≤ acc.highest := Scalar.le_rat.1 (h.highest.bound 0 List.mem_cons_self)
  rw [Accumulator.max, Scalar.floored_of_nonneg hzero]
  refine le_antisymm ?_ ?_
  · exact (Scalar.le_rat.1 hle).trans (hbound largest hlargest)
  · exact Scalar.le_rat.1 (h.highest.bound _ hmem)

theorem average_nonneg (acc : Accumulator Rat) : 0 ≤ acc.average := by
  unfold Accumulator.average
  split
  · exact le_rfl
  · have hle : Scalar.le 0 (Scalar.floored acc.mean) = true :=
      Scalar.selects_max.right (Scalar.isNumber_rat acc.mean) (Scalar.isNumber_rat 0)
    exact Scalar.le_rat.1 hle

theorem Peaked.average_insert_le (h : acc.Peaked) (value : Rat) :
    (acc.insert value).average ≤ (acc.insert value).max := by
  have hmem := mean_mem_averages_insert acc value
  have hsome : (acc.insert value).averages.isEmpty = false := by
    simpa using List.ne_nil_of_mem hmem
  have hle : Scalar.le (acc.insert value).mean (acc.insert value).highest = true :=
    (h.insert value).highest.bound _ (List.mem_cons_of_mem 0 hmem)
  rw [Accumulator.average, hsome, Accumulator.max]
  exact Scalar.le_rat.1 (Scalar.floored_mono hle)

/-! ### One accumulator beneath another -/

theorem Follows.resized {ledger : Ledger} (h : acc.Follows ledger)
    (hledger : ∀ value ∈ ledger.values, 0 ≤ value) (window : Nat) :
    (acc.resized window).Follows (ledger.note acc.capacity (.setWindow window)) := by
  have hstep : (acc.perform (.setWindow window)).Follows _ ∧ _ :=
    h.perform hledger (by rintro value ⟨⟩)
  rw [perform_setWindow] at hstep
  exact hstep.1

/-- Two accumulators of one capacity follow ledgers, and that of the first is below the other. -/
structure Beneath (part whole : Accumulator Rat) : Prop where
  capacity : part.capacity = whole.capacity
  ledgers : ∃ parts wholes : Ledger,
    part.Follows parts ∧ whole.Follows wholes ∧ parts.Below wholes

theorem beneath_empty {capacity window : Nat} (hpos : 0 < window) (hle : window ≤ capacity) :
    (empty capacity window hpos hle : Accumulator Rat).Beneath (empty capacity window hpos hle) :=
  ⟨rfl, _, _, follows_empty hpos hle, follows_empty hpos hle, Ledger.below_opening window⟩

theorem Beneath.insert (h : part.Beneath whole) {value bound : Rat} (hnonneg : 0 ≤ value)
    (hle : value ≤ bound) : (part.insert value).Beneath (whole.insert bound) := by
  obtain ⟨parts, wholes, hpart, hwhole, hbelow⟩ := h.ledgers
  have hentered := hbelow.enter hnonneg hle
  obtain ⟨hvalues, hbounds⟩ := hentered.nonneg
  refine ⟨?_, _, _, hpart.insert hvalues, hwhole.insert hbounds, hentered⟩
  rw [insert_capacity, insert_capacity]
  exact h.capacity

theorem Beneath.resized (h : part.Beneath whole) (window : Nat) :
    (part.resized window).Beneath (whole.resized window) := by
  obtain ⟨parts, wholes, hpart, hwhole, hbelow⟩ := h.ledgers
  obtain ⟨hvalues, hbounds⟩ := hbelow.nonneg
  have hparts := hpart.resized hvalues window
  rw [h.capacity] at hparts
  refine ⟨?_, _, _, hparts, hwhole.resized hbounds window, hbelow.resized whole.capacity window⟩
  rw [resized_capacity, resized_capacity]
  exact h.capacity

theorem Beneath.average_le (h : part.Beneath whole) : part.average ≤ whole.average := by
  obtain ⟨parts, wholes, hpart, hwhole, hbelow⟩ := h.ledgers
  obtain ⟨hvalues, hbounds⟩ := hbelow.nonneg
  rw [(hpart.told hvalues).2, (hwhole.told hbounds).2]
  exact hbelow.mean_le

end Accumulator

end NodeTelemetry
