import Mathlib
import NodeTelemetry.Proofs.Accumulator.Views
import NodeTelemetry.Proofs.Accumulator.WindowSum
import NodeTelemetry.Proofs.Computation

/-!
Windows of a set of accumulators. A request is checked against the smallest capacity before anything
changes, and what passes that check fits every accumulator; so going through the accumulators one by one
is never broken off halfway. Computations leave the windows alone.
-/

set_option autoImplicit false

namespace NodeTelemetry

variable {α : Type} [Scalar α]

/-! ### Sums that are added up anew -/

/-- The sum of some values: what an addition loses is the next one's to make up for. -/
inductive CompensatedSum.AddedUp : CompensatedSum α → List α → Prop where
  | nil : AddedUp ⟨0, 0⟩ []
  | snoc {total carry value : α} {values : List α} (h : AddedUp ⟨total, carry⟩ values) :
      AddedUp ⟨total + (value - carry), total + (value - carry) - total - (value - carry)⟩
        (values ++ [value])

private theorem CompensatedSum.AddedUp.foldl_add (values : List α) :
    (values.foldl add zero).AddedUp values := by
  induction values using List.reverseRecOn with
  | nil => exact .nil
  | append_singleton values value ih =>
    rw [List.foldl_append]
    exact .snoc ih

private theorem CompensatedSum.AddedUp.eq_exact {sum : CompensatedSum Rat} {values : List Rat}
    (h : sum.AddedUp values) : sum = exact values.sum := by
  induction h with
  | nil => rfl
  | @snoc total carry value values _ ih =>
    cases ih
    rw [List.sum_append, List.sum_singleton]
    exact add_exact values.sum value

namespace Accumulator

/-- What a granted window makes of an accumulator: the sum and the average are those of the latest
values, as many as the window holds, and the rest stays. -/
structure Rewindowed (granted : Nat) (before after : Accumulator α) : Prop where
  window : after.window = granted
  sum : ∃ added : CompensatedSum α, added.AddedUp (before.values.take (Min.min before.size granted)) ∧
    after.sum = if Scalar.lt added.total 0 then ⟨0, 0⟩ else added
  mean : after.mean =
    if before.size = 0 then 0 else after.sum.total / Scalar.ofNat (Min.min before.size granted)
  capacity : after.capacity = before.capacity
  values : after.values = before.values
  averages : after.averages = before.averages
  highest : after.highest = before.highest
  lowest : after.lowest = before.lowest
  sinceRebuild : after.sinceRebuild = before.sinceRebuild

variable {acc : Accumulator α} {granted : Nat}

theorem rewindowed_resized (h : acc.Fits granted) :
    Rewindowed granted acc (acc.resized granted) := by
  have htake : acc.values.take (Min.min acc.size granted) = acc.values.take granted := by
    rw [Nat.min_comm]
    exact List.take_eq_take_min.symm
  rw [resized, dif_pos h]
  refine ⟨rfl, ⟨_, .foldl_add _, ?_⟩, ?_, rfl, rfl, rfl, rfl, rfl, rfl⟩
  · rw [htake]
    rfl
  · cases hvalues : acc.values with
    | nil => simp [withWindow, size, hvalues]
    | cons value values => simp [withWindow, size, meanOf, hvalues]

/-- What an accumulator tells of a granted window in exact arithmetic: the sum of the latest values, as
many as there are and the window holds, and their mean; a total below zero counts as none. -/
structure Recounted (granted : Nat) (before after : Accumulator Rat) : Prop where
  sum : after.windowSum = Max.max 0 (before.values.take (Min.min before.size granted)).sum
  average : before.averages ≠ [] → after.average =
    Max.max 0 (before.values.take (Min.min before.size granted)).sum / (Min.min before.size granted : Nat)

private theorem Rewindowed.recounted {before after : Accumulator Rat}
    (h : Rewindowed granted before after) : Recounted granted before after := by
  let total := Max.max 0 (before.values.take (Min.min before.size granted)).sum
  have htotal : 0 ≤ total := le_max_left _ _
  have hsum : after.sum = .exact total := by
    obtain ⟨added, hadded, hafter⟩ := h.sum
    rw [hafter, hadded.eq_exact]
    exact CompensatedSum.floored_eq _
  have hmean : after.mean = total / (Min.min before.size granted : Nat) := by
    rw [h.mean, hsum]
    split
    next hempty => simp [hempty]
    next => rfl
  constructor
  · rw [windowSum, hsum]
    exact Scalar.floored_of_nonneg htotal
  · intro hsome
    have hrecorded : after.averages.isEmpty = false := by simpa [h.averages] using hsome
    rw [Accumulator.average, hrecorded, hmean]
    exact Scalar.floored_of_nonneg (div_nonneg htotal (Nat.cast_nonneg _))

end Accumulator

namespace AccumulatorSet

/-! ### Requests for a window -/

variable {set changed : AccumulatorSet α} {window : Nat}

/-- A granted request reaches every accumulator: each grants the window itself, and the names, the
owners and the histories stay. -/
structure Changes (set : AccumulatorSet α) (window : Nat) (changed : AccumulatorSet α) : Prop where
  names : changed.entries.names = set.entries.names
  each : ∀ name before, set.entries.get? name = some before →
    ∃ after, changed.entries.get? name = some after ∧ after.owner = before.owner ∧
      before.accumulator.setWindow window = .ok after.accumulator ∧
      before.accumulator.Rewindowed window after.accumulator

private theorem changes_of_setWindow (h : set.setWindow window = .ok changed) :
    set.Changes window changed := by
  obtain ⟨hpos, hle⟩ := exists_setWindow_iff.1 ⟨changed, h⟩
  rw [setWindow_of_le hpos hle] at h
  cases h
  refine ⟨?_, fun name before hbefore => ?_⟩
  · simp [NameMap.names, NameMap.map, Function.comp_def]
  · have hfits := fits_of_le hpos hle (mem_values_of_get? hbefore)
    refine ⟨{ before with accumulator := before.accumulator.resized window }, ?_, rfl,
      Accumulator.setWindow_of_fits hfits, Accumulator.rewindowed_resized hfits⟩
    rw [NameMap.get?_map, hbefore]
    rfl

theorem recounted_of_setWindow {set changed : AccumulatorSet Rat} (h : set.setWindow window = .ok changed)
    {name : String} {before : Accumulator Rat} (hbefore : set.get? name = some before) :
    ∃ after, changed.get? name = some after ∧ Accumulator.Recounted window before after := by
  obtain ⟨entry, hentry, rfl⟩ := Option.map_eq_some_iff.1 hbefore
  obtain ⟨after, hafter, -, -, hrewindowed⟩ := (changes_of_setWindow h).each name entry hentry
  exact ⟨after.accumulator, Option.map_eq_some_iff.2 ⟨after, hafter, rfl⟩, hrewindowed.recounted⟩

/-- A request for a window is granted by all accumulators or by none. The limit is the smallest
capacity; within it every accumulator changes, beyond it the request fails and nothing has changed. -/
structure AllOrNothing (set : AccumulatorSet α) (window : Nat) : Prop where
  unlimited : set.entries.values = [] → set.smallestCapacity = Word.largest
  limit : set.entries.values ≠ [] →
    IsLeast {capacity | ∃ entry ∈ set.entries.values, entry.accumulator.capacity = capacity}
      set.smallestCapacity
  granted_iff :
    (∃ changed, set.setWindow window = .ok changed) ↔ 0 < window ∧ window ≤ set.smallestCapacity
  granted : ∀ changed, set.setWindow window = .ok changed →
    set.Changes window changed ∧ set.requestWindow window = (changed, none)
  refused : ∀ error, set.setWindow window = .error error →
    error = .window window set.smallestCapacity ∧ set.requestWindow window = (set, some error)

theorem allOrNothing (set : AccumulatorSet α) (window : Nat) : set.AllOrNothing window where
  unlimited := smallestCapacity_of_empty
  limit := isLeast_smallestCapacity
  granted_iff := exists_setWindow_iff
  granted := fun changed hchanged =>
    ⟨changes_of_setWindow hchanged, setWindow_eq_ok_iff.1 hchanged⟩
  refused := fun error herror => by
    obtain ⟨hnot, rfl⟩ := setWindow_eq_error_iff.1 herror
    exact ⟨rfl, requestWindow_of_not_fits hnot⟩

/-! ### One window for all -/

def windows (set : AccumulatorSet α) : NameMap Nat :=
  set.entries.map fun _ entry => entry.accumulator.window

def Shares (set : AccumulatorSet α) (shared : Nat) : Prop :=
  set.entries.values ≠ [] ∧ ∀ entry ∈ set.entries.values, entry.accumulator.window = shared

variable {after : AccumulatorSet α} {shared : Nat}

omit [Scalar α] in
theorem shares_iff_windows :
    set.Shares shared ↔ set.windows.values ≠ [] ∧ ∀ window ∈ set.windows.values, window = shared := by
  have hvalues : set.windows.values = set.entries.values.map (·.accumulator.window) := by
    simp [windows, NameMap.values, NameMap.map, Function.comp_def]
  rw [Shares, hvalues, List.forall_mem_map, Ne, Ne, List.map_eq_nil_iff]

omit [Scalar α] in
theorem Shares.of_windows (h : set.Shares shared) (hsame : after.windows = set.windows) :
    after.Shares shared := by
  rw [shares_iff_windows, hsame]
  exact shares_iff_windows.1 h

omit [Scalar α] in
theorem Shares.window_eq (h : set.Shares shared) : set.window = shared := by
  obtain ⟨hsome, hall⟩ := h
  unfold window
  split
  next hnone => exact absurd hnone hsome
  next entry later hvalues => exact hall entry (hvalues ▸ List.mem_cons_self)

theorem shares_of_setWindow (hsome : set.entries.values ≠ [])
    (h : set.setWindow window = .ok changed) : changed.Shares window := by
  obtain ⟨hpos, hle⟩ := exists_setWindow_iff.1 ⟨changed, h⟩
  rw [setWindow_of_le hpos hle] at h
  cases h
  rw [Shares, NameMap.values_map, Ne, List.map_eq_nil_iff]
  refine ⟨hsome, List.forall_mem_map.2 fun entry hentry => ?_⟩
  exact (Accumulator.rewindowed_resized (fits_of_le hpos hle hentry)).window

private theorem window_of_ofSizes {capacity : Nat} {acc : Accumulator α}
    (h : Accumulator.ofSizes capacity window = .ok acc) : acc.window = window := by
  unfold Accumulator.ofSizes at h
  split at h
  · cases h
  · split at h
    · cases h
      rfl
    · cases h

theorem shares_ofDescriptors {descriptors : List Descriptor} {sizes : HistorySizes}
    (hsome : descriptors.filter (·.accumulated) ≠ [])
    (h : ofDescriptors descriptors sizes window = .ok set) : set.Shares window := by
  obtain ⟨entries, hentries, h⟩ := exists_of_bind h
  cases h
  refine ⟨fun hnone => ?_, fun entry hentry => ?_⟩
  · refine NameMap.ofList_ne_nil (fun hempty => hsome ?_) (List.map_eq_nil_iff.1 hnone)
    rw [← List.length_eq_zero_iff, ← length_of_mapM hentries, hempty]
    rfl
  · obtain ⟨⟨name, entry⟩, hmem, rfl⟩ := List.mem_map.1 hentry
    obtain ⟨d, -, hmade⟩ := exists_of_mem_mapM hentries (NameMap.mem_ofList hmem)
    obtain ⟨acc, hacc, hmade⟩ := exists_of_bind hmade
    cases hmade
    exact window_of_ofSizes hacc

/-! ### Computations -/

section figure

variable {γ : Type} {figure : Accumulator α → γ}

private theorem map_modify_insert (hfigure : ∀ acc value, figure (acc.insert value) = figure acc)
    {view : GroupKind} {name : String} {acc : Accumulator α} (h : set.lookup view name = .ok acc)
    (value : α) :
    (set.modify name fun _ => acc.insert value).entries.map (fun _ entry => figure entry.accumulator) =
      set.entries.map fun _ entry => figure entry.accumulator := by
  rw [modify, NameMap.modify, NameMap.map_map]
  refine NameMap.map_congr fun other entry hentry => ?_
  by_cases hother : other = name
  · subst hother
    cases (lookup_eq_ok_iff.1 h).symm.trans hentry
    rw [if_pos rfl]
    exact hfigure _ _
  · rw [if_neg hother]

end figure

end AccumulatorSet

theorem Computation.map_run {β γ : Type} {figure : Accumulator α → γ}
    (hfigure : ∀ acc value, figure (acc.insert value) = figure acc)
    (computation : Computation α β) (set : AccumulatorSet α) :
    (computation.run set).2.entries.map (fun _ entry => figure entry.accumulator) =
      set.entries.map fun _ entry => figure entry.accumulator := by
  induction computation generalizing set with
  | done result => rfl
  | fail error => rfl
  | look view metric next ih =>
    rw [run_look]
    split
    next acc _ => exact ih acc set
    next => rfl
  | enter view metric value next ih =>
    rw [run_enter]
    split
    next acc hlookup =>
      exact (ih _ _).trans (AccumulatorSet.map_modify_insert hfigure hlookup value)
    next => rfl

theorem Computation.windows_run {β : Type} (computation : Computation α β) (set : AccumulatorSet α) :
    (computation.run set).2.windows = set.windows :=
  computation.map_run Accumulator.insert_window set

end NodeTelemetry
