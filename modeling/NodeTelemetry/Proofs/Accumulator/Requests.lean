import NodeTelemetry.Proofs.Accumulator.Windows
import NodeTelemetry.Proofs.Dashboard.Commutation

/-!
Two requests for a window at the same time. A request goes through the accumulators in the order of
their names and asks one at a time, so that the steps of two requests may interleave in any way. Each
accumulator is left with the window that it was asked for last; which of the two requests that is may
differ from one accumulator to the next, and then the accumulators share no window any more.
-/

set_option autoImplicit false

namespace NodeTelemetry

variable {α : Type} [Scalar α]

/-- One step of a request: the accumulator of a name is asked for a window. -/
structure Resizing where
  name : String
  window : Nat
  deriving Repr, DecidableEq

namespace Resizing

/-- The windows that the accumulator of a name is asked for, in the order of the steps. -/
def windowsFor (name : String) (steps : List Resizing) : List Nat :=
  steps.filterMap fun step => if step.name = name then some step.window else none

def lastFor? (name : String) (steps : List Resizing) : Option Nat := (windowsFor name steps).getLast?

end Resizing

open Resizing (windowsFor lastFor?)

/-! ### Interleaved steps -/

namespace Interleaving

variable {β γ : Type} {xs ys zs : List β}

private theorem left_only (xs : List β) : Interleaving xs [] xs := by
  induction xs with
  | nil => exact .nil
  | cons x xs ih => exact .left ih

private theorem right_first (xs ys : List β) : Interleaving xs ys (ys ++ xs) := by
  induction ys with
  | nil => exact left_only xs
  | cons y ys ih => exact .right ih

private theorem filterMap (h : Interleaving xs ys zs) (f : β → Option γ) :
    Interleaving (xs.filterMap f) (ys.filterMap f) (zs.filterMap f) := by
  induction h with
  | nil => exact .nil
  | @left x _ _ _ _ ih =>
    rw [List.filterMap_cons, List.filterMap_cons]
    cases f x with
    | none => exact ih
    | some y => exact .left ih
  | @right x _ _ _ _ ih =>
    rw [List.filterMap_cons, List.filterMap_cons]
    cases f x with
    | none => exact ih
    | some y => exact .right ih

private theorem mem_iff (h : Interleaving xs ys zs) (z : β) : z ∈ zs ↔ z ∈ xs ∨ z ∈ ys := by
  induction h with
  | nil => simp
  | left _ ih => simp [ih, or_assoc]
  | right _ ih => simp [ih, or_left_comm]

private theorem of_singletons {x y : β} (h : Interleaving [x] [y] zs) :
    zs = [x, y] ∨ zs = [y, x] := by
  cases h with
  | left h =>
    cases h with
    | right h =>
      cases h
      exact .inl rfl
  | right h =>
    cases h with
    | left h =>
      cases h
      exact .inr rfl

end Interleaving

/-! ### One accumulator -/

namespace Accumulator

variable {acc after : Accumulator α} {granted : Nat}

/-- The accumulator after requests for windows one after another. -/
private def resizedBy (acc : Accumulator α) (windows : List Nat) : Accumulator α := windows.foldl resized acc

private theorem Rewindowed.resized (h : acc.Rewindowed granted after) {window : Nat}
    (hfits : acc.Fits window) : acc.Rewindowed window (after.resized window) := by
  have hafter : after.Fits window := ⟨hfits.1, h.capacity.symm ▸ hfits.2⟩
  have hlast := rewindowed_resized hafter
  have hsize : after.size = acc.size := congrArg List.length h.values
  exact
    { window := hlast.window
      sum := by
        rw [← hsize, ← h.values]
        exact hlast.sum
      mean := by rw [hlast.mean, hsize]
      capacity := hlast.capacity.trans h.capacity
      values := hlast.values.trans h.values
      averages := hlast.averages.trans h.averages
      highest := hlast.highest.trans h.highest
      lowest := hlast.lowest.trans h.lowest
      sinceRebuild := hlast.sinceRebuild.trans h.sinceRebuild }

private theorem rewindowed_resizedBy {windows : List Nat}
    (hfits : ∀ window ∈ windows, acc.Fits window)
    (hlast : granted ∈ windows.getLast?) : acc.Rewindowed granted (acc.resizedBy windows) := by
  induction windows using List.reverseRecOn generalizing granted with
  | nil => cases hlast
  | append_singleton earlier window ih =>
    rw [List.getLast?_concat] at hlast
    cases hlast
    have hwindow : acc.Fits window := hfits window (List.mem_append_right _ List.mem_cons_self)
    rw [resizedBy, List.foldl_append, List.foldl_cons, List.foldl_nil]
    cases hbefore : earlier.getLast? with
    | none =>
      rw [List.getLast?_eq_none_iff] at hbefore
      subst hbefore
      exact rewindowed_resized hwindow
    | some before =>
      have hearlier := ih (fun other hother => hfits other (List.mem_append_left _ hother)) hbefore
      exact hearlier.resized hwindow

private theorem capacity_resizedBy (acc : Accumulator α) (windows : List Nat) :
    (acc.resizedBy windows).capacity = acc.capacity := by
  induction windows generalizing acc with
  | nil => rfl
  | cons window windows ih => exact (ih (acc.resized window)).trans (resized_capacity acc window)

end Accumulator

/-! ### A set of accumulators -/

namespace AccumulatorSet

/-- A set after one step. The step reaches the accumulator of its name alone. -/
def resize (set : AccumulatorSet α) (step : Resizing) : AccumulatorSet α :=
  set.modify step.name fun acc => acc.perform (.setWindow step.window)

def resizeAll (set : AccumulatorSet α) (steps : List Resizing) : AccumulatorSet α :=
  steps.foldl resize set

def resizings (set : AccumulatorSet α) (window : Nat) : List Resizing :=
  set.entries.names.map fun name => ⟨name, window⟩

def GrantsAll (set : AccumulatorSet α) (steps : List Resizing) : Prop :=
  ∀ before step later, steps = before ++ step :: later →
    ∃ entry granted, (set.resizeAll before).entries.get? step.name = some entry ∧
      entry.accumulator.setWindow step.window = .ok granted

variable {set : AccumulatorSet α} {steps : List Resizing}

private theorem get?_resizeAll (set : AccumulatorSet α) (steps : List Resizing) (name : String) :
    (set.resizeAll steps).entries.get? name = (set.entries.get? name).map fun entry =>
      { entry with accumulator := entry.accumulator.resizedBy (windowsFor name steps) } := by
  induction steps generalizing set with
  | nil =>
    cases hentry : set.entries.get? name <;> simp [resizeAll, windowsFor, Accumulator.resizedBy, hentry]
  | cons step steps ih =>
    have hrest := ih (set.resize step)
    rw [resize, modify, NameMap.get?_modify] at hrest
    have hcons : set.resizeAll (step :: steps) = (set.resize step).resizeAll steps := rfl
    rw [hcons, resize, modify, hrest]
    by_cases hname : name = step.name
    · rw [if_pos hname, Option.map_map]
      simp [windowsFor, hname, Accumulator.resizedBy, Accumulator.perform_setWindow, Function.comp_def]
    · rw [if_neg hname]
      simp [windowsFor, Ne.symm hname]

omit [Scalar α] in
private theorem mem_names_iff {name : String} :
    name ∈ set.entries.names ↔ ∃ entry, set.entries.get? name = some entry := by
  rw [NameMap.names, List.mem_map]
  constructor
  · rintro ⟨⟨own, entry⟩, hentry, rfl⟩
    exact ⟨entry, set.entries.get?_eq_some_iff.2 hentry⟩
  · rintro ⟨entry, hentry⟩
    exact ⟨(name, entry), set.entries.get?_eq_some_iff.1 hentry, rfl⟩

omit [Scalar α] in
private theorem length_names (set : AccumulatorSet α) : set.entries.names.length = set.size :=
  List.length_map _

omit [Scalar α] in
private theorem names_nodup (set : AccumulatorSet α) : set.entries.names.Nodup :=
  (List.pairwise_map.2 set.entries.sorted).imp String.ne_of_lt

omit [Scalar α] in
private theorem windowsFor_resizings {name : String} (h : name ∈ set.entries.names) (window : Nat) :
    windowsFor name (set.resizings window) = [window] := by
  have hnodup := set.names_nodup
  rw [windowsFor, resizings, List.filterMap_map]
  generalize set.entries.names = names at h hnodup
  induction names with
  | nil => cases h
  | cons first names ih =>
    rw [List.nodup_cons] at hnodup
    rw [List.filterMap_cons]
    rcases List.mem_cons.1 h with rfl | h
    · have hothers : ∀ other ∈ names, other ≠ name := fun other hother heq => hnodup.1 (heq ▸ hother)
      simpa using hothers
    · have hne : first ≠ name := fun heq => hnodup.1 (heq ▸ h)
      simpa [hne] using ih h hnodup.2

private theorem names_resizeAll (set : AccumulatorSet α) (steps : List Resizing) :
    (set.resizeAll steps).entries.names = set.entries.names := by
  induction steps generalizing set with
  | nil => rfl
  | cons step steps ih =>
    have hstep : (set.resize step).entries.names = set.entries.names := by
      simp [resize, modify, NameMap.modify, NameMap.map, NameMap.names, Function.comp_def]
    exact (ih (set.resize step)).trans hstep

private theorem grantsAll_of_fits
    (hfits : ∀ step ∈ steps, step.name ∈ set.entries.names ∧ 0 < step.window ∧
    step.window ≤ set.smallestCapacity) : set.GrantsAll steps := by
  rintro before step later rfl
  obtain ⟨hname, hpos, hle⟩ := hfits step (List.mem_append_right _ List.mem_cons_self)
  obtain ⟨entry, hentry⟩ := mem_names_iff.1 hname
  have hroom := hle.trans (smallestCapacity_le (mem_values_of_get? hentry))
  have hfits : (entry.accumulator.resizedBy (windowsFor step.name before)).Fits step.window :=
    ⟨hpos, by rwa [Accumulator.capacity_resizedBy]⟩
  exact ⟨{ entry with accumulator := entry.accumulator.resizedBy (windowsFor step.name before) }, _,
    by rw [get?_resizeAll, hentry, Option.map_some], Accumulator.setWindow_of_fits hfits⟩

private theorem setWindow_eq_resizeAll {window : Nat} (hpos : 0 < window)
    (hle : window ≤ set.smallestCapacity) :
    set.setWindow window = .ok (set.resizeAll (set.resizings window)) := by
  rw [setWindow_of_le hpos hle]
  refine congrArg Except.ok (congrArg mk (NameMap.ext_get? fun name => ?_))
  show _ = (set.resizeAll (set.resizings window)).entries.get? name
  rw [NameMap.get?_map, get?_resizeAll]
  cases hentry : set.entries.get? name with
  | none => rfl
  | some entry =>
    rw [windowsFor_resizings (mem_names_iff.2 ⟨entry, hentry⟩)]
    rfl

section interleaved

variable {first second : Nat}

omit [Scalar α] in
private theorem windowsFor_interleaved
    (h : Interleaving (set.resizings first) (set.resizings second) steps) {name : String}
    (hname : name ∈ set.entries.names) :
    windowsFor name steps = [first, second] ∨ windowsFor name steps = [second, first] := by
  have hown := h.filterMap fun step => if step.name = name then some step.window else none
  rw [← windowsFor, ← windowsFor, ← windowsFor, windowsFor_resizings hname,
    windowsFor_resizings hname] at hown
  exact hown.of_singletons

omit [Scalar α] in
private theorem lastFor?_interleaved
    (h : Interleaving (set.resizings first) (set.resizings second) steps) {name : String}
    (hname : name ∈ set.entries.names) :
    lastFor? name steps = some first ∨ lastFor? name steps = some second := by
  rcases windowsFor_interleaved h hname with hwindows | hwindows
  · exact .inr (congrArg List.getLast? hwindows)
  · exact .inl (congrArg List.getLast? hwindows)

private theorem exists_rewindowed
    (h : Interleaving (set.resizings first) (set.resizings second) steps)
    (hfits : ∀ window ∈ [first, second], 0 < window ∧ window ≤ set.smallestCapacity)
    {name : String} {before : OwnedAccumulator α} (hbefore : set.entries.get? name = some before) :
    ∃ last after, lastFor? name steps = some last ∧ last ∈ [first, second] ∧
      (set.resizeAll steps).entries.get? name = some after ∧ after.owner = before.owner ∧
      before.accumulator.Rewindowed last after.accumulator := by
  have hname : name ∈ set.entries.names := mem_names_iff.2 ⟨before, hbefore⟩
  have hall : ∀ window ∈ windowsFor name steps, before.accumulator.Fits window := by
    intro window hwindow
    have hmem : window ∈ [first, second] := by
      rcases windowsFor_interleaved h hname with hwindows | hwindows
      · rwa [hwindows] at hwindow
      · rw [hwindows] at hwindow
        simp only [List.mem_cons, List.not_mem_nil, or_false] at hwindow ⊢
        exact hwindow.symm
    exact fits_of_le (hfits window hmem).1 (hfits window hmem).2 (mem_values_of_get? hbefore)
  obtain ⟨last, hlast, hmem⟩ : ∃ last, lastFor? name steps = some last ∧ last ∈ [first, second] := by
    rcases lastFor?_interleaved h hname with hlast | hlast
    · exact ⟨first, hlast, List.mem_cons_self⟩
    · exact ⟨second, hlast, List.mem_cons_of_mem _ List.mem_cons_self⟩
  exact ⟨last,
    { before with accumulator := before.accumulator.resizedBy (windowsFor name steps) }, hlast, hmem,
    by rw [get?_resizeAll, hbefore, Option.map_some], rfl,
    Accumulator.rewindowed_resizedBy hall hlast⟩

private theorem shares_interleaved_iff
    (h : Interleaving (set.resizings first) (set.resizings second) steps)
    (hfits : ∀ window ∈ [first, second], 0 < window ∧ window ≤ set.smallestCapacity)
    {window : Nat} :
    (set.resizeAll steps).Shares window ↔
      set.entries.names ≠ [] ∧ ∀ name ∈ set.entries.names, lastFor? name steps = some window := by
  have hnames : ∀ name, (∃ entry, (set.resizeAll steps).entries.get? name = some entry) ↔
      name ∈ set.entries.names := by
    intro name
    rw [mem_names_iff, get?_resizeAll]
    cases set.entries.get? name <;> simp
  constructor
  · rintro ⟨hsome, hall⟩
    refine ⟨fun hnone => hsome ?_, fun name hname => ?_⟩
    · refine List.eq_nil_iff_forall_not_mem.2 fun entry hentry => ?_
      obtain ⟨⟨name, own⟩, hmem, rfl⟩ := List.mem_map.1 hentry
      have hname := (hnames name).1 ⟨own, NameMap.get?_eq_some_iff _ |>.2 hmem⟩
      rw [hnone] at hname
      cases hname
    · obtain ⟨before, hbefore⟩ := mem_names_iff.1 hname
      obtain ⟨last, after, hlast, -, hafter, -, hrewindowed⟩ := exists_rewindowed h hfits hbefore
      rw [hlast, ← hrewindowed.window, hall after (mem_values_of_get? hafter)]
  · rintro ⟨hsome, hall⟩
    obtain ⟨name, hname⟩ := List.exists_mem_of_ne_nil _ hsome
    obtain ⟨entry, hentry⟩ := (hnames name).2 hname
    refine ⟨List.ne_nil_of_mem (mem_values_of_get? hentry), fun after hafter => ?_⟩
    obtain ⟨⟨own, after⟩, hmem, rfl⟩ := List.mem_map.1 hafter
    have hown := NameMap.get?_eq_some_iff _ |>.2 hmem
    have hownName := (hnames own).1 ⟨after, hown⟩
    obtain ⟨before, hbefore⟩ := mem_names_iff.1 hownName
    obtain ⟨last, found, hlast, -, hfound, -, hrewindowed⟩ := exists_rewindowed h hfits hbefore
    cases hfound.symm.trans hown
    rw [hall own hownName] at hlast
    cases hlast
    exact hrewindowed.window

omit [Scalar α] in
/-- With two accumulators or more, one request may overtake the other after the first of them. -/
theorem exists_interleaving_split (hsize : 2 ≤ set.size) (hne : first ≠ second) :
    ∃ steps, Interleaving (set.resizings first) (set.resizings second) steps ∧
      ¬∃ window, ∀ name ∈ set.entries.names, lastFor? name steps = some window := by
  have hlength := set.length_names
  have hnodup := set.names_nodup
  cases hnames : set.entries.names with
  | nil =>
    rw [hnames, List.length_nil] at hlength
    omega
  | cons one others =>
    cases others with
    | nil =>
      rw [hnames, List.length_singleton] at hlength
      omega
    | cons two later =>
      let rest : List Resizing := (two :: later).map (⟨·, first⟩)
      let steps : List Resizing := ⟨one, first⟩ :: (set.resizings second ++ rest)
      have hfirst : set.resizings first = ⟨one, first⟩ :: rest := by
        rw [resizings, hnames]
        rfl
      have hsteps : Interleaving (set.resizings first) (set.resizings second) steps := by
        rw [hfirst]
        exact .left (.right_first rest (set.resizings second))
      refine ⟨steps, hsteps, ?_⟩
      rintro ⟨window, hall⟩
      rw [hnames] at hnodup
      have hone : one ∉ two :: later := (List.nodup_cons.1 hnodup).1
      have htwo : two ∉ later := (List.nodup_cons.1 (List.nodup_cons.1 hnodup).2).1
      have hrestOne : windowsFor one rest = [] := by
        refine List.filterMap_eq_nil_iff.2 fun step hstep => if_neg ?_
        obtain ⟨name, hname, rfl⟩ := List.mem_map.1 hstep
        rintro rfl
        exact hone hname
      have hrestTwo : (windowsFor two rest).getLast? = some first := by
        have hlater : windowsFor two (later.map (⟨·, first⟩)) = [] := by
          refine List.filterMap_eq_nil_iff.2 fun step hstep => if_neg ?_
          obtain ⟨name, hname, rfl⟩ := List.mem_map.1 hstep
          rintro rfl
          exact htwo hname
        have hall : windowsFor two rest = first :: windowsFor two (later.map (⟨·, first⟩)) := by
          simp [windowsFor, rest]
        rw [hall, hlater]
        rfl
      have hsecond : ∀ name ∈ set.entries.names, windowsFor name (set.resizings second) = [second] :=
        fun name hname => windowsFor_resizings hname second
      rw [hnames] at hsecond
      have hlastOne : lastFor? one steps = some second := by
        have hsplit : windowsFor one steps =
            first :: (windowsFor one (set.resizings second) ++ windowsFor one rest) := by
          simp [windowsFor, steps]
        rw [lastFor?, hsplit, hsecond one List.mem_cons_self, hrestOne]
        rfl
      have hlastTwo : lastFor? two steps = some first := by
        have hsplit : windowsFor two steps =
            windowsFor two [⟨one, first⟩] ++ windowsFor two (set.resizings second) ++
              windowsFor two rest := by
          simp [windowsFor, steps, List.filterMap_cons]
          split <;> rfl
        rw [lastFor?, hsplit, List.getLast?_append, hrestTwo]
        rfl
      have hwindowOne := hall one List.mem_cons_self
      have hwindowTwo := hall two (List.mem_cons_of_mem _ List.mem_cons_self)
      rw [hlastOne] at hwindowOne
      rw [hlastTwo] at hwindowTwo
      exact hne (Option.some.inj (hwindowTwo.trans hwindowOne.symm))

/-- What two requests at the same time come to. No step is refused, the accumulators keep their names
and owners, and each has the window that it was asked for last. -/
structure Settled (set : AccumulatorSet α) (first second : Nat) (steps : List Resizing) : Prop where
  granted : set.GrantsAll steps
  names : (set.resizeAll steps).entries.names = set.entries.names
  each : ∀ name before, set.entries.get? name = some before →
    ∃ last after, lastFor? name steps = some last ∧ last ∈ [first, second] ∧
      (set.resizeAll steps).entries.get? name = some after ∧ after.owner = before.owner ∧
      before.accumulator.Rewindowed last after.accumulator
  shared_iff : ∀ window, (set.resizeAll steps).Shares window ↔
    set.entries.names ≠ [] ∧ ∀ name ∈ set.entries.names, lastFor? name steps = some window

private theorem settled_of_interleaving
    (h : Interleaving (set.resizings first) (set.resizings second) steps)
    (hfits : ∀ window ∈ [first, second], 0 < window ∧ window ≤ set.smallestCapacity) :
    set.Settled first second steps where
  granted := grantsAll_of_fits fun step hstep => by
    rcases (h.mem_iff step).1 hstep with hown | hown
    all_goals
      obtain ⟨name, hname, rfl⟩ := List.mem_map.1 hown
      exact ⟨hname, hfits _ (by simp)⟩
  names := names_resizeAll set steps
  each := fun name before hbefore => exists_rewindowed h hfits hbefore
  shared_iff := fun window => shares_interleaved_iff h hfits

/-- Two valid requests whose steps interleave leave each accumulator with the window that it was asked
for last. Each request alone is the request as a whole; together they leave one window exactly if one
of them came last everywhere, and with two accumulators or more another order is always possible. -/
theorem last_request_wins
    (hfits : ∀ window ∈ [first, second], 0 < window ∧ window ≤ set.smallestCapacity) :
    (∀ window ∈ [first, second],
      set.setWindow window = .ok (set.resizeAll (set.resizings window))) ∧
    (∀ steps, Interleaving (set.resizings first) (set.resizings second) steps →
      set.Settled first second steps) ∧
    (2 ≤ set.size → first ≠ second →
      ∃ steps, Interleaving (set.resizings first) (set.resizings second) steps ∧
        ¬∃ window, (set.resizeAll steps).Shares window) := by
  refine ⟨fun window hwindow => setWindow_eq_resizeAll (hfits window hwindow).1 (hfits window hwindow).2,
    fun steps hsteps => settled_of_interleaving hsteps hfits, fun hsize hne => ?_⟩
  obtain ⟨steps, hsteps, hsplit⟩ := exists_interleaving_split hsize hne
  refine ⟨steps, hsteps, ?_⟩
  rintro ⟨window, hshares⟩
  exact hsplit ⟨window, ((shares_interleaved_iff hsteps hfits).1 hshares).2⟩

end interleaved

/-- Steps of a request for two and of a request for three, which overtakes the other. -/
def overtaking : List Resizing :=
  [⟨"push_time", 2⟩, ⟨"push_time", 3⟩, ⟨"validation_time", 3⟩, ⟨"validation_time", 2⟩]

private theorem exists_pair :
    ∃ set : AccumulatorSet Rat,
      ofDescriptors [Metric.pushTime.descriptor, Metric.validationTime.descriptor] ⟨5, 5⟩ 1 =
        .ok set ∧
      set.entries.names = ["push_time", "validation_time"] ∧ set.smallestCapacity = 5 ∧
      (set.resizeAll overtaking).windows.toList = [("push_time", 3), ("validation_time", 2)] := by
  have hall : ∀ set ∈ (ofDescriptors (α := Rat)
      [Metric.pushTime.descriptor, Metric.validationTime.descriptor] ⟨5, 5⟩ 1).toOption,
      set.entries.names = ["push_time", "validation_time"] ∧ set.smallestCapacity = 5 ∧
      (set.resizeAll overtaking).windows.toList = [("push_time", 3), ("validation_time", 2)] := by
    decide +kernel
  have hsome : ((ofDescriptors (α := Rat)
      [Metric.pushTime.descriptor, Metric.validationTime.descriptor] ⟨5, 5⟩ 1).toOption).isSome := by
    decide +kernel
  cases hset : ofDescriptors (α := Rat)
      [Metric.pushTime.descriptor, Metric.validationTime.descriptor] ⟨5, 5⟩ 1 with
  | error error =>
    rw [hset] at hsome
    cases hsome
  | ok set => exact ⟨set, rfl, hall set (by rw [hset]; rfl)⟩

/-- Two accumulators with room for five values each, and windows of one. -/
theorem last_request_wins_pair :
    ∃ set : AccumulatorSet Rat,
      ofDescriptors [Metric.pushTime.descriptor, Metric.validationTime.descriptor] ⟨5, 5⟩ 1 = .ok set ∧
      (∀ window ∈ [2, 3], 0 < window ∧ window ≤ set.smallestCapacity) ∧ 2 ≤ set.size ∧
      set.setWindow 2 = .ok (set.resizeAll (set.resizings 2)) ∧
      ∃ steps, Interleaving (set.resizings 2) (set.resizings 3) steps ∧ set.Settled 2 3 steps ∧
        ¬∃ window, (set.resizeAll steps).Shares window := by
  obtain ⟨set, hset, hnames, hcapacity, -⟩ := exists_pair
  have hsize : set.size = 2 := by
    rw [← length_names, hnames]
    rfl
  have hfits : ∀ window ∈ [2, 3], 0 < window ∧ window ≤ set.smallestCapacity := by
    rw [hcapacity]
    decide
  obtain ⟨halone, hsettled, hsplit⟩ := last_request_wins hfits
  obtain ⟨steps, hsteps, hnot⟩ := hsplit hsize.ge (by decide)
  exact ⟨set, hset, hfits, hsize.ge, halone 2 (by simp), steps, hsteps, hsettled steps hsteps, hnot⟩

/-- The windows of all accumulators are not always one after two valid requests. -/
theorem windows_split_by_overtaking :
    ∃ set : AccumulatorSet Rat,
      ofDescriptors [Metric.pushTime.descriptor, Metric.validationTime.descriptor] ⟨5, 5⟩ 1 =
        .ok set ∧
      (∀ window ∈ [2, 3], ∃ changed, set.setWindow window = .ok changed) ∧
      Interleaving (set.resizings 2) (set.resizings 3) overtaking ∧
      (set.resizeAll overtaking).windows.toList = [("push_time", 3), ("validation_time", 2)] ∧
      ¬∃ window, (set.resizeAll overtaking).Shares window := by
  obtain ⟨set, hset, hnames, hcapacity, hwindows⟩ := exists_pair
  have hgranted : ∀ window ∈ [2, 3], ∃ changed, set.setWindow window = .ok changed := by
    intro window hwindow
    refine exists_setWindow_iff.2 ?_
    rw [hcapacity]
    revert window
    decide
  have hsteps : Interleaving (set.resizings 2) (set.resizings 3) overtaking := by
    rw [resizings, resizings, hnames]
    exact .left (.right (.right (.left .nil)))
  refine ⟨set, hset, hgranted, hsteps, hwindows, ?_⟩
  rintro ⟨window, hshares⟩
  have hall := (shares_iff_windows.1 hshares).2
  rw [NameMap.values, hwindows] at hall
  have hpush : 3 = window := hall 3 (by simp)
  have hvalidation : 2 = window := hall 2 (by simp)
  omega

end AccumulatorSet

end NodeTelemetry
