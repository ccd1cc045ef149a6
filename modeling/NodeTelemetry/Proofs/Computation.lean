import NodeTelemetry.Computation
import NodeTelemetry.Proofs.Accumulator.Set

/-!
What computations do to the accumulators. `Yields` says how a computation ends and what it makes of a
set that shows given accumulators; it is composed along the monad, so that a group's work is specified
without looking at the set.
-/

set_option autoImplicit false

namespace NodeTelemetry

def Metric.OwnedBy (metric : Metric) (view : GroupKind) : Prop :=
  metric.descriptor.accumulated = true ∧ metric.descriptor.group = view

instance (metric : Metric) (view : GroupKind) : Decidable (metric.OwnedBy view) :=
  inferInstanceAs (Decidable (_ ∧ _))

namespace Computation

variable {α β γ : Type}

instance : LawfulMonad (Computation α) :=
  LawfulMonad.mk' _
    (fun computation => by
      induction computation with
      | done => rfl
      | fail => rfl
      | look view metric k ih => exact congrArg (look view metric) (funext ih)
      | enter view metric value k ih => exact congrArg (enter view metric value) (funext ih))
    (fun _ _ => rfl)
    (fun computation _ _ => by
      induction computation with
      | done => rfl
      | fail => rfl
      | look view metric k ih => exact congrArg (look view metric) (funext ih)
      | enter view metric value k ih => exact congrArg (enter view metric value) (funext ih))

variable [Scalar α]

theorem run_look (view : GroupKind) (metric : Metric) (next : Accumulator α → Computation α β)
    (set : AccumulatorSet α) :
    (look view metric next).run set =
      match set.lookup view metric.name with
      | .ok accumulator => (next accumulator).run set
      | .error error => (.error error, set) := by
  cases hlookup : set.lookup view metric.name <;> simp only [run, hlookup]

theorem run_enter (view : GroupKind) (metric : Metric) (value : α)
    (next : Accumulator α → Computation α β) (set : AccumulatorSet α) :
    (enter view metric value next).run set =
      match set.lookup view metric.name with
      | .ok accumulator =>
        (next (accumulator.insert value)).run
          (set.modify metric.name fun _ => accumulator.insert value)
      | .error error => (.error error, set) := by
  cases hlookup : set.lookup view metric.name <;> simp only [run, hlookup]

private theorem run_bind (computation : Computation α β) (next : β → Computation α γ)
    (set : AccumulatorSet α) :
    (computation >>= next).run set =
      match computation.run set with
      | (.ok result, after) => (next result).run after
      | (.error error, after) => (.error error, after) := by
  induction computation generalizing set with
  | done result => rfl
  | fail error => rfl
  | look view metric k ih =>
    show (look view metric fun accumulator => k accumulator >>= next).run set = _
    rw [run_look, run_look]
    cases set.lookup view metric.name with
    | ok accumulator => exact ih accumulator set
    | error error => rfl
  | enter view metric value k ih =>
    show (enter view metric value fun accumulator => k accumulator >>= next).run set = _
    rw [run_enter, run_enter]
    cases set.lookup view metric.name with
    | ok accumulator => exact ih _ _
    | error error => rfl

private theorem run_bind_of_ok {computation : Computation α β} {set after : AccumulatorSet α}
    {result : β} (h : computation.run set = (.ok result, after)) (next : β → Computation α γ) :
    (computation >>= next).run set = (next result).run after := by
  rw [run_bind, h]

theorem run_map (f : β → γ) (computation : Computation α β) (set : AccumulatorSet α) :
    (f <$> computation).run set = ((computation.run set).1.map f, (computation.run set).2) := by
  rw [← bind_pure_comp, run_bind]
  rcases computation.run set with ⟨error | result, after⟩
  · rfl
  · rfl

section steps

variable {view : GroupKind} {metric : Metric} {set : AccumulatorSet α}

theorem run_reach_bind_of_error {error : EngineError} (h : set.lookup view metric.name = .error error)
    (next : Accumulator α → Computation α β) :
    (reach view metric >>= next).run set = (.error error, set) := by
  show (look view metric fun accumulator => next accumulator).run set = _
  rw [run_look, h]

theorem run_feed_bind_of_error {error : EngineError} (h : set.lookup view metric.name = .error error)
    (value : α) (next : Accumulator α → Computation α β) :
    (feed view metric value >>= next).run set = (.error error, set) := by
  show (enter view metric value fun accumulator => next accumulator).run set = _
  rw [run_enter, h]

theorem run_reach_bind {accumulator : Accumulator α}
    (h : set.lookup view metric.name = .ok accumulator) (next : Accumulator α → Computation α β) :
    (reach view metric >>= next).run set = (next accumulator).run set := by
  show (look view metric fun accumulator => next accumulator).run set = _
  rw [run_look, h]

theorem run_feed_bind {accumulator : Accumulator α}
    (h : set.lookup view metric.name = .ok accumulator) (value : α)
    (next : Accumulator α → Computation α β) :
    (feed view metric value >>= next).run set =
      (next (accumulator.insert value)).run
        (set.modify metric.name fun _ => accumulator.insert value) := by
  show (enter view metric value fun accumulator => next accumulator).run set = _
  rw [run_enter, h]

end steps

/-- From a set that shows `acc` a computation ends with a result and a set that shows `acc'`. -/
def Yields (computation : Computation α β) (acc : Metric → Accumulator α) (result : β)
    (acc' : Metric → Accumulator α) : Prop :=
  ∀ set : AccumulatorSet α, set.Shows acc →
    ∃ after, computation.run set = (.ok result, after) ∧ after.Shows acc'

variable {acc acc' acc'' : Metric → Accumulator α} {view : GroupKind} {metric : Metric}

theorem yields_pure (result : β) : (pure result : Computation α β).Yields acc result acc :=
  fun set h => ⟨set, rfl, h⟩

theorem Yields.bind {computation : Computation α β} {result : β} {next : β → Computation α γ}
    {last : γ} (hfirst : computation.Yields acc result acc')
    (hnext : (next result).Yields acc' last acc'') :
    (computation >>= next).Yields acc last acc'' := by
  intro set h
  obtain ⟨after, hrun, hafter⟩ := hfirst set h
  obtain ⟨final, hlast, hfinal⟩ := hnext after hafter
  exact ⟨final, (run_bind_of_ok hrun next).trans hlast, hfinal⟩

theorem yields_reach (howned : metric.OwnedBy view) :
    (reach view metric).Yields acc (acc metric) acc := by
  intro set h
  refine ⟨set, ?_, h⟩
  show (look view metric done).run set = _
  rw [run_look, h.lookup howned.1 howned.2]
  rfl

theorem yields_feed (howned : metric.OwnedBy view) (value : α) :
    (feed view metric value).Yields acc ((acc metric).insert value)
      (Function.update acc metric ((acc metric).insert value)) := by
  intro set h
  refine ⟨_, ?_, h.modify metric _⟩
  show (enter view metric value done).run set = _
  rw [run_enter, h.lookup howned.1 howned.2]
  rfl

/-! ### Computations over lists -/

def fed (acc : Metric → Accumulator α) : List (Metric × α) → Metric → Accumulator α
  | [] => acc
  | (metric, value) :: feeds =>
    fed (Function.update acc metric ((acc metric).insert value)) feeds

theorem fed_of_not_mem {feeds : List (Metric × α)} (h : metric ∉ feeds.map (·.1)) :
    fed acc feeds metric = acc metric := by
  induction feeds generalizing acc with
  | nil => rfl
  | cons first feeds ih =>
    rw [List.map_cons, List.mem_cons, not_or] at h
    rw [fed, ih h.2, Function.update_of_ne h.1]

theorem fed_of_mem {feeds : List (Metric × α)} (hnodup : (feeds.map (·.1)).Nodup) {value : α}
    (h : (metric, value) ∈ feeds) : fed acc feeds metric = (acc metric).insert value := by
  induction feeds generalizing acc with
  | nil => cases h
  | cons first feeds ih =>
    rw [List.map_cons, List.nodup_cons] at hnodup
    rcases List.mem_cons.1 h with rfl | h
    · rw [fed, fed_of_not_mem hnodup.1, Function.update_self]
    · have hne : metric ≠ first.1 := fun heq =>
        hnodup.1 (heq ▸ List.mem_map_of_mem h)
      rw [fed, ih hnodup.2 h, Function.update_of_ne hne]

theorem exists_fed_eq_insert {feeds : List (Metric × α)} (hnodup : (feeds.map (·.1)).Nodup)
    (h : metric ∈ feeds.map (·.1)) : ∃ value, fed acc feeds metric = (acc metric).insert value := by
  obtain ⟨⟨_, value⟩, hfeed, rfl⟩ := List.mem_map.1 h
  exact ⟨value, fed_of_mem hnodup hfeed⟩

theorem forall_fed {p : Accumulator α → Prop}
    (hinsert : ∀ accumulator value, p accumulator → p (accumulator.insert value))
    (h : ∀ metric, p (acc metric)) (feeds : List (Metric × α)) (metric : Metric) :
    p (fed acc feeds metric) := by
  induction feeds generalizing acc with
  | nil => exact h metric
  | cons first feeds ih =>
    refine ih fun other => ?_
    by_cases hother : other = first.1
    · subst hother
      rw [Function.update_self]
      exact hinsert _ _ (h first.1)
    · rw [Function.update_of_ne hother]
      exact h other

section lists

variable (items : List β) (owner : β → Metric) (value : β → α)

theorem yields_forM_feed (howned : ∀ item ∈ items, (owner item).OwnedBy view) :
    (items.forM fun item => do let _ ← feed view (owner item) (value item)).Yields acc ()
      (fed acc (items.map fun item => (owner item, value item))) := by
  induction items generalizing acc with
  | nil => exact yields_pure ()
  | cons item items ih =>
    have hfirst : (feed view (owner item) (value item)).Yields acc _ _ :=
      yields_feed (howned item List.mem_cons_self) (value item)
    exact (hfirst.bind (yields_pure ())).bind (ih fun next hnext =>
      howned next (List.mem_cons_of_mem _ hnext))

theorem yields_mapM_reach (howned : ∀ item ∈ items, (owner item).OwnedBy view)
    (f : β → Accumulator α → γ) :
    (items.mapM fun item => do return f item (← reach view (owner item))).Yields acc
      (items.map fun item => f item (acc (owner item))) acc := by
  induction items with
  | nil => exact yields_pure []
  | cons item items ih =>
    have hfirst : (reach view (owner item)).Yields acc (acc (owner item)) acc :=
      yields_reach (howned item List.mem_cons_self)
    have hrest := ih fun next hnext => howned next (List.mem_cons_of_mem _ hnext)
    rw [List.mapM_cons]
    exact (hfirst.bind (yields_pure _)).bind (hrest.bind (yields_pure _))

theorem yields_mapM_feed (howned : ∀ item ∈ items, (owner item).OwnedBy view)
    (hnodup : (items.map owner).Nodup) (f : β → Accumulator α → γ) :
    (items.mapM fun item => do return f item (← feed view (owner item) (value item))).Yields acc
      (items.map fun item =>
        f item (fed acc (items.map fun item => (owner item, value item)) (owner item)))
      (fed acc (items.map fun item => (owner item, value item))) := by
  induction items generalizing acc with
  | nil => exact yields_pure []
  | cons item items ih =>
    rw [List.map_cons, List.nodup_cons] at hnodup
    let first := Function.update acc (owner item) ((acc (owner item)).insert (value item))
    have hfirst : (feed view (owner item) (value item)).Yields acc _ first :=
      yields_feed (howned item List.mem_cons_self) (value item)
    have hrest := @ih first (fun next hnext => howned next (List.mem_cons_of_mem _ hnext)) hnodup.2
    have hkeeps : fed first (items.map fun item => (owner item, value item)) (owner item) =
        (acc (owner item)).insert (value item) := by
      have hnot : owner item ∉ (items.map fun item => (owner item, value item)).map (·.1) := by
        rw [List.map_map]
        exact hnodup.1
      rw [fed_of_not_mem hnot]
      exact Function.update_self _ _ _
    rw [List.mapM_cons, List.map_cons, List.map_cons, fed, hkeeps]
    exact (hfirst.bind (yields_pure _)).bind (hrest.bind (yields_pure _))

end lists

end Computation

end NodeTelemetry
