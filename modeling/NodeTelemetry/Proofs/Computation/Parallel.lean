import NodeTelemetry.Proofs.Accumulator.Views
import NodeTelemetry.Proofs.Computation.Within

/-!
Computations side by side. Several computations over one set take their single operations on the
accumulators in some order, a schedule. If each keeps to a view of its own then none sees what the
others do: it ends as it would have ended alone, and so the order does not matter.
-/

set_option autoImplicit false

namespace NodeTelemetry

variable {α β : Type}

namespace Computation

def ended : Except EngineError β → Computation α β
  | .ok result => done result
  | .error error => fail error

def Ended : Computation α β → Prop
  | done _ | fail _ => True
  | look _ _ _ | enter _ _ _ _ => False

private theorem ended_ended (outcome : Except EngineError β) :
    (ended outcome : Computation α β).Ended := by
  cases outcome <;> trivial

variable [Scalar α]

/-- One operation on the accumulators. To feed an accumulator and to look at it afterwards are two. -/
def step : Computation α β → AccumulatorSet α → Computation α β × AccumulatorSet α
  | done result, set => (done result, set)
  | fail error, set => (fail error, set)
  | look view metric next, set =>
    match set.lookup view metric.name with
    | .ok accumulator => (next accumulator, set)
    | .error error => (fail error, set)
  | enter view metric value next, set =>
    match set.lookup view metric.name with
    | .ok _ => (look view metric next, set.modify metric.name (·.insert value))
    | .error error => (fail error, set)

variable {computation : Computation α β} {set other : AccumulatorSet α} {kind own : GroupKind}
  {p : β → Prop}

private theorem step_of_ended (h : computation.Ended) (set : AccumulatorSet α) :
    computation.step set = (computation, set) := by
  cases computation with
  | done => rfl
  | fail => rfl
  | look => exact h.elim
  | enter => exact h.elim

private theorem run_of_ended (h : computation.Ended) (set : AccumulatorSet α) :
    ended (computation.run set).1 = computation ∧ (computation.run set).2 = set := by
  cases computation with
  | done => exact ⟨rfl, rfl⟩
  | fail => exact ⟨rfl, rfl⟩
  | look => exact h.elim
  | enter => exact h.elim

private theorem run_step (computation : Computation α β) (set : AccumulatorSet α) :
    (computation.step set).1.run (computation.step set).2 = computation.run set := by
  cases computation with
  | done => rfl
  | fail => rfl
  | look view metric next =>
    rw [step, run_look]
    cases set.lookup view metric.name with
    | ok accumulator => rfl
    | error error => rfl
  | enter view metric value next =>
    rw [step, run_enter]
    cases hlookup : set.lookup view metric.name with
    | error error => rfl
    | ok accumulator =>
      have hset := AccumulatorSet.modify_of_lookup hlookup (·.insert value)
      have hfed := AccumulatorSet.lookup_modify hlookup fun _ => accumulator.insert value
      simp only [run, hset, hfed]

/-! ### Computations within a view -/

private theorem Within.step (h : computation.Within kind p) (set : AccumulatorSet α) :
    (computation.step set).1.Within kind p := by
  cases computation with
  | done => exact h
  | fail => exact h
  | look view metric next =>
    rw [Computation.step]
    cases set.lookup view metric.name with
    | ok accumulator => exact h.2 accumulator
    | error error => trivial
  | enter view metric value next =>
    rw [Computation.step]
    cases set.lookup view metric.name with
    | ok accumulator => exact h
    | error error => trivial

private theorem Within.step_congr (h : computation.Within kind p)
    (hview : set.view kind = other.view kind) :
    (computation.step set).1 = (computation.step other).1 ∧
      (computation.step set).2.view kind = (computation.step other).2.view kind := by
  cases computation with
  | done => exact ⟨rfl, hview⟩
  | fail => exact ⟨rfl, hview⟩
  | look view metric next =>
    obtain ⟨rfl, -⟩ := h
    rw [Computation.step, Computation.step, AccumulatorSet.lookup_congr hview]
    cases other.lookup view metric.name with
    | ok accumulator => exact ⟨rfl, hview⟩
    | error error => exact ⟨rfl, hview⟩
  | enter view metric value next =>
    obtain ⟨rfl, -⟩ := h
    rw [Computation.step, Computation.step, AccumulatorSet.lookup_congr hview]
    cases other.lookup view metric.name with
    | ok accumulator =>
      refine ⟨rfl, ?_⟩
      rw [AccumulatorSet.view_modify, AccumulatorSet.view_modify, hview]
    | error error => exact ⟨rfl, hview⟩

private theorem Within.view_step (h : computation.Within kind p) (hown : own ≠ kind)
    (set : AccumulatorSet α) : (computation.step set).2.view own = set.view own := by
  cases computation with
  | done => rfl
  | fail => rfl
  | look view metric next =>
    rw [Computation.step]
    cases set.lookup view metric.name with
    | ok accumulator => rfl
    | error error => rfl
  | enter view metric value next =>
    obtain ⟨rfl, -⟩ := h
    rw [Computation.step]
    cases hlookup : set.lookup view metric.name with
    | ok accumulator => exact AccumulatorSet.view_modify_of_lookup hlookup hown _
    | error error => rfl

/-- A computation reads and changes only what the view of a kind shows. -/
structure KeepsTo (kind : GroupKind) (computation : Computation α β) : Prop where
  reads : ∀ set other : AccumulatorSet α, set.view kind = other.view kind →
    (computation.run set).1 = (computation.run other).1 ∧
      (computation.run set).2.view kind = (computation.run other).2.view kind
  changes : ∀ (set : AccumulatorSet α) (own : GroupKind), own ≠ kind →
    (computation.run set).2.view own = set.view own

theorem Within.keepsTo (h : computation.Within kind p) : computation.KeepsTo kind := by
  induction computation with
  | done => exact ⟨fun set other hview => ⟨rfl, hview⟩, fun set own hown => rfl⟩
  | fail => exact ⟨fun set other hview => ⟨rfl, hview⟩, fun set own hown => rfl⟩
  | look view metric next ih =>
    obtain ⟨rfl, hnext⟩ := h
    constructor
    · intro set other hview
      rw [run_look, run_look, AccumulatorSet.lookup_congr hview]
      cases other.lookup view metric.name with
      | ok accumulator => exact (ih accumulator (hnext accumulator)).reads set other hview
      | error error => exact ⟨rfl, hview⟩
    · intro set own hown
      rw [run_look]
      cases set.lookup view metric.name with
      | ok accumulator => exact (ih accumulator (hnext accumulator)).changes set own hown
      | error error => rfl
  | enter view metric value next ih =>
    obtain ⟨rfl, hnext⟩ := h
    constructor
    · intro set other hview
      rw [run_enter, run_enter, AccumulatorSet.lookup_congr hview]
      cases other.lookup view metric.name with
      | ok accumulator =>
        refine (ih _ (hnext _)).reads _ _ ?_
        rw [AccumulatorSet.view_modify, AccumulatorSet.view_modify, hview]
      | error error => exact ⟨rfl, hview⟩
    · intro set own hown
      rw [run_enter]
      cases hlookup : set.lookup view metric.name with
      | ok accumulator =>
        exact ((ih _ (hnext _)).changes _ own hown).trans
          (AccumulatorSet.view_modify_of_lookup hlookup hown _)
      | error error => rfl

end Computation

/-- A computation of each kind, over one set. -/
structure Parallel (α β : Type) where
  task : GroupKind → Computation α β
  set : AccumulatorSet α

namespace Parallel

open NodeTelemetry.Computation (ended)

/-- Two states are the same for a kind: its computation has got equally far, and its view shows the
same. -/
structure AgreeOn (kind : GroupKind) (parallel other : Parallel α β) : Prop where
  task : parallel.task kind = other.task kind
  view : parallel.set.view kind = other.set.view kind

namespace AgreeOn

variable {parallel other : Parallel α β} {kind : GroupKind}

private theorem refl (kind : GroupKind) (parallel : Parallel α β) :
    AgreeOn kind parallel parallel :=
  ⟨rfl, rfl⟩

private theorem symm (h : AgreeOn kind parallel other) : AgreeOn kind other parallel :=
  ⟨h.task.symm, h.view.symm⟩

private theorem trans {third : Parallel α β} (h : AgreeOn kind parallel other)
    (hlater : AgreeOn kind other third) : AgreeOn kind parallel third :=
  ⟨h.task.trans hlater.task, h.view.trans hlater.view⟩

private theorem eq (h : ∀ kind, AgreeOn kind parallel other) : parallel = other := by
  have htask : parallel.task = other.task := funext fun kind => (h kind).task
  have hset : parallel.set = other.set := AccumulatorSet.ext_view fun kind => (h kind).view
  cases parallel
  cases other
  cases htask
  cases hset
  rfl

end AgreeOn

variable [Scalar α]

/-- The computation of a kind takes its next operation, if it has not ended. -/
def advance (parallel : Parallel α β) (kind : GroupKind) : Parallel α β :=
  let next := (parallel.task kind).step parallel.set
  ⟨Function.update parallel.task kind next.1, next.2⟩

def after (parallel : Parallel α β) (schedule : List GroupKind) : Parallel α β :=
  schedule.foldl advance parallel

def Finished (parallel : Parallel α β) : Prop := ∀ kind, (parallel.task kind).Ended

def finish (parallel : Parallel α β) (kind : GroupKind) : Parallel α β :=
  let last := (parallel.task kind).run parallel.set
  ⟨Function.update parallel.task kind (ended last.1), last.2⟩

def inTurn (parallel : Parallel α β) (order : List GroupKind) : Parallel α β :=
  order.foldl finish parallel

def Separate (parallel : Parallel α β) : Prop :=
  ∀ kind, (parallel.task kind).Within kind fun _ => True

variable {parallel other : Parallel α β} {kind own : GroupKind}

private theorem after_append (parallel : Parallel α β) (first later : List GroupKind) :
    parallel.after (first ++ later) = (parallel.after first).after later :=
  List.foldl_append

/-! ### One operation -/

private theorem task_advance_of_ne (h : own ≠ kind) (parallel : Parallel α β) :
    (parallel.advance kind).task own = parallel.task own :=
  Function.update_of_ne h _ _

private theorem task_advance (parallel : Parallel α β) (kind : GroupKind) :
    (parallel.advance kind).task kind = ((parallel.task kind).step parallel.set).1 :=
  Function.update_self _ _ _

private theorem advance_of_ended (h : (parallel.task kind).Ended) :
    parallel.advance kind = parallel := by
  rw [advance, Computation.step_of_ended h]
  exact congrArg (mk · parallel.set) (Function.update_eq_self kind parallel.task)

private theorem Separate.advance (h : parallel.Separate) (kind : GroupKind) :
    (parallel.advance kind).Separate := by
  intro own
  by_cases hown : own = kind
  · subst hown
    rw [task_advance]
    exact (h own).step parallel.set
  · rw [task_advance_of_ne hown]
    exact h own

private theorem Separate.after (h : parallel.Separate) (schedule : List GroupKind) :
    (parallel.after schedule).Separate := by
  induction schedule generalizing parallel with
  | nil => exact h
  | cons kind schedule ih => exact ih (h.advance kind)

namespace AgreeOn

private theorem advance_self (h : AgreeOn kind parallel other) (hseparate : parallel.Separate) :
    AgreeOn kind (parallel.advance kind) (other.advance kind) := by
  obtain ⟨htask, hview⟩ := (hseparate kind).step_congr h.view
  constructor
  · rw [task_advance, task_advance, htask, h.task]
  · exact hview.trans (by rw [h.task]; rfl)

private theorem advance_other (h : own ≠ kind) (hseparate : parallel.Separate) :
    AgreeOn own (parallel.advance kind) parallel :=
  ⟨task_advance_of_ne h parallel, (hseparate kind).view_step h parallel.set⟩

end AgreeOn

/-! ### Schedules -/

private theorem Separate.agreeOn_replicate (h : parallel.Separate) (schedule : List GroupKind)
    (kind : GroupKind) : AgreeOn kind (parallel.after schedule)
      (parallel.after (List.replicate (schedule.count kind) kind)) := by
  induction schedule using List.reverseRecOn with
  | nil => exact .refl kind _
  | append_singleton schedule last ih =>
    rw [after_append, List.count_append]
    by_cases hlast : last = kind
    · subst hlast
      rw [List.count_singleton_self, List.replicate_succ', after_append]
      exact ih.advance_self (h.after schedule)
    · rw [List.count_singleton, if_neg (by simpa using hlast), Nat.add_zero]
      exact (AgreeOn.advance_other (Ne.symm hlast) (h.after schedule)).trans ih

private theorem after_replicate_of_ended (h : (parallel.task kind).Ended) (n : Nat) :
    parallel.after (List.replicate n kind) = parallel := by
  induction n with
  | zero => rfl
  | succ n ih => rw [List.replicate_succ', after_append, ih]; exact advance_of_ended h

private theorem Separate.agreeOn_of_count_le (h : parallel.Separate)
    {schedule longer : List GroupKind} (hle : schedule.count kind ≤ longer.count kind)
    (hended : ((parallel.after schedule).task kind).Ended) :
    AgreeOn kind (parallel.after schedule) (parallel.after longer) := by
  have hown := h.agreeOn_replicate schedule kind
  rw [hown.task] at hended
  have hsplit : longer.count kind =
      schedule.count kind + (longer.count kind - schedule.count kind) := by omega
  have hlonger := h.agreeOn_replicate longer kind
  rw [hsplit, List.replicate_add, after_append, after_replicate_of_ended hended] at hlonger
  exact hown.trans hlonger.symm

private theorem Separate.after_eq (h : parallel.Separate) {first second : List GroupKind}
    (hfirst : (parallel.after first).Finished) (hsecond : (parallel.after second).Finished) :
    parallel.after first = parallel.after second := by
  refine AgreeOn.eq fun kind => ?_
  rcases Nat.le_total (first.count kind) (second.count kind) with hle | hle
  · exact h.agreeOn_of_count_le hle (hfirst kind)
  · exact (h.agreeOn_of_count_le hle (hsecond kind)).symm

/-! ### One after another -/

private theorem finish_of_ended (h : (parallel.task kind).Ended) :
    parallel.finish kind = parallel := by
  obtain ⟨htask, hset⟩ := Computation.run_of_ended h parallel.set
  simp only [finish, htask, hset, Function.update_eq_self]

private theorem finish_advance (parallel : Parallel α β) (kind : GroupKind) :
    (parallel.advance kind).finish kind = parallel.finish kind := by
  simp only [finish, advance, Function.update_self, Function.update_idem, Computation.run_step]

/-- Running the computation of a kind to its end is to give it some number of turns. -/
def EndsByTurns (kind : GroupKind) (parallel : Parallel α β) : Prop :=
  ∃ turns, parallel.finish kind = parallel.after (List.replicate turns kind)

private theorem endsByTurns_of_ended (h : (parallel.task kind).Ended) : parallel.EndsByTurns kind :=
  ⟨0, finish_of_ended h⟩

private theorem endsByTurns_of_advance (h : (parallel.advance kind).EndsByTurns kind) :
    parallel.EndsByTurns kind := by
  obtain ⟨turns, hturns⟩ := h
  exact ⟨turns + 1, (finish_advance parallel kind).symm.trans hturns⟩

private theorem endsByTurns_of_look {view : GroupKind} {metric : Metric}
    {next : Accumulator α → Computation α β}
    (hnext : ∀ accumulator, ∀ later : Parallel α β,
      later.task kind = next accumulator → later.EndsByTurns kind)
    (htask : parallel.task kind = .look view metric next) : parallel.EndsByTurns kind := by
  have hstep := task_advance parallel kind
  rw [htask, Computation.step] at hstep
  refine endsByTurns_of_advance ?_
  split at hstep
  next accumulator _ => exact hnext accumulator _ hstep
  next => exact endsByTurns_of_ended (by rw [hstep]; trivial)

private theorem endsByTurns (parallel : Parallel α β) (kind : GroupKind) :
    parallel.EndsByTurns kind := by
  generalize htask : parallel.task kind = computation
  induction computation generalizing parallel with
  | done result => exact endsByTurns_of_ended (by rw [htask]; trivial)
  | fail error => exact endsByTurns_of_ended (by rw [htask]; trivial)
  | look view metric next ih =>
    exact endsByTurns_of_look (fun accumulator later => ih accumulator later) htask
  | enter view metric value next ih =>
    have hstep := task_advance parallel kind
    rw [htask, Computation.step] at hstep
    refine endsByTurns_of_advance ?_
    split at hstep
    next => exact endsByTurns_of_look (fun accumulator later => ih accumulator later) hstep
    next => exact endsByTurns_of_ended (by rw [hstep]; trivial)

private theorem exists_inTurn_eq (parallel : Parallel α β) (order : List GroupKind) :
    ∃ schedule, parallel.inTurn order = parallel.after schedule := by
  induction order generalizing parallel with
  | nil => exact ⟨[], rfl⟩
  | cons kind order ih =>
    obtain ⟨turns, hturns⟩ := parallel.endsByTurns kind
    obtain ⟨schedule, hschedule⟩ := ih (parallel.finish kind)
    refine ⟨List.replicate turns kind ++ schedule, ?_⟩
    rw [after_append, ← hturns, ← hschedule]
    rfl

theorem task_finish (parallel : Parallel α β) (kind : GroupKind) :
    (parallel.finish kind).task kind = ended ((parallel.task kind).run parallel.set).1 :=
  Function.update_self _ _ _

private theorem task_finish_of_ne (h : own ≠ kind) (parallel : Parallel α β) :
    (parallel.finish kind).task own = parallel.task own :=
  Function.update_of_ne h _ _

private theorem ended_finish (parallel : Parallel α β) {kind own : GroupKind}
    (h : (parallel.task own).Ended ∨ own = kind) : ((parallel.finish kind).task own).Ended := by
  by_cases hown : own = kind
  · subst hown
    rw [task_finish]
    exact Computation.ended_ended _
  · rw [task_finish_of_ne hown]
    exact h.resolve_right hown

private theorem ended_inTurn {order : List GroupKind}
    (h : (parallel.task kind).Ended ∨ kind ∈ order) :
    ((parallel.inTurn order).task kind).Ended := by
  induction order generalizing parallel with
  | nil => exact h.resolve_right List.not_mem_nil
  | cons first order ih =>
    refine ih ?_
    rw [List.mem_cons, ← or_assoc] at h
    exact h.imp_left parallel.ended_finish

/-- However the operations are interleaved, once all computations have ended it is as if they had run
one after another, in any order. -/
theorem Separate.after_eq_inTurn (h : parallel.Separate) {schedule order : List GroupKind}
    (hfinished : (parallel.after schedule).Finished) (horder : ∀ kind, kind ∈ order) :
    parallel.after schedule = parallel.inTurn order := by
  obtain ⟨other, hother⟩ := parallel.exists_inTurn_eq order
  have hended : (parallel.after other).Finished := by
    intro kind
    rw [← hother]
    exact ended_inTurn (.inr (horder kind))
  rw [hother]
  exact h.after_eq hfinished hended

theorem Separate.agreeOn_finish (h : parallel.Separate) {schedule : List GroupKind}
    (hfinished : (parallel.after schedule).Finished) (kind : GroupKind) :
    AgreeOn kind (parallel.after schedule) (parallel.finish kind) := by
  obtain ⟨turns, hturns⟩ := parallel.endsByTurns kind
  have hended : ((parallel.after (List.replicate turns kind)).task kind).Ended := by
    rw [← hturns]
    exact parallel.ended_finish (.inr rfl)
  rw [hturns]
  rcases Nat.le_total (schedule.count kind) ((List.replicate turns kind).count kind) with hle | hle
  · exact h.agreeOn_of_count_le hle (hfinished kind)
  · exact (h.agreeOn_of_count_le hle hended).symm

theorem Separate.exists_turns (h : parallel.Separate) :
    ∃ turns, ∀ schedule : List GroupKind, (∀ kind, turns ≤ schedule.count kind) →
      (parallel.after schedule).Finished := by
  choose turns hturns using parallel.endsByTurns
  refine ⟨(GroupKind.all.map turns).sum, fun schedule hschedule kind => ?_⟩
  have hended : ((parallel.after (List.replicate (turns kind) kind)).task kind).Ended := by
    rw [← hturns kind]
    exact parallel.ended_finish (.inr rfl)
  have hmem : turns kind ∈ GroupKind.all.map turns :=
    List.mem_map_of_mem (by cases kind <;> decide)
  have hle : (List.replicate (turns kind) kind).count kind ≤ schedule.count kind := by
    rw [List.count_replicate_self]
    exact (List.single_le_sum (fun _ _ => Nat.zero_le _) _ hmem).trans (hschedule kind)
  rw [← (h.agreeOn_of_count_le hle hended).task]
  exact hended

end Parallel

end NodeTelemetry
