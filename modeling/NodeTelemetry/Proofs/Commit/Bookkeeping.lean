import NodeTelemetry.Proofs.Engine.Order

/-!
The books of the consumer. After any run of jobs its figures, its dashboard and what the display was
told agree with each other; a display that learns of the dashboard only by these notices shows all of
it.
-/

set_option autoImplicit false

namespace NodeTelemetry

open Scalar (ofWord)

variable {α : Type} [Scalar α]

/-! ### Displays that follow notices -/

/-- What a display shows: the charts and the readouts. -/
structure Display (α : Type) where
  series : SeriesStore α
  readouts : NameMap (Readout α)

namespace Display

def update (display : Display α) : Update α → Display α
  | .point series x y => { display with series := display.series.insert series x y }
  | .readout readout =>
    { display with readouts := display.readouts.insert readout.name readout }

/-- The display after a notice: a batch is shown update by update; a rollback cuts the charts along
heights, and the readouts that come with it are shown. -/
def follow (display : Display α) : Notice α → Display α
  | .applied batch => batch.updates.foldl update display
  | .truncated height readouts =>
    { series := display.series.truncate .height (ofWord height)
      readouts := Dashboard.overlay readouts display.readouts }

def followAll (display : Display α) (notices : List (Notice α)) : Display α :=
  notices.foldl follow display

private theorem followAll_append (display : Display α) (first later : List (Notice α)) :
    display.followAll (first ++ later) = (display.followAll first).followAll later :=
  List.foldl_append

end Display

namespace Dashboard

def display (dashboard : Dashboard α) : Display α := ⟨dashboard.series, dashboard.readouts⟩

private theorem display_foldl_update (dashboard : Dashboard α) (updates : List (Update α)) :
    (updates.foldl update dashboard).display = updates.foldl Display.update dashboard.display := by
  induction updates generalizing dashboard with
  | nil => rfl
  | cons first updates ih =>
    have hfirst : (dashboard.update first).display = dashboard.display.update first := by
      cases first <;> rfl
    rw [List.foldl_cons, ih, hfirst, List.foldl_cons]

private theorem display_apply (dashboard : Dashboard α) (batch : Batch α) :
    (dashboard.apply batch).display = dashboard.display.follow (.applied batch) :=
  display_foldl_update dashboard batch.updates

private theorem display_truncate (dashboard : Dashboard α) (height : UInt64) :
    (dashboard.truncate height).1.display =
      dashboard.display.follow (.truncated height (dashboard.truncate height).2.readouts) :=
  rfl

/-- How many points each rollback among jobs takes away, in the order of the jobs. -/
def removals (dashboard : Dashboard α) : List (CommitJob α) → List Nat
  | [] => []
  | .apply batch :: jobs => removals (dashboard.apply batch) jobs
  | .truncate height :: jobs =>
    (dashboard.truncate height).2.removed :: removals (dashboard.truncate height).1 jobs
  | .barrier _ :: jobs => removals dashboard jobs

private theorem removals_append (dashboard : Dashboard α) (first later : List (CommitJob α)) :
    dashboard.removals (first ++ later) =
      dashboard.removals first ++ (dashboard.performAll first).removals later := by
  induction first generalizing dashboard with
  | nil => rfl
  | cons job first ih =>
    cases job with
    | apply batch => exact ih (dashboard.apply batch)
    | truncate height => exact congrArg (List.cons _) (ih (dashboard.truncate height).1)
    | barrier ticket => exact ih dashboard

end Dashboard

/-! ### Notices and jobs -/

def Notice.job : Notice α → CommitJob α
  | .applied batch => .apply batch
  | .truncated height _ => .truncate height

def CommitJob.concernsDisplay : CommitJob α → Bool
  | .apply _ | .truncate _ => true
  | .barrier _ => false

namespace Consumer

/-- The consumer's books after jobs that began with an empty dashboard over given charts. -/
structure Balanced (store : SeriesStore α) (jobs : List (CommitJob α)) (consumer : Consumer α) :
    Prop where
  dashboard : consumer.dashboard = (Dashboard.empty store).performAll jobs
  currentHeight : consumer.figures.currentHeight = consumer.dashboard.lastHeight.getD 0
  applied : consumer.figures.applied = (jobs.filterMap CommitJob.batch?).length
  durations : consumer.figures.durations = consumer.figures.applied
  commits : consumer.dashboard.commits = consumer.figures.applied
  pointsTruncated :
    consumer.figures.pointsTruncated = ((Dashboard.empty store).removals jobs).sum
  shown : consumer.shown.map Notice.job = jobs.filter CommitJob.concernsDisplay
  display : (Display.mk store ∅).followAll consumer.shown = consumer.dashboard.display

variable {store : SeriesStore α} {jobs : List (CommitJob α)} {consumer : Consumer α}

private theorem balanced_fresh (store : SeriesStore α) : (fresh store).Balanced store [] where
  dashboard := rfl
  currentHeight := rfl
  applied := rfl
  durations := rfl
  commits := rfl
  pointsTruncated := rfl
  shown := rfl
  display := rfl

private theorem Balanced.apply (h : consumer.Balanced store jobs) (batch : Batch α) :
    (consumer.step (.apply batch)).Balanced store (jobs ++ [.apply batch]) where
  dashboard := by
    rw [Dashboard.performAll_append, ← h.dashboard]
    rfl
  currentHeight := by
    show heightFigure batch.kind consumer.figures.currentHeight =
      (consumer.dashboard.apply batch).lastHeight.getD 0
    rw [Dashboard.lastHeight_apply, h.currentHeight]
    cases batch.kind <;> rfl
  applied := by
    show consumer.figures.applied + 1 = _
    rw [List.filterMap_append, List.length_append, h.applied]
    rfl
  durations := congrArg (· + 1) h.durations
  commits := by
    show (consumer.dashboard.apply batch).commits = consumer.figures.applied + 1
    rw [Dashboard.commits_apply, h.commits]
  pointsTruncated := by
    show consumer.figures.pointsTruncated = _
    rw [Dashboard.removals_append, h.pointsTruncated]
    exact congrArg List.sum (List.append_nil _).symm
  shown := by
    show (consumer.shown ++ [Notice.applied batch]).map Notice.job = _
    rw [List.map_append, List.filter_append, h.shown]
    rfl
  display := by
    show (Display.mk store ∅).followAll (consumer.shown ++ [.applied batch]) =
      (consumer.dashboard.apply batch).display
    rw [Display.followAll_append, h.display, Dashboard.display_apply]
    rfl

/-- A rollback moves the height figure to where the dashboard then stands, which need not be the height
that was asked for. -/
theorem Balanced.truncate (h : consumer.Balanced store jobs) (height : UInt64) :
    (consumer.step (.truncate height)).Balanced store (jobs ++ [.truncate height]) where
  dashboard := by
    rw [Dashboard.performAll_append, ← h.dashboard]
    rfl
  currentHeight := by
    show (consumer.dashboard.truncate height).1.lastHeight.getD consumer.figures.currentHeight =
      (consumer.dashboard.truncate height).1.lastHeight.getD 0
    have hfigure := h.currentHeight
    cases hlast : consumer.dashboard.lastHeight with
    | none =>
      rw [hlast] at hfigure
      simp only [Dashboard.truncate, hlast, Option.map_none, hfigure, Option.getD_none]
    | some last => simp only [Dashboard.truncate, hlast, Option.map_some, Option.getD_some]
  applied := by
    rw [List.filterMap_append, List.length_append]
    exact h.applied
  durations := h.durations
  commits := h.commits
  pointsTruncated := by
    show consumer.figures.pointsTruncated + (consumer.dashboard.truncate height).2.removed = _
    rw [Dashboard.removals_append, List.sum_append, ← h.dashboard, h.pointsTruncated]
    rfl
  shown := by
    show (consumer.shown ++ [Notice.truncated height _]).map Notice.job = _
    rw [List.map_append, List.filter_append, h.shown]
    rfl
  display := by
    show (Display.mk store ∅).followAll (consumer.shown ++ [.truncated height _]) =
      (consumer.dashboard.truncate height).1.display
    rw [Display.followAll_append, h.display, Dashboard.display_truncate]
    rfl

private theorem Balanced.barrier (h : consumer.Balanced store jobs) (ticket : Nat) :
    (consumer.step (.barrier ticket)).Balanced store (jobs ++ [.barrier ticket]) where
  dashboard := by
    rw [Dashboard.performAll_append, ← h.dashboard]
    rfl
  currentHeight := h.currentHeight
  applied := by
    rw [List.filterMap_append, List.length_append]
    exact h.applied
  durations := h.durations
  commits := h.commits
  pointsTruncated := by
    rw [Dashboard.removals_append]
    exact h.pointsTruncated.trans (congrArg List.sum (List.append_nil _).symm)
  shown := by
    rw [List.filter_append]
    exact h.shown.trans (List.append_nil _).symm
  display := h.display

private theorem Balanced.step (h : consumer.Balanced store jobs) (job : CommitJob α) :
    (consumer.step job).Balanced store (jobs ++ [job]) := by
  cases job with
  | apply batch => exact h.apply batch
  | truncate height => exact h.truncate height
  | barrier ticket => exact h.barrier ticket

theorem balanced_run (store : SeriesStore α) (jobs : List (CommitJob α)) :
    ((fresh store).run jobs).Balanced store jobs := by
  induction jobs using List.reverseRecOn with
  | nil => exact balanced_fresh store
  | append_singleton jobs job ih =>
    rw [run, List.foldl_append]
    exact ih.step job

/-- Whatever jobs a consumer has done: its height figure is the latest height on the dashboard, zero
where there is none; every batch was counted once, by the dashboard and by the figures; the points
counted as truncated are those that the rollbacks have removed; the display was told once of every batch
and every rollback, in the order of the jobs; and a display that follows these notices from the start
shows the charts and the readouts of the dashboard. -/
theorem books_agree (store : SeriesStore α) (jobs : List (CommitJob α)) :
    let consumer := (fresh store).run jobs
    let applied := (jobs.filterMap CommitJob.batch?).length
    consumer.dashboard = (Dashboard.empty store).performAll jobs ∧
      (ofWord consumer.figures.currentHeight : Float) =
        (consumer.dashboard.lastHeight.map ofWord).getD 0 ∧
      consumer.figures.applied = applied ∧
      consumer.figures.durations = applied ∧
      consumer.dashboard.commits = applied ∧
      consumer.figures.pointsTruncated = ((Dashboard.empty store).removals jobs).sum ∧
      consumer.shown.map Notice.job = jobs.filter CommitJob.concernsDisplay ∧
      (Display.mk store ∅).followAll consumer.shown =
        ⟨consumer.dashboard.series, consumer.dashboard.readouts⟩ := by
  intro consumer applied
  have h : consumer.Balanced store jobs := balanced_run store jobs
  refine ⟨h.dashboard, ?_, h.applied, h.durations.trans h.applied, h.commits.trans h.applied,
    h.pointsTruncated, h.shown, h.display⟩
  rw [h.currentHeight]
  cases consumer.dashboard.lastHeight with
  | none => decide
  | some last => rfl

end Consumer

end NodeTelemetry
