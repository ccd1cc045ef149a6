import NodeTelemetry.Proofs.Accumulator.Views
import NodeTelemetry.Proofs.Engine.Production

/-!
The averages of a running engine. What feeding and a change of the window keep of every accumulator, a
run keeps, whatever its moves and their order. So where averages follow the laws of exact arithmetic
they are never below zero.
-/

set_option autoImplicit false

namespace NodeTelemetry

open Scalar (LawfulAverages Nonneg)

variable {α : Type} [Scalar α]

/-- What every accumulator keeps when it is fed and when its window changes. -/
structure Accumulator.Lasting (p : Accumulator α → Prop) : Prop where
  insert {acc : Accumulator α} (value : α) : p acc → p (acc.insert value)
  resized {acc : Accumulator α} (window : Nat) : p acc → p (acc.resized window)

namespace Engine

/-- An engine with the block groups, all of whose accumulators have a property. -/
structure Throughout (p : Accumulator α → Prop) (engine : Engine α) : Prop where
  producing : engine.Producing
  shows : ∃ acc, engine.accumulators.Shows acc ∧ ∀ metric, p (acc metric)

variable {p : Accumulator α → Prop} {engine next : Engine α} {move : Move}

private theorem Becomes.throughout (h : engine.Becomes move next) (hp : Accumulator.Lasting p)
    (hengine : engine.Throughout p) : next.Throughout p := by
  refine ⟨h.producing hengine.producing, ?_⟩
  obtain ⟨acc, hacc, hevery⟩ := hengine.shows
  have hfed : ∀ feeds metric, p (Computation.fed acc feeds metric) :=
    Computation.forall_fed (fun _ => hp.insert) hevery
  cases h with
  | setWindow hset => exact ⟨_, hacc.setWindow hset, fun metric => hp.resized _ (hevery metric)⟩
  | @take event =>
    obtain ⟨⟨feeds, hshows⟩, -⟩ :=
      Ingestion.produced_handle hacc hengine.producing.groups engine.route event
    exact ⟨_, hshows, hfed feeds⟩
  | observe _ _ _ hrun =>
    obtain ⟨feeds, hshows⟩ := hengine.producing.shows_of_tick hacc hrun
    exact ⟨_, hshows, hfed feeds⟩
  | measure _ _ _ hrun =>
    obtain ⟨feeds, hshows⟩ := hengine.producing.shows_of_tick hacc hrun
    exact ⟨_, hshows, hfed feeds⟩
  | _ => exact ⟨acc, hacc, hevery⟩

private theorem Throughout.after (h : engine.Throughout p) (hp : Accumulator.Lasting p)
    (moves : List Move) : (engine.after moves).Throughout p := by
  induction moves generalizing engine with
  | nil => exact h
  | cons move moves ih => exact ih ((engine.becomes_make move).throughout hp h)

private theorem throughout_of_build {config : EngineConfig} {fresh : Engine α}
    (hbuild : build config = .ok fresh)
    (hempty : ∀ capacity window hpos hle, p (.empty capacity window hpos hle)) :
    fresh.Throughout p := by
  obtain ⟨set, hset, hfresh⟩ := exists_of_bind hbuild
  cases hfresh
  have hfits := AccumulatorSet.fits_of_ofDescriptors hset
  obtain ⟨same, hsame, hshows⟩ := AccumulatorSet.exists_ofDescriptors (α := α) (hfits .height).1
    fun axis => (hfits axis).2
  cases hset.symm.trans hsame
  exact ⟨⟨rfl, rfl, ⟨_, hshows⟩, nofun, nofun⟩, _, hshows, fun metric => hempty _ _ _ _⟩

/-- Averages that follow the laws of exact arithmetic are never below zero. -/
theorem averagesNonneg_after [LawfulAverages α] {config : EngineConfig} {fresh : Engine α}
    (hbuild : build config = .ok fresh) (moves : List Move) :
    (fresh.after moves).AveragesNonneg := by
  have hlasting : Accumulator.Lasting fun acc : Accumulator α => Nonneg acc.mean :=
    ⟨fun {acc} value _ => acc.nonneg_mean_insert value,
      fun window h => Accumulator.nonneg_mean_resized h window⟩
  obtain ⟨acc, hshows, hnonneg⟩ :=
    ((throughout_of_build hbuild fun _ _ _ _ => Scalar.nonneg_zero).after hlasting moves).shows
  intro metric hmetric own hown
  rw [hshows.get? (Metric.accumulated_of_averaged hmetric)] at hown
  cases hown
  exact hnonneg metric

end Engine

end NodeTelemetry
