import NodeTelemetry.Proofs.Engine.Order

/-!
What an engine with the block groups produces. Every batch on its way to the dashboard is that of a
sample which all groups have worked on, of a measurement, or of a queue status, whatever the
interleaving of the tasks.
-/

set_option autoImplicit false

namespace NodeTelemetry

open NodeTelemetry.Computation (fed)

variable {α : Type} [Scalar α]

inductive Batch.Produced : Batch α → Prop where
  | block (record : Record α) : Produced record.batch
  | network (now : VolumeSnapshot) (upload download : Accumulator α) :
      Produced ⟨.network now.observedAt,
        RateMeter.points now upload download ++ RateMeter.readouts now upload download⟩
  | queueStatus (status : QueueStatus) : Produced (Batch.ofQueueStatus status)

def CommitJob.Produced (job : CommitJob α) : Prop := ∀ batch ∈ job.batch?, batch.Produced

theorem Ingestion.produced_handle {ingestion : Ingestion α} {acc : Metric → Accumulator α}
    (h : ingestion.accumulators.Shows acc) {groups : List (Group α)}
    (hgroups : groups = Group.blockGroups) (route : ErrorRoute) (event : IngestEvent) :
    (∃ feeds, (ingestion.handle groups route event).1.accumulators.Shows (fed acc feeds)) ∧
      ∀ job ∈ (ingestion.handle groups route event).2.job?, job.Produced := by
  cases event with
  | sample taken =>
    cases taken with
    | none => exact ⟨⟨[], h⟩, fun job hjob => nomatch hjob⟩
    | some taken =>
      obtain ⟨block, receivedAt⟩ := taken
      obtain ⟨counted, hhandle, hcounted⟩ :=
        ingestion.exists_handle_sample groups route block receivedAt
      subst hgroups
      obtain ⟨feeds, -, hshows, hbatch⟩ :=
        Group.exists_process_blockGroups (hcounted ▸ h) route block receivedAt
      rw [hhandle]
      generalize counted.process Group.blockGroups route block receivedAt = result at hshows hbatch ⊢
      refine ⟨⟨_, hshows⟩, fun job hjob batch hmem => ?_⟩
      cases hjob
      cases hmem
      rw [hbatch]
      exact .block ⟨block, fed acc feeds⟩
  | queueStatus status =>
    refine ⟨⟨[], h⟩, fun job hjob batch hmem => ?_⟩
    cases hjob
    cases hmem
    exact .queueStatus status
  | blockPopped height =>
    refine ⟨⟨[], h⟩, fun job hjob batch hmem => ?_⟩
    cases hjob
    cases hmem
  | flush ticket =>
    refine ⟨⟨[], h⟩, fun job hjob batch hmem => ?_⟩
    cases hjob
    cases hmem

namespace Engine

/-- The engine has the block groups and their accumulators, and all jobs that wait are produced. -/
structure Producing (engine : Engine α) : Prop where
  groups : engine.groups = Group.blockGroups
  meter : engine.meter.view = .network
  shows : ∃ acc, engine.accumulators.Shows acc
  waiting : ∀ job ∈ engine.waiting, job.Produced
  measured : ∀ job ∈ engine.measured, job.Produced

omit [Scalar α] in
theorem mem_waiting_of_taken {engine : Engine α} {move : Move} {job : CommitJob α}
    (h : job ∈ engine.taken move) : job ∈ engine.waiting := by
  unfold taken at h
  split at h
  · split at h
    · exact List.mem_append_left _ (List.mem_of_mem_take h)
    · cases h
  · cases h

variable {engine next : Engine α} {move : Move}

theorem Producing.shows_of_tick (h : engine.Producing) {acc : Metric → Accumulator α}
    (hacc : engine.accumulators.Shows acc) {now : Int64}
    {outcome : Except EngineError (Option (RateSample α))} {set : AccumulatorSet α}
    (hrun : (engine.meter.tick ⟨engine.volume, now⟩).2.run engine.accumulators = (outcome, set)) :
    ∃ feeds, set.Shows (fed acc feeds) := by
  obtain ⟨result, feeds, hyields⟩ : ∃ result feeds,
      (engine.meter.tick ⟨engine.volume, now⟩).2.Yields acc result (fed acc feeds) := by
    rcases RateMeter.tick_yields h.meter ⟨engine.volume, now⟩ acc with hnone | ⟨rate, hrate⟩
    · exact ⟨none, [], hnone⟩
    · exact ⟨_, _, hrate⟩
  obtain ⟨after, hafter, hshows⟩ := hyields engine.accumulators hacc
  cases hafter.symm.trans hrun
  exact ⟨feeds, hshows⟩

theorem Becomes.mem_intake (h : engine.Becomes move next) {event : IngestEvent}
    (hevent : event ∈ next.intake) : event ∈ engine.intake ∨ event ∈ engine.arriving move := by
  cases h with
  | submit own hopen =>
    rw [arriving, if_pos hopen]
    exact List.mem_append.1 hevent
  | ask hopen =>
    rw [arriving, if_pos hopen]
    exact List.mem_append.1 hevent
  | take _ _ hintake =>
    rw [hintake]
    exact .inl (List.mem_cons_of_mem _ hevent)
  | _ => exact .inl hevent

theorem Becomes.mem_waiting (h : engine.Becomes move next) {job : CommitJob α}
    (hjob : job ∈ next.waiting) :
    job ∈ engine.waiting ∨ job ∈ engine.measured ∨ ∃ event ∈ engine.intake,
      job ∈ (engine.ingestion.handle engine.groups engine.route event).2.job? := by
  cases h with
  | post _ hposting =>
    refine .inl ?_
    rw [waiting, hposting]
    simpa [waiting] using hjob
  | @take event _ _ hposting hintake =>
    rcases List.mem_append.1 hjob with hjob | hjob
    · exact .inl (List.mem_append_left _ hjob)
    · refine .inr (.inr ⟨event, ?_, Option.mem_toList.1 hjob⟩)
      rw [hintake]
      exact List.mem_cons_self
  | report _ hmeasured =>
    simp only [waiting, List.mem_append, List.mem_singleton] at hjob
    rcases hjob with (hjob | rfl) | hjob
    · exact .inl (List.mem_append_left _ hjob)
    · exact .inr (.inl hmeasured)
    · exact .inl (List.mem_append_right _ hjob)
  | commit _ hcommits =>
    refine .inl ?_
    rw [waiting, hcommits]
    exact List.mem_cons_of_mem _ hjob
  | _ => exact .inl hjob

theorem Becomes.mem_measured (h : engine.Becomes move next) {job : CommitJob α}
    (hjob : job ∈ next.measured) :
    job ∈ engine.measured ∨ ∃ (now : Int64) (sample : RateSample α) (set : AccumulatorSet α),
      (engine.meter.tick ⟨engine.volume, now⟩).2.run engine.accumulators = (.ok (some sample), set) ∧
        job = .apply sample.batch := by
  cases h with
  | measure _ _ _ hrun =>
    cases hjob
    exact .inr ⟨_, _, _, hrun, rfl⟩
  | report => cases hjob
  | _ => exact .inl hjob

theorem Becomes.producing (h : engine.Becomes move next) (hengine : engine.Producing) :
    next.Producing := by
  obtain ⟨acc, hacc⟩ := hengine.shows
  have hhandle := fun event => Ingestion.produced_handle hacc hengine.groups engine.route event
  constructor
  · cases h <;> exact hengine.groups
  · cases h <;> exact hengine.meter
  · cases h with
    | setWindow hset => exact ⟨_, hacc.setWindow hset⟩
    | take => exact (hhandle _).1.imp' _ fun _ hshows => hshows
    | observe _ _ _ hrun => exact (hengine.shows_of_tick hacc hrun).imp' _ fun _ hshows => hshows
    | measure _ _ _ hrun => exact (hengine.shows_of_tick hacc hrun).imp' _ fun _ hshows => hshows
    | _ => exact hengine.shows
  · intro job hjob
    rcases h.mem_waiting hjob with hjob | hjob | ⟨event, -, hjob⟩
    · exact hengine.waiting job hjob
    · exact hengine.measured job hjob
    · exact (hhandle event).2 job hjob
  · intro job hjob
    rcases h.mem_measured hjob with hjob | ⟨now, sample, set, hrun, rfl⟩
    · exact hengine.measured job hjob
    · rintro batch ⟨⟩
      obtain ⟨upload, download, hbatch⟩ := RateMeter.exists_batch_of_tick hrun
      rw [hbatch]
      exact .network ⟨engine.volume, now⟩ upload download

namespace Producing

theorem after (h : engine.Producing) (moves : List Move) : (engine.after moves).Producing := by
  induction moves generalizing engine with
  | nil => exact h
  | cons move moves ih => exact ih ((engine.becomes_make move).producing h)

theorem applied (h : engine.Producing) (moves : List Move) :
    ∀ job ∈ engine.applied moves, job.Produced := by
  induction moves generalizing engine with
  | nil => exact fun job hjob => nomatch hjob
  | cons move moves ih =>
    intro job hjob
    rcases List.mem_append.1 hjob with hjob | hjob
    · exact h.waiting job (mem_waiting_of_taken hjob)
    · exact ih ((engine.becomes_make move).producing h) job hjob

end Producing

theorem exists_producing {config : EngineConfig} (hpos : 0 < config.window)
    (hle : config.window ≤ config.largestWindow) :
    ∃ fresh : Engine α, build config = .ok fresh ∧ fresh.Producing := by
  have hfits := EngineConfig.window_le_along hle
  obtain ⟨set, hset, hshows⟩ := AccumulatorSet.exists_ofDescriptors (α := α) hpos hfits
  unfold build
  rw [hset]
  exact ⟨_, rfl, rfl, rfl, ⟨_, hshows⟩, fun job hjob => (nomatch hjob), fun job hjob => nomatch hjob⟩

theorem dashboard_of_build {config : EngineConfig} {fresh : Engine α}
    (hbuild : build config = .ok fresh) (moves : List Move) :
    (fresh.after moves).dashboard =
      (Dashboard.empty (.ofDescriptors catalogue config.histories)).performAll
        (fresh.applied moves) :=
  (untouched_of_build hbuild fresh.groups fresh.route).dashboard_eq moves

end Engine

end NodeTelemetry
