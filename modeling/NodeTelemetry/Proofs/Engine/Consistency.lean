import NodeTelemetry.Proofs.Dashboard.Consistency
import NodeTelemetry.Proofs.Engine.Production

/-!
Consistent dashboards of a running engine. Where no block is committed below the latest one on display,
rollbacks may go to any height: the charts take every point, and the stored readouts have the values
that the charts tell.
-/

set_option autoImplicit false

namespace NodeTelemetry

open Scalar (LawfulWords ofWord)

variable {α : Type} [Scalar α]

private theorem Batch.Produced.block_or_neutral {batch : Batch α} (h : batch.Produced) :
    (∃ record : Record α, batch = record.batch) ∨ batch.Neutral := by
  cases h with
  | block record => exact .inl ⟨record, rfl⟩
  | network now upload download =>
    exact .inr (RateMeter.neutral_network now upload download)
  | queueStatus status => exact .inr (Batch.neutral_ofQueueStatus status)

/-! ### Jobs -/

def CommitJob.blockHeight? (job : CommitJob α) : Option UInt64 := job.batch?.bind Batch.blockHeight?

omit [Scalar α] in
private theorem CommitJob.exists_of_blockHeight? {job : CommitJob α} {height : UInt64}
    (h : job.blockHeight? = some height) :
    ∃ batch, job = .apply batch ∧ batch.kind = .block height := by
  cases job with
  | apply batch =>
    refine ⟨batch, rfl, ?_⟩
    change batch.blockHeight? = some height at h
    unfold Batch.blockHeight? at h
    split at h
    next own hkind =>
      cases h
      exact hkind
    next => cases h
    next => cases h
  | truncate height => cases h
  | barrier ticket => cases h

namespace Dashboard

variable {capacity : Nat} {dashboard : Dashboard α} {job : CommitJob α}

private theorem isSome_lastHeight_perform (h : dashboard.lastHeight.isSome = true)
    (job : CommitJob α) : (dashboard.perform job).lastHeight.isSome = true := by
  cases job with
  | apply batch =>
    rw [perform, lastHeight_apply]
    unfold heightAfter
    split
    · rfl
    · exact h
    · exact h
  | truncate height =>
    show (dashboard.lastHeight.map _).isSome = true
    rwa [Option.isSome_map]
  | barrier ticket => exact h

private theorem isSome_lastHeight_performAll (h : dashboard.lastHeight.isSome = true)
    (jobs : List (CommitJob α)) : (dashboard.performAll jobs).lastHeight.isSome = true := by
  induction jobs generalizing dashboard with
  | nil => exact h
  | cons job jobs ih => exact ih (isSome_lastHeight_perform h job)

private theorem isSome_lastHeight_of_block {jobs : List (CommitJob α)} {batch : Batch α}
    {height : UInt64}
    (hmem : .apply batch ∈ jobs) (hkind : batch.kind = .block height) (dashboard : Dashboard α) :
    (dashboard.performAll jobs).lastHeight.isSome = true := by
  obtain ⟨before, later, rfl⟩ := List.append_of_mem hmem
  rw [performAll, List.foldl_append, List.foldl_cons]
  refine isSome_lastHeight_performAll ?_ later
  rw [perform, lastHeight_apply, hkind]
  rfl

variable [LawfulWords α]

private theorem Consistent.perform (h : dashboard.Consistent capacity) (hroom : 0 < capacity)
    (hproduced : job.Produced) (hkeepsUp : ∀ batch ∈ job.batch?, dashboard.KeepsUp batch) :
    (dashboard.perform job).Consistent capacity ∧
      ∀ batch ∈ job.batch?, dashboard.TakesHeights batch := by
  cases job with
  | apply batch =>
    rcases (hproduced batch rfl).block_or_neutral with ⟨record, rfl⟩ | hneutral
    · refine ⟨h.block hroom (hkeepsUp _ rfl), ?_⟩
      rintro batch ⟨⟩
      exact h.takesHeights (hkeepsUp _ rfl)
    · refine ⟨h.neutral hneutral, ?_⟩
      rintro batch ⟨⟩
      exact takesHeights_neutral hneutral
  | truncate height => exact ⟨h.truncate height, fun batch hbatch => nomatch hbatch⟩
  | barrier ticket => exact ⟨h, fun batch hbatch => nomatch hbatch⟩

end Dashboard

/-! ### Runs -/

namespace Engine

/-- Something holds of each batch that the consumer takes in a run, and the dashboard it finds. -/
def EachTaken (P : Dashboard α → Batch α → Prop) (engine : Engine α) : List Move → Prop
  | [] => True
  | move :: moves =>
    (∀ job ∈ engine.taken move, ∀ batch ∈ job.batch?, P engine.dashboard batch) ∧
      EachTaken P (engine.make move) moves

instance {P : Dashboard α → Batch α → Prop} [∀ dashboard batch, Decidable (P dashboard batch)]
    (engine : Engine α) (moves : List Move) : Decidable (engine.EachTaken P moves) :=
  match moves with
  | [] => .isTrue trivial
  | _ :: _ => @instDecidableAnd _ _ inferInstance (instDecidableEachTaken _ _)

omit [Scalar α] in
private theorem taken_cases (engine : Engine α) (move : Move) :
    engine.taken move = [] ∨ ∃ job, engine.taken move = [job] := by
  unfold taken
  split
  · split
    · cases engine.commits with
      | nil => exact .inl rfl
      | cons job later => exact .inr ⟨job, rfl⟩
    · exact .inl rfl
  · exact .inl rfl

variable [LawfulWords α] {capacity : Nat} {engine : Engine α}

private theorem Producing.consistent_make (h : engine.Producing) (hroom : 0 < capacity)
    (hconsistent : engine.dashboard.Consistent capacity) {move : Move}
    (hkeepsUp : ∀ job ∈ engine.taken move, ∀ batch ∈ job.batch?, engine.dashboard.KeepsUp batch) :
    (engine.make move).dashboard.Consistent capacity ∧
      ∀ job ∈ engine.taken move, ∀ batch ∈ job.batch?, engine.dashboard.TakesHeights batch := by
  rw [(engine.becomes_make move).dashboard_eq]
  rcases engine.taken_cases move with hnone | ⟨job, hjob⟩
  · rw [hnone]
    exact ⟨hconsistent, fun job hjob => absurd hjob List.not_mem_nil⟩
  · rw [hjob] at hkeepsUp ⊢
    have hproduced : job.Produced :=
      h.waiting job (mem_waiting_of_taken (hjob ▸ List.mem_singleton_self job))
    obtain ⟨hafter, htakes⟩ :=
      hconsistent.perform hroom hproduced (hkeepsUp job (List.mem_singleton_self job))
    refine ⟨hafter, fun own hown => ?_⟩
    rw [List.mem_singleton.1 hown]
    exact htakes

private theorem Producing.consistent_after (h : engine.Producing) (hroom : 0 < capacity)
    (hconsistent : engine.dashboard.Consistent capacity) {moves : List Move}
    (hkeepsUp : engine.EachTaken Dashboard.KeepsUp moves) :
    (engine.after moves).dashboard.Consistent capacity ∧
      engine.EachTaken Dashboard.TakesHeights moves := by
  induction moves generalizing engine with
  | nil => exact ⟨hconsistent, trivial⟩
  | cons move moves ih =>
    obtain ⟨hfirst, hrest⟩ := hkeepsUp
    obtain ⟨hmade, htakes⟩ := h.consistent_make hroom hconsistent hfirst
    obtain ⟨hafter, hlater⟩ := ih ((engine.becomes_make move).producing h) hmade hrest
    exact ⟨hafter, htakes, hlater⟩

/-- As long as no block is committed below the latest one on display, every chart along heights takes
its points, none of which lies beyond the latest height; from the first block on the stored readouts
have the values that the charts tell; and after a rollback every chart takes a block at the height of
the rollback or above it. -/
theorem dashboard_stays_consistent {config : EngineConfig} (hpos : 0 < config.window)
    (hle : config.window ≤ config.largestWindow) :
    ∃ fresh : Engine α, build config = .ok fresh ∧ ∀ moves : List Move,
      fresh.EachTaken Dashboard.KeepsUp moves →
      fresh.EachTaken Dashboard.TakesHeights moves ∧
      (∀ metric ∈ Metric.alongHeights, ∃ series,
        (fresh.after moves).dashboard.series.series? metric.name = some series ∧
        ∀ point ∈ series.points, ∃ last, (fresh.after moves).dashboard.lastHeight = some last ∧
          Scalar.le point.x (ofWord last) = true) ∧
      (∀ batch height, .apply batch ∈ fresh.applied moves → batch.kind = .block height →
        ∀ metric ∈ Metric.alongHeights, ∃ stored rebuilt,
          (fresh.after moves).dashboard.readouts.get? metric.name = some stored ∧
          Readout.latest? metric.name (fresh.after moves).dashboard.series.readouts =
            some rebuilt ∧
          stored.value = rebuilt.value) ∧
      ∀ height next, height ≤ next → ∀ metric ∈ Metric.alongHeights, ∀ y,
        ((fresh.after moves).dashboard.truncate height).1.series.accepts metric.name (ofWord next)
          y = true := by
  obtain ⟨fresh, hbuild, hproducing⟩ := exists_producing (α := α) hpos hle
  have hroom : 0 < config.histories.chart :=
    hpos.trans_le (hle.trans (Nat.min_le_left _ _))
  have hempty : fresh.dashboard.Consistent config.histories.chart := by
    have hstart := dashboard_of_build hbuild []
    rw [Engine.after, List.foldl_nil] at hstart
    rw [hstart]
    exact Dashboard.consistent_empty config.histories
  refine ⟨fresh, hbuild, fun moves hkeepsUp => ?_⟩
  obtain ⟨hafter, htakes⟩ := hproducing.consistent_after hroom hempty hkeepsUp
  refine ⟨htakes, fun metric hmetric => ?_, fun batch height hmem hkind metric hmetric => ?_,
    fun height next hnext metric hmetric y => ?_⟩
  · obtain ⟨series, hseries, -, hnone, hclimbs⟩ := hafter.charts metric hmetric
    refine ⟨series, SeriesStore.series?_of_get? hseries, fun point hpoint => ?_⟩
    cases hlast : (fresh.after moves).dashboard.lastHeight with
    | none =>
      rw [hnone hlast] at hpoint
      cases hpoint
    | some last => exact ⟨last, rfl, (hclimbs last hlast).le_top hpoint⟩
  · have hsome : (fresh.after moves).dashboard.lastHeight ≠ none := by
      rw [dashboard_of_build hbuild, ← Option.isSome_iff_ne_none]
      exact Dashboard.isSome_lastHeight_of_block hmem hkind _
    obtain ⟨stored, hstored, hvalue⟩ := hafter.values hsome metric hmetric
    obtain ⟨series, hseries, -⟩ := hafter.charts metric hmetric
    obtain ⟨rebuilt, hrebuilt, hsame⟩ := SeriesStore.exists_rebuilt hmetric hseries
    exact ⟨stored, rebuilt, hstored, hrebuilt, hvalue.trans hsame.symm⟩
  · have hbelow : ∀ last ∈ ((fresh.after moves).dashboard.truncate height).1.lastHeight,
        last ≤ next := by
      intro last hlast
      obtain ⟨before, -, rfl⟩ := Option.mem_map.1 hlast
      split
      next => exact hnext
      next hnot => exact UInt64.le_trans (UInt64.not_lt.1 hnot) hnext
    obtain ⟨series, hseries, -, hclimbs⟩ := (hafter.truncate height).exists_climbs hbelow hmetric
    rw [SeriesStore.accepts, SeriesStore.series?_of_get? hseries]
    exact hclimbs.accepts (LawfulWords.ofWord_mono (UInt64.le_refl next)) y

/-- A rollback to between two blocks, one that empties the charts, and blocks after both. -/
theorem dashboard_stays_consistent_rollbacks :
    let config : EngineConfig := { chartHistory := 2, speedHistory := 2, window := 1 }
    let work : List Move := [.step .ingestion, .step .ingestion, .step .commit]
    let block (height : UInt64) : List Move :=
      .submit (.sample (some ({ height, totalTime := 10 }, 1000))) :: work
    let rollback (height : UInt64) : List Move := .submit (.blockPopped height) :: work
    let moves : List Move := List.flatten [[.start], block 4, block 9, rollback 4, block 4, rollback 1,
      block 2]
    ∃ fresh : Engine Rat, build config = .ok fresh ∧ fresh.EachTaken Dashboard.KeepsUp moves ∧
      (fresh.applied moves).filterMap CommitJob.blockHeight? = [4, 9, 4, 2] ∧
      (∃ stored rebuilt, (fresh.after moves).dashboard.readouts.get? "push_time" = some stored ∧
        Readout.latest? "push_time" (fresh.after moves).dashboard.series.readouts = some rebuilt ∧
        stored.value = rebuilt.value) ∧
      ((fresh.after moves).dashboard.truncate 1).1.series.accepts "push_time" (ofWord 1) 7 = true := by
  intro config work block rollback moves
  have hrun : ∀ fresh ∈ (build config : Except SizeError (Engine Rat)).toOption,
      fresh.EachTaken Dashboard.KeepsUp moves ∧
      (fresh.applied moves).filterMap CommitJob.blockHeight? = [4, 9, 4, 2] := by
    decide +kernel
  obtain ⟨fresh, hbuild, hstays⟩ :=
    dashboard_stays_consistent (α := Rat) (show 0 < config.window by decide) (by decide)
  obtain ⟨hkeepsUp, hheights⟩ := hrun fresh (by rw [hbuild]; rfl)
  obtain ⟨-, -, hvalues, haccepts⟩ := hstays moves hkeepsUp
  have hmem : (2 : UInt64) ∈ (fresh.applied moves).filterMap CommitJob.blockHeight? := by
    rw [hheights]
    decide
  obtain ⟨job, hjob, hheight⟩ := List.mem_filterMap.1 hmem
  obtain ⟨batch, rfl, hkind⟩ := CommitJob.exists_of_blockHeight? hheight
  exact ⟨fresh, hbuild, hkeepsUp, hheights, hvalues batch 2 hjob hkind .pushTime (by decide),
    haccepts 1 1 (by decide) .pushTime (by decide) 7⟩

end Engine

end NodeTelemetry
