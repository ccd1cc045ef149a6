import NodeTelemetry.Proofs.Accumulator.Windows
import NodeTelemetry.Proofs.Engine.Order
import NodeTelemetry.Proofs.Http

/-!
Windows of a running engine. The engine, its dashboard and its figures know one window, which all
accumulators have; only a granted request changes it, whether it comes from a caller or over the web.
-/

set_option autoImplicit false

namespace NodeTelemetry

open Http (readSize resource? respond)

variable {α : Type} [Scalar α]

/-! ### Groups -/

def Group.KeepsWindows (group : Group α) : Prop :=
  ∀ sample receivedAt set, (group.compute sample receivedAt set).2.windows = set.windows

namespace Group

private theorem keepsWindows_ofComputation (kind : GroupKind)
    (computation : BlockSample → Int64 → Computation α (List (Update α))) :
    (ofComputation kind computation).KeepsWindows := by
  intro sample receivedAt set
  rw [(compute_ofComputation kind computation sample receivedAt set).2]
  exact (computation sample receivedAt).windows_run set

private theorem keepsWindows_of_mem_blockGroups {group : Group α} (h : group ∈ blockGroups) :
    group.KeepsWindows := by
  simp only [blockGroups, List.mem_cons, List.not_mem_nil, or_false] at h
  rcases h with rfl | rfl | rfl <;> exact keepsWindows_ofComputation _ _

omit [Scalar α] in
private theorem kept_runAll {γ : Type} {figure : AccumulatorSet α → γ} {groups : List (Group α)}
    (h : ∀ group ∈ groups, ∀ sample receivedAt set,
      figure (group.compute sample receivedAt set).2 = figure set)
    (sample : BlockSample) (receivedAt : Int64) (index : Nat) (set : AccumulatorSet α) :
    figure (runAll sample receivedAt index groups set).2 = figure set := by
  induction groups generalizing index set with
  | nil => rfl
  | cons group groups ih =>
    have hfirst := h group List.mem_cons_self sample receivedAt set
    exact (ih (fun later hlater => h later (List.mem_cons_of_mem _ hlater)) _ _).trans hfirst

end Group

theorem Ingestion.kept_handle {γ : Type} {figure : AccumulatorSet α → γ} {groups : List (Group α)}
    (h : ∀ group ∈ groups, ∀ sample receivedAt set,
      figure (group.compute sample receivedAt set).2 = figure set)
    (route : ErrorRoute) (ingestion : Ingestion α) (event : IngestEvent) :
    figure (ingestion.handle groups route event).1.accumulators = figure ingestion.accumulators := by
  match event with
  | .sample (some (block, receivedAt)) => exact Group.kept_runAll h block receivedAt 0 _
  | .sample none | .queueStatus _ | .blockPopped _ | .flush _ => rfl

namespace Engine

/-! ### Moves -/

private theorem setWindow_eq_ok_iff {engine changed : Engine α} {window : Nat} :
    engine.setWindow window = .ok changed ↔
      ∃ accumulators, engine.accumulators.setWindow window = .ok accumulators ∧
        changed = { engine with
          ingestion := { engine.ingestion with accumulators }
          windowFigure := window } := by
  unfold setWindow
  cases engine.accumulators.setWindow window with
  | error error =>
    constructor
    · intro h
      cases h
    · rintro ⟨accumulators, h, -⟩
      cases h
  | ok accumulators =>
    constructor
    · intro h
      cases h
      exact ⟨accumulators, rfl, rfl⟩
    · rintro ⟨_, h, rfl⟩
      cases h
      rfl

/-! ### Runs -/

inductive Use where
  | move (move : Move)
  | request (method target : String)
  deriving Repr, DecidableEq

def use (engine : Engine α) : Use → Engine α
  | .move move => engine.make move
  | .request method target => (respond engine method target).1

def afterUses (engine : Engine α) (uses : List Use) : Engine α := uses.foldl use engine

private theorem exists_after_of_use (engine : Engine α) (used : Use) :
    ∃ moves, engine.use used = engine.after moves := by
  cases used with
  | move move => exact ⟨[move], rfl⟩
  | request method target =>
    -- reading changes nothing, and neither does a request that is refused
    rcases Http.respond_cases engine method target with hsame | ⟨segment, hchanged⟩
    · exact ⟨[], hsame⟩
    · rcases Http.changeWindow_cases engine segment with ⟨window, -, hset, -⟩ | ⟨-, hsame, -⟩
      · refine ⟨[.setWindow window], hchanged.trans ?_⟩
        rw [after_singleton, make, hset]
      · exact ⟨[], hchanged.trans hsame⟩

theorem exists_after_of_uses (engine : Engine α) (uses : List Use) :
    ∃ moves, engine.afterUses uses = engine.after moves := by
  induction uses generalizing engine with
  | nil => exact ⟨[], rfl⟩
  | cons used uses ih =>
    obtain ⟨first, hfirst⟩ := engine.exists_after_of_use used
    obtain ⟨later, hlater⟩ := ih (engine.use used)
    refine ⟨first ++ later, ?_⟩
    rw [after_append, ← hfirst, ← hlater]
    rfl

/-- All accumulators have the window that is counted, and the groups leave it alone. -/
structure SharesWindow (engine : Engine α) : Prop where
  groups : ∀ group ∈ engine.groups, group.KeepsWindows
  shared : engine.accumulators.Shares engine.windowFigure

private theorem Becomes.sharesWindow {engine next : Engine α} {move : Move}
    (h : engine.Becomes move next) (hengine : engine.SharesWindow) : next.SharesWindow := by
  have htick : ∀ {now : Int64} {outcome : Except EngineError (Option (RateSample α))}
      {set : AccumulatorSet α},
      (engine.meter.tick ⟨engine.volume, now⟩).2.run engine.accumulators = (outcome, set) →
        set.Shares engine.windowFigure := by
    intro now outcome set hrun
    have hwindows := (engine.meter.tick (α := α) ⟨engine.volume, now⟩).2.windows_run engine.accumulators
    rw [hrun] at hwindows
    exact hengine.shared.of_windows hwindows
  cases h with
  | setWindow hset => exact ⟨hengine.groups, AccumulatorSet.shares_of_setWindow hengine.shared.1 hset⟩
  | take =>
    exact ⟨hengine.groups,
      hengine.shared.of_windows (Ingestion.kept_handle hengine.groups engine.route _ _)⟩
  | observe _ _ _ hrun => exact ⟨hengine.groups, htick hrun⟩
  | measure _ _ _ hrun => exact ⟨hengine.groups, htick hrun⟩
  | _ => exact ⟨hengine.groups, hengine.shared⟩

private theorem SharesWindow.after {engine : Engine α} (h : engine.SharesWindow)
    (moves : List Move) : (engine.after moves).SharesWindow := by
  induction moves generalizing engine with
  | nil => exact h
  | cons move moves ih => exact ih ((engine.becomes_make move).sharesWindow h)

private theorem sharesWindow_of_build {config : EngineConfig} {fresh : Engine α}
    (hbuild : build config = .ok fresh) {groups : List (Group α)}
    (hgroups : ∀ group ∈ groups, group.KeepsWindows) (route : ErrorRoute) :
    (fresh.equipped groups route).SharesWindow := by
  obtain ⟨set, hset, hfresh⟩ := exists_of_bind hbuild
  cases hfresh
  exact ⟨hgroups, AccumulatorSet.shares_ofDescriptors (by decide) hset⟩

/-- All accumulators have one window, which the dashboard and the figures show. -/
structure ShowsWindow (engine : Engine α) (window : Nat) : Prop where
  accumulators : engine.accumulators.Shares window
  snapshot : engine.snapshot.window = window
  health : engine.health.window = window
  gauge : ⟨"chainmeter_window_size", "Current moving average window.", .gauge, Figure.plain window⟩ ∈
    engine.health.families

private theorem SharesWindow.shows {engine : Engine α} (h : engine.SharesWindow) :
    engine.ShowsWindow engine.windowFigure :=
  ⟨h.shared, h.shared.window_eq, rfl, by simp [Health.families, Health.allFamilies, health, Figure.plain]⟩

theorem exists_setWindow_iff {engine : Engine α} {window : Nat} :
    (∃ changed, engine.setWindow window = .ok changed) ↔
      0 < window ∧ window ≤ engine.accumulators.smallestCapacity := by
  rw [← AccumulatorSet.exists_setWindow_iff]
  constructor
  · rintro ⟨changed, h⟩
    obtain ⟨accumulators, haccumulators, -⟩ := setWindow_eq_ok_iff.1 h
    exact ⟨accumulators, haccumulators⟩
  · rintro ⟨accumulators, h⟩
    exact ⟨_, setWindow_eq_ok_iff.2 ⟨accumulators, h, rfl⟩⟩

private theorem respond_number (engine : Engine α) (n : Nat) :
    let answer := respond engine "POST" ("/window/" ++ toString n)
    (answer.2.status = 200 ↔
      0 < n ∧ n ≤ min engine.accumulators.smallestCapacity Word.largest) ∧
    (answer.2.status = 200 → engine.setWindow n = .ok answer.1) := by
  intro answer
  obtain ⟨hstatus, hgranted, -⟩ := Http.respond_window (Http.resource?_toString n) engine
  have hread : ∀ window, readSize (toString n) = .ok window ↔ window = n ∧ n ≤ Word.largest := by
    intro window
    rw [Http.readSize_toString]
    split
    next hn => simp [hn, eq_comm]
    next hn => simp [hn]
  have hiff : answer.2.status = 200 ↔
      n ≤ Word.largest ∧ ∃ changed, engine.setWindow n = .ok changed := by
    rw [hstatus]
    constructor
    · rintro ⟨window, changed, hwindow, hchanged⟩
      obtain ⟨rfl, hn⟩ := (hread window).1 hwindow
      exact ⟨hn, changed, hchanged⟩
    · rintro ⟨hn, changed, hchanged⟩
      exact ⟨n, changed, (hread n).2 ⟨rfl, hn⟩, hchanged⟩
  refine ⟨?_, fun hok => ?_⟩
  · rw [hiff, exists_setWindow_iff, Nat.le_min]
    constructor
    · rintro ⟨hn, hpos, hle⟩
      exact ⟨hpos, hle, hn⟩
    · rintro ⟨hpos, hle, hn⟩
      exact ⟨hn, hpos, hle⟩
  · obtain ⟨hn, changed, hchanged⟩ := hiff.1 hok
    rw [hchanged, hgranted n changed ((hread n).2 ⟨rfl, hn⟩) hchanged]

/-- A change of the window reaches all accumulators or none, over the web as well, and leaves each with
the sum and the mean in its window. So however an engine is used, all accumulators have one window, the
one that the dashboard and the figures show. -/
theorem window_changes_all_or_nothing {config : EngineConfig} {fresh : Engine α}
    (hbuild : build config = .ok fresh) :
    (∀ (set : AccumulatorSet α) (window : Nat), set.AllOrNothing window) ∧
    (∀ (set changed : AccumulatorSet Rat) (window : Nat), set.setWindow window = .ok changed →
      ∀ name before, set.get? name = some before →
        ∃ after, changed.get? name = some after ∧ Accumulator.Recounted window before after) ∧
    (∀ (engine changed : Engine α) (window : Nat), engine.setWindow window = .ok changed ↔
      ∃ accumulators, engine.accumulators.setWindow window = .ok accumulators ∧
        changed = { engine with
          ingestion := { engine.ingestion with accumulators }
          windowFigure := window }) ∧
    (∀ group ∈ fresh.groups, group.KeepsWindows) ∧
    (∀ (groups : List (Group α)) (route : ErrorRoute) (uses : List Use),
      (∀ group ∈ groups, group.KeepsWindows) →
        ∃ window, ((fresh.equipped groups route).afterUses uses).ShowsWindow window) ∧
    (∀ (engine : Engine α) (target segment : String),
      resource? target = some (.window segment) →
        let answer := respond engine "POST" target
        (answer.2.status = 200 ↔
          ∃ window changed, readSize segment = .ok window ∧ engine.setWindow window = .ok changed) ∧
        (∀ window changed, readSize segment = .ok window → engine.setWindow window = .ok changed →
          answer.1 = changed) ∧
        (answer.2.status ≠ 200 → answer.2.status = 400 ∧ answer.1 = engine)) ∧
    ∀ (engine : Engine α) (n : Nat),
      resource? ("/window/" ++ toString n) = some (.window (toString n)) ∧
      let answer := respond engine "POST" ("/window/" ++ toString n)
      (answer.2.status = 200 ↔
        0 < n ∧ n ≤ min engine.accumulators.smallestCapacity Word.largest) ∧
      (answer.2.status = 200 → engine.setWindow n = .ok answer.1) := by
  have hblocks : ∀ group ∈ fresh.groups, group.KeepsWindows := by
    obtain ⟨set, -, hfresh⟩ := exists_of_bind hbuild
    cases hfresh
    exact fun group => Group.keepsWindows_of_mem_blockGroups
  refine ⟨AccumulatorSet.allOrNothing,
    fun set changed window h name before hbefore => AccumulatorSet.recounted_of_setWindow h hbefore,
    fun engine changed window => setWindow_eq_ok_iff, hblocks,
    fun groups route uses hgroups => ?_, fun engine target segment h => Http.respond_window h engine,
    fun engine n => ⟨Http.resource?_toString n, engine.respond_number n⟩⟩
  obtain ⟨moves, hmoves⟩ := (fresh.equipped groups route).exists_after_of_uses uses
  rw [hmoves]
  exact ⟨_, ((sharesWindow_of_build hbuild hgroups route).after moves).shows⟩

/-- Two samples in a window of one: a window of two is granted and covers both, one of three is
refused. -/
theorem window_changes_all_or_nothing_posts :
    let config : EngineConfig := { chartHistory := 2, speedHistory := 3, window := 1 }
    let block (height allTransactionCount : UInt64) : List Use :=
      [.move (.submit (.sample (some ({ height, allTransactionCount }, 1000)))),
        .move (.step .ingestion), .move (.step .ingestion)]
    let work : List Use := [.move .start] ++ block 1 4 ++ block 2 6
    ∃ fresh : Engine Rat, build config = .ok fresh ∧
      let loaded := fresh.afterUses work
      (∃ before changed after,
        loaded.accumulators.get? "all_transactions_per_block" = some before ∧ before.windowSum = 6 ∧
        loaded.accumulators.setWindow 2 = .ok changed ∧
        changed.get? "all_transactions_per_block" = some after ∧
        after.windowSum = 10 ∧ after.average = 5) ∧
      (respond loaded "POST" ("/window/" ++ toString 2)).2.status = 200 ∧
      (respond loaded "POST" ("/window/" ++ toString 3)).2.status = 400 ∧
      (respond loaded "POST" ("/window/" ++ toString 3)).1 = loaded ∧
      ∃ window, (fresh.afterUses (work ++ [.request "POST" ("/window/" ++ toString 2),
        .request "POST" ("/window/" ++ toString 3), .move (.setWindow 0)])).ShowsWindow window := by
  intro config block work
  have hrun : ∀ fresh ∈ (build config : Except SizeError (Engine Rat)).toOption,
      (fresh.afterUses work).accumulators.smallestCapacity = 2 ∧
      ((fresh.afterUses work).accumulators.get? "all_transactions_per_block").map
        (fun acc => (acc.values, acc.averages, acc.windowSum)) = some ([6, 4], [6, 4], 6) := by
    decide +kernel
  obtain ⟨fresh, -, hbuild, -⟩ :=
    exists_build (α := Rat) (show 0 < config.window by decide) (by decide)
  obtain ⟨hchanges, hrecounts, -, hgroups, hruns, hposts, hnumbers⟩ :=
    window_changes_all_or_nothing hbuild
  obtain ⟨hsmallest, hfigures⟩ := hrun fresh (by rw [hbuild]; rfl)
  refine ⟨fresh, hbuild, ?_, ?_⟩
  · obtain ⟨before, hbefore, hhistory⟩ := Option.map_eq_some_iff.1 hfigures
    obtain ⟨hvalues, haverages, hsum⟩ : before.values = [6, 4] ∧ before.averages = [6, 4] ∧
        before.windowSum = 6 := by simpa using hhistory
    obtain ⟨changed, hchanged⟩ := (hchanges _ 2).granted_iff.2 (by rw [hsmallest]; decide)
    obtain ⟨after, hafter, htotal, hmean⟩ := hrecounts _ changed 2 hchanged _ before hbefore
    rw [Accumulator.size, hvalues] at htotal hmean
    exact ⟨before, changed, after, hbefore, hsum, hchanged, hafter, htotal.trans (by decide +kernel),
      (hmean (by simp [haverages])).trans (by decide +kernel)⟩
  · obtain ⟨-, hgranted, -⟩ := hnumbers (fresh.afterUses work) 2
    obtain ⟨htarget, hrefused, -⟩ := hnumbers (fresh.afterUses work) 3
    rw [hsmallest] at hgranted hrefused
    have hnot : (respond (fresh.afterUses work) "POST" ("/window/" ++ toString 3)).2.status ≠ 200 :=
      fun hok => absurd (hrefused.1 hok) (by decide)
    obtain ⟨hstatus, hsame⟩ := (hposts _ _ _ htarget).2.2 hnot
    exact ⟨hgranted.2 (by decide), hstatus, hsame, hruns fresh.groups fresh.route _ hgroups⟩

end Engine

end NodeTelemetry
