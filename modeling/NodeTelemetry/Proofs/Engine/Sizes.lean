import NodeTelemetry.Proofs.Accumulator.Sizes
import NodeTelemetry.Proofs.Engine.Windows

/-!
The three judges of a window: the check of a configuration, the making of accumulators one by one along
the catalogue, and a request to a running engine. They are written apart from one another and accept
the same windows, since the catalogue has metrics along both axes and no use of an engine changes a
capacity.
-/

set_option autoImplicit false

namespace NodeTelemetry

variable {α : Type} [Scalar α]

/-! ### Configurations -/

namespace EngineConfig

/-- A history of a size that has no room for a value, or none for the window. -/
def Offends (config : EngineConfig) (size : Nat) : Prop :=
  size = 0 ∨ ¬(1 ≤ config.window ∧ config.window ≤ size)

instance (config : EngineConfig) (size : Nat) : Decidable (config.Offends size) :=
  inferInstanceAs (Decidable (_ ∨ _))

/-- The size of the first history that offends: the one along heights, or else the one along time. -/
def firstOffending? (config : EngineConfig) : Option Nat :=
  [config.chartHistory, config.speedHistory].find? fun size => config.Offends size

variable {config : EngineConfig}

private theorem offends_iff {size : Nat} :
    config.Offends size ↔ ¬(0 < config.window ∧ config.window ≤ size) := by
  unfold Offends
  omega

private theorem firstOffending?_of_chart (h : config.Offends config.chartHistory) :
    config.firstOffending? = some config.chartHistory := by
  simp [firstOffending?, h]

private theorem firstOffending?_of_speed (hchart : ¬config.Offends config.chartHistory)
    (hspeed : config.Offends config.speedHistory) :
    config.firstOffending? = some config.speedHistory := by
  simp [firstOffending?, hchart, hspeed]

private theorem validate_eq_ok_iff :
    config.validate = .ok () ↔
      (0 < config.window ∧ config.window ≤ config.largestWindow) ∧
        config.rateInterval ≠ Duration.zero ∧ config.workers ≠ 0 := by
  have hchart : config.largestWindow ≤ config.chartHistory := Nat.min_le_left _ _
  have hspeed : config.largestWindow ≤ config.speedHistory := Nat.min_le_right _ _
  unfold validate
  split
  · simp
    omega
  · split
    · simp
      omega
    · split
      · simp
        omega
      · split
        next hinterval => simp [hinterval]
        next hinterval =>
          split
          next hworkers => simp [hworkers]
          next hworkers =>
            simp [hinterval, hworkers]
            omega

end EngineConfig

/-! ### Groups -/

def Group.KeepsCapacities (group : Group α) : Prop :=
  ∀ sample receivedAt set, (group.compute sample receivedAt set).2.capacities = set.capacities

private theorem Group.keepsCapacities_of_mem_blockGroups {group : Group α}
    (h : group ∈ blockGroups) : group.KeepsCapacities := by
  have hkeeps : ∀ (kind : GroupKind)
      (computation : BlockSample → Int64 → Computation α (List (Update α))),
      (ofComputation kind computation).KeepsCapacities := by
    intro kind computation sample receivedAt set
    rw [(compute_ofComputation kind computation sample receivedAt set).2]
    exact (computation sample receivedAt).capacities_run set
  simp only [blockGroups, List.mem_cons, List.not_mem_nil, or_false] at h
  rcases h with rfl | rfl | rfl <;> exact hkeeps _ _

namespace Engine

/-! ### Building -/

variable {config : EngineConfig} {fresh : Engine α}

private theorem ofDescriptors_of_build (hbuild : build config = .ok fresh) :
    AccumulatorSet.ofDescriptors catalogue config.histories config.window =
      .ok fresh.accumulators := by
  obtain ⟨set, hset, hfresh⟩ := exists_of_bind hbuild
  cases hfresh
  exact hset

private theorem exists_build_iff :
    (∃ engine : Engine α, build config = .ok engine) ↔
      0 < config.window ∧ config.window ≤ config.largestWindow := by
  constructor
  · rintro ⟨engine, hbuild⟩
    have hfits := AccumulatorSet.fits_of_ofDescriptors (ofDescriptors_of_build hbuild)
    exact ⟨(hfits .height).1, Nat.le_min.2 ⟨(hfits .height).2, (hfits .timestamp).2⟩⟩
  · rintro ⟨hpos, hle⟩
    obtain ⟨set, hset, -⟩ := AccumulatorSet.exists_ofDescriptors (α := α) hpos
      (EngineConfig.window_le_along hle)
    unfold build
    rw [hset]
    exact ⟨_, rfl⟩

private theorem build_eq_error {error : SizeError}
    (h : (build config : Except SizeError (Engine α)) = .error error) :
    ∃ size, config.firstOffending? = some size ∧
      (size = if 1 ≤ config.window ∧ config.window ≤ config.chartHistory then config.speedHistory
        else config.chartHistory) ∧
      error = if size = 0 then .capacity else .window config.window size := by
  have hset := error_of_bind (fun accumulators => ⟨_, rfl⟩) h
  rcases AccumulatorSet.ofDescriptors_eq_error hset with hchart | ⟨⟨acc, hacc⟩, hspeed⟩
  · obtain ⟨hnot, herror⟩ := Accumulator.ofSizes_eq_error_iff.1 hchart
    refine ⟨config.chartHistory, ?_, (if_neg hnot).symm, herror⟩
    exact EngineConfig.firstOffending?_of_chart (EngineConfig.offends_iff.2 hnot)
  · have hfits := AccumulatorSet.fits_of_ofSizes hacc
    obtain ⟨hnot, herror⟩ := Accumulator.ofSizes_eq_error_iff.1 hspeed
    refine ⟨config.speedHistory, ?_, (if_pos hfits).symm, herror⟩
    refine EngineConfig.firstOffending?_of_speed ?_ (EngineConfig.offends_iff.2 hnot)
    rw [EngineConfig.offends_iff, not_not]
    exact hfits

/-! ### Runs -/

/-- The accumulators have given capacities, and the groups leave them alone. -/
structure HasCapacities (engine : Engine α) (capacities : NameMap Nat) : Prop where
  groups : ∀ group ∈ engine.groups, group.KeepsCapacities
  capacities : engine.accumulators.capacities = capacities

variable {capacities : NameMap Nat}

private theorem Becomes.hasCapacities {engine next : Engine α} {move : Move}
    (h : engine.Becomes move next)
    (hengine : engine.HasCapacities capacities) : next.HasCapacities capacities := by
  have htick : ∀ {now : Int64} {outcome : Except EngineError (Option (RateSample α))}
      {set : AccumulatorSet α},
      (engine.meter.tick ⟨engine.volume, now⟩).2.run engine.accumulators = (outcome, set) →
        set.capacities = capacities := by
    intro now outcome set hrun
    have hsame := (engine.meter.tick (α := α) ⟨engine.volume, now⟩).2.capacities_run
      engine.accumulators
    rw [hrun] at hsame
    exact hsame.trans hengine.capacities
  cases h with
  | setWindow hset =>
    exact ⟨hengine.groups, (AccumulatorSet.capacities_setWindow hset).trans hengine.capacities⟩
  | take =>
    exact ⟨hengine.groups,
      (Ingestion.kept_handle hengine.groups engine.route _ _).trans hengine.capacities⟩
  | observe _ _ _ hrun => exact ⟨hengine.groups, htick hrun⟩
  | measure _ _ _ hrun => exact ⟨hengine.groups, htick hrun⟩
  | _ => exact ⟨hengine.groups, hengine.capacities⟩

private theorem HasCapacities.after {engine : Engine α} (h : engine.HasCapacities capacities)
    (moves : List Move) : (engine.after moves).HasCapacities capacities := by
  induction moves generalizing engine with
  | nil => exact h
  | cons move moves ih => exact ih ((engine.becomes_make move).hasCapacities h)

private theorem exists_setWindow_afterUses_iff (hbuild : build config = .ok fresh)
    {groups : List (Group α)}
    (hgroups : ∀ group ∈ groups, group.KeepsCapacities) (route : ErrorRoute) (uses : List Use)
    (n : Nat) :
    (∃ changed, ((fresh.equipped groups route).afterUses uses).setWindow n = .ok changed) ↔
      0 < n ∧ n ≤ config.largestWindow := by
  let engine := fresh.equipped groups route
  obtain ⟨moves, hmoves⟩ := engine.exists_after_of_uses uses
  have hkept : (engine.after moves).HasCapacities fresh.accumulators.capacities :=
    HasCapacities.after ⟨hgroups, rfl⟩ moves
  have hsmallest : (engine.after moves).accumulators.smallestCapacity = config.largestWindow := by
    rw [AccumulatorSet.smallestCapacity_eq, hkept.capacities, ← AccumulatorSet.smallestCapacity_eq,
      AccumulatorSet.smallestCapacity_ofDescriptors (ofDescriptors_of_build hbuild)]
    rfl
  show (∃ changed, (engine.afterUses uses).setWindow n = .ok changed) ↔ _
  rw [hmoves, exists_setWindow_iff, hsmallest]

/-- The three judges of a window agree. An engine can be built exactly if both histories have room and
the window fits the smaller one; so what passes the check of a configuration builds, and what does not
build is rejected. A failure names the first history that offends, and a request to an engine that was
built is granted exactly if the check would accept the configuration with that window. -/
theorem window_judged_alike (config : EngineConfig) :
    ((∃ engine : Engine α, build config = .ok engine) ↔
      1 ≤ config.chartHistory ∧ 1 ≤ config.speedHistory ∧ 1 ≤ config.window ∧
        config.window ≤ min config.chartHistory config.speedHistory) ∧
    (config.validate = .ok () → ∃ engine : Engine α, build config = .ok engine) ∧
    (∀ error, (build config : Except SizeError (Engine α)) = .error error →
      (∃ rejection, config.validate = .error rejection) ∧
      ∃ size, config.firstOffending? = some size ∧
        (size = if 1 ≤ config.window ∧ config.window ≤ config.chartHistory then config.speedHistory
          else config.chartHistory) ∧
        (error = .capacity ↔ size = 0) ∧
        (error ≠ .capacity → error = .window config.window size)) ∧
    ∀ fresh : Engine α, build config = .ok fresh →
      (∀ group ∈ fresh.groups, group.KeepsCapacities) ∧
      ∀ (groups : List (Group α)) (route : ErrorRoute) (uses : List Use),
        (∀ group ∈ groups, group.KeepsCapacities) →
          ∀ (n : Nat) (rateInterval : Duration) (workers : Nat),
            rateInterval ≠ Duration.zero → workers ≠ 0 →
              ((∃ changed,
                ((fresh.equipped groups route).afterUses uses).setWindow n = .ok changed) ↔
              { config with window := n, rateInterval, workers }.validate = .ok ()) := by
  have hbuilds : (∃ engine : Engine α, build config = .ok engine) ↔
      0 < config.window ∧ config.window ≤ config.largestWindow := exists_build_iff
  refine ⟨?_, fun hvalid => ?_, fun error herror => ⟨?_, ?_⟩, fun fresh hbuild => ⟨?_, ?_⟩⟩
  · rw [hbuilds]
    unfold EngineConfig.largestWindow
    omega
  · exact hbuilds.2 (EngineConfig.validate_eq_ok_iff.1 hvalid).1
  · cases hvalid : config.validate with
    | error rejection => exact ⟨rejection, rfl⟩
    | ok _ =>
      obtain ⟨engine, hbuild⟩ := hbuilds.2 (EngineConfig.validate_eq_ok_iff.1 hvalid).1
      cases hbuild.symm.trans herror
  · obtain ⟨size, hfirst, hsize, rfl⟩ := build_eq_error herror
    refine ⟨size, hfirst, hsize, ?_, ?_⟩
    · by_cases hnone : size = 0
      · simp [hnone]
      · simp [hnone]
    · intro hother
      by_cases hnone : size = 0
      · exact absurd (if_pos hnone) hother
      · exact if_neg hnone
  · obtain ⟨set, -, hfresh⟩ := exists_of_bind hbuild
    cases hfresh
    exact fun group => Group.keepsCapacities_of_mem_blockGroups
  · intro groups route uses hgroups n rateInterval workers hinterval hworkers
    rw [exists_setWindow_afterUses_iff hbuild hgroups, EngineConfig.validate_eq_ok_iff]
    constructor
    · intro hfits
      exact ⟨hfits, hinterval, hworkers⟩
    · rintro ⟨hfits, -, -⟩
      exact hfits

/-- A window that is refused and one that is granted later on, and two configurations that fail at the
first and at the second history. -/
theorem window_judged_alike_requests :
    let config : EngineConfig := { chartHistory := 2, speedHistory := 3, window := 1 }
    let narrow : EngineConfig := { chartHistory := 2, speedHistory := 0, window := 3 }
    let missing : EngineConfig := { chartHistory := 2, speedHistory := 0, window := 2 }
    config.validate = .ok () ∧
    (∃ fresh : Engine Rat, build config = .ok fresh ∧
      let engine := fresh.afterUses [.request "POST" "/window/2", .move .start]
      (∃ changed, engine.setWindow 2 = .ok changed) ∧
        ¬∃ changed, engine.setWindow 3 = .ok changed) ∧
    (build narrow : Except SizeError (Engine Rat)) = .error (.window 3 2) ∧
    (build missing : Except SizeError (Engine Rat)) = .error .capacity := by
  intro config narrow missing
  have hfails : ∀ config : EngineConfig, ¬(1 ≤ config.speedHistory) →
      ∃ error, (build config : Except SizeError (Engine Rat)) = .error error := by
    intro config hspeed
    cases hbuild : (build config : Except SizeError (Engine Rat)) with
    | error error => exact ⟨error, rfl⟩
    | ok engine => exact absurd ((window_judged_alike config).1.1 ⟨engine, hbuild⟩).2.1 hspeed
  have hvalid : config.validate = .ok () := by decide
  refine ⟨hvalid, ?_, ?_, ?_⟩
  · obtain ⟨-, hbuilds, -, hruns⟩ := window_judged_alike (α := Rat) config
    obtain ⟨fresh, hbuild⟩ := hbuilds hvalid
    obtain ⟨hgroups, hrequests⟩ := hruns fresh hbuild
    have hjudged := fun n => hrequests fresh.groups fresh.route
      [.request "POST" "/window/2", .move .start] hgroups n config.rateInterval config.workers
      (by decide) (by decide)
    refine ⟨fresh, hbuild, (hjudged 2).2 (by decide), fun hgranted => ?_⟩
    exact absurd ((hjudged 3).1 hgranted) (by decide)
  · obtain ⟨error, herror⟩ := hfails narrow (by decide)
    obtain ⟨size, -, hsize, hcapacity, hwindow⟩ := ((window_judged_alike narrow).2.2.1 error herror).2
    have htwo : size = 2 := hsize
    subst htwo
    rw [herror, hwindow (fun hnone => absurd (hcapacity.1 hnone) (by decide))]
  · obtain ⟨error, herror⟩ := hfails missing (by decide)
    obtain ⟨size, -, hsize, hcapacity, -⟩ := ((window_judged_alike missing).2.2.1 error herror).2
    have hzero : size = 0 := hsize
    rw [herror, hcapacity.2 hzero]

end Engine

end NodeTelemetry
