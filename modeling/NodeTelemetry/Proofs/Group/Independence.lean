import NodeTelemetry.Proofs.Computation.Parallel
import NodeTelemetry.Proofs.Engine.Pipeline
import NodeTelemetry.Proofs.Group.Footprint

/-!
Independent groups. Every accumulator belongs to one group. The work of the block groups on a sample and
a measurement of the traffic reach only accumulators of their own, so however their operations are
interleaved, each ends as it would have ended alone.
-/

set_option autoImplicit false

namespace NodeTelemetry.Group

open NodeTelemetry.Computation (within_pure yields_pure)

variable {α : Type} [Scalar α]

/-- What a group of each kind does with its accumulators when a sample and a reading of the byte
counters come in. The figures of the queue take no accumulators. -/
def work (meter : RateMeter) (sample : BlockSample) (receivedAt : Int64) (now : VolumeSnapshot) :
    GroupKind → Computation α (List (Update α))
  | .timing => Timing.computation .timing sample
  | .throughput => Throughput.computation .throughput sample receivedAt
  | .transactions => Transactions.computation .transactions sample
  | .network => (fun measured => measured.elim [] (·.batch.updates)) <$> (meter.tick now).2
  | .queue => pure []

variable {meter : RateMeter}

private theorem compute_eq_work (meter : RateMeter) {group : Group α} (hgroup : group ∈ blockGroups)
    (sample : BlockSample) (receivedAt : Int64) (now : VolumeSnapshot) (set : AccumulatorSet α) :
    let ended := (work meter sample receivedAt now group.kind).run set
    settled group.kind (group.compute sample receivedAt set).1 = ended.1 ∧
      (group.compute sample receivedAt set).2 = ended.2 := by
  simp only [blockGroups, List.mem_cons, List.not_mem_nil, or_false] at hgroup
  rcases hgroup with rfl | rfl | rfl
  · exact compute_ofComputation _ _ sample receivedAt set
  · exact compute_ofComputation _ _ sample receivedAt set
  · exact compute_ofComputation _ _ sample receivedAt set

private theorem within_work (hview : meter.view = .network) (sample : BlockSample)
    (receivedAt : Int64) (now : VolumeSnapshot) (kind : GroupKind) :
    (work (α := α) meter sample receivedAt now kind).Within kind fun _ => True := by
  cases kind with
  | timing => exact (within_timing .timing sample).mono fun _ _ => trivial
  | throughput => exact (within_throughput .throughput sample receivedAt).mono fun _ _ => trivial
  | transactions => exact (within_transactions .transactions sample).mono fun _ _ => trivial
  | network =>
    have htick := meter.within_tick (α := α) now
    rw [hview] at htick
    exact htick.map fun _ _ => trivial
  | queue => exact within_pure trivial

private theorem work_yields (hview : meter.view = .network) (sample : BlockSample)
    (receivedAt : Int64) (now : VolumeSnapshot) (kind : GroupKind) (acc : Metric → Accumulator α) :
    ∃ updates acc', (work meter sample receivedAt now kind).Yields acc updates acc' := by
  cases kind with
  | timing => exact ⟨_, _, timing_yields sample acc⟩
  | throughput => exact ⟨_, _, throughput_yields sample receivedAt acc⟩
  | transactions =>
    obtain ⟨feeds, -, hyields⟩ := transactions_yields sample acc
    exact ⟨_, _, hyields⟩
  | network =>
    obtain ⟨measured, acc', hyields, -⟩ := RateMeter.exists_tick_yields hview now acc
    refine ⟨measured.elim [] (·.batch.updates), acc', ?_⟩
    rw [work, ← bind_pure_comp]
    exact hyields.bind (yields_pure _)
  | queue => exact ⟨[], acc, yields_pure []⟩

private theorem exists_updates (hview : meter.view = .network) (sample : BlockSample)
    (receivedAt : Int64) (now : VolumeSnapshot) (kind : GroupKind) {set : AccumulatorSet α}
    {acc : Metric → Accumulator α} (h : set.Shows acc) :
    ∃ updates, ((work meter sample receivedAt now kind).run set).1 = .ok updates := by
  obtain ⟨updates, acc', hyields⟩ := work_yields hview sample receivedAt now kind acc
  obtain ⟨after, hrun, -⟩ := hyields set h
  exact ⟨updates, by rw [hrun]⟩

/-- Each accumulator of a set is in the view of one group, the one that the last descriptor of its name
tells, and what is done through a view to the accumulator of a name is done to no other. The groups keep
to their views and do not fail; and however the operations of the block groups and of a measurement are
interleaved, they end as if they had run one after another in any order, each with the updates that it
would have yielded alone. -/
theorem independent :
    (∀ (descriptors : List Descriptor) (sizes : HistorySizes) (window : Nat) (set : AccumulatorSet α),
      AccumulatorSet.ofDescriptors descriptors sizes window = .ok set → ∀ name,
        (AccumulatorSet.lastNamed? descriptors name = none → set.get? name = none) ∧
        ∀ d ∈ AccumulatorSet.lastNamed? descriptors name, ∃ accumulator,
          Accumulator.ofSizes (sizes.along d.axis) window = .ok accumulator ∧
          set.get? name = some accumulator ∧ set.lookup d.group name = .ok accumulator ∧
          ∀ kind, name ∈ set.namesOf kind ↔ kind = d.group) ∧
    (∀ (set : AccumulatorSet α) (kind : GroupKind) (name : String) (accumulator : Accumulator α),
      set.lookup kind name = .ok accumulator → ∀ (f : Accumulator α → Accumulator α) (other : String),
        (set.modify name f).get? other =
          if other = name then some (f accumulator) else set.get? other) ∧
    (∀ (sizes : HistorySizes) (window : Nat) (set : AccumulatorSet α),
      AccumulatorSet.ofDescriptors catalogue sizes window = .ok set → ∃ acc, set.Shows acc) ∧
    ∀ (meter : RateMeter) (sample : BlockSample) (receivedAt : Int64) (now : VolumeSnapshot),
      meter.view = .network →
      let work := work (α := α) meter sample receivedAt now
      (∀ group ∈ blockGroups, ∀ set,
        settled group.kind (group.compute sample receivedAt set).1 = ((work group.kind).run set).1 ∧
          (group.compute sample receivedAt set).2 = ((work group.kind).run set).2) ∧
      (∀ kind, (work kind).KeepsTo kind) ∧
      ∀ set : AccumulatorSet α,
        let together : Parallel α (List (Update α)) := ⟨work, set⟩
        (∀ acc, set.Shows acc → ∀ kind, ∃ updates, ((work kind).run set).1 = .ok updates) ∧
        (∃ turns, ∀ schedule : List GroupKind, (∀ kind, turns ≤ schedule.count kind) →
          (together.after schedule).Finished) ∧
        ∀ schedule order : List GroupKind, (together.after schedule).Finished →
          (∀ kind, kind ∈ order) →
            together.after schedule = together.inTurn order ∧
            ∀ kind, (together.after schedule).task kind = .ended ((work kind).run set).1 := by
  refine ⟨fun descriptors sizes window set hset name => ?_,
    fun set kind name accumulator hlookup f other => ?_,
    fun sizes window set hset => AccumulatorSet.exists_shows_ofDescriptors hset,
    fun meter sample receivedAt now hview => ?_⟩
  · obtain ⟨hnone, hsome⟩ := AccumulatorSet.entries_ofDescriptors hset name
    refine ⟨fun hlast => ?_, fun d hd => ?_⟩
    · rw [AccumulatorSet.get?, hnone hlast]
      rfl
    · obtain ⟨accumulator, hmade, hentry⟩ := hsome d hd
      have hlookup := AccumulatorSet.lookup_eq_ok_iff.2 hentry
      refine ⟨accumulator, hmade, AccumulatorSet.get?_of_lookup hlookup, hlookup, fun kind => ?_⟩
      rw [AccumulatorSet.mem_namesOf_iff]
      constructor
      · rintro ⟨own, hown⟩
        have hsame := (AccumulatorSet.lookup_eq_ok_iff.1 hown).symm.trans hentry
        exact congrArg OwnedAccumulator.owner (Option.some.inj hsame)
      · rintro rfl
        exact ⟨accumulator, hlookup⟩
  · rw [AccumulatorSet.get?_modify]
    by_cases hother : other = name
    · rw [if_pos hother, if_pos hother, hother, AccumulatorSet.get?_of_lookup hlookup]
      rfl
    · rw [if_neg hother, if_neg hother]
  · intro work
    have hwithin : ∀ kind, (work kind).Within kind fun _ => True :=
      within_work hview sample receivedAt now
    refine ⟨fun group hgroup set => compute_eq_work meter hgroup sample receivedAt now set,
      fun kind => (hwithin kind).keepsTo, fun set => ?_⟩
    intro together
    have hseparate : together.Separate := hwithin
    refine ⟨fun acc hshows kind => exists_updates hview sample receivedAt now kind hshows,
      hseparate.exists_turns, fun schedule order hfinished horder => ?_⟩
    refine ⟨hseparate.after_eq_inTurn hfinished horder, fun kind => ?_⟩
    rw [(hseparate.agreeOn_finish hfinished kind).task, Parallel.task_finish]

/-- Of two descriptors of one name the later makes the accumulator; and over the catalogue a sample and a
measurement come to the same turn by turn and from the last group to the first. -/
theorem independent_twice :
    let first : Descriptor := Metric.pushTime.descriptor
    let descriptors := [first, { first with group := .queue, axis := .timestamp }]
    let meter : RateMeter := ⟨.network, some ⟨⟨0, 0⟩, 0⟩⟩
    let now : VolumeSnapshot := ⟨⟨3000, 500⟩, 1000⟩
    (∃ set : AccumulatorSet Rat, AccumulatorSet.ofDescriptors descriptors ⟨2, 3⟩ 1 = .ok set ∧
      (set.get? "push_time").map (·.capacity) = some 3 ∧
      ∀ kind, "push_time" ∈ set.namesOf kind ↔ kind = .queue) ∧
    ∃ set : AccumulatorSet Rat, AccumulatorSet.ofDescriptors catalogue ⟨2, 3⟩ 1 = .ok set ∧
      let together : Parallel Rat (List (Update Rat)) := ⟨work meter { height := 7 } 0 now, set⟩
      ∃ schedule : List GroupKind,
        together.after schedule = together.inTurn GroupKind.all.reverse ∧
        ∀ kind, ∃ updates, (together.after schedule).task kind = .done updates := by
  intro first descriptors meter now
  obtain ⟨hparts, -, hshows, hwork⟩ := independent (α := Rat)
  constructor
  · obtain ⟨set, hset⟩ : ∃ set : AccumulatorSet Rat,
        AccumulatorSet.ofDescriptors descriptors ⟨2, 3⟩ 1 = .ok set := ⟨_, rfl⟩
    obtain ⟨accumulator, hmade, hget, -, hnames⟩ :=
      (hparts descriptors ⟨2, 3⟩ 1 set hset "push_time").2
        { first with group := .queue, axis := .timestamp } rfl
    refine ⟨set, hset, ?_, hnames⟩
    cases hmade
    rw [hget]
    rfl
  · have hfits : ∀ axis, 1 ≤ HistorySizes.along ⟨2, 3⟩ axis := by
      intro axis
      cases axis <;> decide
    obtain ⟨set, hset, -⟩ := AccumulatorSet.exists_ofDescriptors (α := Rat) Nat.one_pos hfits
    obtain ⟨acc, hacc⟩ := hshows ⟨2, 3⟩ 1 set hset
    obtain ⟨-, -, hall⟩ := hwork meter { height := 7 } 0 now rfl
    obtain ⟨hupdates, ⟨turns, hturns⟩, hends⟩ := hall set
    let schedule := (List.replicate turns GroupKind.all).flatten
    have hcount : ∀ kind, turns ≤ schedule.count kind := by
      intro kind
      have honce : GroupKind.all.count kind = 1 := by cases kind <;> rfl
      simp [schedule, List.count_flatten, honce]
    obtain ⟨hinTurn, halone⟩ := hends schedule GroupKind.all.reverse (hturns schedule hcount)
      (fun kind => by cases kind <;> decide)
    refine ⟨set, hset, schedule, hinTurn, fun kind => ?_⟩
    obtain ⟨updates, hok⟩ := hupdates acc hacc kind
    refine ⟨updates, ?_⟩
    rw [halone, hok]
    rfl
end NodeTelemetry.Group
