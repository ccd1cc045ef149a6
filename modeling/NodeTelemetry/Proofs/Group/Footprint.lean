import NodeTelemetry.Group
import NodeTelemetry.Proofs.Computation.Within
import NodeTelemetry.Proofs.Group.Block
import NodeTelemetry.TransferRate

/-!
What the groups and the meter touch. However a set of accumulators looks, a block group keeps to the
view that it was given and asks only for changes to metrics that are charted along heights; a
measurement keeps to the view of its meter.
-/

set_option autoImplicit false

namespace NodeTelemetry

open NodeTelemetry.Computation (within_pure within_reach within_feed within_mapM within_forM)

variable {α : Type}

def Update.AlongHeights (updates : List (Update α)) : Prop :=
  ∀ update ∈ updates, ∃ metric ∈ Metric.alongHeights, update.subject = metric.name

namespace Update

private theorem alongHeights_append {first second : List (Update α)} (hfirst : AlongHeights first)
    (hsecond : AlongHeights second) : AlongHeights (first ++ second) :=
  List.forall_mem_append.2 ⟨hfirst, hsecond⟩

theorem alongHeights_flatten {parts : List (List (Update α))}
    (h : ∀ part ∈ parts, AlongHeights part) : AlongHeights parts.flatten := by
  intro update hupdate
  obtain ⟨part, hpart, hmem⟩ := List.mem_flatten.1 hupdate
  exact h part hpart update hmem

variable [Scalar α]

@[simp] theorem subject_render (metric : Metric) (reading : Reading α) :
    (Update.readout (.render metric.descriptor reading)).subject = metric.name :=
  (Readout.render_name _ _).trans (Metric.descriptor_name metric)

theorem alongHeights_pair {metric : Metric} (h : metric ∈ Metric.alongHeights) (x y : α)
    (reading : Reading α) :
    AlongHeights [.point metric.name x y, .readout (.render metric.descriptor reading)] := by
  intro update hupdate
  simp only [List.mem_cons, List.not_mem_nil, or_false] at hupdate
  rcases hupdate with rfl | rfl
  · exact ⟨metric, h, rfl⟩
  · exact ⟨metric, h, subject_render metric reading⟩

end Update

variable [Scalar α]

namespace Group

open Update (AlongHeights alongHeights_append alongHeights_flatten alongHeights_pair)

private theorem alongHeights_averaged {metric : Metric} (h : metric ∈ Metric.alongHeights)
    (height : α)
    (accumulator : Accumulator α) : AlongHeights (averaged metric height accumulator) := by
  have hpair := alongHeights_pair h height accumulator.average
    (.of accumulator.average accumulator.max)
  unfold averaged
  split
  · exact hpair
  · exact fun update hupdate => hpair update (List.mem_cons_of_mem _ hupdate)

theorem within_timing (view : GroupKind) (sample : BlockSample) :
    (Timing.computation (α := α) view sample).Within view AlongHeights := by
  unfold Timing.computation
  refine (within_forM fun part _ =>
    (within_feed part.1 _).bind fun _ _ => within_pure trivial).bind fun _ _ => ?_
  refine (within_reach .pushTime).bind fun push _ => ?_
  refine (within_mapM (p := AlongHeights) fun part hpart =>
    (within_reach part.1).bind fun accumulator _ => within_pure ?_).bind fun parts hparts => ?_
  · have hall : ∀ part ∈ Timing.components, part.1 ∈ Metric.alongHeights := by
      intro part hpart
      have hmem : part.1 ∈ Timing.components.map (·.1) := List.mem_map_of_mem hpart
      revert hmem
      generalize part.1 = metric
      revert metric
      decide
    exact alongHeights_pair (hall part hpart) _ _ _
  · refine (within_feed .payloadSize _).bind fun payload _ => within_pure ?_
    exact alongHeights_append (alongHeights_flatten hparts) (alongHeights_pair (by decide) _ _ _)

theorem within_throughput (view : GroupKind) (sample : BlockSample) (receivedAt : Int64) :
    (Throughput.computation (α := α) view sample receivedAt).Within view AlongHeights := by
  unfold Throughput.computation
  refine (within_reach .blockArrival).bind fun _ _ => ?_
  refine (within_reach .windowTransactions).bind fun _ _ => ?_
  refine (within_reach .windowSystemTransactions).bind fun _ _ => ?_
  refine (within_feed .blockArrival _).bind fun arrivals _ => ?_
  refine (within_feed .windowTransactions _).bind fun transactions _ => ?_
  refine (within_feed .windowSystemTransactions _).bind fun systemTransactions _ => ?_
  refine (within_mapM (p := AlongHeights) fun rate hrate =>
    (within_feed rate.1 _).bind fun accumulator _ => within_pure ?_).bind fun parts hparts =>
      within_pure (alongHeights_flatten hparts)
  have hmem : rate.1 ∈ rateMetrics := List.mem_map_of_mem hrate
  have hall : ∀ metric ∈ rateMetrics, metric ∈ Metric.alongHeights := by decide
  exact alongHeights_averaged (hall rate.1 hmem) _ _

theorem within_transactions (view : GroupKind) (sample : BlockSample) :
    (Transactions.computation (α := α) view sample).Within view AlongHeights := by
  unfold Transactions.computation
  refine (within_mapM (p := AlongHeights) fun count hcount =>
    (within_feed count.1 _).bind fun accumulator _ => within_pure ?_).bind fun parts hparts =>
      within_pure (alongHeights_flatten hparts)
  have hmem : count.1 ∈ countMetrics := List.mem_map_of_mem hcount
  have hall : ∀ metric ∈ countMetrics, metric ∈ Metric.alongHeights := by decide
  exact alongHeights_averaged (hall count.1 hmem) _ _

theorem compute_ofComputation (kind : GroupKind)
    (computation : BlockSample → Int64 → Computation α (List (Update α))) (sample : BlockSample)
    (receivedAt : Int64) (set : AccumulatorSet α) :
    settled kind ((ofComputation kind computation).compute sample receivedAt set).1 =
        ((computation sample receivedAt).run set).1 ∧
      ((ofComputation kind computation).compute sample receivedAt set).2 =
        ((computation sample receivedAt).run set).2 := by
  simp only [ofComputation]
  rcases (computation sample receivedAt).run set with ⟨_ | updates, after⟩
  · exact ⟨rfl, rfl⟩
  · exact ⟨rfl, rfl⟩

theorem alongHeights_of_compute {group : Group α} (hgroup : group ∈ blockGroups)
    {sample : BlockSample} {receivedAt : Int64} {set : AccumulatorSet α} {updates : List (Update α)}
    (h : (group.compute sample receivedAt set).1 = .updates updates) : AlongHeights updates := by
  have hof : ∀ {kind view : GroupKind}
      {computation : BlockSample → Int64 → Computation α (List (Update α))},
      ((ofComputation kind computation).compute sample receivedAt set).1 = .updates updates →
        (computation sample receivedAt).Within view AlongHeights → AlongHeights updates := by
    intro kind view computation hcompute hwithin
    have hrun := (compute_ofComputation kind computation sample receivedAt set).1
    rw [hcompute] at hrun
    exact hwithin.of_run (Prod.ext hrun.symm rfl)
  simp only [blockGroups, List.mem_cons, List.not_mem_nil, or_false] at hgroup
  rcases hgroup with rfl | rfl | rfl
  · exact hof h (within_timing .timing sample)
  · exact hof h (within_throughput .throughput sample receivedAt)
  · exact hof h (within_transactions .transactions sample)

end Group

theorem RateMeter.within_tick (meter : RateMeter) (now : VolumeSnapshot) :
    (meter.tick (α := α) now).2.Within meter.view fun result => ∀ sample ∈ result,
      ∃ upload download, sample.batch =
        ⟨.network now.observedAt, points now upload download ++ readouts now upload download⟩ := by
  unfold tick
  cases meter.latest.bind fun before => TransferRate.between? (α := α) before now with
  | none => exact within_pure fun sample hsample => nomatch hsample
  | some rate =>
    have hrecord : (record meter.view now rate).Within meter.view fun sample =>
        ∃ upload download, sample.batch =
          ⟨.network now.observedAt, points now upload download ++ readouts now upload download⟩ :=
      (within_feed .uploadSpeed _).bind fun upload _ =>
        (within_feed .downloadSpeed _).bind fun download _ => within_pure ⟨upload, download, rfl⟩
    refine hrecord.map fun sample hsample own hown => ?_
    cases hown
    exact hsample

end NodeTelemetry
