import NodeTelemetry.Proofs.Computation.Plan
import NodeTelemetry.Proofs.Group.Footprint

/-!
Failures of the block groups. However a group is wired, it fails where its view lacks an accumulator, at
the first one in the order of its look-ups. What it has fed by then stays fed: the groups feed as they
go, except that the throughput group holds its window histories back until it has found all of them.
-/

set_option autoImplicit false

namespace NodeTelemetry.Group

open NodeTelemetry.Computation (HasPlan Step fedBy hasPlan_pure hasPlan_reach hasPlan_feed hasPlan_mapM
  hasPlan_forM)

variable {α : Type} [Scalar α]

/-- The metrics whose accumulators a block group needs, in the order in which it looks them up. -/
def needs : GroupKind → List Metric
  | .timing =>
    [.pushTime, .validationTime, .txLoopTime, .housekeepingTime, .txApplyTime, .atTime,
      .subscriptionTime, .blockApplyTime, .commitTime, .miscTime, .payloadSize]
  | .throughput =>
    [.blockArrival, .windowTransactions, .windowSystemTransactions, .blocksPerSecond,
      .allTransactionsPerSecond, .systemTransactionsPerSecond, .atCountPerBlock]
  | .transactions => [.allTransactionsPerBlock, .systemTransactionsPerBlock]
  | .network | .queue => []

/-- How many accumulators a group finds before it feeds the first. -/
def heldBack : GroupKind → Nat
  | .throughput => 3
  | .timing | .transactions | .network | .queue => 0

/-- The metrics that a group has fed when it has found some of those it needs. -/
def fedOf (kind : GroupKind) (found : List Metric) : List Metric :=
  if found.length < heldBack kind then [] else found

/-! ### The plans of the groups -/

/-- The look-ups of a group. The timing group looks at its parts again after it has fed them. -/
def plan : GroupKind → List Step
  | .timing =>
    Timing.components.map (.feed ·.1) ++
      ([.look .pushTime] ++ (Timing.components.map (.look ·.1) ++ [.feed .payloadSize]))
  | .throughput =>
    [.look .blockArrival, .look .windowTransactions, .look .windowSystemTransactions,
      .feed .blockArrival, .feed .windowTransactions, .feed .windowSystemTransactions] ++
      rateMetrics.map .feed
  | .transactions => countMetrics.map .feed
  | .network | .queue => []

private theorem hasPlan_timing (view : GroupKind) (sample : BlockSample) :
    (Timing.computation (α := α) view sample).HasPlan view (plan .timing) := by
  have hparts : Timing.components.map (Step.feed ·.1) =
      Timing.components.flatMap fun part => [Step.feed part.1] ++ [] := rfl
  have hlooks : Timing.components.map (Step.look ·.1) =
      Timing.components.flatMap fun part => [Step.look part.1] ++ [] := rfl
  rw [plan, hparts, hlooks]
  refine HasPlan.bind
    (hasPlan_forM fun part => (hasPlan_feed part.1 _).bind fun _ => hasPlan_pure _) fun _ => ?_
  refine (hasPlan_reach .pushTime).bind fun push => ?_
  refine HasPlan.bind
    (hasPlan_mapM fun part => (hasPlan_reach part.1).bind fun _ => hasPlan_pure _) fun parts => ?_
  exact (hasPlan_feed .payloadSize _).bind fun payload => hasPlan_pure _

private theorem hasPlan_throughput (view : GroupKind) (sample : BlockSample) (receivedAt : Int64) :
    (Throughput.computation (α := α) view sample receivedAt).HasPlan view (plan .throughput) := by
  refine (hasPlan_reach .blockArrival).bind fun _ => ?_
  refine (hasPlan_reach .windowTransactions).bind fun _ => ?_
  refine (hasPlan_reach .windowSystemTransactions).bind fun _ => ?_
  refine (hasPlan_feed .blockArrival _).bind fun arrivals => ?_
  refine (hasPlan_feed .windowTransactions _).bind fun transactions => ?_
  refine (hasPlan_feed .windowSystemTransactions _).bind fun system => ?_
  have hrates : rateMetrics.map Step.feed =
      ((Throughput.rates sample arrivals transactions system).flatMap fun rate =>
        [Step.feed rate.1] ++ []) ++ [] := rfl
  rw [hrates]
  exact HasPlan.bind
    (hasPlan_mapM fun rate => (hasPlan_feed rate.1 rate.2).bind fun _ => hasPlan_pure _)
    fun updates => hasPlan_pure _

private theorem hasPlan_transactions (view : GroupKind) (sample : BlockSample) :
    (Transactions.computation (α := α) view sample).HasPlan view (plan .transactions) := by
  have hcounts : countMetrics.map Step.feed =
      (Transactions.counts.flatMap fun count => [Step.feed count.1] ++ []) ++ [] := rfl
  rw [plan, hcounts]
  exact HasPlan.bind
    (hasPlan_mapM fun count => (hasPlan_feed count.1 _).bind fun _ => hasPlan_pure _)
    fun updates => hasPlan_pure _

/-! ### Plans against needs -/

@[simp] theorem fedBy_append (first second : List Step) :
    fedBy (first ++ second) = fedBy first ++ fedBy second := List.filterMap_append

@[simp] theorem fedBy_map_feed (metrics : List Metric) : fedBy (metrics.map .feed) = metrics := by
  induction metrics with
  | nil => rfl
  | cons metric metrics ih => exact congrArg (metric :: ·) ih

@[simp] theorem fedBy_map_look (metrics : List Metric) : fedBy (metrics.map .look) = [] := by
  induction metrics with
  | nil => rfl
  | cons metric metrics ih => exact ih

private theorem split_append {β : Type} {front back found rest : List β} {missing : β}
    (h : front ++ back = found ++ missing :: rest) :
    (∃ later, front = found ++ missing :: later) ∨
      ∃ behind, found = front ++ behind ∧ back = behind ++ missing :: rest := by
  rcases List.append_eq_append_iff.1 h with ⟨behind, hfound, hback⟩ | ⟨later, hfront, hrest⟩
  · exact .inr ⟨behind, hfound, hback⟩
  · cases later with
    | nil => exact .inr ⟨[], by simpa using hfront.symm, by simpa using hrest.symm⟩
    | cons item later =>
      obtain ⟨rfl, -⟩ := List.cons.inj hrest
      exact .inl ⟨later, hfront⟩

private theorem metric_mem_of_mem_map_feed {metrics : List Metric} {step : Step}
    (h : step ∈ metrics.map .feed) : step.metric ∈ metrics := by
  obtain ⟨metric, hmetric, rfl⟩ := List.mem_map.1 h
  exact hmetric

private theorem metric_mem_of_mem_map_look {metrics : List Metric} {step : Step}
    (h : step ∈ metrics.map .look) : step.metric ∈ metrics := by
  obtain ⟨metric, hmetric, rfl⟩ := List.mem_map.1 h
  exact hmetric

/-- A group comes to a metric with nothing looked up but what it has found before, and has then fed as
much of that as it does not hold back. -/
def ComesTo (kind : GroupKind) (found : List Metric) (missing : Metric) : Prop :=
  ∃ first step later, plan kind = first ++ step :: later ∧ step.metric = missing ∧
    fedBy first = fedOf kind found ∧ ∀ other ∈ first, other.metric ∈ found

variable {found rest : List Metric} {missing : Metric}

private theorem comesTo_timing (h : needs .timing = found ++ missing :: rest) :
    ComesTo .timing found missing := by
  let parts := Timing.components.map (·.1)
  have hplan : plan .timing =
      parts.map .feed ++ ([.look .pushTime] ++ (parts.map .look ++ [.feed .payloadSize])) := rfl
  have hneeds : parts ++ [.payloadSize] = found ++ missing :: rest := h
  rcases split_append hneeds with ⟨later, hparts⟩ | ⟨behind, hfound, hlast⟩
  · rw [ComesTo, hplan, hparts, List.map_append, List.map_cons, List.append_assoc, List.cons_append]
    exact ⟨found.map .feed, .feed missing, _, rfl, rfl, fedBy_map_feed found,
      fun _ => metric_mem_of_mem_map_feed⟩
  · -- all parts are found, fed and looked at again before the payload's turn comes
    obtain ⟨rfl, rfl⟩ : behind = [] ∧ missing = .payloadSize := by
      cases behind with
      | nil => exact ⟨rfl, (List.cons.inj hlast).1.symm⟩
      | cons metric behind => simp at hlast
    rw [List.append_nil] at hfound
    refine ⟨parts.map .feed ++ ([.look .pushTime] ++ parts.map .look), .feed .payloadSize, [],
      by rw [hplan]; simp only [List.append_assoc], rfl, ?_, ?_⟩
    · rw [hfound, fedBy_append, fedBy_append, fedBy_map_feed, fedBy_map_look, List.append_nil]
      exact List.append_nil parts
    · rw [hfound]
      decide

private theorem comesTo_throughput (h : needs .throughput = found ++ missing :: rest) :
    ComesTo .throughput found missing := by
  let windows : List Metric := [.blockArrival, .windowTransactions, .windowSystemTransactions]
  have hplan : plan .throughput =
      windows.map .look ++ (windows.map .feed ++ rateMetrics.map .feed) := rfl
  have hneeds : windows ++ rateMetrics = found ++ missing :: rest := h
  rcases split_append hneeds with ⟨later, hwindows⟩ | ⟨behind, hfound, hrates⟩
  · -- a window history is missing: nothing has been fed
    have hfew : found.length < heldBack .throughput := by
      have hlength := congrArg List.length hwindows
      simp only [List.length_append, List.length_cons] at hlength
      show found.length < windows.length
      omega
    rw [ComesTo, hplan, hwindows, List.map_append, List.map_cons, List.append_assoc, List.cons_append]
    refine ⟨found.map .look, .look missing, _, rfl, rfl, ?_, fun _ => metric_mem_of_mem_map_look⟩
    rw [fedBy_map_look, fedOf, if_pos hfew]
  · have hmany : ¬found.length < heldBack .throughput := by
      rw [hfound, List.length_append]
      exact Nat.not_lt.2 (Nat.le_add_right windows.length behind.length)
    have hfeeds : rateMetrics.map Step.feed =
        behind.map .feed ++ .feed missing :: rest.map .feed := by
      rw [hrates, List.map_append, List.map_cons]
    refine ⟨windows.map .look ++ (windows.map .feed ++ behind.map .feed), .feed missing,
      rest.map .feed, by rw [hplan, hfeeds]; simp only [List.append_assoc], rfl, ?_, ?_⟩
    · rw [fedOf, if_neg hmany, hfound]
      simp only [fedBy_append, fedBy_map_feed, fedBy_map_look, List.nil_append]
    · rw [hfound]
      intro other hother
      simp only [List.mem_append] at hother ⊢
      rcases hother with hother | hother | hother
      · exact .inl (metric_mem_of_mem_map_look hother)
      · exact .inl (metric_mem_of_mem_map_feed hother)
      · exact .inr (metric_mem_of_mem_map_feed hother)

private theorem comesTo_of_needs {kind : GroupKind} (h : needs kind = found ++ missing :: rest) :
    ComesTo kind found missing := by
  cases kind with
  | timing => exact comesTo_timing h
  | throughput => exact comesTo_throughput h
  | transactions =>
    have hcounts : countMetrics = found ++ missing :: rest := h
    rw [ComesTo, plan, hcounts, List.map_append, List.map_cons]
    exact ⟨found.map .feed, .feed missing, _, rfl, rfl, fedBy_map_feed found,
      fun _ => metric_mem_of_mem_map_feed⟩
  | network => simp [needs] at h
  | queue => simp [needs] at h

private theorem fedBy_plan (kind : GroupKind) : fedBy (plan kind) = needs kind := by
  cases kind <;> decide

private theorem needs_nodup (kind : GroupKind) : (needs kind).Nodup := by
  cases kind <;> decide

private theorem metric_mem_needs (kind : GroupKind) :
    ∀ step ∈ plan kind, step.metric ∈ needs kind := by
  cases kind <;> decide

/-! ### Failures -/

private theorem exists_hasPlan {kind view : GroupKind} {group : Group α}
    (h : ofKind? kind view = some group) (sample : BlockSample) (receivedAt : Int64) :
    ∃ computation : Computation α (List (Update α)), computation.HasPlan view (plan kind) ∧
      ∀ set after, (∀ updates, computation.run set = (.ok updates, after) →
          group.compute sample receivedAt set = (.updates updates, after)) ∧
        ∀ error, computation.run set = (.error error, after) →
          group.compute sample receivedAt set = (.failed error, after) := by
  have hof (own : GroupKind) (computation : BlockSample → Int64 → Computation α (List (Update α)))
      (set after : AccumulatorSet α) :
      (∀ updates, (computation sample receivedAt).run set = (.ok updates, after) →
        (ofComputation own computation).compute sample receivedAt set = (.updates updates, after)) ∧
      ∀ error, (computation sample receivedAt).run set = (.error error, after) →
        (ofComputation own computation).compute sample receivedAt set = (.failed error, after) :=
    ⟨fun updates hrun => by simp only [ofComputation, hrun],
      fun error hrun => by simp only [ofComputation, hrun]⟩
  cases kind with
  | timing =>
    cases h
    exact ⟨_, hasPlan_timing view sample, hof .timing fun sample _ => Timing.computation view sample⟩
  | throughput =>
    cases h
    exact ⟨_, hasPlan_throughput view sample receivedAt, hof .throughput (Throughput.computation view)⟩
  | transactions =>
    cases h
    exact ⟨_, hasPlan_transactions view sample,
      hof .transactions fun sample _ => Transactions.computation view sample⟩
  | network => cases h
  | queue => cases h

private theorem exists_first_missing {names : List String} {metrics : List Metric}
    (h : ∃ metric ∈ metrics, metric.name ∉ names) :
    ∃ found missing rest, metrics = found ++ missing :: rest ∧
      (∀ metric ∈ found, metric.name ∈ names) ∧ missing.name ∉ names := by
  obtain ⟨metric, hmetric, hmissing⟩ := h
  have hsome : (metrics.find? fun metric => metric.name ∉ names).isSome :=
    List.find?_isSome.2 ⟨metric, hmetric, decide_eq_true hmissing⟩
  obtain ⟨missing, hfirst⟩ := Option.isSome_iff_exists.1 hsome
  obtain ⟨hmissing, found, rest, hsplit, hfound⟩ := List.find?_eq_some_iff_append.1 hfirst
  refine ⟨found, missing, rest, hsplit, fun metric hmetric => ?_, of_decide_eq_true hmissing⟩
  simpa using hfound metric hmetric

/-- However a block group is wired and whatever its accumulators hold, it fails if and only if its view
lacks an accumulator that it needs. Its error is then one of the view's own group and names the first one
that is missing in the order of the look-ups; what it fed before that look-up got one value each, and no
other accumulator has changed, in this view or in another. A group that fails nowhere has fed all that it
needs one value each. -/
theorem fails_at_first_missing {kind view : GroupKind} {group : Group α}
    (hgroup : ofKind? kind view = some group) (sample : BlockSample) (receivedAt : Int64)
    (set : AccumulatorSet α) :
    let outcome := (group.compute sample receivedAt set).1
    let after := (group.compute sample receivedAt set).2
    ((∃ error, outcome = .failed error) ↔ ∃ metric ∈ needs kind, metric.name ∉ set.namesOf view) ∧
    (∀ found missing rest, needs kind = found ++ missing :: rest →
      (∀ metric ∈ found, metric.name ∈ set.namesOf view) → missing.name ∉ set.namesOf view →
      (∃ cause, outcome = .failed (.computation view cause) ∧
        cause.message = "no accumulator named " ++ missing.name) ∧
      set.FedOnce after view (fedOf kind found)) ∧
    ((∀ metric ∈ needs kind, metric.name ∈ set.namesOf view) →
      (∃ updates, outcome = .updates updates) ∧ set.FedOnce after view (needs kind)) := by
  intro outcome after
  obtain ⟨computation, hplan, hcompute⟩ := exists_hasPlan hgroup sample receivedAt
  have hfails : ∀ found missing rest, needs kind = found ++ missing :: rest →
      (∀ metric ∈ found, metric.name ∈ set.namesOf view) → missing.name ∉ set.namesOf view →
      outcome = .failed (.computation view (.noAccumulator missing.name)) ∧
        set.FedOnce after view (fedOf kind found) := by
    intro found missing rest hneeds hfound hmissing
    obtain ⟨first, step, later, hsteps, rfl, hfed, hfirst⟩ := comesTo_of_needs hneeds
    have hdistinct : (fedBy first).Nodup := by
      have hall : (fedBy (plan kind)).Nodup := fedBy_plan kind ▸ needs_nodup kind
      rw [hsteps, fedBy_append] at hall
      exact hall.of_append_left
    obtain ⟨ended, hrun, honce⟩ := HasPlan.run_of_missing (hsteps ▸ hplan)
      (fun other hother => hfound _ (hfirst other hother)) hmissing hdistinct
    have hended := (hcompute set ended).2 _ hrun
    refine ⟨congrArg Prod.fst hended, ?_⟩
    rw [show after = ended from congrArg Prod.snd hended, ← hfed]
    exact honce
  have hsucceeds : (∀ metric ∈ needs kind, metric.name ∈ set.namesOf view) →
      (∃ updates, outcome = .updates updates) ∧ set.FedOnce after view (needs kind) := by
    intro hfound
    obtain ⟨updates, ended, hrun, honce⟩ := hplan.run_of_found
      (fun step hstep => hfound _ (metric_mem_needs kind step hstep))
      (fedBy_plan kind ▸ needs_nodup kind)
    have hended := (hcompute set ended).1 _ hrun
    refine ⟨⟨updates, congrArg Prod.fst hended⟩, ?_⟩
    rw [show after = ended from congrArg Prod.snd hended, ← fedBy_plan]
    exact honce
  refine ⟨⟨?_, ?_⟩, fun found missing rest hneeds hfound hmissing => ?_, hsucceeds⟩
  · rintro ⟨error, herror⟩
    by_contra hnone
    push Not at hnone
    obtain ⟨⟨updates, hupdates⟩, -⟩ := hsucceeds hnone
    rw [hupdates] at herror
    cases herror
  · intro hlacks
    obtain ⟨found, missing, rest, hneeds, hfound, hmissing⟩ := exists_first_missing hlacks
    exact ⟨_, (hfails found missing rest hneeds hfound hmissing).1⟩
  · obtain ⟨hfailed, honce⟩ := hfails found missing rest hneeds hfound hmissing
    exact ⟨⟨.noAccumulator missing.name, hfailed, rfl⟩, honce⟩

/-- Without the rate of all transactions, the three window histories and the rate of blocks are fed. -/
theorem fails_at_first_missing_rate :
    ∃ set : AccumulatorSet Rat,
      AccumulatorSet.ofDescriptors
        ([Metric.blockArrival, .windowTransactions, .windowSystemTransactions, .blocksPerSecond,
          .atCountPerBlock, .pushTime].map Metric.descriptor) ⟨4, 4⟩ 2 = .ok set ∧
      ofKind? (α := Rat) .throughput .throughput = some (throughput .throughput) ∧
      (∃ cause, ((throughput .throughput).compute {} 0 set).1 = .failed (.computation .throughput cause) ∧
        cause.message = "no accumulator named all_transactions_per_second") ∧
      set.FedOnce ((throughput .throughput).compute {} 0 set).2 .throughput
        [.blockArrival, .windowTransactions, .windowSystemTransactions, .blocksPerSecond] := by
  have hgroup : ofKind? (α := Rat) .throughput .throughput = some (throughput .throughput) := rfl
  refine ⟨_, rfl, hgroup, ?_⟩
  refine (fails_at_first_missing hgroup {} 0 _).2.1
    [.blockArrival, .windowTransactions, .windowSystemTransactions, .blocksPerSecond]
    .allTransactionsPerSecond [.systemTransactionsPerSecond, .atCountPerBlock] rfl ?_ ?_
  · decide +kernel
  · decide +kernel

end NodeTelemetry.Group
