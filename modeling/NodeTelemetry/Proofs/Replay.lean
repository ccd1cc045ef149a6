import NodeTelemetry.Proofs.Dashboard.Commutation
import NodeTelemetry.Proofs.Engine.Confluence
import NodeTelemetry.Proofs.Text.Lines

/-!
Replaying against handing over. A replay into an engine that accepts events does to it what the calls of
someone do who hands over the events of the recording in their order and then waits; the tasks may take
any steps meanwhile. Lines without an event only count. An engine that was stopped takes the counters of
the traffic and nothing else.
-/

set_option autoImplicit false

namespace NodeTelemetry

/-! ### Lines and their events -/

namespace NodeEvent

def parsed? (line : String) : Option (Except EventError NodeEvent) :=
  match Text.trimmed line.toList with
  | [] | '#' :: _ => none
  | text => some (ofTokens (Json.tokens text))

def event? (line : String) : Option NodeEvent := (parsed? line).bind Except.toOption

/-- The line is neither blank nor a comment, and no event either. -/
def malformed (line : String) : Bool := (parsed? line).any fun outcome => !outcome.isOk

private theorem event?_eq {line : String} {said : Option (Except EventError NodeEvent)}
    (h : parsed? line = said) : event? line = said.bind Except.toOption := by
  rw [event?, h]

private theorem malformed_eq {line : String} {said : Option (Except EventError NodeEvent)}
    (h : parsed? line = said) : malformed line = said.any fun outcome => !outcome.isOk := by
  rw [malformed, h]

def Silent (line : String) : Prop :=
  Text.trimmed line.toList = [] ∨ ∃ comment, Text.trimmed line.toList = '#' :: comment

private theorem parsed?_eq_none_iff (line : String) : parsed? line = none ↔ Silent line := by
  fun_cases parsed? line with
  | case1 hblank => exact ⟨fun _ => .inl hblank, fun _ => rfl⟩
  | case2 comment hcomment => exact ⟨fun _ => .inr ⟨comment, hcomment⟩, fun _ => rfl⟩
  | case3 hblank hcomment =>
    refine ⟨fun hnone => (nomatch hnone), fun hsilent => ?_⟩
    rcases hsilent with hnone | ⟨comment, hmark⟩
    · exact absurd hnone hblank
    · exact absurd hmark (hcomment comment)

private theorem silent_iff (line : String) :
    Silent line ↔ event? line = none ∧ malformed line = false := by
  rw [← parsed?_eq_none_iff, event?, malformed]
  cases parsed? line with
  | none => simp
  | some outcome => cases outcome <;> simp [Except.toOption, Except.isOk, Except.toBool]

private theorem ofLine_eq (number : Nat) (line : String) :
    ofLine number line =
      match parsed? line with
      | none => .ok none
      | some (.ok event) => .ok (some event)
      | some (.error error) => .error ⟨number, error⟩ := by
  fun_cases parsed? line with
  | case1 hblank => rw [ofLine, hblank]
  | case2 comment hcomment =>
    rw [ofLine, hcomment]
    rfl
  | case3 hblank hcomment =>
    unfold ofLine
    split
    next heq => exact absurd heq hblank
    next comment heq => exact absurd heq (hcomment comment)
    next => cases ofTokens (Json.tokens (Text.trimmed line.toList)) <;> rfl

/-- The counters that an event brings, if it is one of the traffic. -/
def counters? : NodeEvent → Option VolumeCounters
  | .volume counters => some counters
  | .performance _ _ | .missingSample | .queueStatus _ | .blockPopped _ => none

def isVolume (event : NodeEvent) : Bool := event.counters?.isSome

def call (now : Int64) : NodeEvent → Engine.Call
  | .performance sample receivedAt => .submit (.sample (some (sample, receivedAt.getD now)))
  | .missingSample => .submit (.sample none)
  | .queueStatus status => .submit (.queueStatus status)
  | .volume counters => .setVolume counters
  | .blockPopped height => .submit (.blockPopped height)

private theorem isStep_call (now : Int64) (event : NodeEvent) :
    (event.call now).isStep = false := by
  cases event <;> rfl

private theorem calm_call (now : Int64) (event : NodeEvent) : (event.call now).Calm := by
  cases event with
  | volume counters => exact .setVolume counters
  | performance sample receivedAt => exact .submit _
  | missingSample => exact .submit _
  | queueStatus status => exact .submit _
  | blockPopped height => exact .submit _

end NodeEvent

def recordedLines (text : String) : List String := (textLines text.toList).map String.ofList

namespace ReplayCounts

/-- The counts after more lines: their events are applied, and those are skipped that are malformed. -/
def adding (counts : ReplayCounts) (lines : List String) : ReplayCounts :=
  ⟨counts.applied + (lines.filterMap NodeEvent.event?).length,
    counts.skipped + lines.countP NodeEvent.malformed⟩

variable {line : String} (counts : ReplayCounts) (lines : List String)

private theorem adding_silent (h : NodeEvent.parsed? line = none) :
    counts.adding (line :: lines) = counts.adding lines := by
  have hevent : NodeEvent.event? line = none := NodeEvent.event?_eq h
  have hmalformed : ¬NodeEvent.malformed line := by
    rw [NodeEvent.malformed_eq h, Option.any_none, Bool.not_eq_true]
  rw [adding, List.filterMap_cons_none hevent, List.countP_cons_of_neg hmalformed]
  rfl

private theorem adding_malformed {error : EventError}
    (h : NodeEvent.parsed? line = some (.error error)) : counts.adding (line :: lines) =
      { counts with skipped := counts.skipped + 1 }.adding lines := by
  have hevent : NodeEvent.event? line = none := NodeEvent.event?_eq h
  have hmalformed : NodeEvent.malformed line := NodeEvent.malformed_eq h
  rw [adding, List.filterMap_cons_none hevent, List.countP_cons_of_pos hmalformed,
    Nat.add_comm (lines.countP _), ← Nat.add_assoc]
  rfl

private theorem adding_event {event : NodeEvent} (h : NodeEvent.parsed? line = some (.ok event)) :
    counts.adding (line :: lines) =
      { counts with applied := counts.applied + 1 }.adding lines := by
  have hevent : NodeEvent.event? line = some event := NodeEvent.event?_eq h
  have hmalformed : ¬NodeEvent.malformed line := by
    rw [NodeEvent.malformed_eq h]
    exact Bool.false_ne_true
  rw [adding, List.filterMap_cons_some hevent, List.countP_cons_of_neg hmalformed,
    List.length_cons, Nat.add_comm (lines.filterMap _).length, ← Nat.add_assoc]
  rfl

private theorem adding_interleaving {lines extra all : List String}
    (h : Interleaving lines extra all) (hextra : ∀ line ∈ extra, NodeEvent.event? line = none) :
    counts.adding all =
      { counts.adding lines with
        skipped := (counts.adding lines).skipped + extra.countP NodeEvent.malformed } := by
  rw [adding, h.filterMap_eq hextra, h.countP_eq, ← Nat.add_assoc]
  rfl

end ReplayCounts

/-- A line that is read: the steps that the tasks take before, and the time by then. -/
structure Turn where
  meanwhile : List Task
  now : Int64
  line : String

namespace Turn

def event? (turn : Turn) : Option NodeEvent := NodeEvent.event? turn.line

def call? (turn : Turn) : Option Engine.Call := turn.event?.map (NodeEvent.call turn.now)

def calls (turn : Turn) : List Engine.Call := turn.meanwhile.map .step ++ turn.call?.toList

private theorem calls_of_none {turn : Turn} (h : turn.event? = none) :
    turn.calls = turn.meanwhile.map .step := by
  rw [calls, call?, h, Option.map_none, Option.toList_none, List.append_nil]

private theorem calls_of_event {turn : Turn} {event : NodeEvent} (h : turn.event? = some event) :
    turn.calls = turn.meanwhile.map .step ++ [event.call turn.now] := by
  rw [calls, call?, h, Option.map_some, Option.toList_some]

private theorem flatMap_calls (turns : List Turn) :
    (turns.map fun turn => { turn with meanwhile := [] }).flatMap calls = turns.filterMap call? := by
  induction turns with
  | nil => rfl
  | cons turn turns ih =>
    have hcalls : ({ turn with meanwhile := [] } : Turn).calls = turn.call?.toList := rfl
    rw [List.map_cons, List.flatMap_cons, ih, hcalls]
    cases hcall : turn.call? with
    | none => rw [List.filterMap_cons_none hcall, Option.toList_none, List.nil_append]
    | some call => rw [List.filterMap_cons_some hcall, Option.toList_some, List.singleton_append]

private theorem filter_calls (turns : List Turn) :
    ((turns.flatMap calls).filter fun call => !call.isStep) = turns.filterMap call? := by
  induction turns with
  | nil => rfl
  | cons turn turns ih =>
    have hsteps : ((turn.meanwhile.map Engine.Call.step).filter fun call => !call.isStep) = [] := by
      refine List.filter_eq_nil_iff.2 fun call hcall => ?_
      obtain ⟨task, -, rfl⟩ := List.mem_map.1 hcall
      exact Bool.false_ne_true
    rw [List.flatMap_cons, List.filter_append, ih, calls, List.filter_append, hsteps, List.nil_append]
    cases hevent : turn.event? with
    | none =>
      have hcall : turn.call? = none := by
        rw [call?, hevent, Option.map_none]
      rw [List.filterMap_cons_none hcall, hcall]
      rfl
    | some event =>
      have hcall : turn.call? = some (event.call turn.now) := by
        rw [call?, hevent, Option.map_some]
      rw [List.filterMap_cons_some hcall, hcall, Option.toList_some,
        List.filter_cons_of_pos (by rw [event.isStep_call]; rfl)]
      rfl

private theorem calm_calls {turns : List Turn}
    (h : ∀ turn ∈ turns, ∀ task ∈ turn.meanwhile, task.measures = false) :
    ∀ call ∈ turns.flatMap calls, call.Calm := by
  intro call hcall
  obtain ⟨turn, hturn, hcall⟩ := List.mem_flatMap.1 hcall
  rcases List.mem_append.1 hcall with hstep | hown
  · obtain ⟨task, htask, rfl⟩ := List.mem_map.1 hstep
    exact .step (h turn hturn task htask)
  · obtain ⟨event, -, rfl⟩ := Option.map_eq_some_iff.1 (Option.mem_toList.1 hown)
    exact event.calm_call turn.now

end Turn

namespace Engine

variable {α : Type} [Scalar α]

/-- Replays lines, the first of which has the given number, while the tasks take steps. -/
def replayAmid (engine : Engine α) (number : Nat) (counts : ReplayCounts) :
    List Turn → Engine α × Except ReplayError ReplayCounts
  | [] => engine.replayLines 0 number counts []
  | turn :: turns =>
    match NodeEvent.ofLine number turn.line with
    | .ok none => replayAmid (engine.run turn.meanwhile) (number + 1) counts turns
    | .error _ =>
      replayAmid (engine.run turn.meanwhile) (number + 1)
        { counts with skipped := counts.skipped + 1 } turns
    | .ok (some event) =>
      match (engine.run turn.meanwhile).apply turn.now event with
      | (engine, false) => (engine, .error (.engineStopped counts.applied))
      | (engine, true) =>
        replayAmid engine (number + 1) { counts with applied := counts.applied + 1 } turns

section

variable (engine : Engine α) (number : Nat) (counts : ReplayCounts) {turn : Turn} (turns : List Turn)

private theorem replayAmid_silent (h : NodeEvent.parsed? turn.line = none) :
    engine.replayAmid number counts (turn :: turns) =
      (engine.run turn.meanwhile).replayAmid (number + 1) counts turns := by
  rw [replayAmid, NodeEvent.ofLine_eq, h]

private theorem replayAmid_malformed {error : EventError}
    (h : NodeEvent.parsed? turn.line = some (.error error)) :
    engine.replayAmid number counts (turn :: turns) =
      (engine.run turn.meanwhile).replayAmid (number + 1)
        { counts with skipped := counts.skipped + 1 } turns := by
  rw [replayAmid, NodeEvent.ofLine_eq, h]

private theorem replayAmid_event {event : NodeEvent}
    (h : NodeEvent.parsed? turn.line = some (.ok event)) :
    engine.replayAmid number counts (turn :: turns) =
      match (engine.run turn.meanwhile).apply turn.now event with
      | (engine, false) => (engine, .error (.engineStopped counts.applied))
      | (engine, true) =>
        replayAmid engine (number + 1) { counts with applied := counts.applied + 1 } turns := by
  rw [replayAmid, NodeEvent.ofLine_eq, h]

end

private theorem replayAmid_eq_replayLines (engine : Engine α) (now : Int64) (number : Nat)
    (counts : ReplayCounts) (lines : List String) :
    engine.replayAmid number counts (lines.map fun line => ⟨[], now, line⟩) =
      engine.replayLines now number counts (lines.map some) := by
  induction lines generalizing engine number counts with
  | nil => rfl
  | cons line lines ih =>
    have hrun : engine.run [] = engine := rfl
    rw [List.map_cons, List.map_cons, replayAmid, replayLines, hrun]
    rcases NodeEvent.ofLine number line with error | _ | event
    · exact ih engine (number + 1) _
    · exact ih engine (number + 1) counts
    · rcases happly : engine.apply now event with ⟨next, _ | _⟩
      · simp only [happly]
      · simp only [happly]
        exact ih next (number + 1) _

private theorem replay_eq_replayAmid (engine : Engine α) (now : Int64) (text : String) :
    engine.replay now false (some text.toUTF8.data.toList) =
      engine.replayAmid 1 {} ((recordedLines text).map fun line => ⟨[], now, line⟩) := by
  rw [replayAmid_eq_replayLines, replay, recordingLines_toUTF8, recordedLines, List.map_map]
  rfl

/-! ### An engine that accepts events -/

structure Accepting (engine : Engine α) : Prop where
  running : engine.phase = .running
  opened : engine.intakeOpen = true

variable {engine : Engine α}

private theorem Accepting.run (h : engine.Accepting) (schedule : List Task) :
    (engine.run schedule).Accepting :=
  ⟨(engine.phase_run schedule).trans h.running, (engine.intakeOpen_run schedule).trans h.opened⟩

private theorem Accepting.apply (h : engine.Accepting) (now : Int64) (event : NodeEvent) :
    engine.apply now event = (engine.call (event.call now), true) ∧
      (engine.call (event.call now)).Accepting := by
  have hsubmit : ∀ own, engine.submit own = ((engine.submit own).1, true) ∧
      (engine.submit own).1.Accepting := by
    intro own
    rw [submit, if_pos h.opened]
    exact ⟨rfl, h.running, h.opened⟩
  cases event with
  | performance sample receivedAt => exact hsubmit _
  | missingSample => exact hsubmit _
  | queueStatus status => exact hsubmit _
  | volume counters => exact ⟨rfl, h.running, h.opened⟩
  | blockPopped height => exact hsubmit _

private theorem Accepting.replayLines_nil (h : engine.Accepting) (now : Int64) (number : Nat)
    (counts : ReplayCounts) :
    engine.replayLines now number counts [] = (engine.flush.1, .ok counts) := by
  have hflush : engine.flush = (engine.flush.1, .done) := by
    rw [← flush_done h.running h.opened]
  rw [replayLines, hflush]

/-- The replay makes the calls of the recorded events, in between the steps of the tasks. -/
theorem Accepting.replayAmid_eq (h : engine.Accepting) (number : Nat) (counts : ReplayCounts)
    (turns : List Turn) :
    engine.replayAmid number counts turns =
        (engine.afterCalls (turns.flatMap Turn.calls ++ [.flush]),
          .ok (counts.adding (turns.map (·.line)))) ∧
      (engine.afterCalls (turns.flatMap Turn.calls)).Accepting := by
  induction turns generalizing engine number counts with
  | nil => exact ⟨h.replayLines_nil 0 number counts, h⟩
  | cons turn turns ih =>
    have hrun := h.run turn.meanwhile
    have hsteps := engine.afterCalls_steps turn.meanwhile
    rw [List.flatMap_cons, List.append_assoc, afterCalls_append, afterCalls_append _ turn.calls,
      List.map_cons]
    cases hparsed : NodeEvent.parsed? turn.line with
    | none =>
      have hevent : turn.event? = none := NodeEvent.event?_eq hparsed
      rw [replayAmid_silent _ _ _ _ hparsed, counts.adding_silent _ hparsed,
        Turn.calls_of_none hevent, hsteps]
      exact ih hrun (number + 1) counts
    | some outcome =>
      cases outcome with
      | error error =>
        have hevent : turn.event? = none := NodeEvent.event?_eq hparsed
        rw [replayAmid_malformed _ _ _ _ hparsed, counts.adding_malformed _ hparsed,
          Turn.calls_of_none hevent, hsteps]
        exact ih hrun (number + 1) _
      | ok event =>
        have hevent : turn.event? = some event := NodeEvent.event?_eq hparsed
        obtain ⟨happly, haccepting⟩ := hrun.apply turn.now event
        rw [replayAmid_event _ _ _ _ hparsed, counts.adding_event _ hparsed,
          Turn.calls_of_event hevent, afterCalls_append _ (turn.meanwhile.map .step), hsteps, happly]
        exact ih haccepting (number + 1) _

/-! ### An engine that was stopped -/

structure Stopped (engine : Engine α) : Prop where
  closed : engine.intakeOpen = false
  still : engine.phase ≠ .running

private theorem stopped_stop (engine : Engine α) : engine.stop.Stopped := by
  let closed : Engine α := { engine with intakeOpen := false }
  by_cases hrunning : engine.phase = .running
  · have hstop : engine.stop = { closed.settle with phase := .finished } := if_pos hrunning
    have hdrained : closed.settle.Drained := drained_settle hrunning rfl
    rw [hstop]
    exact ⟨hdrained.closed, fun hphase => nomatch hphase⟩
  · have hstop : engine.stop = closed := if_neg hrunning
    rw [hstop]
    exact ⟨rfl, hrunning⟩

private theorem Stopped.run (h : engine.Stopped) (schedule : List Task) :
    engine.run schedule = engine := by
  induction schedule with
  | nil => rfl
  | cons task schedule ih =>
    have hstep : engine.step task = engine := by
      rw [step.eq_def, if_neg h.still]
    rw [Engine.run, List.foldl_cons, hstep]
    exact ih

omit [Scalar α] in
private theorem Stopped.apply (h : engine.Stopped) (now : Int64) (event : NodeEvent) :
    engine.apply now event =
      match event.counters? with
      | some counters => (engine.setVolume counters, true)
      | none => (engine, false) := by
  have hsubmit : ∀ own, engine.submit own = (engine, false) := by
    intro own
    rw [submit, h.closed]
    rfl
  cases event with
  | performance sample receivedAt => exact hsubmit _
  | missingSample => exact hsubmit _
  | queueStatus status => exact hsubmit _
  | volume counters => rfl
  | blockPopped height => exact hsubmit _

/-- The counters of the traffic are taken up to the first event that is refused, and nothing else
changes; without such an event it is the waiting that is refused. -/
theorem Stopped.replayAmid_eq (h : engine.Stopped) (number : Nat) (counts : ReplayCounts)
    (turns : List Turn) :
    engine.replayAmid number counts turns =
      ({ engine with
          volume := (((turns.filterMap Turn.event?).takeWhile NodeEvent.isVolume).filterMap
            NodeEvent.counters?).getLastD engine.volume },
        .error (.engineStopped
          (counts.applied + ((turns.filterMap Turn.event?).takeWhile NodeEvent.isVolume).length))) := by
  induction turns generalizing engine number counts with
  | nil =>
    rw [replayAmid, replayLines, flush_of_closed h.closed]
    rfl
  | cons turn turns ih =>
    have hrun := h.run turn.meanwhile
    cases hparsed : NodeEvent.parsed? turn.line with
    | none =>
      have hevent : turn.event? = none := NodeEvent.event?_eq hparsed
      rw [replayAmid_silent _ _ _ _ hparsed, hrun, List.filterMap_cons_none hevent]
      exact ih h (number + 1) counts
    | some outcome =>
      cases outcome with
      | error error =>
        have hevent : turn.event? = none := NodeEvent.event?_eq hparsed
        rw [replayAmid_malformed _ _ _ _ hparsed, hrun, List.filterMap_cons_none hevent]
        exact ih h (number + 1) _
      | ok event =>
        have hevent : turn.event? = some event := NodeEvent.event?_eq hparsed
        rw [replayAmid_event _ _ _ _ hparsed, hrun, List.filterMap_cons_some hevent, h.apply]
        cases hcounters : event.counters? with
        | none =>
          have hother : ¬event.isVolume := by
            rw [NodeEvent.isVolume, hcounters]
            exact Bool.false_ne_true
          rw [List.takeWhile_cons_of_neg hother]
          rfl
        | some counters =>
          have hvolume : event.isVolume := by
            rw [NodeEvent.isVolume, hcounters]
            rfl
          have hset : (engine.setVolume counters).Stopped := ⟨h.closed, h.still⟩
          rw [List.takeWhile_cons_of_pos hvolume, List.filterMap_cons_some hcounters,
            List.getLastD_cons, List.length_cons, Nat.add_comm (List.length _), ← Nat.add_assoc]
          exact ih hset (number + 1) _

/-! ### Replaying is handing over -/

/-- The engine is as it is after the calls and a flush, which was confirmed, and the replay tells the
counts. -/
structure HandsOver (engine : Engine α) (calls : List Call) (counts : ReplayCounts)
    (result : Engine α × Except ReplayError ReplayCounts) : Prop where
  engine_eq : result.1 = engine.afterCalls (calls ++ [.flush])
  confirmed : (engine.afterCalls calls).flush.2 = .done
  counts_eq : result.2 = .ok counts

private theorem Accepting.handsOver_amid (h : engine.Accepting) (turns : List Turn) :
    engine.HandsOver (turns.flatMap Turn.calls) (ReplayCounts.adding {} (turns.map (·.line)))
      (engine.replayAmid 1 {} turns) := by
  obtain ⟨hreplay, haccepting⟩ := h.replayAmid_eq 1 {} turns
  exact
    { engine_eq := congrArg Prod.fst hreplay
      confirmed := flush_done haccepting.running haccepting.opened
      counts_eq := congrArg Prod.snd hreplay }

private theorem Accepting.handsOver_calm (h : engine.Accepting) (hmeasured : engine.measured = none)
    {turns : List Turn} (hturns : ∀ turn ∈ turns, ∀ task ∈ turn.meanwhile, task.measures = false) :
    engine.HandsOver (turns.filterMap Turn.call?) (ReplayCounts.adding {} (turns.map (·.line)))
      (engine.replayAmid 1 {} turns) := by
  have hquiet : engine.Quiet := ⟨h.running, h.opened, hmeasured⟩
  have hcalm := hquiet.afterCalls_flush (Turn.calm_calls hturns)
  rw [Turn.filter_calls] at hcalm
  have hamid := h.handsOver_amid turns
  have hbare := h.handsOver_amid (turns.map fun turn => { turn with meanwhile := [] })
  rw [Turn.flatMap_calls] at hbare
  exact
    { engine_eq := hamid.engine_eq.trans hcalm
      confirmed := hbare.confirmed
      counts_eq := hamid.counts_eq }

private theorem Accepting.handsOver (h : engine.Accepting) (now : Int64) (text : String) :
    engine.HandsOver (((recordedLines text).filterMap NodeEvent.event?).map (NodeEvent.call now))
      (ReplayCounts.adding {} (recordedLines text))
      (engine.replay now false (some text.toUTF8.data.toList)) := by
  let turns : List Turn := (recordedLines text).map fun line => ⟨[], now, line⟩
  have hamid := h.handsOver_amid turns
  have hbare : (turns.map fun turn => { turn with meanwhile := [] }) = turns := by
    rw [List.map_map]
    rfl
  have hcalls : turns.flatMap Turn.calls =
      ((recordedLines text).filterMap NodeEvent.event?).map (NodeEvent.call now) := by
    rw [← hbare, Turn.flatMap_calls, List.filterMap_map, List.map_filterMap]
    rfl
  have hlines : turns.map (·.line) = recordedLines text := by
    rw [List.map_map]
    exact List.map_id _
  rw [hcalls, hlines] at hamid
  rw [replay_eq_replayAmid]
  exact hamid

def takenStopped (engine : Engine α) (events : List NodeEvent) :
    Engine α × Except ReplayError ReplayCounts :=
  let leading := events.takeWhile NodeEvent.isVolume
  ({ engine with volume := (leading.filterMap NodeEvent.counters?).getLastD engine.volume },
    .error (.engineStopped leading.length))

private theorem Stopped.replayAmid_eq_taken (h : engine.Stopped) {turns : List Turn}
    {lines : List String} (hlines : turns.map (·.line) = lines) :
    engine.replayAmid 1 {} turns = engine.takenStopped (lines.filterMap NodeEvent.event?) := by
  have hevents : turns.filterMap Turn.event? = lines.filterMap NodeEvent.event? := by
    rw [← hlines, List.filterMap_map]
    rfl
  rw [h.replayAmid_eq, hevents, Nat.zero_add]
  rfl

private theorem Stopped.replay_eq_taken (h : engine.Stopped) (now : Int64) (text : String) :
    engine.replay now false (some text.toUTF8.data.toList) =
      engine.takenStopped ((recordedLines text).filterMap NodeEvent.event?) := by
  rw [replay_eq_replayAmid]
  refine h.replayAmid_eq_taken ?_
  rw [List.map_map]
  exact List.map_id _

private theorem replay_interleaving (hengine : engine.Accepting ∨ engine.Stopped) (now : Int64)
    {text longer : String} {extra : List String}
    (h : Interleaving (recordedLines text) extra (recordedLines longer))
    (hextra : ∀ line ∈ extra, NodeEvent.event? line = none) :
    engine.replay now false (some longer.toUTF8.data.toList) =
      ((engine.replay now false (some text.toUTF8.data.toList)).1,
        (engine.replay now false (some text.toUTF8.data.toList)).2.map fun counts =>
          { counts with skipped := counts.skipped + extra.countP NodeEvent.malformed }) := by
  have hevents := h.filterMap_eq hextra
  rcases hengine with haccepting | hstopped
  · have hshort := haccepting.handsOver now text
    have hlong := haccepting.handsOver now longer
    rw [hevents, ReplayCounts.adding_interleaving _ h hextra] at hlong
    rw [hshort.counts_eq]
    exact Prod.ext (hlong.engine_eq.trans hshort.engine_eq.symm) hlong.counts_eq
  · rw [hstopped.replay_eq_taken, hstopped.replay_eq_taken, hevents]
    rfl

/-- Replaying a recording is handing its events over and waiting. A line that is read either is an event,
which is applied, or is malformed, which is counted, or is blank or a comment. The engine ends as after
the calls for the events, whatever steps the tasks take meanwhile; and unless one of these measures, as
if there had been none. Lines without an event can be inserted anywhere. An engine that was stopped takes
the counters of the traffic in front of the first other event, and reports that. -/
theorem replay_hands_over (engine : Engine α) (now : Int64) (text : String) :
    let lines := recordedLines text
    let events := lines.filterMap NodeEvent.event?
    let counts : ReplayCounts := ⟨events.length, lines.countP NodeEvent.malformed⟩
    let replayed := engine.replay now false (some text.toUTF8.data.toList)
    (∀ line ∈ lines, NodeEvent.Silent line ↔
      NodeEvent.event? line = none ∧ NodeEvent.malformed line = false) ∧
    (engine.Accepting →
      engine.HandsOver (events.map (NodeEvent.call now)) counts replayed ∧
      ∀ turns : List Turn, turns.map (·.line) = lines →
        engine.HandsOver (turns.flatMap Turn.calls) counts (engine.replayAmid 1 {} turns) ∧
        (engine.measured = none →
          (∀ turn ∈ turns, ∀ task ∈ turn.meanwhile, task.measures = false) →
          engine.HandsOver (turns.filterMap Turn.call?) counts (engine.replayAmid 1 {} turns))) ∧
    (engine.Stopped →
      replayed = ({ engine with
          volume := ((events.takeWhile NodeEvent.isVolume).filterMap NodeEvent.counters?).getLastD
            engine.volume },
        .error (.engineStopped (events.takeWhile NodeEvent.isVolume).length)) ∧
      replayed.1.dashboard = engine.dashboard ∧
      ∀ turns : List Turn, turns.map (·.line) = lines → engine.replayAmid 1 {} turns = replayed) ∧
    (engine.Accepting ∨ engine.Stopped → ∀ (longer : String) (extra : List String),
      Interleaving lines extra (recordedLines longer) →
      (∀ line ∈ extra, NodeEvent.event? line = none) →
      engine.replay now false (some longer.toUTF8.data.toList) =
        (replayed.1, replayed.2.map fun counts =>
          { counts with skipped := counts.skipped + extra.countP NodeEvent.malformed })) := by
  intro lines events counts replayed
  have hcounts : ReplayCounts.adding {} lines = counts := by
    rw [ReplayCounts.adding, Nat.zero_add, Nat.zero_add]
  refine ⟨fun line _ => NodeEvent.silent_iff line, fun h => ?_, fun h => ?_, fun h => ?_⟩
  · have hplain := h.handsOver now text
    rw [hcounts] at hplain
    refine ⟨hplain, fun turns hlines => ⟨?_, fun hmeasured hturns => ?_⟩⟩
    · have hamid := h.handsOver_amid turns
      rw [hlines, hcounts] at hamid
      exact hamid
    · have hcalm := h.handsOver_calm hmeasured hturns
      rw [hlines, hcounts] at hcalm
      exact hcalm
  · have hreplayed : replayed = engine.takenStopped events := h.replay_eq_taken now text
    rw [hreplayed]
    exact ⟨rfl, rfl, fun turns hlines => h.replayAmid_eq_taken hlines⟩
  · intro longer extra hlonger hextra
    exact replay_interleaving h now hlonger hextra

/-- Counters of the traffic, a missing sample and more counters, once with a malformed line, a blank one
and a comment among them, and once without; into an engine that runs, and into one that was stopped. -/
theorem replay_hands_over_traffic :
    let config : EngineConfig := { chartHistory := 2, speedHistory := 2, window := 1 }
    let short := "[\"volume\",1,2]\n[\"missing_sample\"]\n[\"volume\",3,4]"
    let long := "# traffic\n[\"volume\",1,2]\r\n\n[\"missing_sample\"]\nnothing\n[\"volume\",3,4]\n"
    let calls : List Call := [.setVolume ⟨1, 2⟩, .submit (.sample none), .setVolume ⟨3, 4⟩]
    let turns : List Turn := [⟨[.commit], 5, "[\"volume\",1,2]"⟩,
      ⟨[.rest, .ingestion], 6, "[\"missing_sample\"]"⟩, ⟨[.ingestion, .report], 7, "[\"volume\",3,4]"⟩]
    ∃ fresh running : Engine Rat, build config = .ok fresh ∧ fresh.start = .ok running ∧
      running.HandsOver calls ⟨3, 0⟩ (running.replay 0 false (some short.toUTF8.data.toList)) ∧
      running.HandsOver calls ⟨3, 0⟩ (running.replayAmid 1 {} turns) ∧
      (running.replay 0 false (some long.toUTF8.data.toList)).2 = .ok ⟨3, 1⟩ ∧
      (running.replay 0 false (some long.toUTF8.data.toList)).1 =
        (running.replay 0 false (some short.toUTF8.data.toList)).1 ∧
      running.stop.replay 0 false (some short.toUTF8.data.toList) =
        ({ running.stop with volume := ⟨1, 2⟩ }, .error (.engineStopped 1)) := by
  intro config short long calls turns
  have hshort : recordedLines short =
      ["[\"volume\",1,2]", "[\"missing_sample\"]", "[\"volume\",3,4]"] := by
    decide +kernel
  have hlong : recordedLines long =
      ["# traffic", "[\"volume\",1,2]", "", "[\"missing_sample\"]", "nothing", "[\"volume\",3,4]"] := by
    decide +kernel
  have hevents : (recordedLines short).filterMap NodeEvent.event? =
      [.volume ⟨1, 2⟩, .missingSample, .volume ⟨3, 4⟩] := by
    rw [hshort]
    cbv
  have hcounts : (recordedLines short).countP NodeEvent.malformed = 0 := by
    rw [hshort]
    cbv
  have hextra : ∀ line ∈ ["# traffic", "", "nothing"], NodeEvent.event? line = none := by
    have hnone : ["# traffic", "", "nothing"].filterMap NodeEvent.event? = [] := by
      cbv
    exact List.filterMap_eq_nil_iff.1 hnone
  have hskipped : ["# traffic", "", "nothing"].countP NodeEvent.malformed = 1 := by
    cbv
  have hlonger : Interleaving (recordedLines short) ["# traffic", "", "nothing"]
      (recordedLines long) := by
    rw [hshort, hlong]
    exact .right (.left (.right (.left (.right (.left .nil)))))
  have hturns : turns.map (·.line) = recordedLines short := by
    rw [hshort]
    rfl
  have hcalls : turns.filterMap Turn.call? = calls := by
    simp only [turns, calls]
    cbv
  have hcalm : ∀ turn ∈ turns, ∀ task ∈ turn.meanwhile, task.measures = false := by
    decide +kernel
  obtain ⟨fresh, -, hbuild, -⟩ :=
    exists_build (α := Rat) (show 0 < config.window by decide) (by decide)
  have hstart : ∃ running, fresh.start = .ok running ∧ running.Accepting ∧ running.measured = none := by
    obtain ⟨set, -, hfresh⟩ := exists_of_bind hbuild
    cases hfresh
    exact ⟨_, rfl, ⟨rfl, rfl⟩, rfl⟩
  obtain ⟨running, hstart, haccepting, hmeasured⟩ := hstart
  obtain ⟨-, hruns, -, hinserted⟩ := replay_hands_over running 0 short
  obtain ⟨hplain, hturning⟩ := hruns haccepting
  obtain ⟨-, hcalmly⟩ := hturning turns hturns
  obtain ⟨-, -, hstops, -⟩ := replay_hands_over running.stop 0 short
  obtain ⟨hstopped, -, -⟩ := hstops running.stopped_stop
  have hlonger := hinserted (.inl haccepting) long _ hlonger hextra
  have hamid := hcalmly hmeasured hcalm
  rw [hcalls] at hamid
  rw [hevents, hcounts] at hplain hamid
  obtain ⟨hsame, hresult⟩ := Prod.ext_iff.1 hlonger
  rw [hskipped, hplain.counts_eq] at hresult
  rw [hevents] at hstopped
  exact ⟨fresh, running, hbuild, hstart, hplain, hamid, hresult, hsame, hstopped⟩

end Engine

end NodeTelemetry
