import GdbControl.Session.Operation

/-!
What the operations of a session do to its state, as functions of the state. An operation changes the
state before it fails, so each of these functions describes both outcomes: the effect of a command
that is sent is the same whether or not gdb can be written to, but for the line that reaches gdb.
-/

namespace GdbControl

namespace Session

def arrive (session : Session) (bytes : Bytes) : Session :=
  { session.log (.arrived bytes) with held := session.held ++ bytes }

def hold (session : Session) (held : Bytes) (midLine : Bool) : Session :=
  { session with held := held, midLine := midLine }

def hear (session : Session) (text : String) : Session :=
  if text = "" then session
  else
    let told := session.log (.emitted session.sink text)
    match session.sink with
    | .console => { told with display := told.display.appendTranscript text }
    | .program => { told with display := told.display.appendProgramOutput text }
    | .gathering => { told with gathered := told.gathered ++ text }
    | .beforeOutput | .afterOutput | .closed => told

/-- Part of the held output is passed on, and the rest stays. -/
def pass (session : Session) (text : String) (held : Bytes) (midLine : Bool) : Session :=
  (session.hold held midLine).hear text

def complain (session : Session) (message : String) : Session :=
  { session with display := session.display.report message }.log (.reported message)

/-- A command goes out. gdb gets the line only if it still reads its input. -/
def sendOut (session : Session) (tier : Option Tier) (command : Command) : Session :=
  let sent := (session.release.launch command).log (.sent tier command)
  if session.process.pipeBroken then sent else sent.log (.wrote command.written)

/-- A command is enqueued, or goes out past its queue. -/
def accept (session : Session) (tier : Tier) (command : Command) : Session :=
  let heard := session.log (.accepted tier command)
  if session.mayWrite tier then heard.sendOut (some tier) command else heard.push tier command

/-- gdb is at its prompt. -/
def poll (session : Session) : Session :=
  let ready := { session with questioned := false }.release
  match session.urgent, session.idle with
  | command :: rest, _ => { ready with urgent := rest }.sendOut (some .urgent) command
  | [], command :: rest => { ready with idle := rest }.sendOut (some .idle) command
  | [], [] =>
    let idled := { ready with prompting := true }.log .idled
    { idled with display := idled.display.markReady }

/-- gdb asks a question. -/
def ask (session : Session) : Session :=
  let asked := { session with questioned := true }
  match session.urgent with
  | command :: rest => { asked with urgent := rest }.sendOut (some .urgent) command
  | [] => { asked with prompting := true }

/-- A phase is announced. A sink that cannot accept it is reset. -/
def enter (session : Session) (phase : Phase) : Session :=
  { session with sink := (session.sink.after? phase).getD .console }

/-- A view gets the text that was fetched for it. -/
def finish (session : Session) (view text : String) : Session :=
  let settled := (session.settle view).log (.replaced view text)
  let shown := { settled with display := settled.display.setBuffer view text }.log (.refreshed view)
  { shown with display := shown.display.countRefresh view }

/-- The output of the command in flight is complete. -/
def fulfil (session : Session) : Session :=
  let done := { session with sink := .afterOutput, completed := true }
  match session.inFlight with
  | none => done
  | some command =>
    match command.handler? with
    | none => done
    | some handler =>
      let told := done.log (.completed command session.gathered)
      match handler with
      | .refresh view => told.finish view session.gathered
      | _ => told

/-- Where the reading of gdb's output stands. -/
def position (session : Session) : Bytes × Bool := (session.held, session.midLine)

/-- Whether the unfinished line is kept back: there is none, or it may still begin a marker. -/
def withholds (session : Session) : Bool :=
  let afterNewline := session.held.head? = some Stream.newline
  let line := if afterNewline then session.held.drop 1 else session.held
  line.isEmpty || ((afterNewline || !session.midLine) && Stream.mayBeginMarker line)

/-- The outcome of an operation that wrote to gdb. -/
def outcome (session : Session) (value : α) : EStateM.Result Fault Session α :=
  if session.process.pipeBroken then .error .brokenPipe session else .ok value session

/-! Releasing the command in flight changes that command and who waits, and nothing else. A command
that goes out changes in addition the sink and the record. -/

theorem release_eq (session : Session) :
    session.release =
      { session with inFlight := none, awaiting := session.release.awaiting } := by
  unfold release
  split
  · split <;> rfl
  · rfl

@[simp] theorem release_process (session : Session) :
    session.release.process = session.process := by rw [release_eq]

@[simp] theorem release_views (session : Session) : session.release.views = session.views := by
  rw [release_eq]

@[simp] theorem release_urgent (session : Session) :
    session.release.urgent = session.urgent := by rw [release_eq]

@[simp] theorem release_idle (session : Session) : session.release.idle = session.idle := by
  rw [release_eq]

@[simp] theorem release_in_flight (session : Session) : session.release.inFlight = none := by
  rw [release_eq]

@[simp] theorem release_prompting (session : Session) :
    session.release.prompting = session.prompting := by rw [release_eq]

@[simp] theorem release_questioned (session : Session) :
    session.release.questioned = session.questioned := by rw [release_eq]

@[simp] theorem release_completed (session : Session) :
    session.release.completed = session.completed := by rw [release_eq]

@[simp] theorem release_sink (session : Session) : session.release.sink = session.sink := by
  rw [release_eq]

@[simp] theorem release_display (session : Session) :
    session.release.display = session.display := by rw [release_eq]

@[simp] theorem release_gathered (session : Session) :
    session.release.gathered = session.gathered := by rw [release_eq]

@[simp] theorem release_journal (session : Session) :
    session.release.journal = session.journal := by rw [release_eq]

theorem release_position (session : Session) : session.release.position = session.position := by
  rw [release_eq]
  rfl

/-- The sink that a command finds when it goes out. -/
def openingSink (command : Command) : Sink :=
  if command.handler?.isSome then .beforeOutput else .console

/-- What is recorded when a command goes out. -/
def sending (session : Session) (tier : Option Tier) (command : Command) : List Event :=
  .sent tier command :: if session.process.pipeBroken then [] else [.wrote command.written]

theorem send_out_eq (session : Session) (tier : Option Tier) (command : Command) :
    session.sendOut tier command =
      { session.release with
        inFlight := some command
        completed := false
        prompting := false
        sink := openingSink command
        gathered := if command.handler?.isSome then "" else session.release.gathered
        journal := session.journal ++ session.sending tier command } := by
  unfold sendOut launch openingSink sending
  cases command.handler? <;> cases session.process.pipeBroken <;> simp [log]

section SendOut

variable (session : Session) (tier : Option Tier) (command : Command)

@[simp] theorem send_out_process : (session.sendOut tier command).process = session.process := by
  simp [send_out_eq]

@[simp] theorem send_out_views : (session.sendOut tier command).views = session.views := by
  simp [send_out_eq]

@[simp] theorem send_out_display : (session.sendOut tier command).display = session.display := by
  simp [send_out_eq]

@[simp] theorem send_out_urgent : (session.sendOut tier command).urgent = session.urgent := by
  simp [send_out_eq]

@[simp] theorem send_out_idle : (session.sendOut tier command).idle = session.idle := by
  simp [send_out_eq]

@[simp] theorem send_out_in_flight : (session.sendOut tier command).inFlight = some command := by
  simp [send_out_eq]

@[simp] theorem send_out_completed : (session.sendOut tier command).completed = false := by
  simp [send_out_eq]

@[simp] theorem send_out_prompting : (session.sendOut tier command).prompting = false := by
  simp [send_out_eq]

@[simp] theorem send_out_questioned :
    (session.sendOut tier command).questioned = session.questioned := by
  simp [send_out_eq]

@[simp] theorem send_out_sink : (session.sendOut tier command).sink = openingSink command := by
  simp [send_out_eq]

@[simp] theorem send_out_awaiting :
    (session.sendOut tier command).awaiting = session.release.awaiting := by
  simp [send_out_eq]

@[simp] theorem send_out_journal :
    (session.sendOut tier command).journal = session.journal ++ session.sending tier command := by
  simp [send_out_eq]

theorem send_out_position : (session.sendOut tier command).position = session.position := by
  rw [send_out_eq]
  exact session.release_position

end SendOut

theorem accept_position (session : Session) (tier : Tier) (command : Command) :
    (session.accept tier command).position = session.position := by
  unfold accept
  split
  · exact send_out_position _ _ _
  · cases tier <;> rfl

theorem poll_position (session : Session) : session.poll.position = session.position := by
  have ready := ({ session with questioned := false } : Session).release_position
  unfold poll
  split
  · exact (send_out_position _ _ _).trans ready
  · exact (send_out_position _ _ _).trans ready
  · exact ready

theorem ask_position (session : Session) : session.ask.position = session.position := by
  unfold ask
  split
  · exact send_out_position _ _ _
  · rfl

theorem hear_shape (session : Session) (text : String) :
    ∃ display gathered events, session.hear text = { session with
        display := display
        gathered := gathered
        journal := session.journal ++ events } ∧
      ∀ event ∈ events, event = .emitted session.sink text := by
  by_cases silent : text = ""
  · exact ⟨session.display, session.gathered, [], by simp [hear, silent], by simp⟩
  · have told : ∀ event ∈ [Event.emitted session.sink text], event = .emitted session.sink text :=
      fun _ member => List.mem_singleton.mp member
    unfold hear
    rw [if_neg silent]
    dsimp only
    split <;> exact ⟨_, _, _, rfl, told⟩

-- The output becomes the text of a view, or nothing of it is kept by the session.
theorem fulfil_cases (session : Session) :
    ((∀ command ∈ session.inFlight, ∀ view, command.handler? ≠ some (.refresh view)) ∧
      ∃ events, (events = [] ∨ ∃ command, events = [.completed command session.gathered]) ∧
        session.fulfil = { session with
          sink := .afterOutput
          completed := true
          journal := session.journal ++ events }) ∨
    ∃ command view, session.inFlight = some command ∧ command.handler? = some (.refresh view) ∧
      session.fulfil = { session with
        sink := .afterOutput
        completed := true
        awaiting := session.awaiting.filter (· != view)
        display := (session.display.setBuffer view session.gathered).countRefresh view
        journal := session.journal ++ [.completed command session.gathered,
          .replaced view session.gathered, .refreshed view] } := by
  unfold fulfil
  cases flight : session.inFlight with
  | none => exact .inl ⟨by simp, [], .inl rfl, by simp⟩
  | some command =>
    cases handled : command.handler? with
    | none => exact .inl ⟨by simp [handled], [], .inl rfl, by simp [handled]⟩
    | some handler =>
      cases handler with
      | refresh view =>
        exact .inr ⟨command, view, rfl, handled, by simp [handled, finish, log, settle]⟩
      | discard | routine =>
        refine .inl ⟨by simp [handled], [.completed command session.gathered], .inr ⟨command, rfl⟩, ?_⟩
        simp [handled, log]

theorem hear_position (session : Session) (text : String) :
    (session.hear text).position = session.position := by
  obtain ⟨display, gathered, events, same, -⟩ := session.hear_shape text
  rw [same]
  rfl

theorem fulfil_position (session : Session) : session.fulfil.position = session.position := by
  rcases session.fulfil_cases with ⟨-, events, -, same⟩ | ⟨command, view, -, -, same⟩ <;>
    rw [same] <;> rfl

end Session

namespace Engine

theorem run_record (event : Event) (session : Session) :
    (record event).run session = .ok () (session.log event) := rfl

theorem run_require_open (session : Session) :
    requireOpen.run session =
      if session.isClosed then .error .tornDown session else .ok () session := by
  simp only [requireOpen, EStateM.run_bind, EStateM.run_get]
  split <;> simp

theorem run_emit (text : String) (session : Session) :
    (emit text).run session = .ok () (session.hear text) := by
  by_cases silent : text = ""
  · simp [emit, silent, Session.hear]
  · cases sink : session.sink <;>
      simp [emit, silent, Session.hear, sink, record, onDisplay, Session.log]

theorem launch_process (session : Session) (command : Command) :
    (session.launch command).process = session.process := by
  unfold Session.launch
  split <;> rfl

theorem run_send (tier : Option Tier) (command : Command) (session : Session) :
    (send tier command).run session = (session.sendOut tier command).outcome () := by
  by_cases broken : session.process.pipeBroken <;>
    simp [send, write, record, Session.sendOut, Session.outcome, Session.log,
      launch_process, broken]

theorem run_take_first (tier : Tier) (session : Session) :
    (takeFirst tier).run session =
      match session.queue tier with
      | [] => .error (.queueEmpty tier.name) session
      | command :: rest => .ok command (session.withQueue tier rest) := by
  simp only [takeFirst, EStateM.run_bind, EStateM.run_get]
  cases session.queue tier <;> rfl

theorem run_modify_bind (change : Session → Session) (next : Engine α) (session : Session) :
    (do modify change; next).run session = next.run (change session) := rfl

theorem run_get_bind (next : Session → Engine α) (session : Session) :
    (do next (← get)).run session = (next session).run session := rfl

theorem run_catch {σ : Type} (operation : EStateM Fault σ α) (handler : Fault → EStateM Fault σ α)
    (state : σ) :
    (tryCatch operation handler).run state =
      match operation.run state with
      | .ok value later => .ok value later
      | .error fault later => (handler fault).run later := by
  change EStateM.tryCatch operation handler state = _
  unfold EStateM.run
  cases done : operation state with
  | ok value later =>
    delta EStateM.tryCatch
    rw [done]
  | error fault later =>
    delta EStateM.tryCatch
    rw [done]
    rfl

/-- The value of an operation and the state after it, if it succeeds. -/
def given? {σ : Type} : EStateM.Result Fault σ α → Option (α × σ)
  | .ok value later => some (value, later)
  | .error _ _ => none

theorem given_ok {σ : Type} {result : EStateM.Result Fault σ α} {value : α} {later : σ}
    (given : given? result = some (value, later)) : result = .ok value later := by
  cases result with
  | ok => cases given; rfl
  | error => cases given

-- Of two operations in sequence that succeed, both succeed.
theorem bind_ok {σ : Type} {operation : EStateM Fault σ α} {next : α → EStateM Fault σ β}
    {state later : σ} {result : β} (done : (operation >>= next).run state = .ok result later) :
    ∃ value middle, operation.run state = .ok value middle ∧
      (next value).run middle = .ok result later := by
  rw [EStateM.run_bind] at done
  cases first : operation.run state with
  | ok value middle =>
    rw [first] at done
    exact ⟨value, middle, rfl, done⟩
  | error fault middle =>
    rw [first] at done
    cases done

theorem run_enqueue (tier : Tier) (command : Command) (session : Session) :
    (enqueue tier command).run session =
      if session.isClosed then .error .tornDown session
      else if session.mayWrite tier then (session.accept tier command).outcome true
      else .ok false (session.accept tier command) := by
  have same : (session.log (.accepted tier command)).mayWrite tier = session.mayWrite tier := by
    cases tier <;> rfl
  by_cases closed : session.isClosed
  · simp [enqueue, run_require_open, closed]
  · simp only [enqueue, EStateM.run_bind, run_require_open, closed, run_record, EStateM.run_get,
      if_false, Bool.false_eq_true, same]
    by_cases ready : session.mayWrite tier
    · simp only [ready, if_true, EStateM.run_bind, run_send, Session.accept]
      generalize (session.log (.accepted tier command)).sendOut (some tier) command = sent
      cases broken : sent.process.pipeBroken <;> simp [Session.outcome, broken]
    · simp only [ready, Bool.false_eq_true, if_false, Session.accept]
      rfl

theorem run_request_refresh (id : String) (session : Session) :
    (requestRefresh id).run session =
      if session.isClosed then .error .tornDown session
      else
        match session.views.find id with
        | .error fault => .error fault session
        | .ok view =>
          if session.isAwaiting id || !session.demands view then .ok false session
          else
            match (enqueue .idle view.refreshCommand).run (session.await id) with
            | .ok _ later => .ok true later
            | .error fault later => .error fault later := by
  rw [requestRefresh, EStateM.run_bind, run_require_open]
  cases session.isClosed with
  | true => rfl
  | false =>
    simp only [Bool.false_eq_true, if_false, EStateM.run_bind, EStateM.run_get]
    cases session.views.find id with
    | error fault => rfl
    | ok view =>
      simp only [lift, EStateM.run_pure]
      split
      · rfl
      · simp only [EStateM.run_bind, EStateM.run_set, EStateM.run_pure]
        cases (enqueue .idle view.refreshCommand).run (session.await id) <;> rfl

theorem run_send_next {tier : Tier} {command : Command} {rest : List Command} {session : Session}
    (waiting : session.queue tier = command :: rest) :
    (sendNext tier).run session =
      ((session.withQueue tier rest).sendOut (some tier) command).outcome () := by
  simp only [sendNext, EStateM.run_bind, run_take_first, waiting, run_send]

theorem run_answer_prompt (session : Session) :
    answerPrompt.run session =
      if session.urgent.isEmpty && session.idle.isEmpty then .ok () session.poll
      else session.poll.outcome () := by
  have urgent := Session.release_urgent { session with questioned := false }
  have idle := Session.release_idle { session with questioned := false }
  rw [answerPrompt, run_modify_bind, run_get_bind]
  unfold Session.poll
  generalize ({ session with questioned := false } : Session).release = ready at urgent idle ⊢
  have noUrgent : ready.urgent.isEmpty = session.urgent.isEmpty := by rw [urgent]
  have noIdle : ready.idle.isEmpty = session.idle.isEmpty := by rw [idle]
  rw [noUrgent, noIdle]
  cases high : session.urgent with
  | cons command rest =>
    have first : ready.queue .urgent = command :: rest := urgent.trans high
    exact run_send_next first
  | nil =>
    cases low : session.idle with
    | cons command rest =>
      have first : ready.queue .idle = command :: rest := idle.trans low
      exact run_send_next first
    | nil => rfl

theorem run_answer_question (session : Session) :
    answerQuestion.run session =
      if session.urgent.isEmpty then .ok () session.ask else session.ask.outcome () := by
  have urgent : ({ session with questioned := true } : Session).urgent = session.urgent := rfl
  rw [answerQuestion, run_modify_bind, run_get_bind]
  unfold Session.ask
  generalize ({ session with questioned := true } : Session) = asked at urgent ⊢
  have noUrgent : asked.urgent.isEmpty = session.urgent.isEmpty := by rw [urgent]
  rw [noUrgent]
  cases high : session.urgent with
  | cons command rest =>
    have first : asked.queue .urgent = command :: rest := urgent.trans high
    exact run_send_next first
  | nil => rfl

theorem run_emit_lines (session : Session) :
    emitLines.run session =
      match Stream.lastLine? session.held with
      | none => .ok () session
      | some (lines, tail) => .ok () (session.pass (Utf8.decode lines) tail false) := by
  simp only [emitLines, EStateM.run_bind, EStateM.run_get]
  cases Stream.lastLine? session.held with
  | none => rfl
  | some parts => exact run_emit (Utf8.decode parts.1) (session.hold parts.2 false)

theorem run_accept_cut (complete : Completion) (cut : Stream.Cut) (session : Session) :
    (acceptCut complete cut).run session =
      (reactOrReport complete cut.marker).run
        (session.pass (Utf8.decode cut.before) cut.after false) := by
  rw [acceptCut, run_modify_bind, EStateM.run_bind, run_emit]
  rfl

theorem drain_eq (complete : Completion) (session : Session) :
    drain complete session =
      match Stream.firstMarker? (!session.midLine) session.held with
      | none => emitLines.run session
      | some cut =>
        match (acceptCut complete cut).run session with
        | .error fault later => .error fault later
        | .ok _ later =>
          if later.held.length < session.held.length then drain complete later
          else emitLines.run later := by
  exact drain.eq_1 complete session

theorem run_ingest (complete : Completion) (bytes : Bytes) (session : Session) :
    (ingest complete bytes).run session =
      if session.isClosed then .error .tornDown session
      else
        match drain complete (session.arrive bytes) with
        | .ok _ later => .ok () later
        | .error fault later =>
          .error fault (if fault matches .queueEmpty _ then later.close else later) := by
  rw [ingest, EStateM.run_bind, run_require_open]
  cases session.isClosed with
  | true => rfl
  | false =>
    simp only [Bool.false_eq_true, if_false, record]
    rw [run_modify_bind, run_modify_bind]
    apply (run_catch (drain complete) _ _).trans
    cases drained : drain complete (session.arrive bytes) with
    | ok value later =>
      have same : EStateM.run (drain complete)
          { session.log (.arrived bytes) with
            held := (session.log (.arrived bytes)).held ++ bytes } = .ok value later := drained
      simp only [same]
    | error fault later =>
      have same : EStateM.run (drain complete)
          { session.log (.arrived bytes) with
            held := (session.log (.arrived bytes)).held ++ bytes } = .error fault later := drained
      simp only [same]
      cases fault <;> rfl

theorem run_flush (session : Session) :
    flush.run session =
      if session.isClosed then .error .tornDown session
      else if session.withholds then .ok false session
      else if (Utf8.decodeOpen session.held).1 = "" then .ok false session
      else .ok true (session.pass (Utf8.decodeOpen session.held).1
        (Utf8.decodeOpen session.held).2 true) := by
  rw [flush, EStateM.run_bind, run_require_open]
  cases session.isClosed with
  | true => rfl
  | false =>
    simp only [Bool.false_eq_true, if_false, EStateM.run_bind, EStateM.run_get]
    change EStateM.run (if session.withholds then _ else _) session = _
    cases session.withholds with
    | true => rfl
    | false =>
      simp only [Bool.false_eq_true, if_false, beq_iff_eq]
      split
      · rfl
      · rw [EStateM.run_bind, EStateM.run_set]
        simp only [EStateM.run_bind, run_emit]
        rfl

theorem run_finish_refresh (view text : String) (session : Session) :
    (finishRefresh view text).run session = .ok () (session.finish view text) := rfl

theorem run_enter (phase : Phase) (tag : String) (session : Session) :
    (enter phase tag).run session =
      if (session.sink.after? phase).isSome then .ok () (session.enter phase)
      else .error (.outOfPhase tag session.sink.name) (session.enter phase) := by
  simp only [enter, EStateM.run_bind, EStateM.run_get]
  cases moved : session.sink.after? phase <;> simp [Session.enter, moved]

theorem run_pre_prompt_elsewhere (complete : Completion) (tag : String) {session : Session}
    (elsewhere : session.sink ≠ .gathering) :
    (enterPrePrompt complete tag).run session = (enter .prePrompt tag).run session := by
  simp only [enterPrePrompt, EStateM.run_bind, EStateM.run_get, elsewhere, if_false]
  cases (enter .prePrompt tag).run session <;> rfl

theorem run_pre_prompt_gathering (complete : Completion) (tag : String) {session : Session}
    (gathering : session.sink = .gathering) :
    (enterPrePrompt complete tag).run session =
      let done : Session := { session with sink := .afterOutput, completed := true }
      match session.inFlight.bind fun command => command.handler?.map (command, ·) with
      | none => .ok () done
      | some (command, handler) =>
        (complete handler session.gathered).run (done.log (.completed command session.gathered)) := by
  have entered : (enter .prePrompt tag).run session =
      .ok () { session with sink := .afterOutput } := by
    rw [run_enter]
    simp [Session.enter, gathering, Sink.after?]
  simp only [enterPrePrompt, EStateM.run_bind, EStateM.run_get, entered, gathering, if_true,
    EStateM.run_modify]
  cases session.inFlight with
  | none => rfl
  | some command => cases handled : command.handler? <;> simp [handled, run_record]

theorem complete_discard (depth : Nat) (output : String) :
    complete depth .discard output = pure () := by
  cases depth <;> rfl

theorem complete_refresh (depth : Nat) (view output : String) :
    complete depth (.refresh view) output = finishRefresh view output := by
  cases depth <;> rfl

-- The prompt is answered whether or not its phase was right. A fault met in answering it stands
-- in place of the wrong phase.
theorem run_enter_prompt (tag : String) (session : Session) :
    (enterPrompt tag).run session =
      match (enter .prompt tag).run session with
      | .ok _ later => answerPrompt.run later
      | .error fault later =>
        match answerPrompt.run later with
        | .ok _ last => .error fault last
        | .error other last => .error other last := by
  simp only [enterPrompt, tryFinally, tryFinally', EStateM.run, Functor.map, EStateM.map]
  cases enter .prompt tag session with
  | ok value later =>
    dsimp only
    cases answerPrompt later <;> rfl
  | error fault later =>
    dsimp only
    cases answerPrompt later <;> rfl

end Engine
end GdbControl
