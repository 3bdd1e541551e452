import GdbControl.Proofs.Runs

/-!
Operations other than the intake are blind to it: they look neither at what is held nor at what
arrived or was passed on. So sessions that differ in no more than that answer alike, and end in
sessions that differ in no more than that.
-/

namespace GdbControl

/-- An event of the intake. How many of these there are depends on how output is divided. -/
def Event.isIntake : Event → Bool
  | .arrived _ | .emitted _ _ => true
  | _ => false

namespace Session

/-- A session without the traces of its intake. -/
def bare (session : Session) : Session :=
  { session with
    held := []
    midLine := false
    journal := session.journal.filter (!·.isIntake) }

section Bare

variable (session : Session)

@[simp] theorem bare_process : session.bare.process = session.process := rfl

@[simp] theorem bare_views : session.bare.views = session.views := rfl

@[simp] theorem bare_is_awaiting (view : String) :
    session.bare.isAwaiting view = session.isAwaiting view := rfl

@[simp] theorem bare_urgent : session.bare.urgent = session.urgent := rfl

@[simp] theorem bare_idle : session.bare.idle = session.idle := rfl

@[simp] theorem bare_sink : session.bare.sink = session.sink := rfl

@[simp] theorem bare_in_flight : session.bare.inFlight = session.inFlight := rfl

@[simp] theorem bare_completed : session.bare.completed = session.completed := rfl

@[simp] theorem bare_closed : session.bare.isClosed = session.isClosed := rfl

theorem bare_bare : session.bare.bare = session.bare := by
  simp [bare, List.filter_filter]

theorem bare_log {event : Event} (plain : event.isIntake = false) :
    session.bare.log event = (session.log event).bare := by
  simp [bare, log, List.filter_append, plain]

theorem bare_hold (held : Bytes) (midLine : Bool) : (session.hold held midLine).bare = session.bare :=
  rfl

theorem bare_arrive (bytes : Bytes) : (session.arrive bytes).bare = session.bare := by
  simp [bare, arrive, log, Event.isIntake]

theorem bare_release : session.bare.release = session.release.bare := by
  unfold release
  rw [bare_in_flight, bare_completed]
  cases session.inFlight.bind Command.view? with
  | none => rfl
  | some view => cases session.completed <;> rfl

theorem bare_launch (command : Command) :
    session.bare.launch command = (session.launch command).bare := by
  unfold launch
  cases command.handler? <;> rfl

theorem bare_send_out (tier : Option Tier) (command : Command) :
    session.bare.sendOut tier command = (session.sendOut tier command).bare := by
  unfold sendOut
  rw [bare_release, bare_launch, bare_log _ rfl, bare_process]
  cases session.process.pipeBroken with
  | true => rfl
  | false => exact bare_log _ rfl

theorem bare_push (tier : Tier) (command : Command) :
    session.bare.push tier command = (session.push tier command).bare := by
  cases tier <;> rfl

theorem bare_accept (tier : Tier) (command : Command) :
    session.bare.accept tier command = (session.accept tier command).bare := by
  have ready : session.bare.mayWrite tier = session.mayWrite tier := by
    cases tier <;> rfl
  have told : session.bare.log (.accepted tier command) =
      (session.log (.accepted tier command)).bare := bare_log _ rfl
  unfold accept
  rw [told, ready]
  cases session.mayWrite tier with
  | true => exact bare_send_out _ _ _
  | false => exact bare_push _ _ _

theorem bare_poll : session.bare.poll = session.poll.bare := by
  have ready : ({ session.bare with questioned := false } : Session).release =
      ({ session with questioned := false } : Session).release.bare :=
    bare_release { session with questioned := false }
  unfold poll
  rw [ready, bare_urgent, bare_idle]
  generalize ({ session with questioned := false } : Session).release = released
  cases session.urgent with
  | cons command rest =>
    exact bare_send_out { released with urgent := rest } (some .urgent) command
  | nil =>
    cases session.idle with
    | cons command rest =>
      exact bare_send_out { released with idle := rest } (some .idle) command
    | nil => simp [bare, log, Event.isIntake]

theorem bare_ask : session.bare.ask = session.ask.bare := by
  have asked : ({ session.bare with questioned := true } : Session) =
      ({ session with questioned := true } : Session).bare := rfl
  unfold ask
  rw [asked, bare_urgent]
  generalize ({ session with questioned := true } : Session) = question
  cases session.urgent with
  | cons command rest =>
    exact bare_send_out { question with urgent := rest } (some .urgent) command
  | nil => rfl

theorem bare_enter (phase : Phase) : session.bare.enter phase = (session.enter phase).bare := rfl

theorem bare_complain (message : String) :
    session.bare.complain message = (session.complain message).bare := by
  simp [complain, bare, log, Event.isIntake]

theorem bare_finish (view text : String) :
    session.bare.finish view text = (session.finish view text).bare := by
  simp [finish, settle, bare, log, Event.isIntake]

theorem bare_close : session.bare.close = session.close.bare := by
  unfold close
  rw [bare_closed]
  cases session.isClosed <;> rfl

theorem bare_hear (text : String) : (session.bare.hear text).bare = (session.hear text).bare := by
  unfold hear
  split
  · exact session.bare_bare
  · rw [bare_sink]
    cases session.sink <;> simp [bare, log, Event.isIntake, List.filter_filter]

end Bare

end Session

/-- Operations other than the intake. -/
def Operation.isQuiet : Operation → Bool
  | .ingest _ | .flush => false
  | _ => true

theorem bare_within {allowed : Operation → Bool} {session : Session} :
    session.bare.Within allowed ↔ session.Within allowed :=
  ⟨fun inside => ⟨inside.commands, inside.views⟩, fun inside => ⟨inside.commands, inside.views⟩⟩

theorem within_of_bare {allowed : Operation → Bool} {first second : Session}
    (same : first.bare = second.bare) (inside : first.Within allowed) : second.Within allowed :=
  bare_within.mp (same ▸ bare_within.mpr inside)

namespace Engine

/-- A result without the traces of the intake. -/
def bareResult : EStateM.Result Fault Session α → EStateM.Result Fault Session α
  | .ok value later => .ok value later.bare
  | .error fault later => .error fault later.bare

/-- An operation that leaves the traces of the intake alone, and is blind to them. -/
def Commutes (operation : Engine α) : Prop :=
  ∀ session : Session, operation.run session.bare = bareResult (operation.run session)

/-- An operation that is blind to the traces of the intake, though it may add to them. -/
def Blind (allowed : Operation → Bool) (operation : Engine α) : Prop :=
  ∀ session : Session, session.Within allowed →
    bareResult (operation.run session.bare) = bareResult (operation.run session)

section Commutes

theorem commutes_pure (value : α) : Commutes (pure value) := fun _ => rfl

theorem commutes_throw (fault : Fault) : Commutes (α := α) (throw fault) := fun _ => rfl

theorem commutes_bind {operation : Engine α} {next : α → Engine β} (first : Commutes operation)
    (later : ∀ value, Commutes (next value)) : Commutes (operation >>= next) := by
  intro session
  rw [EStateM.run_bind, EStateM.run_bind, first session]
  cases operation.run session with
  | ok value middle => exact later value middle
  | error fault middle => rfl

theorem commutes_map {operation : Engine α} (f : α → β) (first : Commutes operation) :
    Commutes (f <$> operation) :=
  commutes_bind first fun value => commutes_pure (f value)

theorem commutes_get {next : Session → Engine α}
    (same : ∀ session, (next session.bare).run session.bare = bareResult ((next session).run session)) :
    Commutes (do next (← get)) := same

theorem commutes_modify {change : Session → Session}
    (same : ∀ session, change session.bare = (change session).bare) :
    Commutes (modify change : Engine Unit) := by
  intro session
  change EStateM.Result.ok () (change session.bare) = _
  rw [same]
  rfl

theorem bare_outcome (session : Session) (value : α) :
    session.bare.outcome value = bareResult (session.outcome value) := by
  unfold Session.outcome
  rw [Session.bare_process]
  cases session.process.pipeBroken <;> rfl

theorem commutes_require_open : Commutes requireOpen := by
  intro session
  rw [run_require_open, run_require_open, Session.bare_closed]
  cases session.isClosed <;> rfl

theorem commutes_enqueue (tier : Tier) (command : Command) : Commutes (enqueue tier command) := by
  intro session
  have ready : session.bare.mayWrite tier = session.mayWrite tier := by
    cases tier <;> rfl
  rw [run_enqueue, run_enqueue, Session.bare_closed, ready, Session.bare_accept, bare_outcome]
  cases session.isClosed <;> cases session.mayWrite tier <;> rfl

theorem commutes_request_refresh (id : String) : Commutes (requestRefresh id) := by
  intro session
  have demanded (view : View) : session.bare.demands view = session.demands view := by
    cases view with
    | mk _ demand => cases demand <;> rfl
  have awaited : session.bare.await id = (session.await id).bare := rfl
  rw [run_request_refresh, run_request_refresh, Session.bare_closed, Session.bare_views, awaited]
  cases session.isClosed with
  | true => rfl
  | false =>
    cases session.views.find id with
    | error fault => rfl
    | ok view =>
      simp only [demanded, Session.bare_is_awaiting,
        commutes_enqueue .idle view.refreshCommand (session.await id)]
      cases session.isAwaiting id || !session.demands view with
      | true => rfl
      | false => cases (enqueue .idle view.refreshCommand).run (session.await id) <;> rfl

theorem commutes_request_refreshes (ids : List String) : Commutes (requestRefreshes ids) := by
  induction ids with
  | nil => exact commutes_pure []
  | cons id rest ih =>
    have others (asked : Bool) : Commutes (do
        let others ← requestRefreshes rest
        pure (if asked then id :: others else others)) :=
      commutes_bind ih fun _ => commutes_pure _
    apply commutes_get
    intro session
    rw [Session.bare_views]
    split
    · exact commutes_bind (commutes_request_refresh id) others session
    · exact commutes_bind (commutes_pure false) others session

theorem commutes_enter (phase : Phase) (tag : String) : Commutes (enter phase tag) := by
  intro session
  rw [run_enter, run_enter, Session.bare_sink, Session.bare_enter]
  cases (session.sink.after? phase).isSome <;> rfl

theorem commutes_answer_prompt : Commutes answerPrompt := by
  intro session
  rw [run_answer_prompt, run_answer_prompt, Session.bare_urgent, Session.bare_idle,
    Session.bare_poll, bare_outcome]
  cases session.urgent.isEmpty && session.idle.isEmpty <;> rfl

theorem commutes_answer_question : Commutes answerQuestion := by
  intro session
  rw [run_answer_question, run_answer_question, Session.bare_urgent, Session.bare_ask, bare_outcome]
  cases session.urgent.isEmpty <;> rfl

theorem commutes_enter_prompt (tag : String) : Commutes (enterPrompt tag) := by
  intro session
  rw [run_enter_prompt, run_enter_prompt, commutes_enter .prompt tag session]
  cases (enter .prompt tag).run session with
  | ok value later => exact commutes_answer_prompt later
  | error fault later =>
    simp only [bareResult, commutes_answer_prompt later]
    cases answerPrompt.run later <;> rfl

theorem commutes_note_location (args : Option String) : Commutes (noteLocation args) := by
  unfold noteLocation
  split
  · exact commutes_pure ()
  · exact commutes_modify fun _ => rfl

theorem commutes_note_frame (args : Option String) : Commutes (noteFrame args) := by
  unfold noteFrame
  split
  · exact commutes_modify fun _ => rfl
  · exact commutes_pure ()

theorem commutes_record {event : Event} (plain : event.isIntake = false) : Commutes (record event) :=
  commutes_modify fun session => session.bare_log plain

theorem commutes_register (view : View) : Commutes (registerView view) := by
  apply commutes_get
  intro session
  rw [Session.bare_views]
  cases session.views.register view <;> rfl

-- Only an annotation that completes a command calls a handler.
theorem commutes_react (complete : Completion) {marker : Marker} (kind : marker.kind ≠ .prePrompt) :
    Commutes (react complete marker) := by
  apply commutes_bind commutes_require_open
  intro _
  apply commutes_bind (commutes_record rfl)
  intro _
  have asked (ids : List String) : Commutes (discard (requestRefreshes ids)) :=
    commutes_map _ (commutes_request_refreshes ids)
  have entered (phase : Phase) {next : Engine Unit} (noted : Commutes next) :
      Commutes (do enter phase marker.tag; next) :=
    commutes_bind (commutes_enter phase marker.tag) fun _ => noted
  cases known : Annotation.ofTag marker.tag with
  | prePrompt => exact absurd known kind
  | prompt => exact commutes_enter_prompt marker.tag
  | postPrompt => exact commutes_enter .postPrompt marker.tag
  | question => exact commutes_answer_question
  | starting => exact entered .starting (commutes_modify fun _ => rfl)
  | exited => exact entered .stopping (commutes_modify fun _ => rfl)
  | stopping => exact commutes_enter .stopping marker.tag
  | stopped => exact entered .stopping (commutes_modify fun _ => rfl)
  | signalName => exact commutes_modify fun _ => rfl
  | source => exact commutes_note_location marker.args
  | frameBegin => exact commutes_note_frame marker.args
  | breakpointsInvalid => exact asked breakpointViews
  | framesInvalid => exact asked frameViews
  | other => exact commutes_pure ()

end Commutes

section Blind

variable {allowed : Operation → Bool}

theorem bare_result_twice (result : EStateM.Result Fault Session α) :
    bareResult (bareResult result) = bareResult result := by
  cases result with
  | ok value later => simp [bareResult, Session.bare_bare]
  | error fault later => simp [bareResult, Session.bare_bare]

theorem blind_of_commutes {operation : Engine α} (commutes : Commutes operation) :
    Blind allowed operation := by
  intro session _
  rw [commutes session, bare_result_twice]

-- Sessions that differ in the traces of the intake alone are not told apart.
theorem blind_same {operation : Engine α} (blind : Blind allowed operation) {first second : Session}
    (inside : first.Within allowed) (same : first.bare = second.bare) :
    bareResult (operation.run first) = bareResult (operation.run second) := by
  have other := within_of_bare same inside
  rw [← blind first inside, ← blind second other, same]

theorem blind_bind {operation : Engine α} {next : α → Engine β} (first : Blind allowed operation)
    (traced : Traced allowed operation) (later : ∀ value, Blind allowed (next value)) :
    Blind allowed (operation >>= next) := by
  intro session inside
  have same := first session inside
  have ends := traced session inside
  rw [EStateM.run_bind, EStateM.run_bind]
  cases done : operation.run session with
  | ok value middle =>
    rw [done] at ends same
    have kept := moves_within inside ends.1
    cases bared : operation.run session.bare with
    | ok other middle' =>
      rw [bared] at same
      obtain ⟨rfl, alike⟩ := EStateM.Result.ok.inj same
      exact (blind_same (later other) kept alike.symm).symm
    | error fault middle' =>
      rw [bared] at same
      cases same
  | error fault middle =>
    rw [done] at same
    cases bared : operation.run session.bare with
    | ok other middle' =>
      rw [bared] at same
      cases same
    | error other middle' =>
      rw [bared] at same
      obtain ⟨rfl, alike⟩ := EStateM.Result.error.inj same
      simp only [bareResult, alike]

theorem blind_forM {operation : β → Engine Unit} {items : List β}
    (each : ∀ item ∈ items, Blind allowed (operation item))
    (traced : ∀ item ∈ items, Traced allowed (operation item)) :
    Blind allowed (items.forM operation) := by
  induction items with
  | nil => exact blind_of_commutes (commutes_pure ())
  | cons item rest ih =>
    have later := ih (fun other member => each other (List.mem_cons_of_mem item member))
      fun other member => traced other (List.mem_cons_of_mem item member)
    exact blind_bind (each item List.mem_cons_self) (traced item List.mem_cons_self) fun _ => later

theorem blind_emit (text : String) : Blind allowed (emit text) := by
  intro session _
  rw [run_emit, run_emit]
  simp only [bareResult, Session.bare_hear]

/-- Routines that may still be nested so deep and that keep to what is allowed are blind. -/
def RoutinesBlind (allowed : Operation → Bool) (depth : Nat) : Prop :=
  ∀ ⦃body : List Operation⦄ (name : String) (fault : Option Fault) (output : String),
    Operation.allWithin allowed body = true →
      Blind allowed (complete depth (.routine name body fault) output)

variable {depth : Nat}

theorem blind_complete (routines : RoutinesBlind allowed depth) {handler : Handler}
    (own : handler.within allowed = true) (output : String) :
    Blind allowed (complete depth handler output) := by
  cases handler with
  | discard =>
    rw [complete_discard]
    exact blind_of_commutes (commutes_pure ())
  | refresh view =>
    rw [complete_refresh]
    apply blind_of_commutes
    intro session
    rw [run_finish_refresh, run_finish_refresh, Session.bare_finish]
    rfl
  | routine name body fault => exact routines name fault output own

-- A routine is called with what was gathered, and so may do different things only if that differs.
theorem blind_pre_prompt (routines : RoutinesBlind allowed depth) (tag : String) :
    Blind allowed (enterPrePrompt (complete depth) tag) := by
  intro session inside
  by_cases gathering : session.sink = .gathering
  · have gatheringBare : session.bare.sink = .gathering := gathering
    have doneBare : ({ session.bare with sink := .afterOutput, completed := true } : Session) =
        ({ session with sink := .afterOutput, completed := true } : Session).bare := rfl
    have inDone : ({ session with sink := .afterOutput, completed := true } : Session).Within
        allowed := within_of_same inside rfl rfl
    have gathered : session.bare.gathered = session.gathered := rfl
    rw [run_pre_prompt_gathering _ _ gathering, run_pre_prompt_gathering _ _ gatheringBare,
      doneBare, Session.bare_in_flight, gathered]
    generalize ({ session with sink := .afterOutput, completed := true } : Session) = done
      at inDone ⊢
    cases flight : session.inFlight with
    | none => simp [bareResult, Session.bare_bare]
    | some command =>
      cases handled : command.handler? with
      | none => simp [handled, bareResult, Session.bare_bare]
      | some handler =>
        simp only [Option.bind_some, handled, Option.map_some]
        have own : handler.within allowed = true :=
          handler_of_command (inside.commands command (by simp [Session.commands, flight])) handled
        have told : (done.log (.completed command session.gathered)).Within allowed :=
          within_of_same inDone rfl rfl
        rw [Session.bare_log done rfl]
        exact blind_complete routines own session.gathered _ told
  · have elsewhere : session.bare.sink ≠ .gathering := gathering
    rw [run_pre_prompt_elsewhere _ _ gathering, run_pre_prompt_elsewhere _ _ elsewhere,
      commutes_enter .prePrompt tag session, bare_result_twice]

theorem blind_react (routines : RoutinesBlind allowed depth) (marker : Marker) :
    Blind allowed (react (complete depth) marker) := by
  by_cases kind : marker.kind = .prePrompt
  -- The handler may add to the traces, so this case is blind but need not commute.
  · have opened : Traced allowed requireOpen := traced_require_open
    have recorded : Blind allowed (do
        record (.annotated marker)
        enterPrePrompt (complete depth) marker.tag) := by
      intro session inside
      have told : (session.log (.annotated marker)).Within allowed :=
        within_of_same inside rfl rfl
      rw [EStateM.run_bind, EStateM.run_bind, run_record, run_record,
        Session.bare_log session rfl]
      exact blind_pre_prompt routines marker.tag _ told
    have shape : react (complete depth) marker = (do
        requireOpen
        record (.annotated marker)
        enterPrePrompt (complete depth) marker.tag) := by
      have known : Annotation.ofTag marker.tag = .prePrompt := kind
      simp only [react, known]
    rw [shape]
    exact blind_bind (blind_of_commutes commutes_require_open) opened fun _ => recorded
  · exact blind_of_commutes (commutes_react (complete depth) kind)

theorem blind_perform (quiet : ∀ operation, allowed operation = true → operation.isQuiet = true)
    (routines : RoutinesBlind allowed depth) {operation : Operation}
    (own : operation.within allowed = true) : Blind allowed (perform (complete depth) operation) := by
  have silent {first : Engine Unit} (commutes : Commutes first) :
      Blind allowed (do first; pure Answer.nothing) :=
    blind_of_commutes (commutes_bind commutes fun _ => commutes_pure _)
  have answered {α : Type} {first : Engine α} (f : α → Answer) (commutes : Commutes first) :
      Blind allowed (f <$> first) :=
    blind_of_commutes (commutes_map f commutes)
  cases operation with
  | ingest pieces => cases quiet _ (allowed_of_within own)
  | flush => cases quiet _ (allowed_of_within own)
  | enqueue tier command => exact answered .flag (commutes_enqueue tier command)
  | send command =>
    apply silent
    intro session
    rw [run_send, run_send, Session.bare_send_out, bare_outcome]
  | answerPrompt => exact silent commutes_answer_prompt
  | answerQuestion => exact silent commutes_answer_question
  | takeFirst tier =>
    apply blind_of_commutes
    apply commutes_bind
    · intro session
      have queue : session.bare.queue tier = session.queue tier := by
        cases tier <;> rfl
      rw [run_take_first, run_take_first, queue]
      cases session.queue tier with
      | nil => rfl
      | cons command rest => cases tier <;> rfl
    · exact fun command => commutes_pure (Answer.text command.text)
  | react marker =>
    exact blind_bind (blind_react routines marker)
      (traced_react (allowed_of_within own) (routines_traced depth)) fun _ =>
        blind_of_commutes (commutes_pure _)
  | emit text =>
    exact blind_bind (blind_emit text) (traced_emit (allowed_of_within own)) fun _ =>
      blind_of_commutes (commutes_pure _)
  | requestRefresh view => exact answered .flag (commutes_request_refresh view)
  | requestRefreshes views => exact answered .ids (commutes_request_refreshes views)
  | addBuffer view => exact silent (commutes_modify fun _ => rfl)
  | removeBuffer view => exact silent (commutes_modify fun _ => rfl)
  | register | registerHandled => exact silent (commutes_register _)
  | setSink sink => exact silent (commutes_modify fun _ => rfl)
  | setPrompting prompting => exact silent (commutes_modify fun _ => rfl)
  | setPipe broken => exact silent (commutes_modify fun _ => rfl)
  | requireOpen => exact silent commutes_require_open
  | close => exact silent (commutes_modify fun session => session.bare_close)

theorem routines_blind (quiet : ∀ operation, allowed operation = true → operation.isQuiet = true)
    (depth : Nat) : RoutinesBlind allowed depth := by
  induction depth with
  | zero => exact fun _ _ _ _ _ => blind_of_commutes (commutes_throw .nesting)
  | succ depth ih =>
    intro body name fault output own
    have traced (operation : Operation) (member : operation ∈ body) :
        Traced allowed (discard (perform (complete depth) operation)) :=
      traced_map _ (traced_perform (routines_traced depth) (mem_of_all_within own member))
    have blind (operation : Operation) (member : operation ∈ body) :
        Blind allowed (discard (perform (complete depth) operation)) := by
      have inside := mem_of_all_within own member
      exact blind_bind (blind_perform quiet ih inside)
        (traced_perform (routines_traced depth) inside) fun _ => blind_of_commutes (commutes_pure _)
    apply blind_bind (blind_forM blind traced) (traced_forM traced)
    intro _
    cases fault with
    | none => exact blind_of_commutes (commutes_pure ())
    | some fault => exact blind_of_commutes (commutes_throw fault)

end Blind

end Engine

end GdbControl
