import GdbControl.Proofs.Waiting

/-!
A call that is refused has done nothing. Whether a call is refused is read off the state of the client
before it, and if it is, all checks come before the first effect. A fault that is met later, such as a
broken pipe, is no answer.
-/

namespace GdbControl

namespace Client

/-- Why a session cannot be used, if it cannot. -/
def unfit? (client : Client) (id : String) (alive : Bool) : Option Fault :=
  match client.sessions.get? id with
  | none => some (.sessionNotFound id)
  | some attachment => if alive && attachment.session.isClosed then some .tornDown else none

/-- Why a view of a session cannot be opened, if it cannot although the session can be used. -/
def unlisted? (client : Client) (id view : String) : Option Fault :=
  (client.sessions.get? id).bind fun attachment =>
    if attachment.session.views.contains view then none else some (.unknownView view)

/-- Whether a view is open in a session. -/
def displays (client : Client) (id view : String) : Bool :=
  (client.sessions.get? id).any fun attachment => attachment.session.display.isOpen view

end Client

/-- The failure with which a call is answered, if it is refused. -/
def ToolCall.refusal? (client : Client) : ToolCall → Option Failure
  | .startDebug _ _ _ | .listSessions => none
  | .stopDebug id => if client.sessions.contains id then none else some (.noSession id)
  | .sendCommand id _ _ _ _ | .run id _ | .continueExecution id _ | .step id _ | .next id _
  | .finish id | .setBreakpoint id _ _ _ | .removeBreakpoint id _ =>
    (client.unfit? id true).map (.fault · false)
  | .openView id view =>
    ((client.unfit? id true).or (client.unlisted? id view)).map (.fault · false)
  | .listBreakpoints id =>
    ((client.unfit? id true).or
      (if client.displays id ToolCall.breakpointView then none
        else client.unlisted? id ToolCall.breakpointView)).map (.fault · false)
  | .closeView id view | .getView id view _ =>
    ((client.unfit? id false).map (.fault · false)).or
      (if client.displays id view then none else some (.viewNotOpen view))
  | .listViews id | .readTranscript id _ | .readInferiorOutput id _ | .sessionDiagnostics id =>
    (client.unfit? id false).map (.fault · false)

/-- The status that an answer gives, if it gives one. -/
def Reply.status? (reply : Reply) : Option Json :=
  match reply.toJson with
  | .object members => members.lookup "status"
  | _ => none

theorem status_not_error (status : CommandStatus) : status.name ≠ "error" := by
  cases status <;> decide

theorem error_status_iff (reply : Reply) :
    reply.status? = some (.string "error") ↔ ∃ failure, reply = .failed failure := by
  constructor
  · intro shown
    cases reply with
    | failed failure => exact ⟨failure, rfl⟩
    | command result => exact absurd (Json.string.inj (Option.some.inj shown)) (status_not_error _)
    | pagedCommand => exact absurd (Json.string.inj (Option.some.inj shown)) (status_not_error _)
    | started | stopped | viewOpened | viewClosed =>
      exact absurd (Json.string.inj (Option.some.inj shown)) (by decide)
    | _ => cases shown
  · rintro ⟨failure, rfl⟩
    rfl

namespace Control

/-- An operation that is refused for a reason, and has then done nothing. Without a reason, it meets no
fault that would be answered. -/
def Refuses (operation : Control α) (client : Client) : Option Fault → Prop
  | some fault => operation.run client = .error fault client
  | none => ∀ fault later, operation.run client = .error fault later → fault.label? = none

/-- An operation that answers with a failure, and has then done nothing. Without a failure it answers
otherwise, or not at all. -/
def Answers (operation : Control Reply) (client : Client) : Option Failure → Prop
  | some failure => operation.run client = .ok (.failed failure) client
  | none => ∀ failure later, operation.run client ≠ .ok (.failed failure) later

/-- An operation that never answers with a failure of its own. -/
def Plain (operation : Control Reply) : Prop :=
  ∀ client failure later, operation.run client ≠ .ok (.failed failure) later

section Refusals

variable {client : Client} {id : String} {reason : Option Fault}

theorem refuses_of_ok {operation : Control α} {value : α} {later : Client}
    (done : operation.run client = .ok value later) : Refuses operation client none := by
  intro fault other failed
  cases done.symm.trans failed

theorem refuses_pure (value : α) : Refuses (pure value) client none := refuses_of_ok rfl

theorem refuses_bind {operation : Control α} {next : α → Control β}
    (first : Refuses operation client none)
    (rest : ∀ value later, operation.run client = .ok value later → Refuses (next value) later none) :
    Refuses (operation >>= next) client none := by
  intro fault last failed
  rw [EStateM.run_bind] at failed
  cases done : operation.run client with
  | ok value later =>
    rw [done] at failed
    exact rest value later done fault last failed
  | error met later =>
    rw [done] at failed
    cases failed
    exact first fault last done

theorem refuses_then {operation : Control α} {next : α → Control β}
    (first : Refuses operation client reason)
    (rest : ∀ value later, operation.run client = .ok value later → Refuses (next value) later none) :
    Refuses (operation >>= next) client reason := by
  cases reason with
  | none => exact refuses_bind first rest
  | some fault =>
    have failed : operation.run client = .error fault client := first
    change (operation >>= next).run client = _
    rw [EStateM.run_bind, failed]

theorem require_cases (client : Client) (id : String) (alive : Bool) :
    (∃ fault, client.unfit? id alive = some fault ∧
      (require id alive).run client = .error fault client) ∨
    ∃ attachment, client.sessions.get? id = some attachment ∧
      (alive = true → attachment.session.isClosed = false) ∧ client.unfit? id alive = none ∧
      (require id alive).run client = .ok attachment client := by
  rw [run_require]
  unfold Client.unfit?
  cases client.sessions.get? id with
  | none => exact .inl ⟨_, rfl, rfl⟩
  | some attachment =>
    dsimp only
    cases barred : alive && attachment.session.isClosed with
    | true => exact .inl ⟨_, rfl, rfl⟩
    | false =>
      exact .inr ⟨attachment, rfl, fun needed => by simpa [needed] using barred, rfl, rfl⟩

theorem refuses_require {alive : Bool} {next : Attachment → Control α}
    (rest : ∀ attachment, client.sessions.get? id = some attachment →
      (alive = true → attachment.session.isClosed = false) →
        Refuses (next attachment) client reason) :
    Refuses (require id alive >>= next) client ((client.unfit? id alive).or reason) := by
  rcases require_cases client id alive with
    ⟨fault, unfit, failed⟩ | ⟨attachment, present, open_, fit, found⟩
  · rw [unfit]
    change (require id alive >>= next).run client = _
    rw [EStateM.run_bind, failed]
  · rw [fit, Option.none_or]
    have kept := rest attachment present open_
    unfold Refuses at kept ⊢
    rw [EStateM.run_bind, found]
    exact kept

theorem plain_pure {reply : Reply} (other : ∀ failure, reply ≠ .failed failure) :
    Plain (pure reply) := by
  intro client failure later done
  cases done
  exact other failure rfl

theorem plain_bind {operation : Control α} {next : α → Control Reply}
    (rest : ∀ value, Plain (next value)) : Plain (operation >>= next) := by
  intro client failure later done
  obtain ⟨value, middle, -, last⟩ := Engine.bind_ok done
  exact rest value middle failure later last

/-- Why a session cannot be used, and that a view is not known, is told to the caller. -/
def Told (reason : Option Fault) : Prop := ∀ fault, reason = some fault → fault.label?.isSome = true

theorem told_none : Told none := by
  rintro fault ⟨⟩

theorem told_or {first second : Option Fault} (told : Told first) (told' : Told second) :
    Told (first.or second) := by
  intro fault same
  cases first with
  | none => exact told' fault same
  | some own => exact told fault same

theorem told_unfit (client : Client) (id : String) (alive : Bool) : Told (client.unfit? id alive) := by
  intro fault same
  unfold Client.unfit? at same
  split at same
  · cases same
    rfl
  · split at same
    · cases same
      rfl
    · cases same

theorem told_unlisted (client : Client) (id view : String) : Told (client.unlisted? id view) := by
  intro fault same
  obtain ⟨attachment, -, same⟩ := Option.bind_eq_some_iff.mp same
  split at same
  · cases same
  · cases same
    rfl

theorem answering_error {operation : Control Reply} {fault : Fault}
    (failed : operation.run client = .error fault client) (labelled : fault.label?.isSome = true) :
    (answering operation).run client = .ok (.failed (.fault fault false)) client := by
  unfold answering
  rw [Engine.run_catch, failed]
  simp only [labelled, if_true]
  rfl

theorem answering_ok {operation : Control Reply} {reply : Reply} {later : Client}
    (done : operation.run client = .ok reply later) :
    (answering operation).run client = .ok reply later := by
  unfold answering
  rw [Engine.run_catch, done]

theorem answers_other {operation : Control Reply} {reply : Reply} {later : Client}
    (done : operation.run client = .ok reply later) (other : ∀ failure, reply ≠ .failed failure) :
    Answers operation client none := by
  intro failure last failed
  cases done.symm.trans failed
  exact other failure rfl

theorem answers_answering {operation : Control Reply} (refuses : Refuses operation client reason)
    (plain : Plain operation) (told : Told reason) :
    Answers (answering operation) client (reason.map (.fault · false)) := by
  cases reason with
  | some fault => exact answering_error refuses (told fault rfl)
  | none =>
    intro failure later done
    cases ran : operation.run client with
    | ok reply middle =>
      cases (answering_ok ran).symm.trans done
      exact plain client failure _ ran
    | error fault middle =>
      have silent : fault.label?.isSome = false := by rw [refuses fault middle ran]; rfl
      unfold answering at done
      rw [Engine.run_catch, ran] at done
      simp only [silent, Bool.false_eq_true, if_false] at done
      cases done

end Refusals

section Calls

variable {client : Client} {id : String} {attachment : Attachment}

theorem keep_same (tidy : client.Tidy) (present : client.sessions.get? id = some attachment) :
    client.keep id attachment attachment.session = client := by
  have clean := tidy id attachment present
  have same : ({ attachment with session := { attachment.session with journal := [] } } : Attachment) =
      attachment := by
    rw [← clean]
  unfold Client.keep
  rw [same, Table.insert_of_get? present, clean, List.map_nil, List.append_nil]

-- With nothing to come meanwhile, a wait for the prompt is over at once.
theorem run_await_quiet (present : client.sessions.get? id = some attachment)
    (quiet : client.arriving = []) (limit : Option Int) :
    (awaitPrompt id limit).run client =
      .ok attachment.session.display.promptReady (client.log (.awaitedPrompt id limit)) := by
  have emptied : ({ client.log (.awaitedPrompt id limit) with arriving := [] } : Client) =
      client.log (.awaitedPrompt id limit) := by
    rw [← quiet]
    rfl
  have found : (find id).run (client.log (.awaitedPrompt id limit)) =
      .ok attachment (client.log (.awaitedPrompt id limit)) := by
    have kept : (client.log (.awaitedPrompt id limit)).sessions.get? id = some attachment := present
    rw [run_find, kept]
  have delivered : (deliver id []).run (client.log (.awaitedPrompt id limit)) =
      .ok () (client.log (.awaitedPrompt id limit)) := by
    unfold deliver
    rw [EStateM.run_bind, found]
    rfl
  unfold awaitPrompt
  change (do
    deliver id (client.log (.awaitedPrompt id limit)).arriving
    pure (← find id).session.display.promptReady : Control Bool).run
      { client.log (.awaitedPrompt id limit) with arriving := [] } = _
  rw [emptied, show (client.log (.awaitedPrompt id limit)).arriving = [] from quiet,
    EStateM.run_bind, delivered]
  dsimp only
  rw [EStateM.run_bind, found]
  rfl

-- A command that cannot be written meets a broken pipe, of which no caller is told.
theorem outcome_silent {session later : Session} {value : α} {fault : Fault}
    (failed : session.outcome value = .error fault later) : fault.label? = none := by
  unfold Session.outcome at failed
  split at failed
  · cases failed
    rfl
  · cases failed

theorem enqueue_silent {session later : Session} (alive : session.isClosed = false) {tier : Tier}
    {command : Command} {fault : Fault}
    (failed : (Engine.enqueue tier command).run session = .error fault later) :
    fault.label? = none := by
  rw [Engine.run_enqueue, alive] at failed
  simp only [Bool.false_eq_true, if_false] at failed
  split at failed
  · exact outcome_silent failed
  · cases failed

theorem refuses_on_session (present : client.sessions.get? id = some attachment)
    {operation : Engine α} (silent : ∀ fault later,
      operation.run attachment.session = .error fault later → fault.label? = none) :
    Refuses (onSession id operation) client none := by
  intro fault later failed
  rw [run_on_session present] at failed
  cases ran : operation.run attachment.session with
  | ok value session =>
    rw [ran] at failed
    cases failed
  | error met session =>
    rw [ran] at failed
    cases failed
    exact silent fault session ran

theorem on_session_ok (present : client.sessions.get? id = some attachment)
    {operation : Engine α} {value : α} {later : Client}
    (done : (onSession id operation).run client = .ok value later) :
    later.arriving = client.arriving ∧ ∃ found, later.sessions.get? id = some found := by
  rw [run_on_session present] at done
  cases ran : operation.run attachment.session with
  | ok value session =>
    rw [ran] at done
    cases done
    exact ⟨rfl, _, Table.get?_insert_self _ _ _⟩
  | error fault session =>
    rw [ran] at done
    cases done

theorem refuses_find (present : client.sessions.get? id = some attachment) :
    Refuses (find id) client none := by
  have found : (find id).run client = .ok attachment client := by rw [run_find, present]
  exact refuses_of_ok found

theorem refuses_command (quiet : client.arriving = []) (command : String) (wait : Bool)
    (limit : Option Int) :
    Refuses (runCommand id command wait limit) client (client.unfit? id true) := by
  suffices refuses : Refuses (runCommand id command wait limit) client
      ((client.unfit? id true).or none) by rwa [Option.or_none] at refuses
  refine refuses_require fun attachment present open_ => ?_
  have alive : attachment.session.unwoken.isClosed = false := open_ rfl
  refine refuses_bind (refuses_on_session present fun fault later failed => ?_) fun sent later done => ?_
  · exact enqueue_silent alive failed
  · obtain ⟨still, found, kept⟩ := on_session_ok present done
    split
    · exact refuses_pure _
    · have waited := run_await_quiet kept (still.trans quiet) limit
      refine refuses_bind (refuses_of_ok waited) fun ready last finished => ?_
      cases waited.symm.trans finished
      exact refuses_bind (refuses_find kept) fun _ _ _ => refuses_pure _

theorem run_open (session : Session) (view : String) :
    (Engine.openView view).run session =
      match session.views.find view with
      | .error fault => .error fault session
      | .ok _ => (Engine.requestRefresh view).run (session.opened view).unwoken := by
  unfold Engine.openView
  rw [Engine.run_get_bind, EStateM.run_bind]
  cases session.views.find view <;> rfl

theorem request_silent {session later : Session} (alive : session.isClosed = false) {id : String}
    {view : View} (known : session.views.find id = .ok view) {fault : Fault}
    (failed : (Engine.requestRefresh id).run session = .error fault later) :
    fault.label? = none := by
  rw [Engine.run_request_refresh, alive, known] at failed
  simp only [Bool.false_eq_true, if_false] at failed
  split at failed
  · cases failed
  · cases ran : (Engine.enqueue .idle view.refreshCommand).run (session.await id) with
    | ok value next =>
      rw [ran] at failed
      cases failed
    | error met next =>
      rw [ran] at failed
      cases failed
      have still : (session.await id).isClosed = false := alive
      exact enqueue_silent still ran

-- What is known of a view is found out before its buffer is opened.
theorem refuses_open (tidy : client.Tidy) (view : String) :
    Refuses (openView id view) client ((client.unfit? id true).or (client.unlisted? id view)) := by
  refine refuses_require fun attachment present open_ => ?_
  have alive := open_ rfl
  unfold Client.unlisted?
  rw [present, Option.bind_some]
  have ran := run_open attachment.session view
  cases listed : attachment.session.views.get? view with
  | none =>
    have unknown : attachment.session.views.find view = .error (.unknownView view) := by
      rw [Catalog.find, listed]
    rw [unknown] at ran
    simp only [Table.contains, listed, Option.isSome_none, Bool.false_eq_true, if_false]
    change (onSession id (Engine.openView view)).run client = _
    rw [run_on_session present, ran]
    exact congrArg _ (keep_same tidy present)
  | some entry =>
    have known : attachment.session.views.find view = .ok entry := by rw [Catalog.find, listed]
    rw [known] at ran
    simp only [Table.contains, listed, Option.isSome_some, if_true]
    refine refuses_on_session present fun fault later failed => ?_
    rw [ran] at failed
    have still : (attachment.session.opened view).unwoken.isClosed = false := alive
    exact request_silent still known failed

theorem answers_command (quiet : client.arriving = []) {next : CommandResult → Control Reply}
    (rest : ∀ result, ∃ reply, next result = pure reply ∧ ∀ failure, reply ≠ .failed failure)
    (command : String) (wait : Bool) (limit : Option Int) :
    Answers (answering (runCommand id command wait limit >>= next)) client
      ((client.unfit? id true).map (.fault · false)) := by
  refine answers_answering (refuses_then (refuses_command quiet command wait limit) ?_)
    (plain_bind fun result => ?_) (told_unfit client id true)
  · intro result later _
    obtain ⟨reply, same, -⟩ := rest result
    rw [same]
    exact refuses_pure reply
  · obtain ⟨reply, same, other⟩ := rest result
    rw [same]
    exact plain_pure other

theorem answers_paged (quiet : client.arriving = []) (command : String) (wait : Bool)
    (limit : Option Int) (window : Window) :
    Answers (sendPaged id command wait limit window) client
      ((client.unfit? id true).map (.fault · false)) := by
  refine answers_command quiet (fun result => ?_) command wait limit
  cases result.output with
  | none => exact ⟨_, rfl, by rintro failure ⟨⟩⟩
  | some output => exact ⟨_, rfl, by rintro failure ⟨⟩⟩

theorem answers_edit (quiet : client.arriving = []) (command : String) :
    Answers (answering do pure (.command (← runCommand id command true none))) client
      ((client.unfit? id true).map (.fault · false)) :=
  answers_command quiet (fun result => ⟨_, rfl, by rintro failure ⟨⟩⟩) command true none

theorem answers_open (tidy : client.Tidy) (view : String) :
    Answers (answering do pure (.viewOpened view (← openView id view))) client
      (((client.unfit? id true).or (client.unlisted? id view)).map (.fault · false)) :=
  answers_answering (refuses_then (refuses_open tidy view) fun _ _ _ => refuses_pure _)
    (plain_bind fun _ => plain_pure (by rintro failure ⟨⟩))
    (told_or (told_unfit client id true) (told_unlisted client id view))

-- A call that only looks something up.
theorem answers_look_up (next : Attachment → Reply)
    (other : ∀ attachment failure, next attachment ≠ .failed failure) :
    Answers (answering do pure (next (← require id false))) client
      ((client.unfit? id false).map (.fault · false)) := by
  have refuses : Refuses (do pure (next (← require id false))) client
      ((client.unfit? id false).or none) :=
    refuses_require fun _ _ _ => refuses_pure _
  rw [Option.or_none] at refuses
  exact answers_answering refuses (plain_bind fun attachment => plain_pure (other attachment))
    (told_unfit client id false)

theorem displays_of (present : client.sessions.get? id = some attachment) (view : String) :
    client.displays id view = attachment.session.display.isOpen view := by
  rw [Client.displays, present, Option.any_some]

theorem run_view_text (present : client.sessions.get? id = some attachment) (view : String) :
    (viewText id view).run client = .ok (attachment.session.display.buffers.get? view) client := by
  unfold viewText
  rw [EStateM.run_bind, run_require, present]
  rfl

theorem run_close_view (present : client.sessions.get? id = some attachment) (view : String) :
    (closeView id view).run client = .ok (attachment.session.display.isOpen view)
      (client.keep id attachment
        { attachment.session with display := attachment.session.display.removeBuffer view }) := by
  unfold closeView
  rw [EStateM.run_bind, run_require, present]
  simp only [Bool.false_and, Bool.false_eq_true, if_false]
  rw [EStateM.run_bind, run_on_session present]
  rfl

-- Opening a view and waiting for it leaves the session there, and nothing more to come.
theorem run_open_ok {view : String} {asked : Bool} {later : Client}
    (done : (openView id view).run client = .ok asked later) :
    later.arriving = client.arriving ∧ ∃ found, later.sessions.get? id = some found := by
  unfold openView at done
  rcases require_cases client id true with
    ⟨fault, -, failed⟩ | ⟨attachment, present, -, -, found⟩
  · rw [EStateM.run_bind, failed] at done
    cases done
  · rw [EStateM.run_bind, found] at done
    exact on_session_ok present done

theorem refuses_list_breakpoints (tidy : client.Tidy) (quiet : client.arriving = [])
    {next : Option String → Control Reply}
    (rest : ∀ text later found, later.sessions.get? id = some found →
      Refuses (next text) later none) :
    Refuses (do
      let attachment ← require id true
      if !attachment.session.display.isOpen ToolCall.breakpointView then
        let _ ← openView id ToolCall.breakpointView
        let _ ← awaitPrompt id (some ToolCall.stepLimit)
      next (← viewText id ToolCall.breakpointView)) client
      ((client.unfit? id true).or
        (if client.displays id ToolCall.breakpointView then none
          else client.unlisted? id ToolCall.breakpointView)) := by
  have read {later : Client} {found : Attachment} (kept : later.sessions.get? id = some found) :
      Refuses (do next (← viewText id ToolCall.breakpointView)) later none := by
    have looked := run_view_text kept ToolCall.breakpointView
    refine refuses_bind (refuses_of_ok looked) fun text last done => ?_
    cases looked.symm.trans done
    exact rest _ _ _ kept
  refine refuses_require fun attachment present open_ => ?_
  rw [displays_of present]
  dsimp only
  cases shown : attachment.session.display.isOpen ToolCall.breakpointView with
  | true => exact read present
  | false =>
    have fit : client.unfit? id true = none := by
      rw [Client.unfit?, present]
      simp only [open_ rfl, Bool.and_false, Bool.false_eq_true, if_false]
    have opens : Refuses (openView id ToolCall.breakpointView) client
        ((client.unfit? id true).or (client.unlisted? id ToolCall.breakpointView)) :=
      refuses_open tidy _
    rw [fit, Option.none_or] at opens
    refine refuses_then opens fun asked later done => ?_
    obtain ⟨still, found, kept⟩ := run_open_ok done
    have waited := run_await_quiet kept (still.trans quiet) (some ToolCall.stepLimit)
    refine refuses_bind (refuses_of_ok waited) fun ready last finished => ?_
    cases waited.symm.trans finished
    exact read kept

theorem answers_list_breakpoints (tidy : client.Tidy) (quiet : client.arriving = []) :
    Answers (listBreakpoints id) client
      (((client.unfit? id true).or
        (if client.displays id ToolCall.breakpointView then none
          else client.unlisted? id ToolCall.breakpointView)).map (.fault · false)) := by
  refine answers_answering (refuses_list_breakpoints tidy quiet fun text later found kept => ?_)
    (plain_bind fun attachment => ?_) (told_or (told_unfit client id true) ?_)
  · exact refuses_bind (refuses_find kept) fun _ _ _ => refuses_pure _
  · have answered (text : Option String) : Plain (do
        pure (.breakpoints (text.getD "")
          ((← find id).session.isAwaiting ToolCall.breakpointView))) :=
      plain_bind fun _ => plain_pure (by rintro failure ⟨⟩)
    dsimp only
    split
    · exact plain_bind fun _ => plain_bind fun _ => plain_bind answered
    · exact plain_bind answered
  · split
    · exact told_none
    · exact told_unlisted client id ToolCall.breakpointView

theorem answers_close_view (tidy : client.Tidy) (view : String) :
    Answers (perform (.closeView id view)) client
      (((client.unfit? id false).map (.fault · false)).or
        (if client.displays id view then none else some (.viewNotOpen view))) := by
  rcases require_cases client id false with
    ⟨fault, unfit, failed⟩ | ⟨attachment, present, -, fit, -⟩
  · rw [unfit]
    refine answering_error ?_ (told_unfit client id false fault unfit)
    unfold closeView
    rw [EStateM.run_bind, EStateM.run_bind, failed]
  · rw [fit, Option.map_none, Option.none_or, displays_of present]
    have closed := run_close_view present view
    cases shown : attachment.session.display.isOpen view with
    | true =>
      rw [shown] at closed
      apply answers_other
      · apply answering_ok
        rw [EStateM.run_bind, closed]
        rfl
      · rintro failure ⟨⟩
    | false =>
      have absent : attachment.session.display.buffers.get? view = none := by
        simpa [Display.isOpen, Table.contains] using shown
      have same : attachment.session.display.removeBuffer view = attachment.session.display := by
        rw [Display.removeBuffer, Table.erase_of_get? absent]
      rw [shown, same] at closed
      have kept := keep_same tidy present
      refine answering_ok ?_
      rw [EStateM.run_bind, closed]
      exact congrArg _ kept

theorem answers_show_view (view : String) (window : Window) :
    Answers (showView id view window) client
      (((client.unfit? id false).map (.fault · false)).or
        (if client.displays id view then none else some (.viewNotOpen view))) := by
  rcases require_cases client id false with
    ⟨fault, unfit, failed⟩ | ⟨attachment, present, -, fit, found⟩
  · rw [unfit]
    refine answering_error ?_ (told_unfit client id false fault unfit)
    unfold viewText
    rw [EStateM.run_bind, EStateM.run_bind, failed]
  · rw [fit, Option.map_none, Option.none_or, displays_of present, Display.isOpen, Table.contains]
    have looked := run_view_text present view
    cases shown : attachment.session.display.buffers.get? view with
    | none =>
      rw [shown] at looked
      refine answering_ok ?_
      rw [EStateM.run_bind, looked]
      rfl
    | some text =>
      rw [shown] at looked
      apply answers_other
      · apply answering_ok
        rw [EStateM.run_bind, looked]
        dsimp only
        rw [EStateM.run_bind, found]
        rfl
      · rintro failure ⟨⟩

theorem answers_stop_debug :
    Answers (stopDebug id) client
      (if client.sessions.contains id then none else some (.noSession id)) := by
  cases listed : client.sessions.contains id with
  | false =>
    change (stopDebug id).run client = _
    unfold stopDebug
    rw [EStateM.run_bind]
    simp only [EStateM.run_get, listed]
    rfl
  | true =>
    intro failure later done
    unfold stopDebug at done
    obtain ⟨_, _, got, done⟩ := Engine.bind_ok done
    cases got
    simp only [listed, if_true] at done
    exact plain_bind (fun _ => plain_pure (by rintro failure ⟨⟩)) client failure later done

theorem answers_perform (tidy : client.Tidy) (quiet : client.arriving = []) {call : ToolCall}
    (other : call.name ≠ "start_debug") :
    Answers (perform call) client (call.refusal? client) := by
  cases call with
  | startDebug => exact absurd rfl other
  | stopDebug => exact answers_stop_debug
  | listSessions =>
    rintro failure later ⟨⟩
  | sendCommand | run | continueExecution | step | next | finish => exact answers_paged quiet _ _ _ _
  | setBreakpoint | removeBreakpoint => exact answers_edit quiet _
  | listBreakpoints => exact answers_list_breakpoints tidy quiet
  | openView => exact answers_open tidy _
  | closeView => exact answers_close_view tidy _
  | getView => exact answers_show_view _ _
  | listViews | readTranscript | readInferiorOutput | sessionDiagnostics =>
    exact answers_look_up _ (by rintro attachment failure ⟨⟩)

end Calls

end Control

/-- A call other than the one that starts a session, during which nothing comes from gdb, is answered
with an error just if the state of the client before it says so, and with the failure that it says. Then
the client is as it was: its sessions with all that they hold and show, and the record of what was
written and done. -/
theorem refused_calls_change_nothing {config : Config} {client : Client}
    (run : Client.Reaches { config := config } client) (quiet : client.arriving = [])
    {call : ToolCall} (other : call.name ≠ "start_debug") (reply : Reply) (later : Client) :
    ((Control.perform call).run client = .ok reply later ∧
        reply.status? = some (.string "error")) ↔
      ∃ failure, call.refusal? client = some failure ∧ reply = .failed failure ∧
        later = client := by
  have answers := Control.answers_perform (reached_tidy run) quiet other
  rw [error_status_iff]
  cases refused : call.refusal? client with
  | none =>
    rw [refused] at answers
    constructor
    · rintro ⟨done, failure, rfl⟩
      exact absurd done (answers failure later)
    · rintro ⟨failure, ⟨⟩, -⟩
  | some reason =>
    rw [refused] at answers
    have failed : (Control.perform call).run client = .ok (.failed reason) client := answers
    rw [failed]
    constructor
    · rintro ⟨⟨⟩, -⟩
      exact ⟨reason, rfl, rfl, rfl⟩
    · rintro ⟨_, ⟨⟩, rfl, rfl⟩
      exact ⟨rfl, reason, rfl⟩

theorem unknown_view_is_refused :
    ∃ client : Client,
      Client.Reaches { config := { gdbPath := .string "gdb" } } client ∧ client.arriving = [] ∧
      client.sessions.keys = ["session_1"] ∧
      (ToolCall.openView "session_1" "nonsense").name ≠ "start_debug" ∧
      (Control.perform (.openView "session_1" "nonsense")).run client =
        .ok (.failed (.fault (.unknownView "nonsense") false)) client := by
  let first : Client := { config := { gdbPath := .string "gdb" } }
  let started := (Control.perform (.startDebug (some "a.out") none none)).after first
  have run : Client.Reaches first started := .single (.call _)
  have quiet : started.arriving = [] := by decide +kernel
  have listed : started.sessions.keys = ["session_1"] := by decide +kernel
  have refused : (ToolCall.openView "session_1" "nonsense").refusal? started =
      some (.fault (.unknownView "nonsense") false) := by
    decide +kernel
  have other : (ToolCall.openView "session_1" "nonsense").name ≠ "start_debug" := by decide
  exact ⟨started, run, quiet, listed, other,
    ((refused_calls_change_nothing run quiet other _ _).mpr ⟨_, refused, rfl, rfl⟩).1⟩

end GdbControl
