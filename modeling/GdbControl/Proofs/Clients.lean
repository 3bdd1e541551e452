import GdbControl.Client.Reading
import GdbControl.Proofs.Attribution
import GdbControl.Proofs.Preface
import GdbControl.Tool.Call

/-!
Whatever a client is asked for is a sequence of steps, each of which does one thing to one session:
a tool call, a delivery of output, the loop of the reader, the end of all sessions. What every step
keeps is kept by all of them, however they fail.
-/

namespace GdbControl

/-- What may happen to a session that has an owner; `given` holds of the commands that the user may
give. -/
inductive Act (given : String → Prop) (session : Session) : Session → Prop where
  | submit {command : String} (own : given command) (alive : session.isClosed = false) :
    Act given session ((Engine.submit command).after session)
  | openView (view : String) (alive : session.isClosed = false) :
    Act given session ((Engine.openView view).after session)
  | closeView (view : String) :
    Act given session { session with display := session.display.removeBuffer view }
  | receive (delivery : Delivery) : Act given session ((Engine.receive delivery).after session)
  | close : Act given session session.close
  | process (process : Subprocess) : Act given session { session with process := process }

/-- The command that a tool gives to gdb in the user's name. -/
def ToolCall.line? : ToolCall → Option String
  | .sendCommand _ command _ _ _ => some command
  | .run _ _ => some "run"
  | .continueExecution _ _ => some "continue"
  | .step _ count => some s!"step {count.getD 1}"
  | .next _ count => some s!"next {count.getD 1}"
  | .finish _ => some "finish"
  | .setBreakpoint _ location condition temporary =>
    some (ToolCall.breakCommand location condition temporary)
  | .removeBreakpoint _ breakpoint => some s!"delete {breakpoint}"
  | _ => none

/-- The name of the session that was asked for as the `number`th. -/
def sessionName (number : Nat) : String := s!"session_{number}"

/-- Something that a session did. -/
def Activity.isDeed : Activity → Bool
  | .did _ _ => true
  | _ => false

/-- What was recorded meanwhile, no session has done. -/
def Client.Mutters (client later : Client) : Prop :=
  ∃ activities, later.journal = client.journal ++ activities ∧
    ∀ activity ∈ activities, activity.isDeed = false

/-- One thing that happens to a client. -/
inductive Client.Step (given : String → Prop) (client : Client) : Client → Prop where
  /-- No session has to do with it. -/
  | aside {later : Client} (same : later.sessions = client.sessions)
    (attempts : client.attempts ≤ later.attempts) (told : client.Mutters later) :
    Step given client later
  | launch {later tried : Client} {config : Config} {attachment : Attachment}
    {process : Subprocess} {views : Catalog} (known : config.catalog = .ok views)
    (fresh : attachment.session = { Session.start process views with urgent := startup })
    (attempts : later.attempts = client.attempts + 1)
    (entered : later.sessions.get? (sessionName (client.attempts + 1)) = some attachment)
    (others : ∀ id, id ≠ sessionName (client.attempts + 1) →
      later.sessions.get? id = client.sessions.get? id)
    (spawned : client.Mutters tried)
    (told : later.journal = tried.journal ++ startup.map fun command =>
      .did (sessionName (client.attempts + 1)) (.accepted .urgent command)) :
    Step given client later
  | act {id : String} {attachment : Attachment} {session : Session}
    (present : client.sessions.get? id = some attachment)
    (act : Act given attachment.session session) :
    Step given client (client.keep id attachment session)
  | forget (id : String) : Step given client (client.forget id)

abbrev Client.Steps (given : String → Prop) : Client → Client → Prop :=
  Relation.ReflTransGen (Client.Step given)

namespace Control

/-- The client after an operation, whether or not it failed. -/
def after (operation : Control α) (client : Client) : Client :=
  match operation.run client with
  | .ok _ later | .error _ later => later

/-- An operation that leaves the sessions alone. -/
def Still (operation : Control α) : Prop :=
  ∀ client : Client, (operation.after client).sessions = client.sessions ∧
    (operation.after client).attempts = client.attempts ∧ client.Mutters (operation.after client)

/-- An operation that is a sequence of steps. -/
def Stepwise (given : String → Prop) (operation : Control α) : Prop :=
  ∀ client : Client, client.Steps given (operation.after client)

section Sequence

variable {given : String → Prop}

theorem mutters_refl (client : Client) : client.Mutters client :=
  ⟨[], (List.append_nil _).symm, by simp⟩

theorem mutters_trans {client middle later : Client} (first : client.Mutters middle)
    (second : middle.Mutters later) : client.Mutters later := by
  obtain ⟨earlier, told, silent⟩ := first
  obtain ⟨more, further, quiet⟩ := second
  refine ⟨earlier ++ more, by rw [further, told, List.append_assoc], fun activity member => ?_⟩
  exact (List.mem_append.mp member).elim (silent activity) (quiet activity)

theorem mutters_log (client : Client) {activity : Activity} (silent : activity.isDeed = false) :
    client.Mutters (client.log activity) :=
  ⟨[activity], rfl, by simpa using silent⟩

theorem after_bind (operation : Control α) (next : α → Control β) (client : Client) :
    (operation >>= next).after client =
      match operation.run client with
      | .ok value later => (next value).after later
      | .error _ later => later := by
  simp only [after, EStateM.run_bind]
  cases operation.run client <;> rfl

theorem still_bind {operation : Control α} {next : α → Control β} (first : Still operation)
    (rest : ∀ value, Still (next value)) : Still (operation >>= next) := by
  intro client
  have kept := first client
  rw [after_bind]
  unfold after at kept
  cases done : operation.run client with
  | ok value later =>
    rw [done] at kept
    have last := rest value later
    exact ⟨last.1.trans kept.1, last.2.1.trans kept.2.1, mutters_trans kept.2.2 last.2.2⟩
  | error fault later =>
    rw [done] at kept
    exact kept

theorem still_same {operation : Control α} (same : ∀ client, operation.after client = client) :
    Still operation := by
  intro client
  rw [same]
  exact ⟨rfl, rfl, mutters_refl client⟩

theorem still_pure (value : α) : Still (pure value) := still_same fun _ => rfl

theorem still_throw (fault : Fault) : Still (α := α) (throw fault) := still_same fun _ => rfl

theorem still_lift (result : Except Fault α) : Still (lift result) := by
  cases result with
  | ok value => exact still_pure value
  | error fault => exact still_throw fault

theorem still_locate : Still locateGdb := by
  refine still_bind (still_same fun _ => rfl) fun client => ?_
  split
  · exact still_pure _
  · split
    · split
      · exact still_throw _
      · exact still_pure _
    · exact still_throw _

theorem still_start (program : String) (args : List String) : Still (startGdb program args) := by
  refine still_bind still_locate fun gdb => still_bind (still_same fun _ => rfl) fun client =>
    still_bind (still_lift _) fun command => still_bind (still_lift _) fun environment =>
      still_bind (fun client => ⟨rfl, rfl, mutters_log client rfl⟩) fun _ => ?_
  split
  · exact still_throw _
  · exact still_pure _

theorem stepwise_still {operation : Control α} (still : Still operation) :
    Stepwise given operation := by
  intro client
  obtain ⟨same, attempts, told⟩ := still client
  exact .single (.aside same (Nat.le_of_eq attempts.symm) told)

theorem stepwise_pure (value : α) : Stepwise given (pure value) := fun _ => .refl

theorem stepwise_throw (fault : Fault) : Stepwise (α := α) given (throw fault) := fun _ => .refl

theorem stepwise_get : Stepwise given (get : Control Client) := fun _ => .refl

theorem stepwise_record {activity : Activity} (silent : activity.isDeed = false) :
    Stepwise given (record activity) :=
  stepwise_still fun client => ⟨rfl, rfl, mutters_log client silent⟩

theorem steps_then {operation : Control α} {next : α → Control β} {client : Client}
    (first : client.Steps given (operation.after client)) (rest : ∀ value, Stepwise given (next value)) :
    client.Steps given ((operation >>= next).after client) := by
  rw [after_bind]
  unfold after at first
  cases done : operation.run client with
  | ok value later =>
    rw [done] at first
    exact first.trans (rest value later)
  | error fault later =>
    rw [done] at first
    exact first

theorem stepwise_bind {operation : Control α} {next : α → Control β} (first : Stepwise given operation)
    (rest : ∀ value, Stepwise given (next value)) : Stepwise given (operation >>= next) :=
  fun client => steps_then (first client) rest

theorem stepwise_map {operation : Control α} (f : α → β) (first : Stepwise given operation) :
    Stepwise given (f <$> operation) :=
  stepwise_bind first fun value => stepwise_pure (f value)

theorem stepwise_catch {operation : Control α} {handler : Fault → Control α}
    (first : Stepwise given operation) (rest : ∀ fault, Stepwise given (handler fault)) :
    Stepwise given (tryCatch operation handler) := by
  intro client
  have steps := first client
  unfold after at steps ⊢
  rw [Engine.run_catch]
  cases done : operation.run client with
  | ok value later =>
    rw [done] at steps
    exact steps
  | error fault later =>
    rw [done] at steps
    exact steps.trans (rest fault later)

theorem stepwise_forM {operation : β → Control Unit} {items : List β}
    (each : ∀ item, Stepwise given (operation item)) : Stepwise given (items.forM operation) := by
  induction items with
  | nil => exact stepwise_pure ()
  | cons item rest ih => exact stepwise_bind (each item) fun _ => ih

theorem run_find (id : String) (client : Client) :
    (find id).run client =
      match client.sessions.get? id with
      | some attachment => .ok attachment client
      | none => .error (.sessionNotFound id) client := by
  unfold find
  rw [EStateM.run_bind]
  dsimp only [EStateM.run_get]
  cases client.sessions.get? id <;> rfl

theorem run_require (id : String) (alive : Bool) (client : Client) :
    (require id alive).run client =
      match client.sessions.get? id with
      | some attachment =>
        if alive && attachment.session.isClosed then .error .tornDown client
        else .ok attachment client
      | none => .error (.sessionNotFound id) client := by
  unfold require
  rw [EStateM.run_bind, run_find]
  cases client.sessions.get? id with
  | none => rfl
  | some attachment =>
    dsimp only
    cases alive && attachment.session.isClosed <;> rfl

theorem stepwise_find (id : String) : Stepwise given (find id) := by
  intro client
  unfold after
  rw [run_find]
  cases client.sessions.get? id <;> exact .refl

-- What needs an open session is performed on one.
theorem stepwise_require {id : String} {alive : Bool} {next : Attachment → Control β}
    (rest : ∀ (client : Client) (attachment : Attachment),
      client.sessions.get? id = some attachment →
        (alive = true → attachment.session.isClosed = false) →
        client.Steps given ((next attachment).after client)) : Stepwise given (require id alive >>= next) := by
  intro client
  rw [after_bind, run_require]
  cases present : client.sessions.get? id with
  | none => exact .refl
  | some attachment =>
    dsimp only
    cases barred : alive && attachment.session.isClosed with
    | true => exact .refl
    | false =>
      refine rest client attachment present fun needed => ?_
      simpa [needed] using barred

theorem stepwise_looked_up {id : String} {alive : Bool} {next : Attachment → Control β}
    (rest : ∀ attachment, Stepwise given (next attachment)) : Stepwise given (require id alive >>= next) :=
  stepwise_require fun client attachment _ _ => rest attachment client

theorem on_session_after {client : Client} {id : String} {attachment : Attachment}
    (present : client.sessions.get? id = some attachment) (operation : Engine α) :
    (onSession id operation).after client =
      client.keep id attachment (operation.after attachment.session) := by
  unfold after Engine.after
  rw [run_on_session present]
  cases operation.run attachment.session <;> rfl

theorem on_session_absent {client : Client} {id : String}
    (absent : client.sessions.get? id = none) (operation : Engine α) :
    (onSession id operation).after client = client := by
  unfold onSession
  rw [after_bind, run_find, absent]

theorem steps_on_session {client : Client} {id : String} {attachment : Attachment}
    {operation : Engine α} (present : client.sessions.get? id = some attachment)
    (act : Act given attachment.session (operation.after attachment.session)) :
    client.Steps given ((onSession id operation).after client) := by
  rw [on_session_after present]
  exact .single (.act present act)

theorem stepwise_on_session {id : String} {operation : Engine α}
    (act : ∀ session, Act given session (operation.after session)) :
    Stepwise given (onSession id operation) := by
  intro client
  cases present : client.sessions.get? id with
  | some attachment => exact steps_on_session present (act attachment.session)
  | none =>
    rw [on_session_absent present]

theorem stepwise_deliver (id : String) (deliveries : List Delivery) :
    Stepwise given (deliver id deliveries) :=
  stepwise_bind (stepwise_find id) fun _ =>
    stepwise_forM fun delivery => stepwise_on_session fun _ => .receive delivery

theorem stepwise_await (id : String) (limit : Option Int) : Stepwise given (awaitPrompt id limit) :=
  stepwise_bind (stepwise_record rfl) fun _ => stepwise_bind stepwise_get fun client =>
    stepwise_bind (stepwise_still fun client => ⟨rfl, rfl, mutters_refl client⟩) fun _ =>
      stepwise_bind (stepwise_deliver id client.arriving) fun _ =>
        stepwise_bind (stepwise_find id) fun _ => stepwise_pure _

theorem stepwise_command (id : String) {command : String} (own : given command) (wait : Bool)
    (limit : Option Int) : Stepwise given (runCommand id command wait limit) := by
  refine stepwise_require fun client attachment present alive => ?_
  refine steps_then (steps_on_session present (.submit own (alive rfl))) fun sent => ?_
  split
  · exact stepwise_pure _
  · exact stepwise_bind (stepwise_await id limit) fun ready =>
      stepwise_bind (stepwise_find id) fun _ => stepwise_pure _

theorem stepwise_open (id view : String) : Stepwise given (openView id view) :=
  stepwise_require fun _ _ present alive => steps_on_session present (.openView view (alive rfl))

theorem stepwise_close_view (id view : String) : Stepwise given (closeView id view) :=
  stepwise_looked_up fun _ =>
    stepwise_bind (stepwise_on_session fun _ => .closeView view) fun _ => stepwise_pure _

theorem stepwise_await_end (id : String) : Stepwise given (awaitEnd id) :=
  stepwise_bind (stepwise_find id) fun _ =>
    stepwise_bind (stepwise_on_session fun _ => .process _) fun _ =>
      stepwise_bind (stepwise_record rfl) fun _ => stepwise_pure _

theorem stepwise_end_process (id : String) : Stepwise given (endProcess id) := by
  have asked : Stepwise given (askToQuit id) := by
    refine stepwise_bind (stepwise_find id) fun _ => stepwise_bind (stepwise_record rfl) fun _ => ?_
    split
    · exact stepwise_await_end id
    · exact stepwise_pure _
  have terminated : Stepwise given (terminate id) := by
    refine stepwise_bind (stepwise_record rfl) fun _ => stepwise_bind (stepwise_find id) fun _ => ?_
    split
    · exact stepwise_pure _
    · exact stepwise_await_end id
  have killed : Stepwise given (kill id) := by
    refine stepwise_bind (stepwise_record rfl) fun _ => stepwise_bind (stepwise_find id) fun _ => ?_
    split
    · exact stepwise_throw _
    · exact stepwise_pure _
  refine stepwise_bind (stepwise_find id) fun _ => ?_
  split
  · refine stepwise_bind asked fun heard => ?_
    split
    · refine stepwise_bind terminated fun ended => ?_
      split
      · exact killed
      · exact stepwise_pure _
    · exact stepwise_pure _
  · exact stepwise_pure _

theorem stepwise_stop (id : String) : Stepwise given (stop id) := by
  refine stepwise_bind stepwise_get fun client => ?_
  split
  · have wound : Stepwise given (windUp id) :=
      stepwise_bind (stepwise_on_session fun _ => .close) fun _ => stepwise_end_process id
    exact stepwise_bind wound fun _ => fun later => .single (.forget id)
  · exact stepwise_pure _

theorem stepwise_stop_all : Stepwise given stopAll :=
  stepwise_bind stepwise_get fun _ =>
    stepwise_forM fun id => stepwise_catch (stepwise_stop id) fun _ => stepwise_pure _

theorem stepwise_pump (id : String) (readings : List Reading) : Stepwise given (pump id readings) := by
  induction readings with
  | nil => exact stepwise_pure ()
  | cons reading rest ih =>
    have alive : Stepwise given (isAlive id) := stepwise_bind (stepwise_find id) fun _ => stepwise_pure _
    have closing (next : Control Unit) (last : Stepwise given next) :
        Stepwise given (do onSession id (modify Session.close); next) :=
      stepwise_bind (stepwise_on_session fun _ => .close) fun _ => last
    unfold pump
    refine stepwise_bind alive fun open_ => ?_
    split
    case isFalse => exact stepwise_pure ()
    obtain ⟨outcome, closedBefore⟩ := reading
    cases outcome with
    | quiet =>
      rw [if_pos rfl]
      refine stepwise_bind (stepwise_record rfl) fun _ => ?_
      have flushed : Stepwise given (do
          if ← isAlive id then onSession id (discard Engine.flush)
          pump id rest) := by
        refine stepwise_bind alive fun stillOpen => ?_
        cases stillOpen with
        | false => exact ih
        | true => exact stepwise_bind (stepwise_on_session fun _ => .receive .quiet) fun _ => ih
      cases closedBefore with
      | false => exact flushed
      | true => exact closing _ flushed
    | bytes available =>
      cases available with
      | nil =>
        cases closedBefore with
        | false => exact stepwise_pure ()
        | true => exact closing _ (stepwise_pure ())
      | cons first others =>
        have taken : Stepwise given (do
            onSession id (Engine.ingest Engine.handle (first :: others))
            pump id rest) :=
          stepwise_bind (stepwise_on_session fun _ => .receive (.output (first :: others)))
            fun _ => ih
        cases closedBefore with
        | false => exact taken
        | true => exact closing _ taken
    | failed reason =>
      cases closedBefore with
      | false => exact stepwise_throw _
      | true => exact closing _ (stepwise_throw _)

theorem stepwise_read_all (id : String) (script : List Reading) : Stepwise given (readAll id script) :=
  stepwise_bind (stepwise_catch (stepwise_pump id _) fun _ => stepwise_pure _) fun _ =>
    stepwise_on_session fun _ => .receive .exit

-- A session is entered into the table, and then the commands of its setup into its queue.
theorem steps_launched {client counted : Client} {config : Config} {process : Subprocess}
    {views : Catalog} (program : String) (args : List String)
    (known : config.catalog = .ok views) (sessions : counted.sessions = client.sessions)
    (attempts : counted.attempts = client.attempts + 1) (spawned : client.Mutters counted) :
    let id := sessionName (client.attempts + 1)
    let attachment : Attachment := ⟨Session.start process views, program, args⟩
    let entered : Client := { counted with sessions := counted.sessions.insert id attachment }
    client.Steps given ((do onSession id Engine.enqueuePreamble; pure id).after entered) := by
  intro id attachment entered
  have present : entered.sessions.get? id = some attachment := Table.get?_insert_self _ _ _
  rw [after_bind, run_on_session present, run_preamble]
  let ready : Session := { Session.start process views with urgent := startup }
  have fresh : ({ attachment with session := ready } : Attachment).session = ready := rfl
  refine .single (.launch known fresh attempts (Table.get?_insert_self _ _ _)
    (fun other differs => ?_) spawned ?_)
  · rw [← sessions]
    exact (Table.get?_insert_of_ne _ _ differs).trans (Table.get?_insert_of_ne _ _ differs)
  · change (Client.keep entered id attachment _).journal = _
    rw [Client.keep, List.map_map]
    rfl

theorem stepwise_attach (program : String) (args : List String) :
    Stepwise given (attach program args) := by
  intro client
  let counted : Client := { client with attempts := client.attempts + 1 }
  have named : nextId.run client = .ok (sessionName (client.attempts + 1)) counted := rfl
  obtain ⟨sessions, attempts, told⟩ := still_start program args counted
  have failed {later : Client} (sessions : later.sessions = client.sessions)
      (attempts : later.attempts = client.attempts + 1) (told : client.Mutters later) :
      client.Steps given later :=
    .single (.aside sessions (attempts ▸ Nat.le_succ _) told)
  unfold attach
  rw [after_bind, named]
  dsimp only
  rw [after_bind]
  unfold after at sessions attempts told
  cases started : (startGdb program args).run counted with
  | error fault later =>
    rw [started] at sessions attempts told
    exact failed sessions attempts told
  | ok process later =>
    rw [started] at sessions attempts told
    dsimp only at sessions attempts told ⊢
    rw [after_bind]
    dsimp only [EStateM.run_get]
    rw [after_bind]
    cases known : later.config.catalog with
    | error fault => exact failed sessions attempts told
    | ok views => exact steps_launched program args known sessions attempts told

theorem stepwise_finally {operation : Control α} {last : Control Unit} (first : Stepwise given operation)
    (rest : Stepwise given last) :
    Stepwise given (do
      try operation
      finally last) := by
  intro client
  have steps := first client
  unfold after at steps ⊢
  simp only [tryFinally, tryFinally', EStateM.run, Functor.map, EStateM.map] at steps ⊢
  cases done : operation client with
  | ok value later =>
    rw [done] at steps
    have ended := rest later
    unfold after EStateM.run at ended
    dsimp only
    cases finished : last later <;> rw [finished] at ended <;> exact steps.trans ended
  | error fault later =>
    rw [done] at steps
    have ended := rest later
    unfold after EStateM.run at ended
    dsimp only
    cases finished : last later <;> rw [finished] at ended <;> exact steps.trans ended

theorem stepwise_in_directory (directory : String) {operation : Control α}
    (steps : Stepwise given operation) : Stepwise given (inDirectory directory operation) := by
  have placed (path : Json) : Stepwise given (modify fun client : Client =>
      { client with config := { client.config with workingDirectory := path } } : Control Unit) :=
    stepwise_still fun client => ⟨rfl, rfl, mutters_refl client⟩
  refine stepwise_bind stepwise_get fun client => stepwise_bind (placed _) fun _ =>
    stepwise_finally steps ?_
  split
  · exact stepwise_pure ()
  · exact placed _

theorem stepwise_start_debug (program : Option String) (args : Option (List String))
    (rootDirectory : Option String) : Stepwise given (startDebug program args rootDirectory) := by
  refine stepwise_catch (stepwise_map _ ?_) fun _ => stepwise_pure _
  split
  · exact stepwise_attach _ _
  · exact stepwise_in_directory _ (stepwise_attach _ _)

theorem stepwise_answering {operation : Control Reply} (steps : Stepwise given operation) :
    Stepwise given (answering operation) := by
  refine stepwise_catch steps fun fault => ?_
  split
  · exact stepwise_pure _
  · exact stepwise_throw _

theorem stepwise_paged (session : String) {command : String} (own : given command) (wait : Bool)
    (limit : Option Int) (window : Window) :
    Stepwise given (sendPaged session command wait limit window) := by
  refine stepwise_answering (stepwise_bind (stepwise_command _ own _ _) fun result => ?_)
  split <;> exact stepwise_pure _

theorem stepwise_list_breakpoints (session : String) : Stepwise given (listBreakpoints session) := by
  have read : Stepwise given (do
      let text ← viewText session ToolCall.breakpointView
      pure (Reply.breakpoints (text.getD "")
        ((← find session).session.isAwaiting ToolCall.breakpointView))) :=
    stepwise_bind (stepwise_looked_up fun _ => stepwise_pure _) fun _ =>
      stepwise_bind (stepwise_find _) fun _ => stepwise_pure _
  refine stepwise_answering (stepwise_looked_up fun attachment => ?_)
  dsimp only
  split
  · exact stepwise_bind (stepwise_open _ _) fun _ =>
      stepwise_bind (stepwise_await _ _) fun _ => read
  · exact read

theorem stepwise_show_view (session view : String) (window : Window) :
    Stepwise given (showView session view window) := by
  refine stepwise_answering (stepwise_bind (stepwise_looked_up fun _ => stepwise_pure _)
    fun text => ?_)
  split
  · exact stepwise_pure _
  · exact stepwise_looked_up fun _ => stepwise_pure _

/-- Every tool call is a sequence of steps, with no command of the user but its own. -/
theorem stepwise_perform (call : ToolCall)
    (own : ∀ command, call.line? = some command → given command) :
    Stepwise given (perform call) := by
  have shown (session : String) {next : Attachment → Reply} :
      Stepwise given (answering do pure (next (← require session false))) :=
    stepwise_answering (stepwise_looked_up fun _ => stepwise_pure _)
  cases call with
  | startDebug => exact stepwise_start_debug _ _ _
  | stopDebug session =>
    refine stepwise_bind stepwise_get fun client => ?_
    split
    · exact stepwise_bind (stepwise_bind (stepwise_catch (stepwise_stop session) fun _ =>
        stepwise_record rfl) fun _ => stepwise_record rfl) fun _ => stepwise_pure _
    · exact stepwise_pure _
  | listSessions => exact stepwise_bind stepwise_get fun _ => stepwise_pure _
  | sendCommand | run | continueExecution | step | next | finish =>
    exact stepwise_paged _ (own _ rfl) _ _ _
  | setBreakpoint | removeBreakpoint =>
    exact stepwise_answering (stepwise_bind (stepwise_command _ (own _ rfl) _ _) fun _ =>
      stepwise_pure _)
  | listBreakpoints => exact stepwise_list_breakpoints _
  | openView =>
    exact stepwise_answering (stepwise_bind (stepwise_open _ _) fun _ => stepwise_pure _)
  | closeView =>
    refine stepwise_answering (stepwise_bind (stepwise_close_view _ _) fun closed => ?_)
    split <;> exact stepwise_pure _
  | getView => exact stepwise_show_view _ _ _
  | listViews | readTranscript | readInferiorOutput | sessionDiagnostics => exact shown _

end Sequence

end Control

end GdbControl
