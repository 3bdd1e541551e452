import GdbControl.Proofs.Happenings
import GdbControl.Proofs.Independence
import GdbControl.Proofs.Staleness
import GdbControl.Proofs.Stopping

/-!
The buffers of the views of a session, through all that its client does. Calls open and close views,
and gdb's output completes refreshes that were asked for before, perhaps for a buffer that is gone by
then, or for one that has been opened again since. The history of a view tells what its buffer holds.
-/

namespace GdbControl

/-- Whether a view can be opened: its session is alive and knows it. -/
def Client.offers (client : Client) (id view : String) : Bool :=
  (client.sessions.get? id).any fun attachment =>
    !attachment.session.isClosed && attachment.session.views.contains view

/-- The view of a session that a call opens or closes, if there is one. -/
def ToolCall.toggles (client : Client) (id : String) : ToolCall → List Happening
  | .openView session view => if session = id && client.offers id view then [.opened view] else []
  | .listBreakpoints session =>
    if session = id && client.offers id breakpointView then [.opened breakpointView] else []
  | .closeView session view =>
    if session = id && client.sessions.contains id then [.closed view] else []
  | _ => []

def Work.toggles (client : Client) (id : String) : Work → List Happening
  | .call request => request.toggles client id
  | .deliver _ _ | .read _ _ | .process _ _ => []

/-- What happens to the views of a session in a task: what the caller does, and then what the
session has on record. -/
def Task.happenings (task : Task) (client : Client) (id : String) : List Happening :=
  task.work.toggles client id ++ happeningsIn
    ((eventsOf id (task.after client).journal).drop (eventsOf id client.journal).length)

/-- What happens to the views of a session in several tasks, one after another. -/
def Client.history (id : String) : Client → List Task → List Happening
  | _, [] => []
  | client, task :: rest => task.happenings client id ++ (task.after client).history id rest

/-- A session between two operations of its owner. -/
structure Session.Resting (session : Session) : Prop where
  attentive : session.Attentive
  clean : session.journal = []

/-- The client has worked on one session, which had some views opened or closed first. It is what it
has become through what is on record, if it has not been forgotten. -/
structure Client.Serves (client : Client) (id : String) (toggles : List Happening)
    (later : Client) : Prop where
  absent : client.sessions.get? id = none → later.sessions.get? id = none
  lived : ∃ events, eventsOf id later.journal = eventsOf id client.journal ++ events ∧
    ∀ attachment found, client.sessions.get? id = some attachment →
      later.sessions.get? id = some found → attachment.session.Resting →
        found.session.Resting ∧
          attachment.session.Lives (toggles ++ happeningsIn events) found.session

/-- The session of a name, or one to which nothing has happened. -/
def Client.seen (client : Client) (id : String) : Session :=
  ((client.sessions.get? id).map Attachment.session).getD (Session.start { pid := 0 } Table.empty)

section Serves

variable {client middle later : Client} {id : String} {toggles : List Happening}

theorem serves_refl (id : String) (client : Client) : client.Serves id [] client :=
  ⟨fun absent => absent, [], (List.append_nil _).symm, fun attachment found present same resting => by
    cases present.symm.trans same
    exact ⟨resting, lives_refl _⟩⟩

theorem serves_trans (first : client.Serves id toggles middle) (rest : middle.Serves id [] later) :
    client.Serves id toggles later := by
  obtain ⟨events, told, lived⟩ := first.lived
  obtain ⟨more, further, living⟩ := rest.lived
  refine ⟨rest.absent ∘ first.absent, events ++ more, ?_, ?_⟩
  · rw [further, told, List.append_assoc]
  intro attachment found present kept resting
  cases between : middle.sessions.get? id with
  | none =>
    rw [rest.absent between] at kept
    cases kept
  | some passing =>
    obtain ⟨still, before⟩ := lived attachment passing present between resting
    obtain ⟨last, after⟩ := living passing found between kept still
    rw [happeningsIn, List.filterMap_append, ← List.append_assoc]
    exact ⟨last, lives_trans before after⟩

theorem events_none {activities : List Activity} (none : ∀ event, .did id event ∉ activities) :
    eventsOf id activities = [] := by
  refine List.filterMap_eq_nil_iff.mpr fun activity member => ?_
  cases activity with
  | did name event =>
    have other : name ≠ id := fun same => none event (same ▸ member)
    simp [other]
  | _ => rfl

-- Of what is left out, nothing has been done by the session.
theorem events_filter {keep : Activity → Bool} (keeps : ∀ event, keep (.did id event) = true)
    (activities : List Activity) : eventsOf id (activities.filter keep) = eventsOf id activities := by
  unfold eventsOf
  rw [List.filterMap_filter]
  refine List.filterMap_congr fun activity _ => ?_
  cases activity with
  | did name event =>
    by_cases same : name = id
    · subst same
      simp [keeps]
    · simp [same]
  | _ => simp

theorem serves_aside (same : later.sessions = client.sessions) (told : client.Mutters later) :
    client.Serves id [] later := by
  obtain ⟨activities, grown, silent⟩ := told
  refine ⟨fun absent => by rw [same, absent], [], ?_, ?_⟩
  · rw [grown, eventsOf, List.filterMap_append]
    exact congrArg _ (events_none fun event member => by cases silent _ member)
  · intro attachment found present kept resting
    rw [same, present] at kept
    cases kept
    exact ⟨resting, lives_refl _⟩

-- The owner takes the record of a session away, and with it nothing that can be seen of its views.
theorem serves_keep {attachment : Attachment} {session : Session}
    (present : client.sessions.get? id = some attachment)
    (resting : attachment.session.Resting → session.Attentive ∧
      attachment.session.Undergoes toggles session) :
    client.Serves id toggles (client.keep id attachment session) := by
  refine ⟨fun absent => (by cases absent.symm.trans present), session.journal, events_kept session, ?_⟩
  intro found kept same there rested
  cases present.symm.trans same
  rw [kept_get, if_pos rfl] at there
  cases there
  obtain ⟨attentive, undergone⟩ := resting rested
  obtain ⟨events, told, lived, -⟩ := undergone.lived
  rw [rested.clean, List.nil_append] at told
  rw [told]
  exact ⟨⟨attentive_forgetful attentive, rfl⟩, ⟨lived.shown, lived.awaited⟩⟩

end Serves
namespace Control

/-- An operation that works on one session, and opens or closes none of its views. -/
def Serves (id : String) (operation : Control α) : Prop :=
  ∀ client : Client, client.Serves id [] (operation.after client)

section Serves

variable {client : Client} {id : String} {toggles : List Happening}

theorem served_then {operation : Control α} {next : α → Control β}
    (first : client.Serves id toggles (operation.after client))
    (rest : ∀ value, Serves id (next value)) :
    client.Serves id toggles ((operation >>= next).after client) := by
  rw [after_bind]
  unfold after at first
  cases done : operation.run client with
  | ok value later =>
    rw [done] at first
    exact serves_trans first (rest value later)
  | error fault later =>
    rw [done] at first
    exact first

theorem serves_bind {operation : Control α} {next : α → Control β} (first : Serves id operation)
    (rest : ∀ value, Serves id (next value)) : Serves id (operation >>= next) :=
  fun client => served_then (first client) rest

theorem serves_still {operation : Control α} (still : Still operation) : Serves id operation :=
  fun client => serves_aside (still client).1 (still client).2.2

theorem serves_pure (value : α) : Serves id (pure value) := serves_still (still_pure value)

theorem serves_forM {operation : β → Control Unit} {items : List β}
    (each : ∀ item, Serves id (operation item)) : Serves id (items.forM operation) := by
  induction items with
  | nil => exact serves_pure ()
  | cons item rest ih => exact serves_bind (each item) fun _ => ih

theorem still_find (id : String) : Still (find id) :=
  still_same fun client => by
    unfold after
    rw [run_find]
    cases client.sessions.get? id <;> rfl

theorem after_require (id : String) (alive : Bool) (next : Attachment → Control α)
    (client : Client) :
    (require id alive >>= next).after client =
      match client.sessions.get? id with
      | some attachment =>
        if alive && attachment.session.isClosed then client else (next attachment).after client
      | none => client := by
  rw [after_bind, run_require]
  cases client.sessions.get? id with
  | none => rfl
  | some attachment =>
    dsimp only
    cases alive && attachment.session.isClosed <;> rfl

theorem still_require (id : String) (alive : Bool) : Still (require id alive) :=
  still_same fun client => by
    have required := after_require id alive pure client
    rw [bind_pure] at required
    rw [required]
    cases client.sessions.get? id with
    | none => rfl
    | some attachment => exact ite_self client

theorem still_view_text (id view : String) : Still (viewText id view) :=
  still_bind (still_require id false) fun _ => still_pure _

-- A fault that becomes an answer has left the client as it is.
theorem after_answering (operation : Control Reply) (client : Client) :
    (answering operation).after client = operation.after client := by
  unfold answering after
  rw [Engine.run_catch]
  cases operation.run client with
  | ok reply later => rfl
  | error fault later =>
    dsimp only
    cases fault.label?.isSome <;> rfl

theorem serves_on_session {operation : Engine α}
    (each : ∀ session : Session, session.Resting →
      (operation.after session).Attentive ∧ session.Undergoes [] (operation.after session)) :
    Serves id (onSession id operation) := by
  intro client
  cases present : client.sessions.get? id with
  | none =>
    rw [on_session_absent present]
    exact serves_refl id client
  | some attachment =>
    rw [on_session_after present]
    exact serves_keep present (each attachment.session)

theorem serves_deliver (id : String) (deliveries : List Delivery) :
    Serves id (deliver id deliveries) :=
  serves_bind (serves_still (still_find id)) fun _ => serves_forM fun delivery =>
    serves_on_session fun _ resting =>
      ⟨attentive_receive resting.attentive delivery, undergoes_receive resting.attentive delivery⟩

theorem serves_await (id : String) (limit : Option Int) : Serves id (awaitPrompt id limit) :=
  serves_bind (serves_still fun client => ⟨rfl, rfl, mutters_log client rfl⟩) fun _ =>
    serves_bind (serves_still (still_same fun _ => rfl)) fun client =>
      serves_bind (serves_still fun client => ⟨rfl, rfl, mutters_refl client⟩) fun _ =>
        serves_bind (serves_deliver id client.arriving) fun _ =>
          serves_bind (serves_still (still_find id)) fun _ => serves_pure _

theorem serves_command (id command : String) (wait : Bool) (limit : Option Int) :
    Serves id (runCommand id command wait limit) := by
  intro client
  unfold runCommand
  rw [after_require]
  cases present : client.sessions.get? id with
  | none => exact serves_refl id client
  | some attachment =>
    dsimp only
    cases closed : attachment.session.isClosed with
    | true => exact serves_refl id client
    | false =>
      refine served_then ?_ fun sent => ?_
      · rw [on_session_after present]
        exact serves_keep present fun resting =>
          ⟨attentive_submit resting.attentive closed command, undergoes_submit closed command⟩
      · split
        · exact serves_pure _
        · exact serves_bind (serves_await id limit) fun ready =>
            serves_bind (serves_still (still_find id)) fun _ => serves_pure _

theorem serves_paged (id command : String) (wait : Bool) (limit : Option Int) (window : Window) :
    Serves id (sendPaged id command wait limit window) := by
  intro client
  unfold sendPaged
  rw [after_answering]
  refine served_then (serves_command id command wait limit client) fun result => ?_
  split <;> exact serves_pure _

theorem serves_edit (id command : String) :
    Serves id (answering do pure (.command (← runCommand id command true none))) := by
  intro client
  rw [after_answering]
  exact served_then (serves_command id command true none client) fun _ => serves_pure _

theorem serves_open (client : Client) (id view : String) :
    client.Serves id (if client.offers id view then [.opened view] else [])
      ((openView id view).after client) := by
  unfold openView Client.offers
  rw [after_require]
  cases present : client.sessions.get? id with
  | none => exact serves_refl id client
  | some attachment =>
    have opens := on_session_after present (Engine.openView view)
    simp only [Option.any_some, Table.contains, Bool.true_and, opens]
    rcases Bool.eq_false_or_eq_true attachment.session.isClosed with closed | closed
    · simpa [closed] using serves_refl id client
    · simp only [closed, Bool.not_false, Bool.true_and, Bool.false_eq_true, if_false]
      cases found : attachment.session.views.get? view with
      | none =>
        have unknown : attachment.session.views.find view = .error (.unknownView view) := by
          rw [Catalog.find, found]
        have same : (Engine.openView view).after attachment.session = attachment.session := by
          rw [Engine.after_open closed, unknown]
        rw [same]
        exact serves_keep present fun resting => ⟨resting.attentive, undergoes_refl _⟩
      | some known =>
        have known : attachment.session.views.find view = .ok known := by
          rw [Catalog.find, found]
        exact serves_keep present fun resting => ⟨attentive_open resting.attentive closed view,
          undergoes_open resting.attentive.accounted.views closed known⟩

theorem serves_close_view (client : Client) (id view : String) :
    client.Serves id (if client.sessions.contains id then [.closed view] else [])
      ((closeView id view).after client) := by
  unfold closeView Table.contains
  rw [after_require]
  cases present : client.sessions.get? id with
  | none => exact serves_refl id client
  | some attachment =>
    have closes : ((onSession id (Engine.onDisplay (·.removeBuffer view))).after client) =
        client.keep id attachment
          { attachment.session with display := attachment.session.display.removeBuffer view } :=
      on_session_after present _
    refine served_then ?_ fun _ => serves_pure _
    rw [closes]
    refine serves_keep present fun resting => ⟨?_, undergoes_closed attachment.session view⟩
    exact @act_attentive (fun _ => True) _ _ resting.attentive (.closeView view)

-- Opening a view that is open leaves its buffer as it is.
theorem serves_again {attachment : Attachment} {view : String}
    (present : client.sessions.get? id = some attachment)
    (shown : attachment.session.display.isOpen view = true) :
    client.Serves id (if client.offers id view then [.opened view] else []) client := by
  have refl := serves_refl id client
  split
  · refine ⟨refl.absent, [], (List.append_nil _).symm, fun found same there kept resting => ?_⟩
    cases present.symm.trans there
    cases present.symm.trans kept
    refine ⟨resting, fun other => ?_, fun _ waits => waits⟩
    obtain ⟨text, held⟩ := Option.isSome_iff_exists.mp shown
    by_cases own : view = other
    · subst own
      simp [Happening.onBuffer, happeningsIn, held]
    · simp [Happening.onBuffer, happeningsIn, own]
  · exact refl

theorem serves_list_breakpoints (client : Client) (id : String) :
    client.Serves id
      (if client.offers id ToolCall.breakpointView then [.opened ToolCall.breakpointView] else [])
      ((listBreakpoints id).after client) := by
  have read : Serves id (do
      let text ← viewText id ToolCall.breakpointView
      pure (Reply.breakpoints (text.getD "")
        ((← find id).session.isAwaiting ToolCall.breakpointView))) :=
    serves_still (still_bind (still_view_text id _) fun _ =>
      still_bind (still_find id) fun _ => still_pure _)
  unfold listBreakpoints
  rw [after_answering, after_require]
  cases present : client.sessions.get? id with
  | none => simpa [Client.offers, present] using serves_refl id client
  | some attachment =>
    dsimp only
    rw [Bool.true_and]
    rcases Bool.eq_false_or_eq_true attachment.session.isClosed with closed | closed
    · have barred : ¬ client.offers id ToolCall.breakpointView = true := by
        simp [Client.offers, present, closed]
      rw [if_neg barred, if_pos closed]
      exact serves_refl id client
    · rw [if_neg (Bool.eq_false_iff.mp closed)]
      by_cases unopened : (!attachment.session.display.isOpen ToolCall.breakpointView) = true
      · rw [if_pos unopened]
        exact served_then (serves_open client id _) fun _ =>
          serves_bind (serves_await id _) fun _ => read
      · rw [if_neg unopened]
        exact serves_trans (serves_again present (by simpa using unopened)) (read client)

theorem serves_stop_debug (tidy : client.Tidy) (id : String) :
    client.Serves id [] ((perform (.stopDebug id)).after client) := by
  cases present : client.sessions.get? id with
  | none =>
    have missing : client.sessions.contains id = false := by rw [Table.contains, present]; rfl
    have same : (perform (.stopDebug id)).after client = client := by
      unfold perform stopDebug
      rw [after_bind]
      dsimp only [EStateM.run_get]
      rw [missing]
      rfl
    rw [same]
    exact serves_refl id client
  | some attachment =>
    obtain ⟨steps, last, stopped, stops, result⟩ := Control.stops present (tidy id attachment present)
    have silent {more : List Activity} (nothing : eventsOf id more = []) :
        eventsOf id (stopped.journal ++ more) = eventsOf id client.journal ++ [] := by
      rw [stops.told, events_append, events_append, stops.silent, nothing, List.append_nil]
    unfold after
    rw [run_stop_debug present]
    rcases result with ⟨ended, spared⟩ | ⟨failed, survives⟩
    · rw [ended]
      have gone := (stops.forgotten spared).1
      refine ⟨fun _ => gone, [], silent rfl, fun _ found _ there => ?_⟩
      cases gone.symm.trans there
    · rw [failed]
      have told : ((stopped.log (.stopFailed id (.system "kill failed"))).log
          (.joined id joinLimit)).journal =
            stopped.journal ++ [.stopFailed id (.system "kill failed"), .joined id joinLimit] := by
        simp [Client.log]
      refine ⟨fun absent => (by cases absent.symm.trans present), [], told ▸ silent rfl, ?_⟩
      intro found same there still resting
      cases present.symm.trans there
      cases (stops.stuck survives).1.symm.trans still
      obtain ⟨waits, rfl⟩ := stops.same
      have rested := attentive_around (attentive_close resting.attentive) (fun ready => ready)
        { attachment.session.close.process with waits := waits }
      refine ⟨⟨rested, (close_journal attachment.session).trans resting.clean⟩, ?_⟩
      exact lives_quiet (congrArg Display.buffers (close_display attachment.session))
        (close_awaiting attachment.session)

theorem intake_received (reading : Reading) :
    ∃ delivery, reading.intake = Engine.receive delivery := by
  obtain ⟨outcome, closedBefore⟩ := reading
  cases outcome with
  | bytes available => exact ⟨.output available, rfl⟩
  | quiet | failed => exact ⟨.quiet, rfl⟩

/-- By induction on the readings. -/
theorem taken_lives {session : Session} (resting : session.Resting) (readings : List Reading) :
    let (events, read) := session.takeIn readings
    read.Resting ∧ session.Lives (happeningsIn events) read := by
  induction readings generalizing session with
  | nil => exact ⟨resting, lives_refl session⟩
  | cons reading rest ih =>
    obtain ⟨delivery, same⟩ := intake_received reading
    have attentive := attentive_receive resting.attentive delivery
    obtain ⟨events, told, lived, -⟩ := (undergoes_receive resting.attentive delivery).lived
    rw [resting.clean, List.nil_append] at told
    rw [← told, ← same] at lived
    rw [← same] at attentive
    unfold Engine.after at lived attentive
    rw [Session.takeIn]
    cases done : reading.intake.run session with
    | error fault later =>
      rw [done] at lived attentive
      exact ⟨⟨attentive_forgetful attentive, rfl⟩, ⟨lived.shown, lived.awaited⟩⟩
    | ok _ later =>
      rw [done] at lived attentive
      obtain ⟨last, living⟩ := ih ⟨attentive_forgetful attentive, rfl⟩
      have first : session.Lives (happeningsIn later.journal) later.forgetful :=
        ⟨lived.shown, lived.awaited⟩
      refine ⟨last, ?_⟩
      rw [happeningsIn, List.filterMap_append]
      exact lives_trans first living

theorem serves_read_all (tidy : client.Tidy) (id : String) (script : List Reading) :
    client.Serves id [] ((readAll id script).after client) := by
  cases present : client.sessions.get? id with
  | none =>
    have missed (readings : List Reading) :
        (tryCatch (pump id readings) fun _ => pure ()).run client = .ok () client := by
      cases readings with
      | nil => rfl
      | cons reading rest =>
        rw [Engine.run_catch, pump, EStateM.run_bind, isAlive, EStateM.run_bind, run_find, present]
        rfl
    unfold readAll
    rw [after_bind, missed]
    dsimp only
    rw [on_session_absent present]
    exact serves_refl id client
  | some attachment =>
    let readings := (script.flatMap Reading.divided).takeWhile Reading.isLively
    let events := (attachment.session.takenIn script).1
    let read := (attachment.session.takenIn script).2
    obtain ⟨later, ran, took⟩ := run_read_all present (tidy id attachment present) script
    have kept : later.sessions.get? id = some { attachment with session := read.left } := took.kept
    obtain ⟨activities, told, deeds, -⟩ := took.told
    have recorded : eventsOf id activities = events := by
      rw [← @events_filter id Activity.isDeed (fun _ => rfl), deeds, events_own]
    rw [after, ran]
    refine ⟨fun absent => (by cases absent.symm.trans present), events, ?_, ?_⟩
    · rw [← recorded, ← events_append, ← told]
    intro found same there still resting
    cases present.symm.trans there
    cases kept.symm.trans still
    obtain ⟨rested, lived⟩ := taken_lives resting readings
    have left : read.left.Attentive :=
      attentive_around (attentive_close rested.attentive) (fun _ => rfl) read.close.process
    have ended : read.Lives [] read.left := lives_quiet rfl (close_awaiting read)
    refine ⟨⟨left, (close_journal read).trans rested.clean⟩, ?_⟩
    have living := lives_trans lived ended
    rwa [List.append_nil] at living

theorem serves_process (id : String) (process : Subprocess) :
    Serves id (onSession id (Engine.onSubprocess fun _ => process)) :=
  serves_on_session fun _ resting =>
    ⟨attentive_around resting.attentive (fun ready => ready) process,
      undergoes_aside rfl rfl rfl fun _ member => member⟩

/-- Every call on a session does to its views what it is there to do. -/
theorem call_serves (tidy : client.Tidy) {call : ToolCall} (about : call.session? = some id) :
    client.Serves id (call.toggles client id) ((perform call).after client) := by
  have shown {next : Attachment → Reply} :
      Serves id (answering do pure (next (← require id false))) := by
    intro client
    rw [after_answering]
    exact serves_still (still_bind (still_require id false) fun _ => still_pure _) client
  cases call with
  | startDebug | listSessions => cases about
  | stopDebug => cases about; exact serves_stop_debug tidy id
  | sendCommand | run | continueExecution | step | next | finish =>
    cases about
    exact serves_paged id _ _ _ _ client
  | setBreakpoint | removeBreakpoint => cases about; exact serves_edit id _ client
  | listBreakpoints =>
    cases about
    have listed := serves_list_breakpoints client id
    simp only [ToolCall.toggles, decide_true, Bool.true_and]
    exact listed
  | openView _ view =>
    cases about
    unfold perform
    rw [after_answering]
    refine served_then ?_ fun _ => serves_pure _
    simpa only [ToolCall.toggles, decide_true, Bool.true_and] using serves_open client id view
  | closeView _ view =>
    cases about
    unfold perform
    rw [after_answering]
    refine served_then ?_ fun closed => ?_
    · simpa only [ToolCall.toggles, decide_true, Bool.true_and] using
        serves_close_view client id view
    · cases closed <;> exact serves_pure _
  | getView =>
    cases about
    unfold perform showView
    rw [after_answering]
    refine serves_still (still_bind (still_view_text id _) fun text => ?_) client
    split
    · exact still_pure _
    · exact still_bind (still_require id false) fun _ => still_pure _
  | listViews | readTranscript | readInferiorOutput | sessionDiagnostics =>
    cases about
    exact shown client

end Serves

end Control

section Tasks

variable {client later : Client} {id : String}

theorem task_serves (tidy : client.Tidy) {task : Task} (about : task.work.session? = some id) :
    client.Serves id (task.work.toggles client id) (task.after client) := by
  obtain ⟨world, work⟩ := task
  have faced : (client.facing world).Tidy := tidy
  have serves : (client.facing world).Serves id (work.toggles (client.facing world) id)
      (work.operation.after (client.facing world)) := by
    cases work with
    | call request =>
      dsimp only [Work.operation]
      rw [after_map]
      exact Control.call_serves faced about
    | deliver other deliveries =>
      cases about
      dsimp only [Work.operation]
      rw [after_map]
      exact Control.serves_deliver id deliveries _
    | read other script =>
      cases about
      dsimp only [Work.operation]
      rw [after_map]
      exact Control.serves_read_all faced id script
    | process other next =>
      cases about
      dsimp only [Work.operation]
      rw [after_map]
      exact Control.serves_process id next _
  have same : work.toggles (client.facing world) id = work.toggles client id := by
    cases work with
    | call request => cases request <;> rfl
    | deliver | read | process => rfl
  rw [same] at serves
  exact ⟨serves.absent, serves.lived⟩

-- Without a session there is nothing to open or close.
theorem toggles_absent (absent : client.sessions.get? id = none) (work : Work) :
    work.toggles client id = [] := by
  have closed (view : String) : client.offers id view = false := by simp [Client.offers, absent]
  have missing : client.sessions.contains id = false := by simp [Table.contains, absent]
  cases work with
  | call request =>
    cases request <;> simp [Work.toggles, ToolCall.toggles, closed, missing]
  | deliver | read | process => rfl

theorem toggles_elsewhere {work : Work} (elsewhere : work.session? ≠ some id) :
    work.toggles client id = [] := by
  cases work with
  | call request =>
    cases request with
    | openView session | closeView session | listBreakpoints session =>
      have other : session ≠ id := fun same => elsewhere (congrArg some same)
      simp [Work.toggles, ToolCall.toggles, other]
    | _ => rfl
  | deliver | read | process => rfl

-- What a session has on record opens no view.
theorem recorded_closed (events : List Event) (view : String) :
    (happeningsIn events).foldl (Happening.onBuffer view) none = none := by
  induction events with
  | nil => rfl
  | cons event rest ih =>
    rw [happeningsIn, List.filterMap_cons]
    cases happened : event.happening? with
    | none => exact ih
    | some happening =>
      have still : happening.onBuffer view none = none := by
        cases happening with
        | opened =>
          cases event with
          | accepted | completed =>
            obtain ⟨_, _, other⟩ := Option.map_eq_some_iff.mp happened
            cases other
          | _ => cases happened
        | closed | refreshed | asked => simp [Happening.onBuffer]
      rw [List.foldl_cons, still]
      exact ih

theorem lives_new {session later : Session} (closed : session.display.buffers = Table.empty)
    (new : later.display.buffers = Table.empty) (unasked : later.awaiting = [])
    (events : List Event) : session.Lives (happeningsIn events) later := by
  have nothing (view : String) : (Table.empty : Table String).get? view = none := rfl
  refine ⟨fun view => ?_, fun view waits => ?_⟩
  · rw [closed, new, nothing, recorded_closed]
  · simp [Session.isAwaiting, unasked] at waits

theorem seen_present {attachment : Attachment} (present : client.sessions.get? id = some attachment) :
    client.seen id = attachment.session := by
  rw [Client.seen, present]
  rfl

theorem seen_absent (absent : client.sessions.get? id = none) :
    client.seen id = Session.start { pid := 0 } Table.empty := by
  rw [Client.seen, absent]
  rfl

theorem lives_unseen {task : Task} (elsewhere : task.work.session? ≠ some id)
    (same : (task.after client).sessions.get? id = client.sessions.get? id)
    (told : eventsOf id (task.after client).journal = eventsOf id client.journal) :
    (client.seen id).Lives (task.happenings client id) ((task.after client).seen id) := by
  have nothing : task.happenings client id = [] := by
    rw [Task.happenings, toggles_elsewhere elsewhere, told, List.drop_length]
    rfl
  have looks : (task.after client).seen id = client.seen id := by
    rw [Client.seen, same]
    rfl
  rw [nothing, looks]
  exact lives_refl _

theorem lives_start (sound : client.Sound) (world : World) (program : Option String)
    (args : Option (List String)) (rootDirectory : Option String) :
    let task : Task := ⟨world, .call (.startDebug program args rootDirectory)⟩
    (client.seen id).Lives (task.happenings client id) ((task.after client).seen id) := by
  intro task
  have faced : (client.facing world).Sound := ⟨sound.attentive, sound.named⟩
  have elsewhere : task.work.session? ≠ some id := nofun
  have after : task.after client =
      (Control.perform (.startDebug program args rootDirectory)).after (client.facing world) :=
    after_map _ _ _
  unfold Control.after at after
  rcases Control.run_start_debug program args rootDirectory (next_name_new faced) with
    ⟨later, ran, started⟩ | ⟨fault, later, ran, unstarted⟩ <;>
      rw [ran] at after <;> dsimp only at after
  · by_cases own : id = sessionName (client.attempts + 1)
    · subst own
      obtain ⟨process, views, -, -, entered⟩ := started.entered
      have absent : client.sessions.get? (sessionName (client.attempts + 1)) = none :=
        Table.lookup_eq_none_of_not_mem (next_name_new sound)
      have new : later.seen (sessionName (client.attempts + 1)) = _ := seen_present entered
      -- A new session has lived through nothing.
      rw [seen_absent absent, Task.happenings, toggles_absent absent, List.nil_append, after, new]
      exact lives_new rfl rfl rfl _
    · refine lives_unseen elsewhere (by rw [after, started.others id own]; rfl) ?_
      obtain ⟨command, directory, environment, told⟩ := started.told
      have silent : eventsOf id (.spawned command directory environment ::
          startup.map fun command => .did (sessionName (client.attempts + 1))
            (.accepted .urgent command)) = [] :=
        events_none fun event member => by
          rcases List.mem_cons.mp member with spawned | member
          · cases spawned
          · obtain ⟨_, _, same⟩ := List.mem_map.mp member
            cases same
            exact own rfl
      rw [after, told, events_append]
      exact (congrArg _ silent).trans (List.append_nil _)
  · refine lives_unseen elsewhere (by rw [after, unstarted.sessions]; rfl) ?_
    rw [after]
    rcases unstarted.told with told | ⟨-, command, directory, environment, told⟩
    · rw [told]
      rfl
    · rw [told, events_append]
      exact List.append_nil _

theorem lives_aside {task : Task} (concerns : task.concerns id = false) :
    (client.seen id).Lives (task.happenings client id) ((task.after client).seen id) := by
  have twin := @twin_aside id client task concerns
  have elsewhere : task.work.session? ≠ some id := by
    intro about
    simp [Task.concerns, about] at concerns
  refine lives_unseen elsewhere twin.found.symm ?_
  have told := congrArg (eventsOf id) twin.told
  have own (event : Event) : ((Activity.did id event).session? == some id) = true := by
    simp [Activity.session?]
  unfold Client.activitiesOf at told
  rw [events_filter own, events_filter own] at told
  exact told.symm

/-- A session that is still there has become what it is through what happened in the task. -/
theorem task_lives (sound : client.Sound) (tidy : client.Tidy) {task : Task}
    (kept : client.sessions.get? id = none ∨ ((task.after client).sessions.get? id).isSome = true) :
    (client.seen id).Lives (task.happenings client id) ((task.after client).seen id) := by
  cases concerns : task.concerns id with
  | false => exact lives_aside concerns
  | true =>
    obtain ⟨world, work⟩ := task
    rcases concerns_cases concerns with about | ⟨program, args, rootDirectory, rfl⟩ | rfl
    · have serves := task_serves tidy about
      cases present : client.sessions.get? id with
      | none =>
        rw [seen_absent present, seen_absent (serves.absent present), Task.happenings,
          toggles_absent present, List.nil_append]
        exact lives_new rfl rfl rfl _
      | some attachment =>
        rw [present] at kept
        obtain ⟨found, still⟩ := Option.isSome_iff_exists.mp (kept.resolve_left nofun)
        obtain ⟨events, told, lived⟩ := serves.lived
        have resting : attachment.session.Resting :=
          ⟨sound.attentive id attachment present, tidy id attachment present⟩
        rw [seen_present present, seen_present still, Task.happenings, told, List.drop_left]
        exact (lived attachment found present still resting).2
    · exact lives_start sound world program args rootDirectory
    · exact lives_unseen nofun rfl rfl

end Tasks

section History

variable {given : String → Prop} {client later : Client} {id : String}

-- No name is given twice, so a session that is gone does not come back.
theorem step_absent (named : ∃ number ≤ client.attempts, id = sessionName number)
    (absent : client.sessions.get? id = none) (step : client.Step given later) :
    later.sessions.get? id = none := by
  obtain ⟨number, bound, rfl⟩ := named
  cases step with
  | aside same => rw [same, absent]
  | launch _ _ _ _ others =>
    have old : sessionName number ≠ sessionName (client.attempts + 1) := by
      intro same
      have := session_name_injective same
      omega
    rw [others _ old, absent]
  | @act other attachment _ present =>
    have differs : sessionName number ≠ other := by
      rintro rfl
      cases absent.symm.trans present
    rw [kept_get, if_neg differs, absent]
  | forget =>
    refine Option.eq_none_iff_forall_ne_some.mpr fun attachment kept => ?_
    cases absent.symm.trans (erased_get kept)

theorem steps_absent (named : ∃ number ≤ client.attempts, id = sessionName number)
    (absent : client.sessions.get? id = none) (steps : client.Steps given later) :
    later.sessions.get? id = none := by
  obtain ⟨number, bound, same⟩ := named
  induction steps with
  | refl => exact absent
  | tail before step ih =>
    exact step_absent ⟨number, Nat.le_trans bound (steps_attempts before), same⟩ ih step

theorem task_tidy (tidy : client.Tidy) (task : Task) : (task.after client).Tidy := by
  have steps := reaches_steps (task_reaches task client)
  generalize task.after client = later at steps
  induction steps with
  | refl => exact tidy
  | tail _ step ih => exact step_tidy ih step

/-- By induction on the tasks: a session that is there in the end has been there since it was. -/
theorem history_lives (sound : client.Sound) (tidy : client.Tidy) (tasks : List Task)
    (present : ((client.through tasks).sessions.get? id).isSome = true) :
    (client.seen id).Lives (client.history id tasks) ((client.through tasks).seen id) := by
  induction tasks generalizing client with
  | nil => exact lives_refl _
  | cons task rest ih =>
    have whole := ih (task_sound sound task) (task_tidy tidy task) present
    refine lives_trans (task_lives sound tidy ?_) whole
    refine Option.eq_none_or_eq_some _ |>.imp_right fun ⟨attachment, there⟩ => ?_
    by_contra gone
    have named : ∃ number ≤ (task.after client).attempts, id = sessionName number := by
      obtain ⟨number, bound, same⟩ := sound.named id attachment there
      exact ⟨number, Nat.le_trans bound
        (steps_attempts (reaches_steps (task_reaches task client))), same⟩
    have never := steps_absent named (Option.not_isSome_iff_eq_none.mp gone)
      (reaches_steps (through_reaches (task.after client) rest))
    have still : (((task.after client).through rest).sessions.get? id).isSome = true := present
    rw [never] at still
    cases still

end History

section Reopening

variable {session : Session} {client : Client} {id view : String} {attachment : Attachment}

theorem open_keeps (alive : session.isClosed = false) (shown : session.display.isOpen view = true) :
    ((Engine.openView view).after session).display.buffers = session.display.buffers := by
  have same : (session.opened view).unwoken.display.buffers = session.display.buffers := by
    change session.display.buffers.contains view = true at shown
    change session.display.buffers.insertIfNew view "" = _
    rw [Table.insertIfNew, if_pos shown]
  rw [Engine.after_open alive]
  cases session.views.find view with
  | error fault => rfl
  | ok known =>
    dsimp only
    split
    · exact same
    · rw [accept_display]
      exact same

-- A view that awaits nothing asks for its refresh when it is opened, whether or not it was open.
theorem open_asks (alive : session.isClosed = false) (heard : session.process.pipeBroken = false)
    (buffered : session.views.Buffered) (known : session.views.contains view = true)
    (free : session.isAwaiting view = false) :
    ∃ later, (Engine.openView view).run session = .ok true later := by
  obtain ⟨found, looked⟩ := Option.isSome_iff_exists.mp known
  have opened : (session.opened view).unwoken.display.isOpen view = true := opened_shown session view
  have unasked : (session.opened view).unwoken.isAwaiting view = false := free
  obtain ⟨-, asked⟩ :=
    @run_request (session.opened view).unwoken alive heard buffered view found looked
  rw [opened, unasked] at asked
  refine ⟨_, Eq.trans ?_ asked⟩
  unfold Engine.openView
  rw [EStateM.run_bind, EStateM.run_get]
  dsimp only
  rw [EStateM.run_bind, (found_buffered buffered looked).1]
  rfl

theorem reopened (present : client.sessions.get? id = some attachment)
    (shown : attachment.session.display.isOpen view = true) (world : World) :
    ∃ later, (Task.after ⟨world, .call (.openView id view)⟩ client).sessions.get? id = some later ∧
      later.session.display.buffers = attachment.session.display.buffers := by
  have faced : (client.facing world).sessions.get? id = some attachment := present
  have after : Task.after ⟨world, .call (.openView id view)⟩ client =
      (Control.openView id view).after (client.facing world) := by
    refine (after_map _ _ _).trans ?_
    unfold Control.perform
    rw [Control.after_answering, Control.after_bind, Control.after]
    cases (Control.openView id view).run (client.facing world) <;> rfl
  rw [after, Control.openView, Control.after_require, faced]
  dsimp only
  cases closed : attachment.session.isClosed with
  | true => exact ⟨attachment, faced, rfl⟩
  | false =>
    simp only [Bool.and_false, Bool.false_eq_true, if_false, Control.on_session_after faced]
    exact ⟨_, Table.get?_insert_self _ _ _, open_keeps closed shown⟩

theorem reopened_asks (present : client.sessions.get? id = some attachment)
    (buffered : attachment.session.views.Buffered) (alive : attachment.session.isClosed = false)
    (known : attachment.session.views.contains view = true)
    (heard : attachment.session.process.pipeBroken = false)
    (free : attachment.session.isAwaiting view = false) (world : World) :
    Task.outcome ⟨world, .call (.openView id view)⟩ client =
      .ok (some (.viewOpened view true)) := by
  have faced : (client.facing world).sessions.get? id = some attachment := present
  obtain ⟨later, asks⟩ := open_asks alive heard buffered known free
  have opens : (Control.openView id view).run (client.facing world) =
      .ok true ((client.facing world).keep id attachment later) := by
    unfold Control.openView
    rw [EStateM.run_bind, Control.run_require, faced]
    dsimp only
    rw [alive]
    simp only [Bool.and_false, Bool.false_eq_true, if_false, run_on_session faced, asks]
  have answers : (Control.perform (.openView id view)).run (client.facing world) =
      .ok (.viewOpened view true) ((client.facing world).keep id attachment later) := by
    unfold Control.perform Control.answering
    rw [Engine.run_catch, EStateM.run_bind, opens]
    rfl
  unfold Task.outcome
  dsimp only [Work.operation]
  rw [← bind_pure_comp, EStateM.run_bind, answers]
  rfl

end Reopening

/-- What a history of the views of a session tells of what they hold, and of what comes of opening
them. -/
structure Client.Recalls (client : Client) (id : String) (session : Session)
    (history : List Happening) : Prop where
  held : ∀ view, Holds history view (session.display.buffers.get? view)
  opened : ∀ view, session.display.isOpen view = true ↔ OpenAfter history view
  /-- To open an open view leaves every buffer as it is. -/
  kept : ∀ view world, session.display.isOpen view = true →
    ∃ later, (Task.after ⟨world, .call (.openView id view)⟩ client).sessions.get? id = some later ∧
      later.session.display.buffers = session.display.buffers
  /-- A refresh that is completed when its view is not open might as well not have come. -/
  late : ∀ before view text after, history = before ++ .refreshed view text :: after →
    ¬ OpenAfter before view →
      ∀ other, Holds (before ++ after) other (session.display.buffers.get? other)
  freed : ∀ before view text after, history = before ++ .refreshed view text :: after →
    .asked view ∉ after → session.isAwaiting view = false ∧
      (session.isClosed = false → session.views.contains view = true →
        session.process.pipeBroken = false → ∀ world,
          Task.outcome ⟨world, .call (.openView id view)⟩ client =
            .ok (some (.viewOpened view true)))

/-- Whatever a client does and however gdb answers, the history of a session's views tells what they
hold. A view has a buffer just when it was opened and not closed since, and in it the text of the last
refresh that was completed since it was opened anew, or nothing. To open an open view leaves every
buffer as it is. A refresh that is completed when its view is not open leaves all buffers as if it had
not come. In any case it frees its view, and unless another one has been asked for since, the view asks
for one when it is opened. -/
theorem buffers_hold_last_refresh (config : Config) (tasks : List Task) {id : String}
    {attachment : Attachment}
    (present : (Client.through { config := config } tasks).sessions.get? id = some attachment) :
    (Client.through { config := config } tasks).Recalls id attachment.session
      (Client.history id { config := config } tasks) := by
  let begun : Client := { config := config }
  let history := Client.history id begun tasks
  let session := attachment.session
  have reaches := through_reaches begun tasks
  have sound : begun.Sound := reached_sound .refl
  have tidy : begun.Tidy := reached_tidy .refl
  have lives := history_lives sound tidy tasks (Option.isSome_iff_exists.mpr ⟨attachment, present⟩)
  rw [seen_present present, seen_absent rfl] at lives
  have shown (view : String) :
      session.display.buffers.get? view = history.foldl (Happening.onBuffer view) none :=
    lives.shown view
  have holds (view : String) : Holds history view (session.display.buffers.get? view) := by
    rw [shown]
    exact holds_buffer history view
  refine ⟨holds, fun view => open_of_holds (holds view),
    fun view world open_ => reopened present open_ world, ?_, ?_⟩
  · intro before view text after split shut other
    have told : history = before ++ .refreshed view text :: after := split
    change Holds _ _ (session.display.buffers.get? other)
    rw [shown, told, buffer_unopened shut]
    exact holds_buffer (before ++ after) other
  · intro before view text after split unasked
    have told : history = before ++ .refreshed view text :: after := split
    have free : session.isAwaiting view = false := by
      refine Bool.eq_false_iff.mpr fun waits => ?_
      have waited : history.foldl (Happening.onWait view) false = true := lives.awaited view waits
      rw [told, wait_freed unasked] at waited
      cases waited
    have buffered := ((reached_sound reaches).attentive id attachment present).accounted.views
    exact ⟨free, fun alive known heard world =>
      reopened_asks present buffered alive known heard free world⟩

/-- The text of a refresh comes when its view has been closed. Another view is open, and its own text
has not come yet. -/
theorem refreshed_when_closed :
    let begun : Client := { config := { gdbPath := .string "gdb" } }
    let world : World := ⟨none, [], .gives { pid := 7 }, []⟩
    let task (call : ToolCall) : Task := ⟨world, .call call⟩
    let comes (text : String) : Task :=
      ⟨world, .deliver "session_1" [.output text.toUTF8.data.toList]⟩
    let prompts := "\n\x1A\x1Apre-prompt\n\n\x1A\x1Aprompt\n"
    let reads := "\n\x1A\x1Apost-prompt\n"
    let tasks : List Task := [task (.startDebug (some "a.out") none none),
      task (.openView "session_1" "stack"), task (.openView "session_1" "locals"),
      comes (prompts ++ reads ++ prompts ++ reads ++ prompts ++ reads ++ prompts),
      task (.closeView "session_1" "stack"), comes (reads ++ "#0  main ()" ++ prompts)]
    let before : List Happening := [.opened "stack", .asked "stack", .opened "locals", .asked "locals",
      .closed "stack"]
    let history := before ++ [.refreshed "stack" "#0  main ()\n"]
    begun.history "session_1" tasks = history ∧
    ¬ OpenAfter before "stack" ∧
    ∃ attachment, (begun.through tasks).sessions.get? "session_1" = some attachment ∧
      let session := attachment.session
      (session.isClosed = false ∧ session.views.contains "stack" = true ∧
        session.process.pipeBroken = false ∧ session.display.isOpen "stack" = false ∧
        session.display.buffers.get? "locals" = some "") ∧
      (begun.through tasks).Recalls "session_1" session history := by
  intro begun world task comes prompts reads tasks before history
  have told : begun.history "session_1" tasks = history := by decide +kernel
  have shut : ¬ OpenAfter before "stack" := fun opened => by
    simpa using (open_snoc [.opened "stack", .asked "stack", .opened "locals", .asked "locals"]
      (.closed "stack") "stack").mp opened
  have shown : ((begun.through tasks).sessions.get? "session_1").map (fun attachment =>
      (attachment.session.isClosed, attachment.session.views.contains "stack",
        attachment.session.process.pipeBroken, attachment.session.display.isOpen "stack",
        attachment.session.display.buffers.get? "locals")) =
      some (false, true, false, false, some "") := by
    decide +kernel
  obtain ⟨attachment, present, facts⟩ := Option.map_eq_some_iff.mp shown
  simp only [Prod.mk.injEq] at facts
  have recalls := buffers_hold_last_refresh _ tasks present
  rw [told] at recalls
  exact ⟨told, shut, attachment, present, facts, recalls⟩

end GdbControl
