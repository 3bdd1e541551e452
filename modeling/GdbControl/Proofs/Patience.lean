import GdbControl.Proofs.Launching
import GdbControl.Proofs.Locality

/-!
How long a call may block. Every wait for the prompt has a limit, so that a gdb which never comes back
to its prompt costs the caller no more than that, unless the caller asked for no limit himself. The
calls that set or remove a breakpoint are left out: those wait for as long as it takes.
-/

namespace GdbControl

/-- A call with the express wish to wait for as long as it takes. -/
def ToolCall.isEndless : ToolCall → Bool
  | .sendCommand _ _ _ (some none) _ => true
  | _ => false

def ToolCall.editsBreakpoints : ToolCall → Bool
  | .setBreakpoint _ _ _ _ | .removeBreakpoint _ _ => true
  | _ => false

/-- Every wait among the activities is on the session of the call and has the limit of the call. -/
def ToolCall.Waits (call : ToolCall) (activities : List Activity) : Prop :=
  ∀ id limit, .awaitedPrompt id limit ∈ activities →
    call.session? = some id ∧ call.limit? = some limit

theorem limit_given {call : ToolCall} (hasty : call.isEndless = false) {limit : Option Int}
    (waits : call.limit? = some limit) : limit = none ↔ call.editsBreakpoints = true := by
  cases call with
  | sendCommand _ _ _ given _ =>
    cases waits
    rcases given with _ | _ | time
    · exact ⟨by rintro ⟨⟩, by rintro ⟨⟩⟩
    · cases hasty
    · exact ⟨by rintro ⟨⟩, by rintro ⟨⟩⟩
  | setBreakpoint | removeBreakpoint =>
    cases waits
    exact ⟨fun _ => rfl, fun _ => rfl⟩
  | run | continueExecution | step | next | finish | listBreakpoints =>
    cases waits
    exact ⟨by rintro ⟨⟩, by rintro ⟨⟩⟩
  | startDebug | stopDebug | listSessions | openView | closeView | getView | listViews
    | readTranscript | readInferiorOutput | sessionDiagnostics => cases waits

section Waits

variable {client later : Client} {id : String}

theorem waits_of_none (call : ToolCall) {activities : List Activity}
    (quiet : ∀ activity ∈ activities, activity.limit? = none) : call.Waits activities := by
  intro id limit member
  cases quiet _ member

-- Starting gdb takes no wait for its prompt.
theorem start_waits (sound : client.Sound) (program : Option String) (args : Option (List String))
    (rootDirectory : Option String) :
    let call : ToolCall := .startDebug program args rootDirectory
    ∃ activities, ((Control.perform call).after client).journal = client.journal ++ activities ∧
      call.Waits activities := by
  intro call
  rcases Control.run_start_debug program args rootDirectory (next_name_new sound) with
    ⟨later, ran, started⟩ | ⟨fault, later, ran, unstarted⟩
  · obtain ⟨command, directory, environment, told⟩ := started.told
    rw [Control.after, ran]
    refine ⟨_, told, waits_of_none call fun activity member => ?_⟩
    rcases List.mem_cons.mp member with rfl | setup
    · rfl
    · obtain ⟨command, -, rfl⟩ := List.mem_map.mp setup
      rfl
  · rw [Control.after, ran]
    rcases unstarted.told with told | ⟨-, command, directory, environment, told⟩
    · exact ⟨[], told.trans (List.append_nil _).symm, waits_of_none call (by simp)⟩
    · refine ⟨_, told, waits_of_none call fun activity member => ?_⟩
      cases List.mem_singleton.mp member
      rfl

theorem call_waits (sound : client.Sound) (call : ToolCall) :
    ∃ activities, ((Control.perform call).after client).journal = client.journal ++ activities ∧
      call.Waits activities := by
  cases about : call.session? with
  | some id =>
    have minds : client.Minds id (call.limit? = some ·) ((Control.perform call).after client) :=
      minds_after (Control.keeps_perform (minds_bond id _ client) about fun _ same => same)
    obtain ⟨activities, told, own⟩ := minds.told
    refine ⟨activities, told, fun other limit member => ?_⟩
    obtain ⟨same, patient⟩ := own _ member
    exact ⟨about.trans same.symm, patient limit rfl⟩
  | none =>
    cases call with
    | startDebug program args rootDirectory => exact start_waits sound program args rootDirectory
    | listSessions => exact ⟨[], (List.append_nil _).symm, waits_of_none _ (by simp)⟩
    | _ => cases about

end Waits

namespace Control

/-- An operation that only adds to the record. -/
def Grows (operation : Control α) : Prop :=
  ∀ client : Client, client.journal <+: (operation.after client).journal

section Grows

variable {client : Client} {id : String}

theorem grows_keeps (id : String) {operation : Control α}
    (kept : ∀ client : Client,
      Keeps (fun left right => left = right ∧ client.Minds id (fun _ => True) left) operation) :
    Grows operation := by
  intro client
  obtain ⟨activities, told, -⟩ := (minds_after (kept client)).told
  exact ⟨activities, told.symm⟩

theorem grown_bind {operation : Control α} {next : α → Control β} {journal : List Activity}
    (first : journal <+: (operation.after client).journal) (rest : ∀ value, Grows (next value)) :
    journal <+: ((operation >>= next).after client).journal := by
  rw [after_bind]
  unfold after at first
  cases done : operation.run client with
  | ok value later =>
    rw [done] at first
    exact first.trans (rest value later)
  | error fault later =>
    rw [done] at first
    exact first

theorem grown_catch {operation : Control α} {handler : Fault → Control α} {journal : List Activity}
    (first : journal <+: (operation.after client).journal)
    (rest : ∀ fault, Grows (handler fault)) :
    journal <+: ((tryCatch operation handler).after client).journal := by
  unfold after at first ⊢
  rw [Engine.run_catch]
  cases done : operation.run client with
  | ok value later =>
    rw [done] at first
    exact first
  | error fault later =>
    rw [done] at first
    exact first.trans (rest fault later)

theorem await_noted (id : String) (limit : Option Int) (client : Client) :
    (client.log (.awaitedPrompt id limit)).journal <+: ((awaitPrompt id limit).after client).journal := by
  have deaf (client : Client) := minds_bond id (fun _ => True) client
  have noted : ((record (.awaitedPrompt id limit)).after client) =
      client.log (.awaitedPrompt id limit) := rfl
  refine grown_bind (noted ▸ List.prefix_rfl) fun _ => grows_keeps id fun client => ?_
  refine keeps_get (fun relation => by rw [relation.1]) fun found => ?_
  exact keeps_bind (keeps_modify (deaf client).heard) fun _ =>
    keeps_bind (keeps_deliver (deaf client) found.arriving) fun _ =>
      keeps_bind (keeps_find (deaf client)) fun _ => keeps_pure _

theorem run_submit_alive {session : Session} (alive : session.isClosed = false)
    (reads : session.process.pipeBroken = false) (command : String) :
    ∃ sent later, (Engine.submit command).run session = .ok sent later := by
  have same : (Engine.submit command).run session =
      (Engine.enqueue .urgent (.typed command)).run session.unwoken := rfl
  have still : session.unwoken.isClosed = false := alive
  have heard : (session.unwoken.accept .urgent (.typed command)).process.pipeBroken = false := by
    rw [accept_process]
    exact reads
  rw [same, Engine.run_enqueue, still, Session.outcome, heard]
  cases session.unwoken.mayWrite .urgent with
  | true => exact ⟨_, _, rfl⟩
  | false => exact ⟨_, _, rfl⟩

theorem command_waits {attachment : Attachment} (present : client.sessions.get? id = some attachment)
    (alive : attachment.session.isClosed = false)
    (reads : attachment.session.process.pipeBroken = false) (command : String)
    (limit : Option Int) :
    ∃ events, client.journal ++ events ++ [.awaitedPrompt id limit] <+:
      ((runCommand id command true limit).after client).journal := by
  obtain ⟨sent, session, submitted⟩ := run_submit_alive alive reads command
  have opened : (require id true).run client = .ok attachment client := by
    rw [run_require, present]
    simp [alive]
  refine ⟨session.journal.map (.did id), ?_⟩
  unfold runCommand
  rw [after_bind, opened]
  dsimp only
  rw [after_bind, run_on_session present, submitted]
  have noted := await_noted id limit (client.keep id attachment session)
  exact grown_bind noted fun ready => grows_keeps id fun client =>
    keeps_bind (keeps_find (minds_bond id _ client)) fun _ => keeps_pure _

theorem edit_waits {call : ToolCall} (edits : call.editsBreakpoints = true)
    (about : call.session? = some id) {attachment : Attachment}
    (present : client.sessions.get? id = some attachment)
    (alive : attachment.session.isClosed = false)
    (reads : attachment.session.process.pipeBroken = false) :
    ∃ events, client.journal ++ events ++ [.awaitedPrompt id none] <+:
      ((perform call).after client).journal := by
  have answered (command : String) : ∃ events,
      client.journal ++ events ++ [.awaitedPrompt id none] <+:
        ((answering do pure (.command (← runCommand id command true none))).after client).journal := by
    obtain ⟨events, noted⟩ := command_waits present alive reads command none
    refine ⟨events, grown_catch (grown_bind noted fun _ client => List.prefix_rfl) fun fault => ?_⟩
    split <;> exact fun client => List.prefix_rfl
  cases call with
  | setBreakpoint | removeBreakpoint =>
    cases about
    exact answered _
  | _ => cases edits

end Grows

end Control

/-- How long a call waits for the prompt. -/
def Client.LimitsWaits (client : Client) (call : ToolCall) : Prop :=
  ∃ activities, ((Control.perform call).after client).journal = client.journal ++ activities ∧
    (∀ id limit, .awaitedPrompt id limit ∈ activities →
      call.session? = some id ∧ (limit = none ↔ call.editsBreakpoints = true)) ∧
    ∀ id attachment, call.session? = some id → client.sessions.get? id = some attachment →
      attachment.session.isClosed = false → attachment.session.process.pipeBroken = false →
        call.editsBreakpoints = true → .awaitedPrompt id none ∈ activities

/-- Whatever a client has been through, every wait for the prompt in a call is on the session of the
call and has a limit, unless the caller asked for none himself or the call sets or removes a
breakpoint. Such a call never has a limit, and it does wait wherever it reaches an open session. -/
theorem waits_limited_but_for_breakpoints {config : Config} {client : Client}
    (run : Client.Reaches { config := config } client) {call : ToolCall}
    (hasty : call.isEndless = false) : client.LimitsWaits call := by
  obtain ⟨activities, told, waits⟩ := call_waits (reached_sound run) call
  refine ⟨activities, told, fun id limit member => ?_, ?_⟩
  · obtain ⟨about, limited⟩ := waits id limit member
    exact ⟨about, limit_given hasty limited⟩
  · intro id attachment about present alive reads edits
    obtain ⟨events, noted⟩ := Control.edit_waits edits about present alive reads
    rw [told, List.append_assoc, List.prefix_append_right_inj] at noted
    exact noted.subset (List.mem_append_right _ (List.mem_singleton_self _))

/-- A list of breakpoints is asked for while the program runs and gdb stays away from its prompt. -/
theorem waiting_for_running_program :
    ∃ client : Client, Client.Reaches { config := { gdbPath := .string "gdb" } } client ∧
      (client.sessions.get? "session_1").map (·.session.running) = some true ∧
      (ToolCall.listBreakpoints "session_1").isEndless = false ∧
      client.LimitsWaits (.listBreakpoints "session_1") := by
  let begun : Client := { config := { gdbPath := .string "gdb" } }
  let started := (Control.perform (.startDebug (some "a.out") none none)).after begun
  let client := (Control.deliver "session_1"
    [.output "\n\x1A\x1Astarting\n".toUTF8.data.toList]).after started
  have run : Client.Reaches { config := { gdbPath := .string "gdb" } } client :=
    .tail (.single (.call _)) (.deliver _ _)
  have running : (client.sessions.get? "session_1").map (·.session.running) = some true := by
    decide +kernel
  exact ⟨client, run, running, rfl, waits_limited_but_for_breakpoints run rfl⟩

/-- A breakpoint is set in a session that has just been started, and nothing limits the wait for gdb's
prompt. -/
theorem breakpoint_without_limit :
    ∃ client : Client, Client.Reaches { config := { gdbPath := .string "gdb" } } client ∧
      let call : ToolCall := .setBreakpoint "session_1" "main" none false
      call.isEndless = false ∧
      ∃ activities, ((Control.perform call).after client).journal = client.journal ++ activities ∧
        activities.filterMap Activity.limit? = [none] := by
  let begun : Client := { config := { gdbPath := .string "gdb" } }
  let client := (Control.perform (.startDebug (some "a.out") none none)).after begun
  let call : ToolCall := .setBreakpoint "session_1" "main" none false
  have run : Client.Reaches { config := { gdbPath := .string "gdb" } } client := .single (.call _)
  obtain ⟨activities, told, -⟩ := call_waits (reached_sound run) call
  have limits : (((Control.perform call).after client).journal.drop
      client.journal.length).filterMap Activity.limit? = [none] := by
    decide +kernel
  rw [told, List.drop_left] at limits
  exact ⟨client, run, rfl, activities, told, limits⟩

end GdbControl
