import GdbControl.Proofs.Locality
import GdbControl.Proofs.Waiting

/-!
Stopping a session. It is closed. Then gdb is asked to quit, then terminated, then killed, and in the
end it is known to have ended or has been killed. The session is forgotten then, unless it could not
even be killed.
-/

namespace GdbControl

/-- A session whose process will be waited for with other outcomes. -/
def Attachment.awaiting (attachment : Attachment) (waits : List WaitOutcome) : Attachment :=
  { attachment with session := { attachment.session with
      process := { attachment.session.process with waits := waits } } }

def Attachment.closed (attachment : Attachment) : Attachment :=
  { attachment with session := attachment.session.close }

/-- What comes of asking the process of a session to quit. It is waited for only if it was heard. -/
def Subprocess.asking (process : Subprocess) (id : String) : List Activity :=
  .askedToQuit id (!process.pipeBroken) ::
    if process.pipeBroken then [] else [.waitedForEnd id Control.endLimit process.wait.1]

/-- How the end of the process of a session is pursued. If it is known to have ended it is left alone.
Else it is asked to quit; if it does not hear that or the wait that follows does not see it end, it
is terminated. -/
structure Subprocess.Pursued (process : Subprocess) (id : String) (steps : List Activity) : Prop where
  known : process.exitCode.isSome = true → steps = []
  asked : process.exitCode = none → process.asking id <+: steps
  terminated : process.exitCode = none →
    (.terminated id ∈ steps ↔ process.pipeBroken = true ∨ process.wait.1 ≠ .ended)

/-- Whether the process of a session had to be killed, and that failed. -/
def Subprocess.Survives (process : Subprocess) (id : String) (steps : List Activity) : Prop :=
  .killed id ∈ steps ∧ process.killFails = true

/-- The client has done something about the process of one session, and nothing else. -/
structure Client.Tends (client : Client) (id : String) (attachment : Attachment)
    (steps : List Activity) (later : Client) : Prop where
  told : later.journal = client.journal ++ steps
  own : ∀ step ∈ steps, step.session? = some id
  silent : ∀ name, eventsOf name steps = []
  kept : ∃ waits, later.sessions.get? id = some (attachment.awaiting waits)
  others : ∀ other, other ≠ id → later.sessions.get? other = client.sessions.get? other
  former : later.former = client.former

/-- One session has been stopped, and nothing else was done. What was done about its process is on
record, but nothing that the session did itself: none of its handlers was called. It was closed, and
but for that and the waits for its process it is in the end as it was before. It is forgotten then,
unless its process survives. -/
structure Client.Stops (client : Client) (id : String) (attachment : Attachment)
    (steps : List Activity) (last : Attachment) (later : Client) : Prop where
  told : later.journal = client.journal ++ steps
  own : ∀ step ∈ steps, step.session? = some id
  silent : ∀ name, eventsOf name steps = []
  closed : last.session.isClosed = true
  same : ∃ waits, last = attachment.closed.awaiting waits
  pursued : attachment.session.process.Pursued id steps
  settled : attachment.session.process.exitCode.isSome = true ∨
    .waitedForEnd id Control.endLimit .ended ∈ steps ∨ .killed id ∈ steps
  others : ∀ other, other ≠ id → later.sessions.get? other = client.sessions.get? other
  forgotten : ¬ attachment.session.process.Survives id steps →
    later.sessions.get? id = none ∧ later.former = client.former ++ [(id, last)]
  stuck : attachment.session.process.Survives id steps →
    later.sessions.get? id = some last ∧ later.former = client.former

section Tends

variable {client middle later : Client} {id : String} {attachment : Attachment}
  {steps more : List Activity}

theorem events_append (name : String) (steps more : List Activity) :
    eventsOf name (steps ++ more) = eventsOf name steps ++ eventsOf name more :=
  List.filterMap_append

theorem tends_nothing (present : client.sessions.get? id = some attachment) :
    client.Tends id attachment [] client :=
  ⟨(List.append_nil _).symm, by simp, fun _ => rfl, ⟨attachment.session.process.waits, present⟩,
    fun _ _ => rfl, rfl⟩

theorem tends_log (present : client.sessions.get? id = some attachment) {activity : Activity}
    (own : activity.session? = some id) (silent : ∀ name, eventsOf name [activity] = []) :
    client.Tends id attachment [activity] (client.log activity) :=
  ⟨rfl, by simpa using own, silent, ⟨attachment.session.process.waits, present⟩, fun _ _ => rfl, rfl⟩

theorem tends_trans (waits : List WaitOutcome) (first : client.Tends id attachment steps middle)
    (second : middle.Tends id (attachment.awaiting waits) more later) :
    client.Tends id attachment (steps ++ more) later := by
  constructor
  · rw [second.told, first.told, List.append_assoc]
  · intro step member
    exact (List.mem_append.mp member).elim (first.own step) (second.own step)
  · intro name
    rw [events_append, first.silent, second.silent, List.append_nil]
  · exact second.kept
  · exact fun other differs => (second.others other differs).trans (first.others other differs)
  · exact second.former.trans first.former

end Tends

namespace Control

/-- An effort to end the process of a session short of killing it. It says whether the process was
seen to end. -/
def Effort (id : String) (operation : Control Bool) : Prop :=
  ∀ (client : Client) (attachment : Attachment), client.sessions.get? id = some attachment →
    attachment.session.journal = [] →
      ∃ ended steps later, operation.run client = .ok ended later ∧
        client.Tends id attachment steps later ∧ .killed id ∉ steps ∧
        (ended = true → .waitedForEnd id endLimit .ended ∈ steps)

/-- Only a kill fails, and then this is what it fails with. -/
def EndsBy (process : Subprocess) (id : String) (steps : List Activity)
    (result : EStateM.Result Fault Client Unit) (later : Client) : Prop :=
  (result = .ok () later ∧ ¬ process.Survives id steps) ∨
    (result = .error (.system "kill failed") later ∧ process.Survives id steps)

section Ladder

variable {client : Client} {id : String} {attachment : Attachment}

theorem bind_find (present : client.sessions.get? id = some attachment)
    (next : Attachment → Control α) :
    (find id >>= next).run client = (next attachment).run client := by
  rw [EStateM.run_bind, run_find, present]

theorem effort_none (id : String) : Effort id (pure false) :=
  fun client _ present _ => ⟨false, [], client, rfl, tends_nothing present, by simp, by simp⟩

theorem effort_found {next : Attachment → Control Bool}
    (effort : ∀ attachment, Effort id (next attachment)) : Effort id (find id >>= next) := by
  intro client attachment present fresh
  rw [bind_find present]
  exact effort attachment client attachment present fresh

theorem run_await_end (present : client.sessions.get? id = some attachment)
    (fresh : attachment.session.journal = []) :
    ∃ later, (awaitEnd id).run client = .ok (attachment.session.process.wait.1 == .ended) later ∧
      client.Tends id attachment
        [.waitedForEnd id endLimit attachment.session.process.wait.1] later := by
  have left : ∃ waits, attachment.session.process.wait.2 =
      { attachment.session.process with waits := waits } := by
    unfold Subprocess.wait
    split
    · exact ⟨attachment.session.process.waits, rfl⟩
    · exact ⟨_, rfl⟩
  obtain ⟨waits, left⟩ := left
  let waited : Session := (attachment.awaiting waits).session
  let outcome := attachment.session.process.wait.1
  let middle := client.keep id attachment waited
  have updated : (onSession id (Engine.onSubprocess fun _ => attachment.session.process.wait.2)).run
      client = .ok () middle := by
    rw [run_on_session present, left]
    rfl
  have ran : (awaitEnd id).run client =
      .ok (outcome == .ended) (middle.log (.waitedForEnd id endLimit outcome)) := by
    unfold awaitEnd
    rw [bind_find present, EStateM.run_bind, updated]
    rfl
  refine ⟨_, ran, ?_, by simp [Activity.session?], fun _ => rfl, ⟨waits, ?_⟩, ?_, rfl⟩
  · simp [middle, waited, outcome, Client.log, Client.keep, Attachment.awaiting, fresh]
  · have forgotten : waited.forgetful = waited := by
      simp [waited, Attachment.awaiting, Session.forgetful, fresh]
    refine (kept_get id).trans ?_
    rw [if_pos rfl, forgotten]
    rfl
  · exact fun other differs => (kept_get other).trans (if_neg differs)

theorem effort_await (id : String) : Effort id (awaitEnd id) := by
  intro client attachment present fresh
  obtain ⟨later, ran, tends⟩ := run_await_end present fresh
  refine ⟨_, _, later, ran, tends, by simp, fun ended => ?_⟩
  rw [beq_iff_eq.mp ended]
  exact List.mem_singleton_self _

/-- A way to end the process of a session for good, which only a kill that fails can fail. -/
def Ends (id : String) (operation : Control Unit) : Prop :=
  ∀ (client : Client) (attachment : Attachment), client.sessions.get? id = some attachment →
    attachment.session.journal = [] →
      ∃ steps later, client.Tends id attachment steps later ∧
        EndsBy attachment.session.process id steps (operation.run client) later ∧
        (.waitedForEnd id endLimit .ended ∈ steps ∨ .killed id ∈ steps)

theorem ends_kill (id : String) : Ends id (kill id) := by
  intro client attachment present fresh
  have noted : (client.log (.killed id)).sessions.get? id = some attachment := present
  have ran : (kill id).run client =
      (if attachment.session.process.killFails then throw (.system "kill failed") else pure () :
        Control Unit).run (client.log (.killed id)) := by
    unfold kill
    exact bind_find noted _
  refine ⟨[.killed id], client.log (.killed id), tends_log present rfl fun _ => rfl, ?_,
    .inr (List.mem_singleton_self _)⟩
  rw [ran, EndsBy, Subprocess.Survives]
  cases attachment.session.process.killFails with
  | true => exact .inr ⟨rfl, List.mem_singleton_self _, rfl⟩
  | false => exact .inl ⟨rfl, by simp⟩

-- What a failed effort leaves undone is left to the next rung.
theorem ends_effort {effort : Control Bool} {next : Control Unit} (tries : Effort id effort)
    (ends : Ends id next) : Ends id (do if !(← effort) then next) := by
  intro client attachment present fresh
  obtain ⟨ended, steps, middle, ran, tends, alive, seen⟩ := tries client attachment present fresh
  rw [EStateM.run_bind, ran]
  cases ended with
  | true => exact ⟨steps, middle, tends, .inl ⟨rfl, fun failed => alive failed.1⟩, .inl (seen rfl)⟩
  | false =>
    obtain ⟨waits, kept⟩ := tends.kept
    obtain ⟨more, later, further, result, settled⟩ := ends middle (attachment.awaiting waits) kept fresh
    refine ⟨steps ++ more, later, tends_trans waits tends further, ?_, ?_⟩
    · simpa [EndsBy, Subprocess.Survives, alive, Attachment.awaiting] using result
    · exact settled.imp (List.mem_append_right _) (List.mem_append_right _)

theorem ends_terminate (present : client.sessions.get? id = some attachment)
    (fresh : attachment.session.journal = []) :
    ∃ rest later, client.Tends id attachment (.terminated id :: rest) later ∧
      EndsBy attachment.session.process id rest
        ((do if !(← terminate id) then kill id : Control Unit).run client) later ∧
      (.waitedForEnd id endLimit .ended ∈ rest ∨ .killed id ∈ rest) := by
  have tries : Effort id (do
      if (← find id).session.process.terminateFails then pure false else awaitEnd id) := by
    refine effort_found fun attachment => ?_
    split
    · exact effort_none id
    · exact effort_await id
  obtain ⟨rest, later, tends, result, settled⟩ :=
    ends_effort tries (ends_kill id) (client.log (.terminated id)) attachment present fresh
  have begun : client.Tends id attachment [.terminated id] (client.log (.terminated id)) :=
    tends_log present rfl fun _ => rfl
  exact ⟨rest, later, tends_trans attachment.session.process.waits begun tends, result, settled⟩

theorem run_ask (present : client.sessions.get? id = some attachment)
    (fresh : attachment.session.journal = []) :
    let process := attachment.session.process
    ∃ later, (askToQuit id).run client =
        .ok (!process.pipeBroken && process.wait.1 == .ended) later ∧
      client.Tends id attachment (process.asking id) later := by
  intro process
  let asked := client.log (.askedToQuit id (!process.pipeBroken))
  have begun : client.Tends id attachment [.askedToQuit id (!process.pipeBroken)] asked :=
    tends_log present rfl fun _ => rfl
  have kept : asked.sessions.get? id = some attachment := present
  have ran : (askToQuit id).run client =
      (if !process.pipeBroken then awaitEnd id else pure false : Control Bool).run asked := by
    unfold askToQuit
    exact bind_find present _
  rw [ran, Subprocess.asking]
  cases broken : process.pipeBroken with
  | true =>
    rw [broken] at begun
    exact ⟨_, rfl, begun⟩
  | false =>
    rw [broken] at begun
    obtain ⟨later, waited, tends⟩ := run_await_end kept fresh
    exact ⟨later, waited, tends_trans process.waits begun tends⟩

theorem pursued_asking {process : Subprocess} (running : process.exitCode = none)
    {more : List Activity}
    (terminated : .terminated id ∈ more ↔ process.pipeBroken = true ∨ process.wait.1 ≠ .ended) :
    process.Pursued id (process.asking id ++ more) := by
  have never : .terminated id ∉ process.asking id := by
    unfold Subprocess.asking
    split <;> simp
  refine ⟨fun known => ?_, fun _ => List.prefix_append _ _, fun _ => ?_⟩
  · rw [running] at known
    cases known
  · rw [List.mem_append, or_iff_right never, terminated]

theorem ends_process (present : client.sessions.get? id = some attachment)
    (fresh : attachment.session.journal = []) :
    ∃ steps later, client.Tends id attachment steps later ∧
      EndsBy attachment.session.process id steps ((endProcess id).run client) later ∧
      attachment.session.process.Pursued id steps ∧
      (attachment.session.process.exitCode.isSome = true ∨
        .waitedForEnd id endLimit .ended ∈ steps ∨ .killed id ∈ steps) := by
  unfold endProcess
  rw [bind_find present]
  set process := attachment.session.process
  cases running : process.exitCode with
  | some status =>
    have spared : ¬ process.Survives id [] := fun survives => List.not_mem_nil survives.1
    refine ⟨[], client, tends_nothing present, .inl ⟨rfl, spared⟩, ⟨fun _ => rfl, ?_, ?_⟩, .inl rfl⟩
    · exact fun unknown => by cases running.symm.trans unknown
    · exact fun unknown => by cases running.symm.trans unknown
  | none =>
    have spared : .killed id ∉ process.asking id := by
      unfold Subprocess.asking
      split <;> simp
    obtain ⟨middle, asked, tends⟩ := run_ask present fresh
    simp only [Option.isNone_none, if_true]
    rw [EStateM.run_bind, asked]
    cases heard : !process.pipeBroken && process.wait.1 == .ended with
    | true =>
      obtain ⟨whole, ended⟩ : process.pipeBroken = false ∧ process.wait.1 = .ended := by
        simpa using heard
      refine ⟨process.asking id, middle, tends, .inl ⟨rfl, fun failed => spared failed.1⟩, ?_, ?_⟩
      · have pursued : process.Pursued id (process.asking id ++ []) :=
          pursued_asking running (by simp [whole, ended])
        rwa [List.append_nil] at pursued
      · simp [Subprocess.asking, whole, ended]
    | false =>
      obtain ⟨waits, kept⟩ := tends.kept
      obtain ⟨rest, later, further, result, settled⟩ := ends_terminate kept fresh
      refine ⟨process.asking id ++ .terminated id :: rest, later, tends_trans waits tends further,
        ?_, pursued_asking running ?_, ?_⟩
      · simpa [EndsBy, Subprocess.Survives, spared, Attachment.awaiting] using result
      · simpa [imp_iff_not_or, or_comm] using heard
      · exact .inr (settled.imp (by simp +contextual) (by simp +contextual))

end Ladder

section Stop

variable {client : Client} {id : String} {attachment : Attachment}

theorem winds_up (present : client.sessions.get? id = some attachment)
    (fresh : attachment.session.journal = []) :
    ∃ steps later, client.Tends id attachment.closed steps later ∧
      EndsBy attachment.session.process id steps ((windUp id).run client) later ∧
      attachment.session.process.Pursued id steps ∧
      (attachment.session.process.exitCode.isSome = true ∨
        .waitedForEnd id endLimit .ended ∈ steps ∨ .killed id ∈ steps) := by
  have silent : attachment.session.close.journal = [] :=
    (close_journal attachment.session).trans fresh
  have process : attachment.session.close.process = attachment.session.process :=
    close_process attachment.session
  let closed := client.keep id attachment attachment.session.close
  have closing : (onSession id (modify Session.close)).run client = .ok () closed := by
    rw [run_on_session present]
    rfl
  have kept : closed.sessions.get? id = some attachment.closed := by
    have forgotten : attachment.session.close.forgetful = attachment.session.close := by
      simp [Session.forgetful, ← silent]
    rw [kept_get, if_pos rfl, forgotten]
    rfl
  obtain ⟨steps, later, tends, result, pursued, settled⟩ := ends_process kept silent
  have told : closed.journal = client.journal := by
    simp [closed, Client.keep, silent]
  have others (other : String) (differs : other ≠ id) :
      closed.sessions.get? other = client.sessions.get? other :=
    (kept_get other).trans (if_neg differs)
  refine ⟨steps, later, ?_, ?_, process ▸ pursued, process ▸ settled⟩
  · exact ⟨told ▸ tends.told, tends.own, tends.silent, tends.kept,
      fun other differs => (tends.others other differs).trans (others other differs), tends.former⟩
  · rw [windUp, EStateM.run_bind, closing, ← process]
    exact result

theorem run_stop (present : client.sessions.get? id = some attachment) :
    (stop id).run client =
      match (windUp id).run client with
      | .ok _ later => .ok () (later.forget id)
      | .error fault later => .error fault later := by
  have listed : client.sessions.contains id = true := by
    rw [Table.contains, present]
    rfl
  unfold stop
  simp only [EStateM.run_bind, EStateM.run_get, listed, if_true]
  cases (windUp id).run client <;> rfl

/-- A session that is wound up is forgotten, unless that failed. -/
theorem stops (present : client.sessions.get? id = some attachment)
    (fresh : attachment.session.journal = []) :
    ∃ steps last later, client.Stops id attachment steps last later ∧
      EndsBy attachment.session.process id steps ((stop id).run client) later := by
  obtain ⟨steps, wound, tends, result, pursued, settled⟩ := winds_up present fresh
  obtain ⟨waits, kept⟩ := tends.kept
  have closed : (attachment.closed.awaiting waits).session.isClosed = true :=
    attachment.session.isClosed_close
  refine ⟨steps, attachment.closed.awaiting waits, ?_⟩
  rw [run_stop present]
  rcases result with ⟨ended, spared⟩ | ⟨failed, survives⟩
  · rw [ended]
    refine ⟨wound.forget id, ?_, .inl ⟨rfl, spared⟩⟩
    refine ⟨tends.told, tends.own, tends.silent, closed, ⟨waits, rfl⟩, pursued, settled, ?_,
      fun _ => ⟨Table.get?_erase_self _ _, ?_⟩, fun survives => absurd survives spared⟩
    · exact fun other differs =>
        (Table.get?_erase_of_ne _ differs).trans (tends.others other differs)
    · rw [Client.forget, kept, tends.former]
      rfl
  · rw [failed]
    exact ⟨wound, ⟨tends.told, tends.own, tends.silent, closed, ⟨waits, rfl⟩, pursued, settled,
      tends.others, fun spared => absurd survives spared, fun _ => ⟨kept, tends.former⟩⟩,
      .inr ⟨rfl, survives⟩⟩

-- What becomes of the background work, by the way in which stopping the session comes out.
theorem run_stop_debug (present : client.sessions.get? id = some attachment) :
    (perform (.stopDebug id)).run client =
      match (stop id).run client with
      | .ok _ later => .ok .stopped (later.log (.joined id joinLimit))
      | .error fault later =>
        .ok .stopped ((later.log (.stopFailed id fault)).log (.joined id joinLimit)) := by
  have listed : client.sessions.contains id = true := by
    rw [Table.contains, present]
    rfl
  unfold perform stopDebug stopInBackground
  simp only [EStateM.run_bind, EStateM.run_get, listed, if_true, Engine.run_catch]
  cases (stop id).run client <;> rfl

end Stop

end Control

/-- A call to stop a session stops it, and is answered as if that could not fail. That the process
survives is only noted. -/
def Client.StopsWhenCalled (client : Client) (id : String) (attachment : Attachment) : Prop :=
  ∃ steps last stopped noted, client.Stops id attachment steps last stopped ∧
    (Control.perform (.stopDebug id)).run client = .ok .stopped { stopped with
      journal := stopped.journal ++ noted ++ [.joined id Control.joinLimit] } ∧
    (¬ attachment.session.process.Survives id steps ∧ noted = [] ∨
      attachment.session.process.Survives id steps ∧
        noted = [.stopFailed id (.system "kill failed")])

/-- Whatever the process of a session does when the session is stopped: no handler is called, the
session is closed, and its process is known to have ended or has been killed. The session is
forgotten then, unless it had to be killed and that failed. -/
theorem stopping_ends_process {config : Config} {client : Client}
    (run : Client.Reaches { config := config } client) {id : String} {attachment : Attachment}
    (present : client.sessions.get? id = some attachment) : client.StopsWhenCalled id attachment := by
  obtain ⟨steps, last, stopped, stops, result⟩ :=
    Control.stops present (reached_tidy run id attachment present)
  have answered := Control.run_stop_debug present
  rcases result with ⟨ended, spared⟩ | ⟨failed, survives⟩
  · rw [ended] at answered
    refine ⟨steps, last, stopped, [], stops, ?_, .inl ⟨spared, rfl⟩⟩
    rw [List.append_nil]
    exact answered
  · rw [failed] at answered
    refine ⟨steps, last, stopped, [.stopFailed id (.system "kill failed")], stops, answered,
      .inr ⟨survives, rfl⟩⟩

/-- Neither asking to quit nor terminating ends the process, so it is killed. -/
theorem killed_in_the_end :
    ∃ (client : Client) (attachment : Attachment),
      Client.Reaches { config := { gdbPath := .string "gdb" } } client ∧
      client.sessions.get? "session_1" = some attachment ∧
      attachment.session.isClosed = false ∧
      attachment.session.process = { pid := 7, waits := [.timedOut, .failed] } ∧
      client.StopsWhenCalled "session_1" attachment := by
  let spawned : Subprocess := { pid := 7, waits := [.timedOut, .failed] }
  let begun : Client := { config := { gdbPath := .string "gdb" }, spawning := .gives spawned }
  let client := (Control.perform (.startDebug (some "a.out") none none)).after begun
  have run : Client.Reaches { config := { gdbPath := .string "gdb" } } client :=
    .tail (.single (.world none [] (.gives spawned) [])) (.call _)
  have shown : (client.sessions.get? "session_1").map (fun attachment =>
      (attachment.session.isClosed, attachment.session.process)) = some (false, spawned) := by
    decide +kernel
  obtain ⟨attachment, present, facts⟩ := Option.map_eq_some_iff.mp shown
  obtain ⟨alive, process⟩ := Prod.mk.inj facts
  exact ⟨client, attachment, run, present, alive, process, stopping_ends_process run present⟩

/-- A kill that fails leaves the session in the table, although it is reported as stopped. -/
theorem failed_kill_remembered :
    ∃ client later : Client,
      Client.Reaches { config := { gdbPath := .string "gdb" } } client ∧
      (Control.perform (.stopDebug "session_1")).run client = .ok .stopped later ∧
      later.sessions.keys = ["session_1"] := by
  let spawned : Subprocess := { pid := 7, waits := [.timedOut, .timedOut], killFails := true }
  let begun : Client := { config := { gdbPath := .string "gdb" }, spawning := .gives spawned }
  let client := (Control.perform (.startDebug (some "a.out") none none)).after begun
  have run : Client.Reaches { config := { gdbPath := .string "gdb" } } client :=
    .tail (.single (.world none [] (.gives spawned) [])) (.call _)
  have shown : (match (Control.perform (.stopDebug "session_1")).run client with
      | .ok .stopped later => some later.sessions.keys
      | _ => none) = some ["session_1"] := by
    decide +kernel
  split at shown
  · next later stopped => exact ⟨client, later, run, stopped, Option.some.inj shown⟩
  · cases shown

end GdbControl
