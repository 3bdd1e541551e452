import GdbControl.Proofs.Launching
import GdbControl.Proofs.Locality
import GdbControl.Proofs.Stopping
import GdbControl.Server

/-!
The end of the server. Its sessions are stopped one after another, the oldest first. A process that
cannot be killed ends the work on its own session only: the next session is found as it was left, since
stopping one session leaves all others alone.
-/

namespace GdbControl

/-- The sessions stand in the order in which they were started, which their numbers tell. -/
def Client.InOrder (client : Client) : Prop :=
  ∃ numbers : List Nat, client.sessions.keys = numbers.map sessionName ∧ numbers.Pairwise (· < ·)

section Order

variable {given : String → Prop} {client later : Client}

theorem keys_keep {id : String} {attachment : Attachment}
    (present : client.sessions.get? id = some attachment) (session : Session) :
    (client.keep id attachment session).sessions.keys = client.sessions.keys :=
  Table.keys_insert_of_mem _ (List.mem_map.mpr ⟨_, Table.mem_entries_iff.mpr present, rfl⟩)

-- Only a session that is asked for can be new.
theorem steps_shrink (steps : client.Steps given later) :
    client.attempts ≤ later.attempts ∧
      (later.attempts = client.attempts → later.sessions.keys.Sublist client.sessions.keys) := by
  induction steps with
  | refl => exact ⟨Nat.le_refl _, fun _ => .refl _⟩
  | tail _ step ih =>
    obtain ⟨grown, shrunk⟩ := ih
    cases step with
    | aside same attempts =>
      refine ⟨Nat.le_trans grown attempts, fun equal => ?_⟩
      rw [same]
      exact shrunk (by omega)
    | launch _ _ attempts => exact ⟨by omega, by omega⟩
    | act present =>
      refine ⟨grown, fun equal => ?_⟩
      rw [keys_keep present]
      exact shrunk equal
    | forget id => exact ⟨grown, fun equal => (Table.keys_erase _ id).trans (shrunk equal)⟩

/-- Whatever is done to a session, no further one is asked for. -/
theorem counted_bond (number : Nat) (id : String) :
    Client.Bond id (fun _ => True) fun left right => left = right ∧ left.attempts = number where
  found := by rintro left _ ⟨rfl, -⟩; rfl
  arriving := by rintro left _ ⟨rfl, -⟩; rfl
  logged := by rintro left _ activity - - ⟨rfl, same⟩; exact ⟨rfl, same⟩
  kept := by rintro left _ attachment session ⟨rfl, same⟩; exact ⟨rfl, same⟩
  heard := by rintro left _ ⟨rfl, same⟩; exact ⟨rfl, same⟩
  forgotten := by rintro left _ ⟨rfl, same⟩; exact ⟨rfl, same⟩

theorem after_in_order (ordered : client.InOrder) {operation : Control α}
    (steps : client.Steps given (operation.after client))
    (kept : Control.Keeps
      (fun left right => left = right ∧ left.attempts = client.attempts) operation) :
    (operation.after client).InOrder := by
  have counted : (operation.after client).attempts = client.attempts :=
    @Control.keeps_after _ (fun left => left.attempts = client.attempts) operation client kept rfl
  obtain ⟨numbers, named, sorted⟩ := ordered
  have shrunk := (steps_shrink steps).2 counted
  rw [named] at shrunk
  obtain ⟨fewer, part, same⟩ := List.sublist_map_iff.mp shrunk
  exact ⟨fewer, same, sorted.sublist part⟩

theorem started_in_order (sound : client.Sound) (ordered : client.InOrder) {program : String}
    {args : List String}
    (started : client.Started (sessionName (client.attempts + 1)) program args later) :
    later.InOrder := by
  obtain ⟨numbers, named, sorted⟩ := ordered
  refine ⟨numbers ++ [client.attempts + 1], ?_, ?_⟩
  · rw [started.keys, named, List.map_append, List.map_singleton]
  · refine List.pairwise_append.mpr ⟨sorted, List.pairwise_singleton _ _, ?_⟩
    intro number member last same
    cases List.mem_singleton.mp same
    have listed : sessionName number ∈ client.sessions.keys := by
      rw [named]
      exact List.mem_map_of_mem member
    obtain ⟨attachment, present⟩ := present_of_key listed
    obtain ⟨own, bound, name⟩ := sound.named _ attachment present
    have equal := session_name_injective name
    omega

theorem call_in_order (sound : client.Sound) (ordered : client.InOrder) (call : ToolCall) :
    ((Control.perform call).after client).InOrder := by
  cases about : call.session? with
  | some id =>
    exact after_in_order ordered
      ((Control.stepwise_perform call (fun _ _ => trivial) client : client.Steps (fun _ => True) _))
      (Control.keeps_perform (counted_bond _ id) about fun _ _ => trivial)
  | none =>
    cases call with
    | listSessions => exact ordered
    | startDebug program args rootDirectory =>
      unfold Control.after
      rcases Control.run_start_debug program args rootDirectory (next_name_new sound) with
        ⟨later, ran, started⟩ | ⟨fault, later, ran, unstarted⟩ <;> rw [ran]
      · exact started_in_order sound ordered started
      · obtain ⟨numbers, named, sorted⟩ := ordered
        exact ⟨numbers, by rw [unstarted.sessions, named], sorted⟩
    | _ => cases about

theorem next_in_order (sound : client.Sound) (ordered : client.InOrder) (next : client.Next later) :
    later.InOrder := by
  have steps := next_steps next
  cases next with
  | call call => exact call_in_order sound ordered call
  | deliver id deliveries =>
    exact after_in_order ordered steps (Control.keeps_deliver (counted_bond _ id) deliveries)
  | read id script =>
    exact after_in_order ordered steps (Control.keeps_read_all (counted_bond _ id) script)
  | shutdown =>
    refine after_in_order ordered steps (Control.keeps_get ?_ fun _ => Control.keeps_forM fun id =>
      Control.keeps_catch (Control.keeps_stop (counted_bond _ id)) fun _ => Control.keeps_pure _)
    rintro left _ ⟨rfl, -⟩
    rfl
  | world => exact ordered
  | process process present =>
    obtain ⟨numbers, named, sorted⟩ := ordered
    exact ⟨numbers, by rw [keys_keep present, named], sorted⟩

theorem reached_in_order {config : Config} (run : Client.Reaches { config := config } client) :
    client.InOrder := by
  induction run with
  | refl => exact ⟨[], rfl, .nil⟩
  | tail run next ih => exact next_in_order (reached_sound run) ih next

end Order

/-- Sessions have been stopped one after another. -/
inductive Client.StopsAll : Client → List (String × Attachment) → List Activity → Client → Prop where
  | none (client : Client) : StopsAll client [] [] client
  | next {client middle later : Client} {id : String} {attachment last : Attachment}
    {rest : List (String × Attachment)} {steps more : List Activity}
    (first : client.Stops id attachment steps last middle)
    (others : middle.StopsAll rest more later) :
    StopsAll client ((id, attachment) :: rest) (steps ++ more) later

/-- The part of a record that is about one session. -/
def stepsOf (id : String) (steps : List Activity) : List Activity :=
  steps.filter (·.session? == some id)

/-- What has become of one of the sessions that were stopped. Its process was seen to, and it was
closed. It is forgotten, or it is still there because its process survives. -/
def Client.Dismissed (later : Client) (id : String) (attachment : Attachment) (steps : List Activity) :
    Prop :=
  attachment.session.process.Pursued id (stepsOf id steps) ∧
    ∃ last : Attachment, last.session.isClosed = true ∧
      (∃ waits, last = attachment.closed.awaiting waits) ∧
      (later.sessions.get? id = none ∧ (id, last) ∈ later.former ∨
        later.sessions.get? id = some last ∧ attachment.session.process.Survives id steps)

section StopsAll

variable {client later : Client} {entries : List (String × Attachment)} {steps : List Activity}

theorem stops_all_told (stops : client.StopsAll entries steps later) :
    later.journal = client.journal ++ steps := by
  induction stops with
  | none => exact (List.append_nil _).symm
  | next first _ ih => rw [ih, first.told, List.append_assoc]

theorem stops_all_silent (stops : client.StopsAll entries steps later) (name : String) :
    eventsOf name steps = [] := by
  induction stops with
  | none => rfl
  | next first _ ih => rw [events_append, first.silent, ih, List.append_nil]

theorem stops_all_others (stops : client.StopsAll entries steps later) {id : String}
    (other : id ∉ entries.map Prod.fst) : later.sessions.get? id = client.sessions.get? id := by
  induction stops with
  | none => rfl
  | next first _ ih =>
    simp only [List.map_cons, List.mem_cons, not_or] at other
    exact (ih other.2).trans (first.others id other.1)

-- Who has been forgotten stays so.
theorem stops_all_former (stops : client.StopsAll entries steps later) :
    client.former ⊆ later.former := by
  induction stops with
  | none => exact fun _ member => member
  | @next client middle _ id attachment last _ steps _ first _ ih =>
    refine List.Subset.trans (fun entry member => ?_) ih
    by_cases survives : attachment.session.process.Survives id steps
    · rw [(first.stuck survives).2]
      exact member
    · rw [(first.forgotten survives).2]
      exact List.mem_append_left _ member

theorem steps_own {id : String} (own : ∀ step ∈ steps, step.session? = some id) :
    stepsOf id steps = steps :=
  List.filter_eq_self.mpr fun step member => by simp [own step member]

theorem steps_foreign {id other : String} (own : ∀ step ∈ steps, step.session? = some id)
    (differs : other ≠ id) : stepsOf other steps = [] :=
  List.filter_eq_nil_iff.mpr fun step member => by simp [own step member, differs.symm]

theorem stops_all_foreign (stops : client.StopsAll entries steps later) {id : String}
    (other : id ∉ entries.map Prod.fst) : stepsOf id steps = [] := by
  induction stops with
  | none => rfl
  | next first _ ih =>
    simp only [List.map_cons, List.mem_cons, not_or] at other
    rw [stepsOf, List.filter_append]
    exact List.append_eq_nil_iff.mpr ⟨steps_foreign first.own other.1, ih other.2⟩

-- The sessions that were stopped before and after it leave no trace on a session.
theorem stops_all_each (stops : client.StopsAll entries steps later)
    (distinct : (entries.map Prod.fst).Nodup) {id : String} {attachment : Attachment}
    (member : (id, attachment) ∈ entries) : later.Dismissed id attachment steps := by
  induction stops with
  | none => cases member
  | @next _ _ _ first _ last _ own more stopped others ih =>
    obtain ⟨alone, distinct'⟩ := List.nodup_cons.mp distinct
    have divided : stepsOf id (own ++ more) = stepsOf id own ++ stepsOf id more :=
      List.filter_append own more
    rw [Client.Dismissed, divided]
    rcases List.mem_cons.mp member with same | inRest
    · cases same
      rw [steps_own stopped.own, stops_all_foreign others alone, List.append_nil,
        stops_all_others others alone]
      refine ⟨stopped.pursued, last, stopped.closed, stopped.same, ?_⟩
      by_cases survives : attachment.session.process.Survives id own
      · exact .inr ⟨(stopped.stuck survives).1, List.mem_append_left more survives.1, survives.2⟩
      · obtain ⟨gone, former⟩ := stopped.forgotten survives
        exact .inl ⟨gone, stops_all_former others (by simp [former])⟩
    · have differs : id ≠ first := by
        rintro rfl
        exact alone (List.mem_map.mpr ⟨_, inRest, rfl⟩)
      obtain ⟨pursued, found, closed, same, left⟩ := ih distinct' inRest
      rw [steps_foreign stopped.own differs, List.nil_append]
      refine ⟨pursued, found, closed, same, left.imp_right fun ⟨kept, killed, fails⟩ => ?_⟩
      exact ⟨kept, List.mem_append_right own killed, fails⟩

end StopsAll

namespace Control

section StopAll

variable {client : Client}

/-- Stops a session as one of many. A fault stays there. -/
def stopOne (id : String) : Control Unit := tryCatch (stop id) fun _ => pure ()

theorem run_stop_one {id : String} {attachment : Attachment}
    (present : client.sessions.get? id = some attachment)
    (fresh : attachment.session.journal = []) :
    ∃ steps last later, (stopOne id).run client = .ok () later ∧
      client.Stops id attachment steps last later := by
  obtain ⟨steps, last, later, stopped, result⟩ := stops present fresh
  refine ⟨steps, last, later, ?_, stopped⟩
  rw [stopOne, Engine.run_catch]
  rcases result with ⟨ended, -⟩ | ⟨failed, -⟩
  · rw [ended]
  · rw [failed]
    rfl

theorem run_stop_each {entries : List (String × Attachment)}
    (distinct : (entries.map Prod.fst).Nodup)
    (present : ∀ id attachment, (id, attachment) ∈ entries →
      client.sessions.get? id = some attachment ∧ attachment.session.journal = []) :
    ∃ steps later, ((entries.map Prod.fst).forM stopOne).run client = .ok () later ∧
      client.StopsAll entries steps later := by
  induction entries generalizing client with
  | nil => exact ⟨[], client, rfl, .none client⟩
  | cons entry rest ih =>
    obtain ⟨id, attachment⟩ := entry
    obtain ⟨alone, distinct'⟩ := List.nodup_cons.mp distinct
    obtain ⟨here, fresh⟩ := present id attachment List.mem_cons_self
    obtain ⟨steps, last, middle, ran, stops⟩ := run_stop_one here fresh
    have others (other : String) (found : Attachment) (member : (other, found) ∈ rest) :
        middle.sessions.get? other = some found ∧ found.session.journal = [] := by
      obtain ⟨there, fresh⟩ := present other found (List.mem_cons_of_mem _ member)
      have differs : other ≠ id := by
        rintro rfl
        exact alone (List.mem_map.mpr ⟨_, member, rfl⟩)
      exact ⟨(stops.others other differs).trans there, fresh⟩
    obtain ⟨more, later, ran', stops'⟩ := ih distinct' others
    refine ⟨steps ++ more, later, ?_, .next stops stops'⟩
    change (stopOne id >>= fun _ => (rest.map Prod.fst).forM stopOne).run client = _
    rw [EStateM.run_bind, ran]
    exact ran'

theorem run_stop_all (tidy : client.Tidy) :
    ∃ steps later, stopAll.run client = .ok () later ∧
      client.StopsAll client.sessions.entries steps later := by
  refine run_stop_each client.sessions.distinct fun id attachment member => ?_
  have present := Table.mem_entries_iff.mp member
  exact ⟨present, tidy id attachment present⟩

end StopAll

end Control

/-- The end of a server. Its sessions have been stopped in the order in which they were started, each
whatever became of the others, and none of their handlers was called. No session is left but those
whose process survives. There is no client any more. -/
structure Client.Leaves (client : Client) (steps : List Activity) (later : Client) : Prop where
  ordered : client.InOrder
  ran : Control.stopAll.run client = .ok () later
  stopped : client.StopsAll client.sessions.entries steps later
  told : later.journal = client.journal ++ steps
  silent : ∀ name, eventsOf name steps = []
  ended : ∀ id attachment, client.sessions.get? id = some attachment →
    later.Dismissed id attachment steps
  left : ∀ id found, later.sessions.get? id = some found →
    found.session.isClosed = true ∧ .killed id ∈ steps
  last : (Server.start client).leave = (some later, ⟨none⟩)
  gone : (Server.start client).leave.2.client =
    .error (.internal "Debug client not initialized")

/-- The server is left without a fault, whatever its sessions are and their processes do. The sessions
are stopped in the order in which they were started. Each is closed, and none of its handlers is called.
A process that is not known to have ended is asked to quit, and terminated if it does not hear or the
wait that follows fails. Only a session whose process could not be killed is left, closed. Then there
is no client any more. -/
theorem leaving_stops_all_sessions {config : Config} {client : Client}
    (run : Client.Reaches { config := config } client) :
    ∃ steps later, client.Leaves steps later := by
  obtain ⟨steps, later, ran, stops⟩ := Control.run_stop_all (reached_tidy run)
  have each (id : String) (attachment : Attachment)
      (present : client.sessions.get? id = some attachment) : later.Dismissed id attachment steps :=
    stops_all_each stops client.sessions.distinct (Table.mem_entries_iff.mpr present)
  refine ⟨steps, later, reached_in_order run, ran, stops, stops_all_told stops,
    stops_all_silent stops, each, ?_, ?_, rfl⟩
  · intro id found kept
    by_cases listed : id ∈ client.sessions.keys
    · obtain ⟨attachment, present⟩ := present_of_key listed
      obtain ⟨-, last, closed, -, left⟩ := each id attachment present
      rcases left with ⟨gone, -⟩ | ⟨still, survives⟩
      · cases gone.symm.trans kept
      · cases still.symm.trans kept
        exact ⟨closed, survives.1⟩
    · have absent : client.sessions.get? id = none := Table.lookup_eq_none_of_not_mem listed
      cases ((stops_all_others stops listed).trans absent).symm.trans kept
  · rw [Server.leave, Server.start, Option.map_some, Server.stopped, ran]

/-- Of three sessions the first has ended before, the second cannot even be killed, and the third is
stopped all the same. -/
theorem stubborn_session_left :
    ∃ (client : Client) (steps : List Activity) (later : Client),
      Client.Reaches { config := { gdbPath := .string "gdb" } } client ∧
      client.sessions.values.map (fun attachment =>
          (attachment.session.isClosed, attachment.session.process)) =
        [(true, { pid := 1, exitCode := some 0 }),
          (false, { pid := 2, waits := [.timedOut, .failed], killFails := true }),
          (false, { pid := 3, pipeBroken := true })] ∧
      later.sessions.keys = ["session_2"] ∧
      later.former.map (fun entry => (entry.1, entry.2.session.isClosed)) =
        [("session_1", true), ("session_3", true)] ∧
      client.Leaves steps later := by
  let first : Client := { config := { gdbPath := .string "gdb" } }
  let next (spawned : Subprocess) (client : Client) : Client :=
    (Control.perform (.startDebug (some "a.out") none none)).after
      { client with gdbOnPath := none, environment := [], spawning := .gives spawned, arriving := [] }
  have reach (spawned : Subprocess) {client : Client} (run : first.Reaches client) :
      first.Reaches (next spawned client) :=
    .tail (.tail run (.world none [] (.gives spawned) [])) (.call _)
  let ended := (Control.deliver "session_1" [.exit]).after (next { pid := 1, exitCode := some 0 } first)
  let client := next { pid := 3, pipeBroken := true }
    (next { pid := 2, waits := [.timedOut, .failed], killFails := true } ended)
  have run : first.Reaches client := reach _ (reach _ (.tail (reach _ .refl) (.deliver _ _)))
  have shown : client.sessions.values.map (fun attachment =>
      (attachment.session.isClosed, attachment.session.process)) =
      [(true, { pid := 1, exitCode := some 0 }),
        (false, { pid := 2, waits := [.timedOut, .failed], killFails := true }),
        (false, { pid := 3, pipeBroken := true })] := by
    decide +kernel
  have left : (Control.stopAll.after client).sessions.keys = ["session_2"] := by decide +kernel
  have former : (Control.stopAll.after client).former.map (fun entry =>
      (entry.1, entry.2.session.isClosed)) = [("session_1", true), ("session_3", true)] := by
    decide +kernel
  obtain ⟨steps, later, leaves⟩ := leaving_stops_all_sessions run
  rw [Control.after, leaves.ran] at left former
  exact ⟨client, steps, later, run, shown, left, former, leaves⟩

end GdbControl
