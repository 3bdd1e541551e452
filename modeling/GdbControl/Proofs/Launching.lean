import GdbControl.Proofs.Waking

/-!
Starting gdb. Either a session is attached to the new process, under a name that no session ever had,
or the client keeps the sessions that it had. In between stands one way of failing: gdb has been
started when the views that are configured for its session turn out not to exist.
-/

namespace GdbControl

/-- The client has started gdb and attached a session to it, and done nothing else. -/
structure Client.Started (client : Client) (id program : String) (args : List String)
    (later : Client) : Prop where
  new : id ∉ client.sessions.keys
  keys : later.sessions.keys = client.sessions.keys ++ [id]
  others : ∀ other, other ≠ id → later.sessions.get? other = client.sessions.get? other
  entered : ∃ process views, client.spawning = .gives process ∧
    client.config.catalog = .ok views ∧
    later.sessions.get? id =
      some ⟨{ Session.start process views with urgent := startup }, program, args⟩
  told : ∃ command directory environment,
    later.journal = client.journal ++ .spawned command directory environment ::
      startup.map fun command => .did id (.accepted .urgent command)

/-- The client with another working directory configured. -/
def Client.inside (client : Client) (directory : Json) : Client :=
  { client with config := { client.config with workingDirectory := directory } }

/-- The client with the working directory back that was configured, if one was. -/
def Client.restored (client : Client) : Json → Client
  | .null => client
  | directory => client.inside directory

/-- Why a client that has tried to start a process has no session on it. -/
inductive Client.Unattached (client : Client) (fault : Fault) : Prop where
  | unspawned (reason : String) (fails : client.spawning = .fails reason)
    (same : fault = .launch reason)
  /-- The process has been started, and nothing is done about it any more. -/
  | abandoned (process : Subprocess) (spawned : client.spawning = .gives process)
    (viewless : client.config.catalog = .error fault)

/-- The client has not attached a session. -/
structure Client.Unstarted (client : Client) (fault : Fault) (later : Client) : Prop where
  sessions : later.sessions = client.sessions
  told : later.journal = client.journal ∨
    client.Unattached fault ∧ ∃ command directory environment,
      later.journal = client.journal ++ [.spawned command directory environment]

section Inside

variable {client later : Client} {directory : Json} {id program : String} {args : List String}
  {fault : Fault}

-- Nothing but the working directory of gdb depends on the one that is configured.
theorem started_inside (started : (client.inside directory).Started id program args later)
    (configured : Json) : client.Started id program args (later.restored configured) := by
  cases configured <;>
    exact ⟨started.new, started.keys, started.others, started.entered, started.told⟩

theorem unstarted_inside (unstarted : (client.inside directory).Unstarted fault later)
    (configured : Json) : client.Unstarted fault (later.restored configured) := by
  have told : later.journal = client.journal ∨ client.Unattached fault ∧
      ∃ command directory environment,
        later.journal = client.journal ++ [.spawned command directory environment] := by
    refine unstarted.told.imp_right (And.imp_left fun unattached => ?_)
    cases unattached with
    | unspawned reason fails same => exact .unspawned reason fails same
    | abandoned process spawned viewless => exact .abandoned process spawned viewless
  cases configured <;> exact ⟨unstarted.sessions, told⟩

end Inside

section Names

variable {client : Client}

theorem present_of_key {table : Table α} {id : String} (listed : id ∈ table.keys) :
    ∃ value, table.get? id = some value := by
  obtain ⟨⟨key, value⟩, member, rfl⟩ := List.mem_map.mp listed
  cases found : table.get? key with
  | some other => exact ⟨other, rfl⟩
  | none =>
    have differs := List.lookup_eq_none_iff.mp found (key, value) member
    simp at differs

-- Names count the attempts, and none is given twice.
theorem next_name_new (sound : client.Sound) :
    sessionName (client.attempts + 1) ∉ client.sessions.keys := by
  intro listed
  obtain ⟨attachment, present⟩ := present_of_key listed
  obtain ⟨number, bound, named⟩ := sound.named _ attachment present
  have same := session_name_injective named
  omega

end Names

namespace Control

section Attach

variable {client : Client}

theorem run_lift (result : Except Fault α) (client : Client) :
    (lift result).run client =
      match result with
      | .ok value => .ok value client
      | .error fault => .error fault client := by
  cases result <;> rfl

-- What is looked up before gdb is started is looked up only.
theorem run_locate (client : Client) :
    (∃ fault, locateGdb.run client = .error fault client) ∨
      ∃ gdb, locateGdb.run client = .ok gdb client := by
  unfold locateGdb
  rw [EStateM.run_bind]
  dsimp only [EStateM.run_get]
  split
  · exact .inr ⟨_, rfl⟩
  · split
    · split
      · exact .inl ⟨_, rfl⟩
      · exact .inr ⟨_, rfl⟩
    · exact .inl ⟨_, rfl⟩

theorem run_start_gdb (program : String) (args : List String) (client : Client) :
    (∃ fault, (startGdb program args).run client = .error fault client) ∨
      ∃ command environment,
        let tried := client.log (.spawned command client.config.workingDirectory environment)
        (startGdb program args).run client =
          match client.spawning with
          | .fails reason => .error (.launch reason) tried
          | .gives process => .ok process tried := by
  unfold startGdb
  rcases run_locate client with ⟨fault, located⟩ | ⟨gdb, located⟩
  · exact .inl ⟨fault, by rw [EStateM.run_bind, located]⟩
  simp only [EStateM.run_bind, located, EStateM.run_get, run_lift]
  cases client.config.commandLine gdb program args with
  | error fault => exact .inl ⟨fault, rfl⟩
  | ok command =>
    cases client.config.environmentOver client.environment with
    | error fault => exact .inl ⟨fault, rfl⟩
    | ok environment =>
      refine .inr ⟨command, environment, ?_⟩
      cases client.spawning <;> rfl

-- The session is entered into the table, and then the commands of its setup into its queue.
theorem started_entered {client tried : Client} {process : Subprocess} {views : Catalog}
    {program : String} {args : List String} {command : List String} {directory : Json}
    {environment : List (String × Json)}
    (new : sessionName (client.attempts + 1) ∉ client.sessions.keys)
    (spawned : client.spawning = .gives process) (known : client.config.catalog = .ok views)
    (sessions : tried.sessions = client.sessions)
    (told : tried.journal = client.journal ++ [.spawned command directory environment]) :
    let id := sessionName (client.attempts + 1)
    ∃ later,
      (do
        modify fun client : Client => { client with
          sessions := client.sessions.insert id ⟨Session.start process views, program, args⟩ }
        onSession id Engine.enqueuePreamble
        pure id : Control String).run tried = .ok id later ∧
      client.Started id program args later := by
  intro id
  let entered : Client := { tried with
    sessions := tried.sessions.insert id ⟨Session.start process views, program, args⟩ }
  have present : entered.sessions.get? id = some ⟨Session.start process views, program, args⟩ :=
    Table.get?_insert_self _ _ _
  have keys : entered.sessions.keys = client.sessions.keys ++ [id] := by
    rw [← sessions] at new ⊢
    exact Table.keys_insert_of_not_mem _ new
  have listed : id ∈ entered.sessions.keys := by simp [keys]
  let ready : Session := { Session.start process views with
    urgent := startup
    journal := startup.map (.accepted .urgent) }
  let later := entered.keep id ⟨Session.start process views, program, args⟩ ready
  refine ⟨later, ?_, new, ?_, ?_, ⟨process, views, spawned, known, ?_⟩,
    command, directory, environment, ?_⟩
  · have enqueued : (onSession id Engine.enqueuePreamble).run entered = .ok () later := by
      rw [run_on_session present, run_preamble]
    change ((onSession id Engine.enqueuePreamble >>= fun _ => pure id).run entered) = _
    rw [EStateM.run_bind, enqueued]
    rfl
  · exact (Table.keys_insert_of_mem _ listed).trans keys
  · intro other differs
    rw [← sessions]
    exact (Table.get?_insert_of_ne _ _ differs).trans (Table.get?_insert_of_ne _ _ differs)
  · exact Table.get?_insert_self _ _ _
  · simp [later, Client.keep, entered, told, ready, Function.comp_def]

theorem run_attach (program : String) (args : List String)
    (new : sessionName (client.attempts + 1) ∉ client.sessions.keys) :
    let id := sessionName (client.attempts + 1)
    (∃ later, (attach program args).run client = .ok id later ∧
      client.Started id program args later) ∨
    ∃ fault later, (attach program args).run client = .error fault later ∧
      client.Unstarted fault later := by
  intro id
  let counted : Client := { client with attempts := client.attempts + 1 }
  have named : nextId.run client = .ok id counted := rfl
  unfold attach
  rw [EStateM.run_bind, named]
  dsimp only
  rw [EStateM.run_bind]
  let directory := client.config.workingDirectory
  rcases run_start_gdb program args counted with
    ⟨fault, failed⟩ | ⟨command, environment, started⟩
  · rw [failed]
    exact .inr ⟨fault, counted, rfl, rfl, .inl rfl⟩
  · rw [started]
    cases spawned : client.spawning with
    | fails reason =>
      exact .inr ⟨.launch reason, _, rfl, rfl,
        .inr ⟨.unspawned reason spawned rfl, command, directory, environment, rfl⟩⟩
    | gives process =>
      dsimp only
      rw [EStateM.run_bind, EStateM.run_get]
      dsimp only
      rw [EStateM.run_bind, run_lift]
      have views : (counted.log (.spawned command directory environment)).config.catalog =
          client.config.catalog := rfl
      rw [views]
      cases known : client.config.catalog with
      | error fault =>
        exact .inr ⟨fault, _, rfl, rfl,
          .inr ⟨.abandoned process spawned known, command, directory, environment, rfl⟩⟩
      | ok views => exact .inl (started_entered new spawned known rfl rfl)

end Attach

section Directory

variable {client : Client}

theorem run_finally (operation : Control α) (last : Control Unit) (client : Client) :
    (do
      try operation
      finally last : Control α).run client =
      match operation.run client with
      | .ok value later =>
        match last.run later with
        | .ok _ final => .ok value final
        | .error fault final => .error fault final
      | .error fault later =>
        match last.run later with
        | .ok _ final => .error fault final
        | .error other final => .error other final := by
  simp only [tryFinally, tryFinally', EStateM.run, Functor.map, EStateM.map]
  cases operation client with
  | ok value later => dsimp only; cases last later <;> rfl
  | error fault later => dsimp only; cases last later <;> rfl

theorem run_in_directory (directory : String) (operation : Control α) (client : Client) :
    (inDirectory directory operation).run client =
      match operation.run (client.inside (.string directory)) with
      | .ok value later => .ok value (later.restored client.config.workingDirectory)
      | .error fault later => .error fault (later.restored client.config.workingDirectory) := by
  unfold inDirectory
  rw [EStateM.run_bind, EStateM.run_get]
  dsimp only
  rw [EStateM.run_bind]
  change ((do
    try operation
    finally _ : Control α).run (client.inside (.string directory))) = _
  rw [run_finally]
  cases operation.run (client.inside (.string directory)) <;>
    cases client.config.workingDirectory <;> rfl

-- Whatever goes wrong becomes an answer.
theorem run_answered (placed : Control String) (client : Client) :
    (tryCatch (Reply.started <$> placed) fun fault =>
      pure (.failed (.plain fault.message)) : Control Reply).run client =
      match placed.run client with
      | .ok id later => .ok (.started id) later
      | .error fault later => .ok (.failed (.plain fault.message)) later := by
  rw [Engine.run_catch, ← bind_pure_comp, EStateM.run_bind]
  cases placed.run client <;> rfl

theorem run_start_debug (program : Option String) (args : Option (List String))
    (rootDirectory : Option String)
    (new : sessionName (client.attempts + 1) ∉ client.sessions.keys) :
    let id := sessionName (client.attempts + 1)
    (∃ later, (perform (.startDebug program args rootDirectory)).run client =
        .ok (.started id) later ∧
      client.Started id (program.getD "") (args.getD []) later) ∨
    ∃ fault later, (perform (.startDebug program args rootDirectory)).run client =
        .ok (.failed (.plain fault.message)) later ∧
      client.Unstarted fault later := by
  intro id
  unfold perform startDebug
  simp only [run_answered]
  cases rootDirectory.filter (· != "") with
  | none =>
    dsimp only
    rcases run_attach (program.getD "") (args.getD []) new with
      ⟨later, ran, started⟩ | ⟨fault, later, ran, unstarted⟩ <;> rw [ran]
    · exact .inl ⟨later, rfl, started⟩
    · exact .inr ⟨fault, later, rfl, unstarted⟩
  | some directory =>
    dsimp only
    rw [run_in_directory]
    have placed : sessionName ((client.inside (.string directory)).attempts + 1) ∉
      (client.inside (.string directory)).sessions.keys := new
    rcases run_attach (program.getD "") (args.getD []) placed with
      ⟨later, ran, started⟩ | ⟨fault, later, ran, unstarted⟩ <;> rw [ran]
    · exact .inl ⟨_, rfl, started_inside started client.config.workingDirectory⟩
    · exact .inr ⟨fault, _, rfl, unstarted_inside unstarted client.config.workingDirectory⟩

end Directory

end Control

/-- What comes of a call to start a session. Either a session is attached, or the call fails. -/
def Client.StartsOrFails (client : Client) (program : Option String) (args : Option (List String))
    (rootDirectory : Option String) : Prop :=
  let id := sessionName (client.attempts + 1)
  (∃ later, (Control.perform (.startDebug program args rootDirectory)).run client =
      .ok (.started id) later ∧
    client.Started id (program.getD "") (args.getD []) later) ∨
  ∃ fault later, (Control.perform (.startDebug program args rootDirectory)).run client =
      .ok (.failed (.plain fault.message)) later ∧
    client.Unstarted fault later

/-- Whatever is configured, found on the path and asked for, and however starting a process comes
out: either a session is attached to the process that was started, under a new name and with its
setup queued, or no session is changed. In the latter case no process was started either, except
when the configured views do not exist: that is found out only after gdb has been started. -/
theorem start_attaches_or_fails {config : Config} {client : Client}
    (run : Client.Reaches { config := config } client) (program : Option String)
    (args : Option (List String)) (rootDirectory : Option String) :
    client.StartsOrFails program args rootDirectory :=
  Control.run_start_debug program args rootDirectory (next_name_new (reached_sound run))

/-- A second session, whose gdb is started in another directory. -/
theorem second_started :
    ∃ client : Client, Client.Reaches { config := { gdbPath := .string "gdb" } } client ∧
      client.sessions.keys = ["session_1"] ∧
      client.StartsOrFails (some "b.out") none (some "/tmp") := by
  let begun : Client := { config := { gdbPath := .string "gdb" } }
  let client := (Control.perform (.startDebug (some "a.out") none none)).after begun
  have run : Client.Reaches { config := { gdbPath := .string "gdb" } } client := .single (.call _)
  have keys : client.sessions.keys = ["session_1"] := by decide +kernel
  exact ⟨client, run, keys, start_attaches_or_fails run (some "b.out") none (some "/tmp")⟩

/-- A configured view that does not exist is an error, and gdb is left alone. Not even at the end is
anything done about it. -/
theorem process_abandoned :
    let client : Client :=
      { config := { gdbPath := .string "gdb", views := .array [.string "nosuch"] } }
    ∃ later ended,
      (Control.perform (.startDebug (some "a.out") none none)).run client =
        .ok (.failed (.plain "Unknown view: nosuch")) later ∧
      later.sessions.keys = [] ∧
      Control.stopAll.run later = .ok () ended ∧
      ended.journal =
        [.spawned ["gdb", "--annotate=2", "--quiet", "--args", "a.out"] (.string ".") []] :=
  ⟨_, _, rfl, rfl, rfl, rfl⟩

end GdbControl
