import GdbControl.Proofs.Launching

/-!
Where gdb is started. A session may be asked for in a directory of its own, which stands in the
configuration while gdb is being started. After that the directory stands there again that stood
there before, unless that was null: null is taken for nothing to put back, and the first directory
that is asked for remains.
-/

namespace GdbControl

/-- The directory in which a process is started. -/
def Activity.directory? : Activity → Option Json
  | .spawned _ directory _ => some directory
  | _ => none

/-- A configuration with another working directory. -/
def Config.within (config : Config) (directory : Json) : Config :=
  { config with workingDirectory := directory }

/-- A session that is asked for, and what the outside world has for it. -/
structure Launch where
  program : Option String := none
  args : Option (List String) := none
  rootDirectory : Option String := none
  gdbOnPath : Option String := none
  environment : List (String × Json) := []
  spawning : Spawning := .gives { pid := 0 }

namespace Launch

def call (launch : Launch) : ToolCall :=
  .startDebug launch.program launch.args launch.rootDirectory

/-- The directory that is asked for. An empty one is none. -/
def asked? (launch : Launch) : Option Json :=
  (launch.rootDirectory.filter (· != "")).map .string

/-- The directory that stands in the configuration after sessions were asked for. -/
def standing (configured : Json) (earlier : List Launch) : Json :=
  match configured with
  | .null => (earlier.filterMap asked?).head?.getD .null
  | directory => directory

/-- What a single launch makes of the directory that stands in the configuration. -/
def leaves (launch : Launch) : Json → Json
  | .null => launch.asked?.getD .null
  | directory => directory

end Launch

/-- The client as it is when a session is asked for. -/
def Client.atLaunch (client : Client) (launch : Launch) : Client :=
  { client with
    gdbOnPath := launch.gdbOnPath
    environment := launch.environment
    spawning := launch.spawning }

/-- The client after a session was asked for. -/
def Client.launched (client : Client) (launch : Launch) : Client :=
  (Control.perform launch.call).after (client.atLaunch launch)

namespace Control

/-- The operation leaves the configuration alone, and starts processes only in the directory that
stands there. -/
def Placed (operation : Control α) : Prop :=
  ∀ client : Client, (operation.after client).config = client.config ∧
    ∃ activities, (operation.after client).journal = client.journal ++ activities ∧
      ∀ directory ∈ activities.filterMap Activity.directory?,
        directory = client.config.workingDirectory

section Placed

theorem placed_same {operation : Control α}
    (config : ∀ client, (operation.after client).config = client.config)
    (journal : ∀ client, (operation.after client).journal = client.journal) :
    Placed operation :=
  fun client => ⟨config client, [], by rw [journal, List.append_nil], by simp⟩

theorem placed_bind {operation : Control α} {next : α → Control β} (first : Placed operation)
    (rest : ∀ value, Placed (next value)) : Placed (operation >>= next) := by
  intro client
  obtain ⟨config, activities, told, placed⟩ := first client
  rw [after_bind]
  unfold after at config told
  cases done : operation.run client with
  | error fault later =>
    rw [done] at config told
    exact ⟨config, activities, told, placed⟩
  | ok value later =>
    rw [done] at config told
    obtain ⟨kept, more, further, others⟩ := rest value later
    refine ⟨kept.trans config, activities ++ more, ?_, fun directory member => ?_⟩
    · rw [further, told, List.append_assoc]
    · rw [List.filterMap_append, List.mem_append] at member
      exact member.elim (placed directory) fun last => config ▸ others directory last

theorem placed_lift (result : Except Fault α) : Placed (lift result) := by
  cases result <;> exact placed_same (fun _ => rfl) fun _ => rfl

theorem placed_start_gdb (program : String) (args : List String) :
    Placed (startGdb program args) := by
  intro client
  rcases run_start_gdb program args client with ⟨fault, failed⟩ | ⟨command, environment, started⟩
  · rw [after, failed]
    exact ⟨rfl, [], (List.append_nil _).symm, by simp⟩
  · rw [after, started]
    cases client.spawning <;> exact ⟨rfl, _, rfl, by simp [Activity.directory?]⟩

-- No session starts a process.
theorem placed_on_session (id : String) (operation : Engine α) :
    Placed (onSession id operation) := by
  intro client
  cases present : client.sessions.get? id with
  | none =>
    rw [on_session_absent present]
    exact ⟨rfl, [], (List.append_nil _).symm, by simp⟩
  | some attachment =>
    rw [on_session_after present]
    exact ⟨rfl, _, rfl, by simp [Activity.directory?]⟩

theorem placed_attach (program : String) (args : List String) : Placed (attach program args) :=
  placed_bind (placed_same (fun _ => rfl) fun _ => rfl) fun id =>
    placed_bind (placed_start_gdb program args) fun _ =>
      placed_bind (placed_same (fun _ => rfl) fun _ => rfl) fun _ =>
        placed_bind (placed_lift _) fun _ =>
          placed_bind (placed_same (fun _ => rfl) fun _ => rfl) fun _ =>
            placed_bind (placed_on_session id _) fun _ => placed_same (fun _ => rfl) fun _ => rfl

end Placed

theorem after_start_debug (client : Client) (launch : Launch) :
    (perform launch.call).after client =
      let create := attach (launch.program.getD "") (launch.args.getD [])
      match launch.rootDirectory.filter (· != "") with
      | none => create.after client
      | some directory =>
        (create.after (client.inside (.string directory))).restored client.config.workingDirectory := by
  unfold after Launch.call perform startDebug
  simp only [run_answered]
  cases launch.rootDirectory.filter (· != "") with
  | none => dsimp only; cases (attach _ _).run client <;> rfl
  | some directory =>
    dsimp only
    rw [run_in_directory]
    cases (attach _ _).run (client.inside (.string directory)) <;> rfl

end Control

section Launches

variable {client : Client}

-- The directory that is put back is the one that stood there, unless that was null.
theorem call_placed (client : Client) (launch : Launch) :
    let later := (Control.perform launch.call).after client
    let standing := client.config.workingDirectory
    later.config = client.config.within (launch.leaves standing) ∧
    ∃ activities, later.journal = client.journal ++ activities ∧
      ∀ directory ∈ activities.filterMap Activity.directory?,
        directory = launch.asked?.getD standing := by
  intro later standing
  have placed := Control.placed_attach (launch.program.getD "") (launch.args.getD [])
  simp only [later, Control.after_start_debug, Launch.asked?, Launch.leaves]
  cases launch.rootDirectory.filter (· != "") with
  | none =>
    obtain ⟨config, told⟩ := placed client
    refine ⟨config.trans ?_, told⟩
    change client.config.within standing = _
    cases standing <;> rfl
  | some directory =>
    obtain ⟨config, activities, told, inside⟩ := placed (client.inside (.string directory))
    have kept (other : Json) := congrArg (Config.within · other) config
    simp only [standing]
    cases client.config.workingDirectory
    case null => exact ⟨config, activities, told, inside⟩
    all_goals exact ⟨kept _, activities, told, inside⟩

theorem standing_cons (configured : Json) (launch : Launch) (rest : List Launch) :
    Launch.standing configured (launch :: rest) =
      Launch.standing (launch.leaves configured) rest := by
  cases configured <;> try rfl
  simp only [Launch.standing, Launch.leaves, List.filterMap_cons, Launch.asked?]
  cases launch.rootDirectory.filter (· != "") <;> rfl

theorem launches_config (client : Client) (earlier : List Launch) :
    (earlier.foldl Client.launched client).config =
      client.config.within (Launch.standing client.config.workingDirectory earlier) := by
  induction earlier generalizing client with
  | nil =>
    have same : Launch.standing client.config.workingDirectory [] =
        client.config.workingDirectory := by
      cases client.config.workingDirectory <;> rfl
    rw [same]
    rfl
  | cons launch rest ih =>
    have config : (client.launched launch).config =
        client.config.within (launch.leaves client.config.workingDirectory) :=
      (call_placed (client.atLaunch launch) launch).1
    rw [List.foldl_cons, ih, standing_cons, config]
    rfl

theorem launched_reaches (client : Client) (earlier : List Launch) :
    client.Reaches (earlier.foldl Client.launched client) := by
  induction earlier generalizing client with
  | nil => exact .refl
  | cons launch rest ih =>
    have next : client.Reaches (client.launched launch) :=
      .tail (.single (.world launch.gdbOnPath launch.environment launch.spawning client.arriving))
        (.call launch.call)
    exact next.trans (ih _)

-- Gdb is started at most once, and has been started where a session was.
theorem call_spawned (new : sessionName (client.attempts + 1) ∉ client.sessions.keys)
    (launch : Launch) :
    let later := (Control.perform launch.call).after client
    let place := launch.asked?.getD client.config.workingDirectory
    ∃ tried, later.journal.filterMap Activity.directory? =
        client.journal.filterMap Activity.directory? ++ tried ∧
      ((∃ id, (Control.perform launch.call).run client = .ok (.started id) later ∧
          tried = [place]) ∨
        ∃ fault, (Control.perform launch.call).run client =
          .ok (.failed (.plain (Fault.message fault))) later ∧ (tried = [] ∨ tried = [place])) := by
  intro later place
  obtain ⟨-, activities, told, placed⟩ := call_placed client launch
  have shown {reply : Reply} {final : Client}
      (ran : (Control.perform launch.call).run client = .ok reply final) : later = final := by
    simp only [later, Control.after, ran]
  have only {directory : Json} (met : activities.filterMap Activity.directory? = [directory]) :
      directory = place :=
    placed directory (met ▸ List.mem_singleton_self _)
  refine ⟨activities.filterMap Activity.directory?, ?_, ?_⟩
  · rw [told, List.filterMap_append]
  rcases Control.run_start_debug launch.program launch.args launch.rootDirectory new with
    ⟨final, ran, started⟩ | ⟨fault, final, ran, unstarted⟩
  · obtain ⟨command, directory, environment, record⟩ := started.told
    rw [← shown ran, told] at record
    have met : activities.filterMap Activity.directory? = [directory] := by
      rw [List.append_cancel_left record]
      simp [Activity.directory?]
    exact .inl ⟨_, shown ran ▸ ran, by rw [met, only met]⟩
  · refine .inr ⟨fault, shown ran ▸ ran, ?_⟩
    rcases unstarted.told with record | ⟨-, command, directory, environment, record⟩
    · rw [← shown ran, told] at record
      exact .inl (by rw [List.append_right_eq_self.mp record]; rfl)
    · rw [← shown ran, told] at record
      have met : activities.filterMap Activity.directory? = [directory] := by
        rw [List.append_cancel_left record]
        rfl
      exact .inr (by rw [met, only met])

end Launches

/-- However often sessions were asked for, and however that came out: the next one leaves the
configuration as it is, and its gdb is started in the directory that is asked for, or else in the
configured one. A configured null is different. The first directory that is asked for takes its place,
and stays there for all later sessions. -/
theorem directory_of_a_launch (text : Option String) (earlier : List Launch) (launch : Launch) :
    let config := Config.ofFile text
    let client := (earlier.foldl Client.launched { config := config }).atLaunch launch
    let later := (Control.perform launch.call).after client
    let standing := Launch.standing config.workingDirectory earlier
    let place := launch.asked?.getD standing
    client.config = config.within standing ∧
    (later.config = client.config ∨
      standing = .null ∧ later.config = client.config.within place) ∧
    ∃ tried, later.journal.filterMap Activity.directory? =
        client.journal.filterMap Activity.directory? ++ tried ∧
      ((∃ id, (Control.perform launch.call).run client = .ok (.started id) later ∧
          tried = [place]) ∨
        ∃ fault, (Control.perform launch.call).run client =
          .ok (.failed (.plain (Fault.message fault))) later ∧
            (tried = [] ∨ tried = [place])) := by
  intro config client later standing place
  have before : client.config = config.within standing :=
    launches_config { config := config } earlier
  have directory : client.config.workingDirectory = standing :=
    congrArg Config.workingDirectory before
  have sound : client.Sound := reached_sound (.tail (launched_reaches _ earlier)
    (.world launch.gdbOnPath launch.environment launch.spawning client.arriving))
  refine ⟨before, ?_, ?_⟩
  · have left := (call_placed client launch).1
    rw [directory] at left
    cases nothing : standing with
    | null =>
      rw [nothing] at left
      exact .inr ⟨rfl, left.trans (by simp [place, nothing, Launch.leaves])⟩
    | _ =>
      rw [nothing] at left
      refine .inl (left.trans ?_)
      rw [before, nothing]
      rfl
  · have spawned := call_spawned (next_name_new sound) launch
    rw [directory] at spawned
    exact spawned

-- The text of an object with one member.
theorem Json.parse_member {text : String} {body after name : List Char} {value : Json}
    (written : text.toList = '\x7b' :: '"' :: body)
    (named : stringBody? (body.length + 1) body = some (name, ':' :: after))
    (held : value? (body.length + 1) 979 (skipSpace after) = some (value, ['\x7d'])) :
    parse? text = some (.object [(String.ofList name, value)]) := by
  have opening : skipSpace ('\x7b' :: '"' :: body) = '\x7b' :: '"' :: body := rfl
  have quote : skipSpace ('"' :: body) = '"' :: body := rfl
  have colon : skipSpace (':' :: after) = ':' :: after := rfl
  have closing : skipSpace ['\x7d'] = ['\x7d'] := rfl
  have member : members? (body.length + 2) 979 [] ('"' :: body) =
      some ([(String.ofList name, value)], []) := by
    simp [members?, named, held, colon, closing, putMember]
  have object : value? (body.length + 3) maxNesting ('\x7b' :: '"' :: body) =
      some (.object [(String.ofList name, value)], []) := by
    rw [maxNesting, value?, quote]
    simp [member]
  have nothing : skipSpace [] = [] := rfl
  rw [parse?, written]
  simp [opening, object, nothing]

/-- With null configured, a session that asks for no directory runs where an earlier one asked to. -/
theorem null_not_put_back :
    let begun : Client := { config := Config.ofFile (some "\x7b\"working_directory\": null\x7d") }
    let first : Launch :=
      { program := some "a.out", rootDirectory := some "/tmp", gdbOnPath := some "/usr/bin/gdb" }
    let second : Launch := { program := some "b.out", gdbOnPath := some "/usr/bin/gdb" }
    let middle := begun.launched first
    let later := middle.launched second
    begun.config.workingDirectory = .null ∧ middle.config.workingDirectory = .string "/tmp" ∧
      later.sessions.keys = ["session_1", "session_2"] ∧
      later.journal.filterMap Activity.directory? = [.string "/tmp", .string "/tmp"] := by
  have read : Config.ofFile (some "\x7b\"working_directory\": null\x7d") =
      { workingDirectory := .null } := by
    have parsed := @Json.parse_member "\x7b\"working_directory\": null\x7d"
      "working_directory\": null\x7d".toList " null\x7d".toList "working_directory".toList .null
      (by decide +kernel) (by decide +kernel) rfl
    simp [Config.ofFile, parsed, Config.ofJson?, Config.set?]
  rw [read]
  exact ⟨rfl, rfl, rfl, rfl⟩

end GdbControl
