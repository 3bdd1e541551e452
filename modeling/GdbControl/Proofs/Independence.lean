import GdbControl.Proofs.Launching
import GdbControl.Proofs.Locality

/-!
The sessions of a client have nothing to do with each other. What becomes of a session, and what is
answered to those who ask for it, does not depend on the work that is done meanwhile on other
sessions. All that sessions share is the count that their names are made of, so the starting of other
sessions is the one thing that cannot be left out.
-/

namespace GdbControl

/-- What the outside world does while a client is at work. -/
structure World where
  gdbOnPath : Option String
  environment : List (String × Json)
  spawning : Spawning
  arriving : List Delivery

/-- Something for a client to do. -/
inductive Work where
  | call (call : ToolCall)
  | deliver (id : String) (deliveries : List Delivery)
  | read (id : String) (script : List Reading)
  /-- The process of a session ends, or ceases to read its input. -/
  | process (id : String) (process : Subprocess)

structure Task where
  world : World
  work : Work

/-- What came of a task: an answer, where one is given, or a fault. -/
abbrev Outcome := Except Fault (Option Reply)

namespace Client

def world (client : Client) : World :=
  ⟨client.gdbOnPath, client.environment, client.spawning, client.arriving⟩

def facing (client : Client) (world : World) : Client :=
  { client with
    gdbOnPath := world.gdbOnPath
    environment := world.environment
    spawning := world.spawning
    arriving := world.arriving }

/-- What has been recorded of one session, its writes to gdb among it. -/
def activitiesOf (client : Client) (id : String) : List Activity :=
  client.journal.filter (·.session? == some id)

end Client

namespace Work

/-- The session that is worked on, if it is one. -/
def session? : Work → Option String
  | .call request => request.session?
  | .deliver id _ | .read id _ | .process id _ => some id

def operation : Work → Control (Option Reply)
  | .call request => some <$> Control.perform request
  | .deliver id deliveries => (fun _ => none) <$> Control.deliver id deliveries
  | .read id script => (fun _ => none) <$> Control.readAll id script
  | .process id next =>
    (fun _ => none) <$> Control.onSession id (Engine.onSubprocess fun _ => next)

end Work

namespace Task

def after (task : Task) (client : Client) : Client :=
  task.work.operation.after (client.facing task.world)

def outcome (task : Task) (client : Client) : Outcome :=
  match task.work.operation.run (client.facing task.world) with
  | .ok reply _ => .ok reply
  | .error fault _ => .error fault

/-- Not a task for another session. -/
def concerns (task : Task) (id : String) : Bool := task.work.session?.all (· == id)

/-- The session that was started by a task, if it was one to start a session. -/
def started? (task : Task) (outcome : Outcome) : Option String :=
  match task.work, outcome with
  | .call (.startDebug _ _ _), .ok (some (.started id)) => some id
  | _, _ => none

end Task

namespace Client

/-- The client after several tasks, one after another. -/
def through (client : Client) (tasks : List Task) : Client :=
  tasks.foldl (fun client task => task.after client) client

/-- What came of each of several tasks. -/
def outcomes (client : Client) : List Task → List (Task × Outcome)
  | [] => []
  | task :: rest => (task, task.outcome client) :: (task.after client).outcomes rest

/-- The sessions that were started by several tasks. -/
def startedBy (client : Client) (tasks : List Task) : List String :=
  (client.outcomes tasks).filterMap fun exchange => exchange.1.started? exchange.2

/-- What came of the tasks for one session. -/
def outcomesOn (client : Client) (id : String) (tasks : List Task) : List (Task × Outcome) :=
  (client.outcomes tasks).filter fun exchange => exchange.1.work.session? == some id

/-- Two clients that differ in nothing that has to do with one session. -/
structure Twin (id : String) (left right : Client) : Prop where
  config : left.config = right.config
  attempts : left.attempts = right.attempts
  found : left.sessions.get? id = right.sessions.get? id
  told : left.activitiesOf id = right.activitiesOf id

end Client

section Twin

variable {id : String} {left middle right client later : Client}

theorem twin_refl (id : String) (client : Client) : client.Twin id client := ⟨rfl, rfl, rfl, rfl⟩

theorem twin_trans (first : left.Twin id middle) (second : middle.Twin id right) :
    left.Twin id right :=
  ⟨first.config.trans second.config, first.attempts.trans second.attempts,
    first.found.trans second.found, first.told.trans second.told⟩

theorem twin_symm (twin : left.Twin id right) : right.Twin id left :=
  ⟨twin.config.symm, twin.attempts.symm, twin.found.symm, twin.told.symm⟩

theorem twin_facing (twin : left.Twin id right) (world : World) :
    (left.facing world).Twin id (right.facing world) :=
  ⟨twin.config, twin.attempts, twin.found, twin.told⟩

theorem activities_append {more : List Activity} (told : later.journal = client.journal ++ more) :
    later.activitiesOf id = client.activitiesOf id ++ more.filter (·.session? == some id) := by
  rw [Client.activitiesOf, told, List.filter_append]
  rfl

theorem twin_told (twin : left.Twin id right) (more : List Activity) :
    Client.activitiesOf { left with journal := left.journal ++ more } id =
      Client.activitiesOf { right with journal := right.journal ++ more } id := by
  simp only [Client.activitiesOf, List.filter_append]
  exact congrArg (· ++ _) twin.told

theorem twin_log (twin : left.Twin id right) (activity : Activity) :
    (left.log activity).Twin id (right.log activity) :=
  ⟨twin.config, twin.attempts, twin.found, twin_told twin [activity]⟩

theorem twin_insert (twin : left.Twin id right) (name : String) (attachment : Attachment) :
    Client.Twin id { left with sessions := left.sessions.insert name attachment }
      { right with sessions := right.sessions.insert name attachment } := by
  refine ⟨twin.config, twin.attempts, ?_, twin.told⟩
  by_cases same : id = name
  · subst same
    exact (Table.get?_insert_self _ _ _).trans (Table.get?_insert_self _ _ _).symm
  · exact (Table.get?_insert_of_ne _ _ same).trans
      (twin.found.trans (Table.get?_insert_of_ne _ _ same).symm)

theorem twin_keep (twin : left.Twin id right) (name : String) (attachment : Attachment)
    (session : Session) :
    (left.keep name attachment session).Twin id (right.keep name attachment session) :=
  let inserted := twin_insert twin name { attachment with session := session.forgetful }
  ⟨inserted.config, inserted.attempts, inserted.found, twin_told twin _⟩

/-- Work on a session goes on in the same way in clients that differ in nothing that has to do with
it. -/
theorem twin_bond (id : String) :
    Client.Bond id (fun _ => True) fun left right => left.Twin id right ∧ left.world = right.world where
  found relation := relation.1.found
  arriving relation := congrArg World.arriving relation.2
  logged _ _ relation := ⟨twin_log relation.1 _, relation.2⟩
  kept relation := ⟨twin_keep relation.1 id _ _, relation.2⟩
  heard relation := ⟨⟨relation.1.config, relation.1.attempts, relation.1.found, relation.1.told⟩,
    congrArg (fun world => { world with arriving := [] }) relation.2⟩
  forgotten relation := ⟨⟨relation.1.config, relation.1.attempts,
    (Table.get?_erase_self _ _).trans (Table.get?_erase_self _ _).symm, relation.1.told⟩, relation.2⟩

-- Work on another session is not seen.
theorem minds_twin {other : String} {fit : Option Int → Prop} (minds : client.Minds other fit later)
    (differs : id ≠ other) : client.Twin id later := by
  obtain ⟨activities, told, own⟩ := minds.told
  refine ⟨minds.config.symm, minds.attempts.symm, (minds.others id differs).symm, ?_⟩
  have unseen : activities.filter (·.session? == some id) = [] := by
    refine List.filter_eq_nil_iff.mpr fun activity member seen => differs ?_
    exact (Option.some.inj ((own activity member).1.symm.trans (beq_iff_eq.mp seen))).symm
  rw [activities_append told, unseen, List.append_nil]

end Twin

namespace Control

section Start

variable {id : String} {related : Client → Client → Prop}

theorem keeps_finally {operation : Control α} {last : Control Unit} (first : Keeps related operation)
    (rest : Keeps related last) :
    Keeps related (do
      try operation
      finally last) := by
  intro left right relation
  have came := first relation
  rw [run_finally, run_finally]
  generalize operation.run left = whole at came ⊢
  generalize operation.run right = other at came ⊢
  cases came with
  | @ok value left right relation =>
    have ended := rest relation
    dsimp only
    generalize last.run left = whole at ended ⊢
    generalize last.run right = other at ended ⊢
    cases ended with
    | ok _ relation => exact .ok value relation
    | error fault relation => exact .error fault relation
  | @error fault left right relation =>
    have ended := rest relation
    dsimp only
    generalize last.run left = whole at ended ⊢
    generalize last.run right = other at ended ⊢
    cases ended with
    | ok _ relation => exact .error fault relation
    | error other relation => exact .error other relation

/-- Nothing that has to do with one session differs, nor does the world. -/
abbrev Abreast (id : String) (left right : Client) : Prop :=
  left.Twin id right ∧ left.world = right.world

theorem keeps_locate (id : String) : Keeps (Abreast id) locateGdb := by
  refine keeps_get (fun relation => ?_) fun client => ?_
  · have path := congrArg World.gdbOnPath relation.2
    simp only [Client.world] at path
    rw [relation.1.config, path]
  · split
    · exact keeps_pure _
    · split
      · split
        · exact keeps_throw _
        · exact keeps_pure _
      · exact keeps_throw _

theorem keeps_start_gdb (id program : String) (args : List String) :
    Keeps (Abreast id) (startGdb program args) := by
  refine keeps_bind (keeps_locate id) fun gdb => keeps_get (fun relation => ?_) fun client => ?_
  · have world := relation.2
    simp only [Client.world, World.mk.injEq] at world
    rw [relation.1.config, world.2.1, world.2.2.1]
  · refine keeps_bind (keeps_lift _) fun command => keeps_bind (keeps_lift _) fun environment =>
      keeps_bind (keeps_modify fun relation => ⟨twin_log relation.1 _, relation.2⟩) fun _ => ?_
    split
    · exact keeps_throw _
    · exact keeps_pure _

theorem keeps_next_id (id : String) : Keeps (Abreast id) nextId := by
  refine keeps_bind (keeps_modify fun relation => ?_) fun _ =>
    keeps_get (fun relation => by rw [relation.1.attempts]) fun client => keeps_pure _
  exact ⟨⟨relation.1.config, congrArg (· + 1) relation.1.attempts, relation.1.found,
    relation.1.told⟩, relation.2⟩

-- A new session is entered under its name in place of any other, so it comes out alike.
theorem keeps_entered (id name : String) (attachment : Attachment) :
    Keeps (Abreast id) (do
      modify fun client : Client => { client with
        sessions := client.sessions.insert name attachment }
      onSession name Engine.enqueuePreamble
      pure name) := by
  intro left right relation
  let entered (client : Client) : Client :=
    { client with sessions := client.sessions.insert name attachment }
  have present (client : Client) : (entered client).sessions.get? name = some attachment :=
    Table.get?_insert_self _ _ _
  have inserted : (entered left).Twin id (entered right) := twin_insert relation.1 name attachment
  change Parallel _ ((onSession name Engine.enqueuePreamble >>= fun _ => pure name).run (entered left))
    ((onSession name Engine.enqueuePreamble >>= fun _ => pure name).run (entered right))
  rw [EStateM.run_bind, EStateM.run_bind, run_on_session (present left),
    run_on_session (present right)]
  cases Engine.enqueuePreamble.run attachment.session with
  | ok _ session => exact .ok name ⟨twin_keep inserted name attachment session, relation.2⟩
  | error fault session =>
    exact .error fault ⟨twin_keep inserted name attachment session, relation.2⟩

theorem keeps_attach (id program : String) (args : List String) :
    Keeps (Abreast id) (attach program args) := by
  refine keeps_bind (keeps_next_id id) fun name =>
    keeps_bind (keeps_start_gdb id program args) fun process => ?_
  refine keeps_get (fun relation => by rw [relation.1.config]) fun client => ?_
  exact keeps_bind (keeps_lift _) fun views => keeps_entered id name _

theorem keeps_start_debug (id : String) (program : Option String) (args : Option (List String))
    (rootDirectory : Option String) :
    Keeps (Abreast id) (startDebug program args rootDirectory) := by
  have placed (path : Json) : Keeps (Abreast id) (modify fun client : Client =>
      { client with config := { client.config with workingDirectory := path } } : Control Unit) :=
    keeps_modify fun relation => by
      obtain ⟨⟨config, attempts, found, told⟩, world⟩ := relation
      exact ⟨⟨by rw [config], attempts, found, told⟩, world⟩
  refine keeps_catch (keeps_map _ ?_) fun _ => keeps_pure _
  split
  · exact keeps_attach id _ _
  · refine keeps_get (fun relation => by rw [relation.1.config]) fun client => ?_
    refine keeps_bind (placed _) fun _ => keeps_finally (keeps_attach id _ _) ?_
    split
    · exact keeps_pure ()
    · exact placed _

theorem keeps_work (bond : Client.Bond id (fun _ => True) related) {work : Work}
    (about : work.session? = some id) : Keeps related work.operation := by
  cases work with
  | call call => exact keeps_map _ (keeps_perform bond about fun _ _ => trivial)
  | deliver other deliveries =>
    cases about
    exact keeps_map _ (keeps_deliver bond deliveries)
  | read other script =>
    cases about
    exact keeps_map _ (keeps_read_all bond script)
  | process other next =>
    cases about
    exact keeps_map _ (keeps_on_session bond _)

end Start

end Control

section Tasks

variable {id : String} {client left right : Client}

-- A list of all sessions changes nothing.
theorem list_after (client : Client) (world : World) :
    Task.after ⟨world, .call .listSessions⟩ client = client.facing world := rfl

theorem concerns_cases {task : Task} (concerns : task.concerns id = true) :
    task.work.session? = some id ∨ (∃ program args rootDirectory,
      task.work = .call (.startDebug program args rootDirectory)) ∨ task.work = .call .listSessions := by
  cases about : task.work.session? with
  | some other =>
    rw [Task.concerns, about] at concerns
    exact .inl (congrArg some (beq_iff_eq.mp concerns))
  | none =>
    obtain ⟨world, work⟩ := task
    cases work with
    | call call =>
      cases call with
      | startDebug program args rootDirectory => exact .inr (.inl ⟨program, args, rootDirectory, rfl⟩)
      | listSessions => exact .inr (.inr rfl)
      | _ => cases about
    | _ => cases about

theorem task_alike {task : Task} (twin : left.Twin id right)
    (keeps : Control.Keeps (Control.Abreast id) task.work.operation) :
    (task.after left).Twin id (task.after right) ∧ task.outcome left = task.outcome right := by
  have came := keeps ⟨twin_facing twin task.world, rfl⟩
  unfold Task.after Task.outcome Control.after
  generalize task.work.operation.run (left.facing task.world) = whole at came ⊢
  generalize task.work.operation.run (right.facing task.world) = other at came ⊢
  cases came with
  | ok reply relation => exact ⟨relation.1, rfl⟩
  | error fault relation => exact ⟨relation.1, rfl⟩

theorem twin_concerned (twin : left.Twin id right) {task : Task} (concerns : task.concerns id = true) :
    (task.after left).Twin id (task.after right) := by
  rcases concerns_cases concerns with about | ⟨program, args, rootDirectory, starts⟩ | lists
  · exact (task_alike twin (Control.keeps_work (twin_bond id) about)).1
  · refine (task_alike twin ?_).1
    rw [starts]
    exact Control.keeps_map _ (Control.keeps_start_debug id program args rootDirectory)
  · obtain ⟨world, work⟩ := task
    cases lists
    rw [list_after, list_after]
    exact twin_facing twin world

-- A task for another session makes no difference.
theorem twin_aside {task : Task} (concerns : task.concerns id = false) :
    client.Twin id (task.after client) := by
  cases about : task.work.session? with
  | none => simp [Task.concerns, about] at concerns
  | some other =>
    have differs : id ≠ other := by
      rintro rfl
      simp [Task.concerns, about] at concerns
    have minds : (client.facing task.world).Minds other (fun _ => True) (task.after client) :=
      minds_after (Control.keeps_work (minds_bond other _ _) about)
    exact minds_twin ⟨minds.config, minds.attempts, minds.others, minds.told⟩ differs

theorem twin_through (twin : left.Twin id right) (tasks : List Task) :
    (left.through tasks).Twin id (right.through (tasks.filter (·.concerns id))) := by
  induction tasks generalizing left right with
  | nil => exact twin
  | cons task rest ih =>
    cases concerns : task.concerns id with
    | true =>
      rw [List.filter_cons, if_pos concerns]
      exact ih (twin_concerned twin concerns)
    | false =>
      rw [List.filter_cons, if_neg (by simp [concerns])]
      exact ih (twin_trans (twin_symm (twin_aside concerns)) twin)

theorem outcomes_cons (id : String) (client : Client) (task : Task) (rest : List Task) :
    client.outcomesOn id (task :: rest) =
      (if task.work.session? = some id then [(task, task.outcome client)] else []) ++
        (task.after client).outcomesOn id rest := by
  rw [Client.outcomesOn, Client.outcomes, List.filter_cons]
  by_cases about : task.work.session? = some id
  · simp [about, Client.outcomesOn]
  · simp [about, Client.outcomesOn]

theorem outcomes_alike (twin : left.Twin id right) (tasks : List Task) :
    left.outcomesOn id tasks = right.outcomesOn id (tasks.filter (·.concerns id)) := by
  induction tasks generalizing left right with
  | nil => rfl
  | cons task rest ih =>
    rw [outcomes_cons]
    cases concerns : task.concerns id with
    | true =>
      rw [List.filter_cons, if_pos concerns, outcomes_cons, ih (twin_concerned twin concerns)]
      congr 1
      split
      · next about =>
        rw [(task_alike twin (Control.keeps_work (twin_bond id) about)).2]
      · rfl
    | false =>
      have other : task.work.session? ≠ some id := by
        intro about
        simp [Task.concerns, about] at concerns
      rw [if_neg other, List.filter_cons, if_neg (by simp [concerns])]
      exact ih (twin_trans (twin_symm (twin_aside concerns)) twin)

end Tasks

section Names

variable {client later : Client}

theorem step_attempts {given : String → Prop} (step : client.Step given later) :
    client.attempts ≤ later.attempts := by
  cases step with
  | aside _ attempts => exact attempts
  | launch _ _ attempts => exact Nat.le_of_lt (attempts ▸ Nat.lt_succ_self _)
  | act | forget => exact Nat.le_refl _

theorem steps_attempts {given : String → Prop} (steps : client.Steps given later) :
    client.attempts ≤ later.attempts := by
  induction steps with
  | refl => exact Nat.le_refl _
  | tail _ step ih => exact Nat.le_trans ih (step_attempts step)

theorem after_map (f : α → β) (operation : Control α) (client : Client) :
    (f <$> operation).after client = operation.after client := by
  rw [← bind_pure_comp, Control.after_bind]
  unfold Control.after
  cases operation.run client <;> rfl

theorem task_reaches (task : Task) (client : Client) : client.Reaches (task.after client) := by
  obtain ⟨world, work⟩ := task
  have faced : client.Reaches (client.facing world) := .single (.world _ _ _ _)
  refine faced.trans ?_
  unfold Task.after
  cases work with
  | call call =>
    dsimp only [Work.operation]
    rw [after_map]
    exact .single (.call call)
  | deliver id deliveries =>
    dsimp only [Work.operation]
    rw [after_map]
    exact .single (.deliver id deliveries)
  | read id script =>
    dsimp only [Work.operation]
    rw [after_map]
    exact .single (.read id script)
  | process id next =>
    dsimp only [Work.operation]
    rw [after_map]
    cases present : (client.facing world).sessions.get? id with
    | none => rw [Control.on_session_absent present]
    | some attachment =>
      rw [Control.on_session_after present]
      exact .single (.process next present)

theorem through_reaches (client : Client) (tasks : List Task) : client.Reaches (client.through tasks) := by
  induction tasks generalizing client with
  | nil => exact .refl
  | cons task rest ih => exact (task_reaches task client).trans (ih _)

theorem task_sound (sound : client.Sound) (task : Task) : (task.after client).Sound :=
  steps_sound sound (reaches_steps (task_reaches task client))

-- A start gives the next name to a new session, or leaves the sessions as they are.
theorem start_task (sound : client.Sound) (world : World) (program : Option String)
    (args : Option (List String)) (rootDirectory : Option String) :
    let task : Task := ⟨world, .call (.startDebug program args rootDirectory)⟩
    let id := sessionName (client.attempts + 1)
    (task.outcome client = .ok (some (.started id)) ∧
      (client.facing world).Started id (program.getD "") (args.getD []) (task.after client)) ∨
    ∃ failure, task.outcome client = .ok (some (.failed failure)) ∧
      (task.after client).sessions = client.sessions := by
  intro task id
  have faced : (client.facing world).Sound := ⟨sound.attentive, sound.named⟩
  have answered : task.outcome client =
      match (Control.perform (.startDebug program args rootDirectory)).run (client.facing world) with
      | .ok reply _ => .ok (some reply)
      | .error fault _ => .error fault := by
    unfold Task.outcome
    dsimp only [task, Work.operation]
    rw [← bind_pure_comp, EStateM.run_bind]
    cases (Control.perform (.startDebug program args rootDirectory)).run (client.facing world) <;> rfl
  have after : task.after client =
      (Control.perform (.startDebug program args rootDirectory)).after (client.facing world) :=
    after_map _ _ _
  rw [answered, after]
  unfold Control.after
  rcases Control.run_start_debug program args rootDirectory (next_name_new faced) with
    ⟨later, ran, started⟩ | ⟨fault, later, ran, unstarted⟩
  · rw [ran]
    exact .inl ⟨rfl, started⟩
  · rw [ran]
    exact .inr ⟨_, rfl, unstarted.sessions⟩

theorem started_name (sound : client.Sound) {task : Task} {id : String}
    (started : task.started? (task.outcome client) = some id) :
    id = sessionName (client.attempts + 1) ∧
      client.attempts + 1 ≤ (task.after client).attempts := by
  have later := task_sound sound task
  unfold Task.started? at started
  split at started
  · next program args rootDirectory given starts came =>
    cases started
    obtain ⟨world, work⟩ := task
    cases starts
    rcases start_task sound world program args rootDirectory with ⟨named, entered⟩ | ⟨failure, failed, -⟩
    · cases came.symm.trans named
      obtain ⟨process, views, -, -, present⟩ := entered.entered
      obtain ⟨number, bound, same⟩ := later.named _ _ present
      exact ⟨rfl, session_name_injective same ▸ bound⟩
    · cases came.symm.trans failed
  · cases started

theorem started_cons (client : Client) (task : Task) (rest : List Task) :
    client.startedBy (task :: rest) =
      (task.started? (task.outcome client)).toList ++ (task.after client).startedBy rest := by
  rw [Client.startedBy, Client.outcomes, List.filterMap_cons]
  dsimp only
  cases task.started? (task.outcome client) <;> rfl

-- The names that are given are beyond the count, and the count goes on with each.
theorem started_later (sound : client.Sound) (tasks : List Task) :
    (∀ id ∈ client.startedBy tasks, ∃ number, client.attempts < number ∧ id = sessionName number) ∧
      (client.startedBy tasks).Nodup := by
  induction tasks generalizing client with
  | nil => exact ⟨by rintro _ ⟨⟩, List.nodup_nil⟩
  | cons task rest ih =>
    obtain ⟨beyond, distinct⟩ := ih (task_sound sound task)
    have grown := steps_attempts (reaches_steps (task_reaches task client))
    rw [started_cons]
    cases started : task.started? (task.outcome client) with
    | none =>
      refine ⟨fun id member => ?_, distinct⟩
      obtain ⟨number, bound, named⟩ := beyond id member
      exact ⟨number, Nat.lt_of_le_of_lt grown bound, named⟩
    | some name =>
      obtain ⟨rfl, counted⟩ := started_name sound started
      refine ⟨fun id member => ?_, List.nodup_cons.mpr ⟨fun member => ?_, distinct⟩⟩
      · rcases List.mem_cons.mp member with rfl | member
        · exact ⟨client.attempts + 1, Nat.lt_succ_self _, rfl⟩
        · obtain ⟨number, bound, named⟩ := beyond id member
          exact ⟨number, Nat.lt_of_le_of_lt grown bound, named⟩
      · obtain ⟨number, bound, named⟩ := beyond _ member
        have same := session_name_injective named
        omega

end Names

/-- What can be told of a session from outside: its state, what it has done, and what came of the
work on it. -/
structure Client.Looks (begun : Client) (id : String) (tasks others : List Task) : Prop where
  session : (begun.through tasks).sessions.get? id = (begun.through others).sessions.get? id
  activities : (begun.through tasks).activitiesOf id = (begun.through others).activitiesOf id
  outcomes : begun.outcomesOn id tasks = begun.outcomesOn id others

section Runs

variable {begun : Client} {id : String} {tasks : List Task}

theorem looks_purged (begun : Client) (id : String) (tasks : List Task) :
    begun.Looks id tasks (tasks.filter (·.concerns id)) := by
  have twin := twin_through (twin_refl id begun) tasks
  exact ⟨twin.found, twin.told, outcomes_alike (twin_refl id begun) tasks⟩

theorem looks_same {others : List Task}
    (same : tasks.filter (·.concerns id) = others.filter (·.concerns id)) :
    begun.Looks id tasks others := by
  have whole := looks_purged begun id tasks
  have other := looks_purged begun id others
  rw [same] at whole
  exact ⟨whole.session.trans other.session.symm, whole.activities.trans other.activities.symm,
    whole.outcomes.trans other.outcomes.symm⟩

-- Of two tasks for different sessions no session is concerned with both.
theorem swap_unseen {first second : Task} {one other : String}
    (about : first.work.session? = some one) (aside : second.work.session? = some other)
    (apart : one ≠ other) (id : String) (before rest : List Task) :
    (before ++ first :: second :: rest).filter (·.concerns id) =
      (before ++ second :: first :: rest).filter (·.concerns id) := by
  have never : first.concerns id = false ∨ second.concerns id = false := by
    by_cases same : one = id
    · have differs : other ≠ id := fun there => apart (same.trans there.symm)
      exact .inr (by simp [Task.concerns, aside, differs])
    · exact .inl (by simp [Task.concerns, about, same])
  simp only [List.filter_append, List.filter_cons]
  rcases never with unseen | unseen <;> simp [unseen]

end Runs

/-- The sessions of a client have nothing to do with each other while it does its tasks. -/
structure Client.KeepsApart (begun : Client) (tasks : List Task) : Prop where
  distinct : (begun.startedBy tasks).Nodup
  kept : ∀ world program args rootDirectory id attachment,
    (begun.through tasks).sessions.get? id = some attachment →
      (Task.after ⟨world, .call (.startDebug program args rootDirectory)⟩
        (begun.through tasks)).sessions.get? id = some attachment
  own : ∀ id, begun.Looks id tasks (tasks.filter (·.concerns id))
  swapped : ∀ before first second rest one other, tasks = before ++ first :: second :: rest →
    first.work.session? = some one → second.work.session? = some other → one ≠ other →
      ∀ id, begun.Looks id tasks (before ++ second :: first :: rest)

/-- Whatever a client does one after another, over any number of sessions: no name is given to two
sessions; a start leaves all other sessions where and as they are; each session looks as if only the
work on it and the starts had been done; and work on different sessions can change places. -/
theorem sessions_independent (config : Config) (tasks : List Task) :
    Client.KeepsApart { config := config } tasks := by
  let begun : Client := { config := config }
  have sound (tasks : List Task) : (begun.through tasks).Sound :=
    reached_sound (through_reaches begun tasks)
  refine ⟨(started_later (sound []) tasks).2, ?_, fun id => looks_purged begun id tasks, ?_⟩
  · intro world program args rootDirectory id attachment present
    rcases start_task (sound tasks) world program args rootDirectory with
      ⟨-, started⟩ | ⟨failure, -, same⟩
    · have old : id ≠ sessionName ((begun.through tasks).attempts + 1) := by
        intro same
        obtain ⟨number, bound, named⟩ := (sound tasks).named id attachment present
        have := session_name_injective (named.symm.trans same)
        omega
      exact (started.others id old).trans present
    · rw [same]
      exact present
  · rintro before first second rest one other rfl about aside apart id
    exact looks_same (swap_unseen about aside apart id before rest)

/-- Two sessions by turns, a start that fails, a stop, and a start after it. -/
theorem three_sessions_by_turns :
    let begun : Client := { config := { gdbPath := .string "gdb" } }
    let world : World := ⟨none, [], .gives { pid := 7 }, []⟩
    let broken : World := ⟨none, [], .fails "no such file", []⟩
    let prompt : Bytes := "\n\x1A\x1Aprompt\n".toUTF8.data.toList
    let first : Task := ⟨world, .deliver "session_1" [.output prompt]⟩
    let second : Task := ⟨world, .call (.sendCommand "session_2" "next" (some false) none {})⟩
    let tasks : List Task :=
      [⟨world, .call (.startDebug (some "a.out") none none)⟩,
        ⟨world, .call (.startDebug (some "b.out") none (some "/tmp"))⟩, first, second,
        ⟨world, .call (.stopDebug "session_1")⟩,
        ⟨broken, .call (.startDebug (some "c.out") none none)⟩,
        ⟨world, .call (.startDebug (some "c.out") none none)⟩]
    begun.startedBy tasks = ["session_1", "session_2", "session_4"] ∧
    (begun.through tasks).sessions.keys = ["session_2", "session_4"] ∧
    begun.KeepsApart tasks := by
  intro begun world broken prompt first second tasks
  exact ⟨by decide +kernel, by decide +kernel, sessions_independent _ tasks⟩

end GdbControl
