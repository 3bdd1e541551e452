import GdbControl.Proofs.Clients

/-!
Nobody waits in vain for the prompt of a session. A waiter is woken when gdb is idle, or gone. As
long as he is not, some command is queued or under way, and with the last of them he is.
-/

namespace GdbControl

/-- The session after somebody has made ready to wait. -/
def Session.unwoken (session : Session) : Session :=
  { session with display := session.display.clearReady }

def Session.opened (session : Session) (view : String) : Session :=
  { session with display := session.display.addBuffer view }

/-- The invariant of the sessions of a client. The record is taken away from them after each
operation, so it is said of it only that there is one that fits. -/
structure Session.Attentive (session : Session) : Prop where
  orderly : ∃ past, (session.prefaced past).Orderly
  accounted : session.Accounted
  inside : session.Within Operation.isReception
  busy : session.isClosed = false → session.display.promptReady = false → session.commands ≠ []

theorem reception_regular (operation : Operation) (own : operation.isReception = true) :
    operation.isRegular = true := by
  cases operation <;> first | rfl | cases own

theorem reception_own (operation : Operation) (own : operation.isReception = true) :
    operation.isOwn = true := by
  cases operation <;> first | rfl | cases own

section Attentive

variable {session later : Session}

-- gdb is idle at its prompt only when nothing is left to do.
theorem attentive_ready (attentive : session.Attentive) (alive : session.isClosed = false)
    (prompting : session.prompting = true) (plain : session.questioned = false) :
    session.display.promptReady = true := by
  obtain ⟨past, orderly⟩ := attentive.orderly
  obtain ⟨idle, flight, -⟩ := orderly.idle prompting plain
  have urgent := orderly.urgent prompting
  have nothing : session.commands = [] := by
    simp only [Session.prefaced_urgent, Session.prefaced_idle, Session.prefaced_in_flight]
      at urgent idle flight
    simp [Session.commands, urgent, idle, flight]
  cases ready : session.display.promptReady with
  | true => rfl
  | false => exact absurd nothing (attentive.busy alive ready)

-- What is around a session has no part in the order of its commands.
theorem orderly_around (orderly : session.Orderly) (display : Display) (process : Subprocess) :
    Session.Orderly { session with display := display, process := process } :=
  ⟨orderly.balance, orderly.sent, orderly.turns, orderly.urgent, orderly.idle⟩

theorem accounted_around (accounted : session.Accounted) (display : Display)
    (process : Subprocess) :
    Session.Accounted { session with display := display, process := process } :=
  accounted_kept accounted rfl rfl rfl rfl rfl id accounted.views

theorem attentive_around (attentive : session.Attentive) {display : Display}
    (ready : session.display.promptReady = true → display.promptReady = true)
    (process : Subprocess) :
    Session.Attentive { session with display := display, process := process } := by
  obtain ⟨past, orderly⟩ := attentive.orderly
  refine ⟨⟨past, orderly_around orderly display process⟩,
    accounted_around attentive.accounted display process,
    within_of_same attentive.inside rfl rfl, ?_⟩
  intro alive unwoken
  refine attentive.busy alive ?_
  cases woken : session.display.promptReady with
  | false => rfl
  | true => exact absurd ((ready woken).symm.trans unwoken) (by decide)

theorem attentive_forgetful (attentive : session.Attentive) : session.forgetful.Attentive := by
  obtain ⟨past, orderly⟩ := attentive.orderly
  refine ⟨⟨past ++ session.journal, ?_⟩, ?_, within_of_same attentive.inside rfl rfl,
    attentive.busy⟩
  · rw [Session.forgetful_prefaced]
    exact orderly
  · exact accounted_kept attentive.accounted rfl rfl rfl rfl rfl id attentive.accounted.views

theorem attentive_lapses (attentive : session.Attentive)
    (own : Lapses Operation.isOwn session later)
    (received : Lapses Operation.isReception session later) : later.Attentive := by
  obtain ⟨past, orderly⟩ := attentive.orderly
  obtain ⟨events, told⟩ := told_lapses received
  refine ⟨⟨past, orderly_lapses reception_regular orderly (lapses_prefaced received past)⟩,
    accounted_lapses attentive.accounted own, lapses_within attentive.inside received, ?_⟩
  intro alive unwoken
  rw [told.ready, Bool.or_eq_false_iff] at unwoken
  exact told.busy alive (attentive.busy (told_alive told alive) unwoken.1) unwoken.2

theorem attentive_start (process : Subprocess) {views : Catalog} (made : views.Buffered) :
    Session.Attentive { Session.start process views with urgent := startup } := by
  let begun : Session := { Session.start process views with
    urgent := startup
    journal := startup.map (.accepted .urgent) }
  have traced : Engine.Traced Operation.isOwn Engine.enqueuePreamble :=
    Engine.traced_forM fun text _ => Engine.traced_map _ (Engine.traced_enqueue rfl)
  have ends := traced (Session.start process views)
    (Session.start_within process (buffered_within made))
  rw [run_preamble] at ends
  have lapses : Lapses Operation.isOwn (Session.start process views) begun :=
    Engine.ends_lapses ends
  have orderly := orderly_lapses own_regular (orderly_start process views) lapses
  have accounted := accounted_lapses (accounted_start process made) lapses
  have own : ∀ command ∈ startup, command.within Operation.isReception = true := by decide
  have commands : begun.commands = startup := by
    simp [begun, Session.commands, Session.start]
  have inside : begun.Within Operation.isReception := ⟨commands ▸ own, buffered_within made⟩
  have attentive : begun.Attentive := by
    refine ⟨⟨[], by simpa [Session.prefaced] using orderly⟩, accounted, inside, fun _ _ => ?_⟩
    rw [commands]
    decide
  exact attentive_forgetful attentive

-- A view that awaits its refresh has a command for it.
theorem awaiting_busy (accounted : session.Accounted) {view : String}
    (awaiting : session.isAwaiting view = true) : session.commands ≠ [] := by
  intro nothing
  simp only [Session.commands, List.append_eq_nil_iff, Option.toList_eq_nil_iff] at nothing
  have same := accounted.same
  have none : session.underway = [] := by simp [Session.underway, nothing.2]
  rw [nothing.1.2, none] at same
  have empty : session.awaiting = [] := same.eq_nil
  simp [Session.isAwaiting, empty] at awaiting

end Attentive

namespace Engine

section Calls

variable {session : Session}

theorem after_submit (alive : session.isClosed = false) (command : String) :
    (submit command).after session =
      session.unwoken.accept .urgent (.typed command) := by
  have still : session.unwoken.isClosed = false := alive
  have asked := after_enqueue .urgent (.typed command) session.unwoken
  rw [still] at asked
  unfold submit
  rw [after_bind]
  exact asked

theorem after_request (alive : session.isClosed = false) {id : String} {view : View}
    (known : session.views.find id = .ok view) :
    (requestRefresh id).after session =
      if session.isAwaiting id || !session.demands view then session
      else (session.await id).accept .idle view.refreshCommand := by
  have still : (session.await id).isClosed = false := alive
  have asked := after_enqueue .idle view.refreshCommand (session.await id)
  rw [still] at asked
  rw [after, run_request_refresh, alive, known]
  simp only [Bool.false_eq_true, if_false] at asked ⊢
  split
  · rfl
  · rw [← asked, after]
    cases (enqueue .idle view.refreshCommand).run (session.await id) <;> rfl

theorem after_open (alive : session.isClosed = false) (id : String) :
    (openView id).after session =
      match session.views.find id with
      | .error _ => session
      | .ok view =>
        let opened := (session.opened id).unwoken
        if opened.isAwaiting id || !opened.demands view then opened
        else (opened.await id).accept .idle view.refreshCommand := by
  unfold openView
  rw [after_bind]
  dsimp only [EStateM.run_get]
  rw [after_bind]
  cases known : session.views.find id with
  | error fault => rfl
  | ok view =>
    dsimp only [lift, EStateM.run_pure]
    rw [after_bind]
    have still : (session.opened id).unwoken.isClosed = false := alive
    exact after_request still known

theorem received_lapses {allowed : Operation → Bool} (inside : session.Within allowed)
    (ingest : allowed (.ingest []) = true) (flush : allowed .flush = true) {delivery : Delivery}
    (stays : delivery ≠ .exit) : Lapses allowed session ((receive delivery).after session) := by
  cases delivery with
  | output bytes =>
    exact ends_lapses (traced_ingest ingest (routines_traced maxNesting) bytes session inside)
  | quiet => exact ends_lapses (traced_map (fun _ => ()) (traced_flush flush) session inside)
  | exit => exact absurd rfl stays

end Calls

end Engine

section Acts

variable {given : String → Prop} {session later : Session}

theorem attentive_submit (attentive : session.Attentive) (alive : session.isClosed = false)
    (command : String) : ((Engine.submit command).after session).Attentive := by
  obtain ⟨past, orderly⟩ := attentive.orderly
  have own : (Command.typed command).within Operation.isReception = true := rfl
  have inside : session.unwoken.Within Operation.isReception :=
    within_of_same attentive.inside rfl rfl
  rw [Engine.after_submit alive]
  refine ⟨⟨past, ?_⟩, ?_, accept_within inside _ own, fun _ _ => accept_busy _ _ _⟩
  · rw [← Session.prefaced_accept]
    exact orderly_accepted (orderly_around orderly _ session.process) alive _ _
  · exact accounted_accepted_own (accounted_around attentive.accounted _ session.process) _ rfl

theorem opened_shown (session : Session) (id : String) :
    (session.opened id).display.isOpen id = true := by
  simp only [Session.opened, Display.isOpen, Display.addBuffer, Table.insertIfNew]
  split
  · next present => exact present
  · simp [Table.contains, Table.get?_insert_self]

-- The view that is opened waits already, or its refresh is asked for.
theorem open_busy (accounted : session.Accounted) (alive : session.isClosed = false) {id : String}
    {view : View} (known : session.views.find id = .ok view) :
    ((Engine.openView id).after session).commands ≠ [] := by
  have named : view = .buffered id view.command := accounted.views _ (find_mem known)
  have shown : (session.opened id).unwoken.demands view = true := by
    rw [named]
    exact opened_shown session id
  rw [Engine.after_open alive, known]
  simp only [shown, Bool.not_true, Bool.or_false]
  split
  · next waits =>
    have kept : (session.opened id).unwoken.Accounted :=
      accounted_around accounted (session.opened id).unwoken.display session.process
    exact awaiting_busy kept waits
  · exact accept_busy _ _ _

theorem attentive_open (attentive : session.Attentive) (alive : session.isClosed = false)
    (id : String) : ((Engine.openView id).after session).Attentive := by
  cases known : session.views.find id with
  | error fault =>
    rw [Engine.after_open alive, known]
    exact attentive
  | ok view =>
    have busy := open_busy attentive.accounted alive known
    obtain ⟨past, orderly⟩ := attentive.orderly
    let opened := (session.opened id).unwoken
    have accounted : opened.Accounted := accounted_around attentive.accounted _ session.process
    have ordered : (opened.prefaced past).Orderly := orderly_around orderly _ session.process
    have inside : opened.Within Operation.isReception := within_of_same attentive.inside rfl rfl
    rw [Engine.after_open alive, known] at busy ⊢
    dsimp only at busy ⊢
    split at busy
    · next declined =>
      rw [if_pos declined]
      exact ⟨⟨past, ordered⟩, accounted, inside, fun _ _ => busy⟩
    · next asked =>
      rw [if_neg asked]
      simp only [Bool.or_eq_true, Bool.not_eq_true', not_or, Bool.not_eq_true,
        Bool.not_eq_false] at asked
      have move {allowed : Operation → Bool} :
          Move allowed opened ((opened.await id).accept .idle view.refreshCommand) :=
        .request alive known asked.1 asked.2
      exact ⟨⟨past, orderly_move reception_regular ordered (move_prefaced move past)⟩,
        accounted_move accounted move, move_within inside move, fun _ _ => busy⟩

theorem attentive_close (attentive : session.Attentive) : session.close.Attentive := by
  have close {allowed : Operation → Bool} (granted : allowed .close = true) :
      Lapses allowed session session.close := .single (.move (.close granted))
  exact attentive_lapses attentive (close rfl) (close rfl)

theorem attentive_receive (attentive : session.Attentive) (delivery : Delivery) :
    ((Engine.receive delivery).after session).Attentive := by
  by_cases exits : delivery = .exit
  · subst exits
    exact attentive_around (attentive_close attentive) (fun _ => rfl) session.close.process
  · have inside := within_mono reception_own attentive.inside
    exact attentive_lapses attentive (Engine.received_lapses inside rfl rfl exits)
      (Engine.received_lapses attentive.inside rfl rfl exits)

theorem act_attentive (attentive : session.Attentive) (act : Act given session later) :
    later.Attentive := by
  cases act with
  | submit _ alive => exact attentive_submit attentive alive _
  | openView view alive => exact attentive_open attentive alive view
  | closeView view =>
    have same : (session.display.removeBuffer view).promptReady = session.display.promptReady := rfl
    exact attentive_around attentive (same ▸ id) session.process
  | receive delivery => exact attentive_receive attentive delivery
  | close => exact attentive_close attentive
  | process process => exact attentive_around attentive id process

/-- Whoever waits for a session that is gone has been woken. -/
structure Session.Gone (session : Session) : Prop where
  closed : session.isClosed = true
  woken : session.display.promptReady = true

theorem gone_exit (session : Session) : ((Engine.receive .exit).after session).Gone :=
  ⟨session.isClosed_close, rfl⟩

theorem act_gone (inside : session.Within Operation.isReception) (gone : session.Gone)
    (act : Act given session later) : later.Gone := by
  have never (alive : session.isClosed = false) : False := by
    cases alive.symm.trans gone.closed
  cases act with
  | submit _ alive | openView _ alive => exact (never alive).elim
  | closeView | process => exact ⟨gone.closed, gone.woken⟩
  | receive delivery =>
    by_cases exits : delivery = .exit
    · subst exits
      exact gone_exit session
    · obtain ⟨events, told⟩ := told_lapses (Engine.received_lapses inside rfl rfl exits)
      refine ⟨told.closed gone.closed, ?_⟩
      rw [told.ready, gone.woken]
      rfl
  | close =>
    rw [Session.close_of_isClosed gone.closed]
    exact gone

end Acts

/-- What may happen to a client without a call. -/
inductive Client.Befalls (client : Client) : Client → Prop where
  | deliver (id : String) (deliveries : List Delivery) :
    Befalls client ((Control.deliver id deliveries).after client)
  | read (id : String) (script : List Reading) :
    Befalls client ((Control.readAll id script).after client)
  | shutdown : Befalls client (Control.stopAll.after client)
  | world (gdbOnPath : Option String) (environment : List (String × Json)) (spawning : Spawning)
    (arriving : List Delivery) : Befalls client { client with
      gdbOnPath := gdbOnPath
      environment := environment
      spawning := spawning
      arriving := arriving }
  | process {id : String} {attachment : Attachment} (process : Subprocess)
    (present : client.sessions.get? id = some attachment) :
    Befalls client (client.keep id attachment { attachment.session with process := process })

/-- What may come next for a client. Each of these may fail. -/
inductive Client.Next (client : Client) : Client → Prop where
  | call (call : ToolCall) : Next client ((Control.perform call).after client)
  | deliver (id : String) (deliveries : List Delivery) :
    Next client ((Control.deliver id deliveries).after client)
  | read (id : String) (script : List Reading) :
    Next client ((Control.readAll id script).after client)
  | shutdown : Next client (Control.stopAll.after client)
  /-- The outside world will do other things from now on. -/
  | world (gdbOnPath : Option String) (environment : List (String × Json)) (spawning : Spawning)
    (arriving : List Delivery) : Next client { client with
      gdbOnPath := gdbOnPath
      environment := environment
      spawning := spawning
      arriving := arriving }
  /-- The process of a session ends, or ceases to read its input. -/
  | process {id : String} {attachment : Attachment} (process : Subprocess)
    (present : client.sessions.get? id = some attachment) :
    Next client (client.keep id attachment { attachment.session with process := process })

abbrev Client.Reaches : Client → Client → Prop := Relation.ReflTransGen Client.Next

/-- The invariant of a client. -/
structure Client.Sound (client : Client) : Prop where
  attentive : ∀ id attachment, client.sessions.get? id = some attachment →
    attachment.session.Attentive
  named : ∀ id attachment, client.sessions.get? id = some attachment →
    ∃ number ≤ client.attempts, id = sessionName number

/-- A name that was given away, whose session is gone if it is still there. -/
structure Client.Ended (id : String) (client : Client) : Prop where
  given : ∃ number ≤ client.attempts, id = sessionName number
  gone : ∀ attachment, client.sessions.get? id = some attachment → attachment.session.Gone

section Clients

variable {given : String → Prop} {client later : Client}

theorem session_name_injective {first second : Nat}
    (same : sessionName first = sessionName second) : first = second := by
  have texts : (sessionName first).toList = (sessionName second).toList :=
    congrArg String.toList same
  have digits : Nat.toDigits 10 first = Nat.toDigits 10 second := by simpa [sessionName] using texts
  have numbers := congrArg (Nat.ofDigitChars 10 · 0) digits
  simpa using numbers

theorem kept_get {id : String} {attachment : Attachment} {session : Session} (other : String) :
    (client.keep id attachment session).sessions.get? other =
      if other = id then some { attachment with session := session.forgetful }
      else client.sessions.get? other := by
  split
  · next same =>
    subst same
    exact Table.get?_insert_self _ _ _
  · next differs => exact Table.get?_insert_of_ne _ _ differs

theorem erased_get {id other : String} {attachment : Attachment}
    (kept : (client.sessions.erase id).get? other = some attachment) :
    client.sessions.get? other = some attachment := by
  by_cases same : other = id
  · subst same
    rw [Table.get?_erase_self] at kept
    cases kept
  · rwa [Table.get?_erase_of_ne _ same] at kept

/-- What holds of a new session, and which no act undoes, holds of all sessions. -/
theorem step_each {holds : Session → Prop}
    (new : ∀ (config : Config) (process : Subprocess) (views : Catalog),
      config.catalog = .ok views → holds { Session.start process views with urgent := startup })
    (acted : ∀ session later, holds session → Act given session later → holds later.forgetful)
    (each : ∀ id attachment, client.sessions.get? id = some attachment → holds attachment.session)
    (step : client.Step given later) :
    ∀ id attachment, later.sessions.get? id = some attachment → holds attachment.session := by
  intro id found present
  cases step with
  | aside same => exact each id found (same ▸ present)
  | @launch _ _ config _ process views known fresh _ entered others =>
    by_cases own : id = sessionName (client.attempts + 1)
    · subst own
      cases entered.symm.trans present
      rw [fresh]
      exact new config process views known
    · exact each id found (others id own ▸ present)
  | @act other attachment session before act =>
    rw [kept_get] at present
    split at present
    · cases present
      exact acted _ _ (each other attachment before) act
    · exact each id found present
  | forget => exact each id found (erased_get present)

theorem step_named (named : ∀ id attachment, client.sessions.get? id = some attachment →
      ∃ number ≤ client.attempts, id = sessionName number)
    (step : client.Step given later) : ∀ id attachment, later.sessions.get? id = some attachment →
      ∃ number ≤ later.attempts, id = sessionName number := by
  intro id found present
  cases step with
  | aside same attempts =>
    obtain ⟨number, bound, given⟩ := named id found (same ▸ present)
    exact ⟨number, Nat.le_trans bound attempts, given⟩
  | launch _ _ attempts _ others =>
    by_cases own : id = sessionName (client.attempts + 1)
    · exact ⟨client.attempts + 1, Nat.le_of_eq attempts.symm, own⟩
    · obtain ⟨number, bound, given⟩ := named id found (others id own ▸ present)
      exact ⟨number, by omega, given⟩
  | @act other attachment _ before =>
    rw [kept_get] at present
    split at present
    · next same => exact same ▸ named other attachment before
    · exact named id found present
  | forget => exact named id found (erased_get present)

theorem step_sound (sound : client.Sound) (step : client.Step given later) : later.Sound :=
  ⟨step_each (fun _ process _ known => attentive_start process (catalog_buffered known))
      (fun _ _ attentive act => attentive_forgetful (act_attentive attentive act))
      sound.attentive step,
    step_named sound.named step⟩

-- No name is given away twice, so no new session takes the place of one that is gone.
theorem step_ended {id : String} (sound : client.Sound) (ended : client.Ended id)
    (step : client.Step given later) : later.Ended id := by
  obtain ⟨number, bound, named⟩ := ended.given
  cases step with
  | aside same attempts =>
    exact ⟨⟨number, Nat.le_trans bound attempts, named⟩, by rw [same]; exact ended.gone⟩
  | launch _ _ attempts _ others =>
    have old : id ≠ sessionName (client.attempts + 1) := by
      intro same
      have := session_name_injective (named.symm.trans same)
      omega
    refine ⟨⟨number, by omega, named⟩, ?_⟩
    rw [others id old]
    exact ended.gone
  | @act other attachment session present act =>
    refine ⟨⟨number, bound, named⟩, fun found kept => ?_⟩
    rw [kept_get] at kept
    split at kept
    · next same =>
      subst same
      cases kept
      have gone := act_gone (sound.attentive _ _ present).inside (ended.gone _ present) act
      exact ⟨gone.closed, gone.woken⟩
    · exact ended.gone found kept
  | forget other =>
    exact ⟨⟨number, bound, named⟩, fun found kept => ended.gone found (erased_get kept)⟩

theorem befalls_next (befalls : client.Befalls later) : client.Next later := by
  cases befalls with
  | deliver id deliveries => exact .deliver id deliveries
  | read id script => exact .read id script
  | shutdown => exact .shutdown
  | world gdbOnPath environment spawning arriving =>
    exact .world gdbOnPath environment spawning arriving
  | process process present => exact .process process present

theorem next_cases (next : client.Next later) :
    client.Befalls later ∨ ∃ call, later = (Control.perform call).after client := by
  cases next with
  | call call => exact .inr ⟨call, rfl⟩
  | deliver id deliveries => exact .inl (.deliver id deliveries)
  | read id script => exact .inl (.read id script)
  | shutdown => exact .inl .shutdown
  | world gdbOnPath environment spawning arriving =>
    exact .inl (.world gdbOnPath environment spawning arriving)
  | process process present => exact .inl (.process process present)

-- Nobody gives a command without a call.
theorem befalls_steps (befalls : client.Befalls later) : client.Steps given later := by
  cases befalls with
  | deliver id deliveries => exact Control.stepwise_deliver id deliveries client
  | read id script => exact Control.stepwise_read_all id script client
  | shutdown => exact Control.stepwise_stop_all client
  | world => exact .single (.aside rfl (Nat.le_refl _) (Control.mutters_refl client))
  | process process present => exact .single (.act present (.process process))

theorem next_steps (next : client.Next later) : client.Steps (fun _ => True) later := by
  rcases next_cases next with befalls | ⟨call, rfl⟩
  · exact befalls_steps befalls
  · exact Control.stepwise_perform call (fun _ _ => trivial) client

theorem steps_sound (sound : client.Sound) (steps : client.Steps given later) : later.Sound := by
  induction steps with
  | refl => exact sound
  | tail _ step ih => exact step_sound ih step

theorem steps_ended {id : String} (sound : client.Sound) (ended : client.Ended id)
    (steps : client.Steps given later) : later.Ended id := by
  induction steps with
  | refl => exact ended
  | tail steps step ih => exact step_ended (steps_sound sound steps) ih step

theorem reaches_steps (run : client.Reaches later) : client.Steps (fun _ => True) later := by
  induction run with
  | refl => exact .refl
  | tail _ next ih => exact ih.trans (next_steps next)

theorem reached_sound {config : Config} (run : Client.Reaches { config := config } client) :
    client.Sound := by
  refine steps_sound ⟨?_, ?_⟩ (reaches_steps run)
  · rintro id attachment ⟨⟩
  · rintro id attachment ⟨⟩

-- The loop of the reader ends in one way only, however it comes to its end.
theorem read_all_gone (client : Client) (id : String) (script : List Reading) {found : Attachment}
    (kept : ((Control.readAll id script).after client).sessions.get? id = some found) :
    found.session.Gone := by
  obtain ⟨middle, last⟩ : ∃ middle, (Control.readAll id script).after client =
      (Control.onSession id (Engine.receive .exit)).after middle := by
    unfold Control.readAll
    rw [Control.after_bind, Engine.run_catch]
    cases (Control.pump id (script.flatMap Reading.divided)).run client <;> exact ⟨_, rfl⟩
  rw [last] at kept
  cases present : middle.sessions.get? id with
  | none =>
    rw [Control.on_session_absent present, present] at kept
    cases kept
  | some attachment =>
    rw [Control.on_session_after present, kept_get, if_pos rfl] at kept
    cases kept
    have gone := gone_exit attachment.session
    exact ⟨gone.closed, gone.woken⟩

end Clients

/-- Nobody waits for the prompt of a session in vain. -/
structure Client.Wakes (client : Client) (id : String) (session : Session) : Prop where
  ready : session.isClosed = false → session.prompting = true → session.questioned = false →
    session.display.promptReady = true
  /-- As long as a waiter has not been woken, some command is queued or under way. -/
  busy : session.isClosed = false → session.display.promptReady = false → session.commands ≠ []
  submitted : session.isClosed = false →
    ∀ command, ((Engine.submit command).after session).commands ≠ []
  opened : session.isClosed = false → ∀ view, session.views.contains view = true →
    ((Engine.openView view).after session).commands ≠ []
  ended : ∀ script found, ((Control.readAll id script).after client).sessions.get? id = some found →
    found.session.Gone
  /-- Once the reader has come to its end, it stays so. -/
  still : session.Gone → ∀ later found, client.Reaches later →
    later.sessions.get? id = some found → found.session.Gone

/-- Whatever a client is asked for and whatever gdb delivers, in every state of an open session: if
gdb is idle at its prompt, whoever waits for that has been woken; and as long as he has not been
woken, some command is queued or under way. So there is one after each call that makes ready to
wait, even if it could not be written. And once the reader has come to its end, all waiters are
awake for ever. -/
theorem waiters_are_woken {config : Config} {client : Client}
    (run : Client.Reaches { config := config } client) {id : String} {attachment : Attachment}
    (present : client.sessions.get? id = some attachment) : client.Wakes id attachment.session := by
  have sound := reached_sound run
  have attentive := sound.attentive id attachment present
  refine ⟨attentive_ready attentive, attentive.busy, ?_, ?_,
    fun script found kept => read_all_gone client id script kept, ?_⟩
  · intro alive command
    rw [Engine.after_submit alive]
    exact accept_busy _ _ _
  · intro alive id listed
    obtain ⟨view, known⟩ := Option.isSome_iff_exists.mp listed
    have found : attachment.session.views.find id = .ok view := by rw [Catalog.find, known]
    exact open_busy attentive.accounted alive found
  · intro gone later found rest kept
    have ended : client.Ended id := by
      refine ⟨sound.named id attachment present, fun other same => ?_⟩
      cases present.symm.trans same
      exact gone
    exact (steps_ended sound ended (reaches_steps rest)).gone found kept

/-- A command of the user waits behind those of the setup, the first of which went out into a broken
pipe. -/
theorem waiting_behind_broken_pipe :
    ∃ (client : Client) (attachment : Attachment),
      Client.Reaches { config := { gdbPath := .string "gdb" } } client ∧
      client.sessions.get? "session_1" = some attachment ∧
      let session := attachment.session
      session.isClosed = false ∧ session.display.promptReady = false ∧
      session.urgent.map Command.text = ["server set width 0", "server set confirm off", "next"] ∧
      client.Wakes "session_1" session := by
  let broken : Client :=
    { config := { gdbPath := .string "gdb" }, spawning := .gives { pid := 1, pipeBroken := true } }
  let started := (Control.perform (.startDebug (some "a.out") none none)).after broken
  let prompted :=
    (Control.deliver "session_1" [.output "\n\x1A\x1Aprompt\n".toUTF8.data.toList]).after started
  let client := (Control.perform (.sendCommand "session_1" "next" none none {})).after prompted
  have run : Client.Reaches { config := { gdbPath := .string "gdb" } } client := by
    refine .tail (.tail (.tail (.single ?_) (.call _)) (.deliver _ _)) (.call _)
    exact .world none [] (.gives { pid := 1, pipeBroken := true }) []
  have shown : (client.sessions.get? "session_1").map (fun attachment =>
      (attachment.session.isClosed, attachment.session.display.promptReady,
        attachment.session.urgent.map Command.text)) =
      some (false, false, ["server set width 0", "server set confirm off", "next"]) := by
    decide +kernel
  obtain ⟨attachment, present, facts⟩ := Option.map_eq_some_iff.mp shown
  obtain ⟨alive, unwoken, queued⟩ := by simpa only [Prod.mk.injEq] using facts
  exact ⟨client, attachment, run, present, alive, unwoken, queued, waiters_are_woken run present⟩

end GdbControl
