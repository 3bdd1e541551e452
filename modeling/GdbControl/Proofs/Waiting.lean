import GdbControl.Proofs.Waking

/-!
A command of the user that is waited for is complete only when it is done. Nothing tells the waiter
which command the prompt belongs to; but gdb is idle only when no command is left in any queue, and
after the user's own command none was left only once it had been written.
-/

namespace GdbControl

/-- An event by which gdb neither says anything nor is found idle. -/
def Event.isCalm : Event → Bool
  | .annotated _ | .idled => false
  | _ => true

/-- Each queue has given out what was in it and what came into it since. -/
def Session.Spent (session : Session) (events : List Event) : Prop :=
  ∀ tier, sentBy tier events = session.queue tier ++ acceptedBy tier events

/-- gdb has just come to its prompt, and no command was left for it. -/
def Session.Posed (session : Session) (events : List Event) : Prop :=
  ∃ earlier marker, events = earlier ++ [.annotated marker] ∧ marker.kind = .prompt ∧
    session.Spent earlier

/-- gdb is found idle whenever it comes to its prompt and no command is left, and never else. -/
structure Session.Timely (session : Session) (events : List Event) : Prop where
  idled : Lawful (fun before event => event = .idled ↔ session.Posed before) events
  settled : ¬ session.Posed events

section Timely

variable {session : Session} {events more : List Event}

theorem posed_snoc {event : Event} (posed : session.Posed (events ++ [event])) :
    ∃ marker, event = .annotated marker ∧ marker.kind = .prompt ∧ session.Spent events := by
  obtain ⟨earlier, marker, shape, kind, spent⟩ := posed
  obtain ⟨rfl, same⟩ := List.append_inj' shape rfl
  exact ⟨marker, List.singleton_inj.mp same, kind, spent⟩

theorem timely_nil (session : Session) : session.Timely [] := by
  refine ⟨lawful_nil, ?_⟩
  rintro ⟨earlier, marker, shape, -⟩
  simp at shape

theorem timely_snoc (timely : session.Timely events) {event : Event} (busy : event ≠ .idled)
    (unposed : ¬ session.Posed (events ++ [event])) : session.Timely (events ++ [event]) :=
  ⟨lawful_snoc timely.idled (iff_of_false busy timely.settled), unposed⟩

theorem timely_calm (timely : session.Timely events) (calm : ∀ event ∈ more, event.isCalm = true) :
    session.Timely (events ++ more) := by
  induction more generalizing events with
  | nil => simpa using timely
  | cons event rest ih =>
    have own := calm event List.mem_cons_self
    have first : session.Timely (events ++ [event]) := by
      refine timely_snoc timely ?_ fun posed => ?_
      · rintro rfl
        cases own
      · obtain ⟨marker, rfl, -⟩ := posed_snoc posed
        cases own
    have whole := ih first fun other member => calm other (List.mem_cons_of_mem event member)
    simpa using whole

-- gdb says something, and if it came to its prompt then some command is left.
theorem timely_annotated (timely : session.Timely events) {marker : Marker}
    (busy : marker.kind = .prompt → ¬ session.Spent events) :
    session.Timely (events ++ [.annotated marker]) := by
  refine timely_snoc timely (by rintro ⟨⟩) fun posed => ?_
  obtain ⟨other, same, kind, spent⟩ := posed_snoc posed
  cases same
  exact busy kind spent

theorem timely_idled (timely : session.Timely events) {marker : Marker}
    (kind : marker.kind = .prompt) (spent : session.Spent events) :
    session.Timely (events ++ [.annotated marker, .idled]) := by
  have posed : session.Posed (events ++ [.annotated marker]) := ⟨events, marker, rfl, kind, spent⟩
  have unposed : ¬ session.Posed (events ++ [.annotated marker, .idled]) := by
    rw [List.append_cons]
    intro again
    obtain ⟨_, ⟨⟩, -⟩ := posed_snoc again
  have annotated : Lawful _ (events ++ [.annotated marker]) :=
    lawful_snoc timely.idled (iff_of_false (by rintro ⟨⟩) timely.settled)
  refine ⟨?_, unposed⟩
  rw [List.append_cons]
  exact lawful_snoc annotated (iff_of_true rfl posed)

end Timely

/-- A session some time after another one from which it comes; `past` is what was recorded until
then. -/
structure Session.Follows (session : Session) (past : List Event) (later : Session) : Prop where
  orderly : later.Orderly
  timely : ∃ events, later.journal = past ++ events ∧ session.Timely events

section Follows

variable {session now next : Session} {past events more : List Event}

theorem orderly_shift (orderly : now.Orderly) (shift : Shift now next) : next.Orderly := by
  cases shift with
  | @aside _ events same told asides =>
    have queues (tier : Tier) : next.queue tier = now.queue tier := by
      cases tier with
      | urgent => exact same.urgent
      | idle => exact same.idle
    have closed : next.isClosed = false → now.isClosed = false := by
      rw [Session.isClosed, Session.isClosed, same.sink]
      exact id
    refine orderly_kept orderly events told ?_ queues closed ⟨same.prompting, same.questioned⟩
      same.inFlight
    intro event member
    have aside := asides event member
    cases event <;> first | exact ⟨fun _ => rfl, fun _ => rfl, rfl⟩ | cases aside
  | hear => exact (orderly_heard orderly _).1
  | queue alive busy => exact orderly_queued orderly alive _ busy
  | overtake alive ready => exact orderly_past_queue orderly alive _ ready
  | react alive reaction => exact orderly_reaction orderly alive reaction
  | close => exact orderly_closed orderly

theorem balance_origin (fresh : session.journal = []) (orderly : (session.prefaced past).Orderly)
    (alive : session.isClosed = false) (tier : Tier) :
    sentBy tier past ++ session.queue tier = acceptedBy tier past := by
  have balance := orderly.balance alive tier
  have same : (session.prefaced past).queue tier = session.queue tier := by cases tier <;> rfl
  rwa [same, Session.prefaced_journal, fresh, List.append_nil] at balance

-- What went out since and what is left is what was there and what came in.
theorem balance_since
    (origin : ∀ tier, sentBy tier past ++ session.queue tier = acceptedBy tier past)
    (orderly : now.Orderly) (alive : now.isClosed = false) (told : now.journal = past ++ events)
    (tier : Tier) :
    sentBy tier events ++ now.queue tier = session.queue tier ++ acceptedBy tier events := by
  have whole := orderly.balance alive tier
  rw [told, sent_append, accepted_append, ← origin tier, List.append_assoc,
    List.append_assoc] at whole
  exact List.append_cancel_left whole

theorem spent_iff
    (origin : ∀ tier, sentBy tier past ++ session.queue tier = acceptedBy tier past)
    (orderly : now.Orderly) (alive : now.isClosed = false) (told : now.journal = past ++ events) :
    session.Spent events ↔ ∀ tier, now.queue tier = [] := by
  refine forall_congr' fun tier => ?_
  rw [← balance_since origin orderly alive told tier]
  exact List.self_eq_append_right

theorem sending_calm (session : Session) (tier : Option Tier) (command : Command) :
    ∀ event ∈ session.sending tier command, event.isCalm = true := by
  unfold Session.sending
  cases session.process.pipeBroken <;> simp [Event.isCalm]

theorem fulfil_calm (session : Session) :
    ∃ events, session.fulfil.journal = session.journal ++ events ∧
      ∀ event ∈ events, event.isCalm = true := by
  rcases session.fulfil_cases with
    ⟨-, events, told, same⟩ | ⟨command, view, -, -, same⟩ <;> rw [same]
  · refine ⟨events, rfl, ?_⟩
    rcases told with rfl | ⟨command, rfl⟩ <;> simp [Event.isCalm]
  · exact ⟨_, rfl, by simp [Event.isCalm]⟩

theorem ask_calm (session : Session) :
    ∃ events, session.ask.journal = session.journal ++ events ∧
      ∀ event ∈ events, event.isCalm = true := by
  unfold Session.ask
  split
  · exact ⟨_, Session.send_out_journal _ _ _, sending_calm _ _ _⟩
  · exact ⟨[], (List.append_nil _).symm, by simp⟩

-- At the prompt the session is found idle, or else a command was left and goes out.
theorem poll_told (session : Session) :
    (session.poll.journal = session.journal ++ [.idled] ∧ ∀ tier, session.queue tier = []) ∨
    ∃ events, session.poll.journal = session.journal ++ events ∧
      (∀ event ∈ events, event.isCalm = true) ∧ ∃ tier, session.queue tier ≠ [] := by
  have ready : ({ session with questioned := false } : Session).release.journal = session.journal :=
    Session.release_journal _
  have sent (tier : Tier) {command : Command} {rest : Session}
      (same : rest.journal = session.journal) (left : session.queue tier ≠ []) :
      ∃ events, (rest.sendOut (some tier) command).journal = session.journal ++ events ∧
        (∀ event ∈ events, event.isCalm = true) ∧ ∃ tier, session.queue tier ≠ [] :=
    ⟨_, same ▸ Session.send_out_journal _ _ _, sending_calm _ _ _, tier, left⟩
  unfold Session.poll
  split
  · next high => exact .inr (sent .urgent ready (by simp [Session.queue, high]))
  · next low => exact .inr (sent .idle ready (by simp [Session.queue, low]))
  · next high low =>
    refine .inl ⟨by simp [Session.log], ?_⟩
    rintro ⟨⟩
    · exact high
    · exact low

theorem follows_calm (follows : session.Follows past now) (orderly : next.Orderly)
    (told : next.journal = now.journal ++ more) (calm : ∀ event ∈ more, event.isCalm = true) :
    session.Follows past next := by
  obtain ⟨events, earlier, timely⟩ := follows.timely
  exact ⟨orderly, _, by rw [told, earlier, List.append_assoc], timely_calm timely calm⟩

theorem follows_reaction
    (origin : ∀ tier, sentBy tier past ++ session.queue tier = acceptedBy tier past)
    (follows : session.Follows past now) (alive : now.isClosed = false) {marker : Marker}
    (reaction : Reaction marker now next) : session.Follows past next := by
  have orderly := orderly_reaction follows.orderly alive reaction
  obtain ⟨events, earlier, timely⟩ := follows.timely
  have spent := spent_iff origin follows.orderly alive earlier
  -- What follows an annotation that leaves the session as busy as it was.
  have after {more : List Event} (busy : marker.kind = .prompt → ¬ session.Spent events)
      (told : next.journal = (now.log (.annotated marker)).journal ++ more)
      (calm : ∀ event ∈ more, event.isCalm = true) : session.Follows past next := by
    refine ⟨orderly, _, ?_, timely_calm (timely_annotated timely busy) calm⟩
    simp [told, Session.log, earlier]
  have other {kind : Annotation} (same : marker.kind = kind) (differs : kind ≠ .prompt) :
      marker.kind = .prompt → ¬ session.Spent events :=
    fun prompt => absurd (same.symm.trans prompt) differs
  cases reaction with
  | prompt kind =>
    have queues (tier : Tier) :
        ((now.log (.annotated marker)).enter .prompt).queue tier = now.queue tier := by
      cases tier <;> rfl
    rcases poll_told ((now.log (.annotated marker)).enter .prompt) with
      ⟨told, empty⟩ | ⟨more, told, calm, tier, left⟩
    · have nothing := spent.mpr fun tier => queues tier ▸ empty tier
      refine ⟨orderly, _, told.trans ?_, timely_idled timely kind nothing⟩
      simp [Session.log, Session.enter, earlier]
    · refine after (fun _ nothing => left ?_) told calm
      rw [queues]
      exact spent.mp nothing tier
  | question kind =>
    obtain ⟨more, told, calm⟩ := ask_calm (now.log (.annotated marker))
    exact after (other kind (by decide)) told calm
  | @phase phase kind between =>
    refine after (fun prompt => ?_) (List.append_nil _).symm (by simp)
    rw [prompt] at kind
    cases kind
    exact absurd rfl between
  | fulfilled kind =>
    obtain ⟨more, told, calm⟩ := fulfil_calm (now.log (.annotated marker))
    exact after (other kind (by decide)) told calm
  | remark kind =>
    refine after (fun prompt => ?_) (List.append_nil _).symm (by simp)
    rw [prompt] at kind
    cases kind

theorem follows_shift
    (origin : ∀ tier, sentBy tier past ++ session.queue tier = acceptedBy tier past)
    (follows : session.Follows past now) (shift : Shift now next) : session.Follows past next := by
  have orderly := orderly_shift follows.orderly shift
  cases shift with
  | aside _ told asides =>
    refine follows_calm follows orderly told fun event member => ?_
    have aside := asides event member
    cases event <;> first | rfl | cases aside
  | hear spoken =>
    rw [hear_spoken now spoken] at orderly ⊢
    exact follows_calm follows orderly rfl (by simp [Event.isCalm])
  | @queue tier command =>
    have told : ((now.log (.accepted tier command)).push tier command).journal =
        now.journal ++ [.accepted tier command] := by
      cases tier <;> rfl
    exact follows_calm follows orderly told (by simp [Event.isCalm])
  | @overtake tier command =>
    have told : ((now.log (.accepted tier command)).sendOut (some tier) command).journal =
        now.journal ++ ([.accepted tier command] ++
          (now.log (.accepted tier command)).sending (some tier) command) := by
      simp [Session.log]
    refine follows_calm follows orderly told ?_
    simpa [Event.isCalm] using sending_calm (now.log (.accepted tier command)) (some tier) command
  | react alive reaction => exact follows_reaction origin follows alive reaction
  | close =>
    have told : now.close.journal = now.journal ++ [] := by
      rw [close_journal, List.append_nil]
    exact follows_calm follows orderly told (by simp)

theorem follows_start (fresh : session.journal = []) (orderly : (session.prefaced past).Orderly) :
    session.Follows past (session.prefaced past) :=
  ⟨orderly, [], by simp [fresh], timely_nil session⟩

theorem follows_around (follows : session.Follows past now) (display : Display)
    (process : Subprocess) :
    session.Follows past { now with display := display, process := process } :=
  ⟨orderly_around follows.orderly display process, follows.timely⟩

theorem follows_lapses
    (origin : ∀ tier, sentBy tier past ++ session.queue tier = acceptedBy tier past)
    (follows : session.Follows past (now.prefaced past))
    (lapses : Lapses Operation.isReception now next) : session.Follows past (next.prefaced past) :=
  kept_shifts (follows_shift origin) follows
    (shifts_lapses reception_regular (lapses_prefaced lapses past))

end Follows

/-- A session on which the end of a command is waited for, with the record of what it did since it
got the command. -/
structure Session.Awaited (start : Session) (past : List Event) (command : String)
    (session : Session) : Prop where
  inside : session.Within Operation.isReception
  follows : start.Follows past (session.prefaced past)
  process : session.process = start.process
  /-- The user has asked for nothing else. -/
  asked : ∃ rest, session.journal = .accepted .urgent (.typed command) :: rest ∧
    acceptedBy .urgent rest = []
  wired : start.process.pipeBroken = false → Wired session.journal
  shown : session.display.transcript = start.display.transcript ++ shownIn session.journal
  ready : session.isClosed = false →
    session.display.promptReady = session.journal.any Event.isIdled

section Awaited

variable {start session later : Session} {past : List Event} {command : String}

theorem awaited_submit (inside : start.Within Operation.isReception) (fresh : start.journal = [])
    (orderly : (start.prefaced past).Orderly) (alive : start.isClosed = false) :
    start.Awaited past command ((Engine.submit command).after start) := by
  have own : (Command.typed command).within Operation.isReception = true := rfl
  have origin := balance_origin fresh orderly alive
  have still : start.unwoken.isClosed = false := alive
  obtain ⟨events, told⟩ := told_placed still .urgent (.typed command)
  have journal : (start.unwoken.accept .urgent (.typed command)).journal =
      [.accepted .urgent (.typed command)] ++ events := by
    rw [told.journal, Session.log, Session.unwoken, fresh]
    rfl
  rw [Engine.after_submit alive]
  constructor
  · have kept : start.unwoken.Within Operation.isReception := within_of_same inside rfl rfl
    exact accept_within kept _ own
  · have ready : start.Follows past (start.unwoken.prefaced past) :=
      follows_around (follows_start fresh orderly) start.unwoken.display start.process
    have open_ : (start.unwoken.prefaced past).isClosed = false := alive
    rw [← Session.prefaced_accept]
    exact follows_shift origin ready (shift_accept open_ _ _)
  · exact told.process
  · exact ⟨events, journal, told.unasked⟩
  · intro reads
    rw [journal]
    exact wired_append (wired_silent ⟨rfl, rfl⟩) (told.written reads)
  · rw [journal]
    exact told.shown
  · intro _
    rw [journal, told.ready]
    rfl

-- The session goes on while the user asks for nothing else.
theorem awaited_lapses
    (origin : ∀ tier, sentBy tier past ++ start.queue tier = acceptedBy tier past)
    (awaited : start.Awaited past command session)
    (lapses : Lapses Operation.isReception session later) : start.Awaited past command later := by
  obtain ⟨events, told⟩ := told_lapses lapses
  constructor
  · exact lapses_within awaited.inside lapses
  · exact follows_lapses origin awaited.follows lapses
  · exact told.process.trans awaited.process
  · obtain ⟨rest, asked, nothing⟩ := awaited.asked
    refine ⟨rest ++ events, by rw [told.journal, asked, List.cons_append], ?_⟩
    rw [accepted_append, nothing, told.unasked]
    rfl
  · intro reads
    rw [told.journal]
    exact wired_append (awaited.wired reads) (told.written (awaited.process ▸ reads))
  · rw [told.journal, shown_text_append, ← String.append_assoc, ← awaited.shown]
    exact told.shown
  · intro alive
    rw [told.ready, told.journal, List.any_append, awaited.ready (told_alive told alive)]

-- gdb exits, and the waiter is woken although nobody was idle.
theorem awaited_exit
    (origin : ∀ tier, sentBy tier past ++ start.queue tier = acceptedBy tier past)
    (awaited : start.Awaited past command session) :
    start.Awaited past command
      { session.close with display := session.close.display.markReady } := by
  have close : Lapses Operation.isReception session session.close := .single (.move (.close rfl))
  have closed := awaited_lapses origin awaited close
  refine ⟨within_of_same closed.inside rfl rfl, ?_, closed.process, closed.asked, closed.wired,
    closed.shown, fun alive => ?_⟩
  · exact follows_around closed.follows session.close.display.markReady session.close.process
  · exact absurd (session.isClosed_close.symm.trans alive) (by decide)

theorem awaited_receive {events : List Event}
    (origin : ∀ tier, sentBy tier past ++ start.queue tier = acceptedBy tier past)
    (awaited : start.Awaited past command (session.prefaced events)) (delivery : Delivery) :
    start.Awaited past command (((Engine.receive delivery).after session).prefaced events) := by
  by_cases exits : delivery = .exit
  · subst exits
    have gone := awaited_exit origin awaited
    rw [Session.prefaced_close] at gone
    exact gone
  · have inside : session.Within Operation.isReception := within_of_same awaited.inside rfl rfl
    have lapses := Engine.received_lapses inside rfl rfl exits
    exact awaited_lapses origin awaited (lapses_prefaced lapses events)

end Awaited

/-- The events of one session in the record of its client. -/
def eventsOf (id : String) (journal : List Activity) : List Event :=
  journal.filterMap fun
    | .did name event => if name = id then some event else none
    | _ => none

/-- The client while it waits, with the session that it waits for. -/
def Client.Awaits (before : Client) (id : String) (attachment : Attachment) (past : List Event)
    (command : String) (client : Client) : Prop :=
  ∃ session events, client.sessions.get? id = some { attachment with session := session } ∧
    session.journal = [] ∧
    eventsOf id client.journal = eventsOf id before.journal ++ events ∧
    attachment.session.Awaited past command (session.prefaced events)

section Awaits

variable {before client later : Client} {id : String} {attachment : Attachment} {past : List Event}
  {command : String}

theorem events_own (id : String) (events : List Event) :
    eventsOf id (events.map (.did id)) = events := by
  simp only [eventsOf, List.filterMap_map, Function.comp_def, if_true, List.filterMap_some]

theorem events_kept (session : Session) :
    eventsOf id (client.keep id attachment session).journal =
      eventsOf id client.journal ++ session.journal := by
  rw [Client.keep, eventsOf, List.filterMap_append]
  exact congrArg _ (events_own id session.journal)

theorem awaits_submit (present : client.sessions.get? id = some attachment)
    (inside : attachment.session.Within Operation.isReception)
    (fresh : attachment.session.journal = []) (orderly : (attachment.session.prefaced past).Orderly)
    (alive : attachment.session.isClosed = false) :
    client.Awaits id attachment past command
      ((Control.onSession id (Engine.submit command)).after client) := by
  rw [Control.on_session_after present]
  let asked := (Engine.submit command).after attachment.session
  refine ⟨asked.forgetful, asked.journal, ?_, rfl, events_kept asked, ?_⟩
  · rw [kept_get, if_pos rfl]
  · rw [Session.forgetful_restored]
    exact awaited_submit inside fresh orderly alive

theorem awaits_receive
    (origin : ∀ tier, sentBy tier past ++ attachment.session.queue tier = acceptedBy tier past)
    (awaits : before.Awaits id attachment past command client) (delivery : Delivery) :
    before.Awaits id attachment past command
      ((Control.onSession id (Engine.receive delivery)).after client) := by
  obtain ⟨session, events, present, fresh, told, awaited⟩ := awaits
  rw [Control.on_session_after present]
  let received := (Engine.receive delivery).after session
  refine ⟨received.forgetful, events ++ received.journal, ?_, rfl, ?_, ?_⟩
  · rw [kept_get, if_pos rfl]
  · rw [events_kept, told, List.append_assoc]
  · rw [Session.forgetful_prefaced]
    exact awaited_receive origin awaited delivery

theorem awaits_deliver
    (origin : ∀ tier, sentBy tier past ++ attachment.session.queue tier = acceptedBy tier past)
    (awaits : before.Awaits id attachment past command client) (deliveries : List Delivery) :
    before.Awaits id attachment past command ((Control.deliver id deliveries).after client) := by
  unfold Control.deliver
  rw [Control.after_bind, Control.run_find]
  cases client.sessions.get? id with
  | none => exact awaits
  | some found =>
    dsimp only
    clear found
    induction deliveries generalizing client with
    | nil => exact awaits
    | cons delivery rest ih =>
      have next := awaits_receive origin awaits delivery
      rw [List.forM, Control.after_bind]
      unfold Control.after at next
      cases ran : (Control.onSession id (Engine.receive delivery)).run client with
      | ok _ middle =>
        rw [ran] at next
        exact ih next
      | error _ middle =>
        rw [ran] at next
        exact next

end Awaits

/-- The records of all sessions have been taken over by the client. -/
def Client.Tidy (client : Client) : Prop :=
  ∀ id attachment, client.sessions.get? id = some attachment → attachment.session.journal = []

section Tidy

variable {given : String → Prop} {client later : Client}

theorem step_tidy (tidy : client.Tidy) (step : client.Step given later) : later.Tidy :=
  @step_each _ _ _ (fun session => session.journal = []) (fun _ _ _ _ => rfl) (fun _ _ _ _ => rfl)
    tidy step

theorem reached_tidy {config : Config} (run : Client.Reaches { config := config } client) :
    client.Tidy := by
  have steps := reaches_steps run
  clear run
  induction steps with
  | refl => rintro id attachment ⟨⟩
  | tail _ step ih => exact step_tidy ih step

end Tidy

section Verdict

variable {start session : Session} {past : List Event} {command : String}

theorem grown_text (front back : String) :
    String.ofList ((front ++ back).toList.drop front.length) = back := by
  simp [← String.length_toList]

end Verdict

section Waits

variable {client later : Client} {id command : String} {attachment : Attachment} {past : List Event}
  {limit : Option Int} {result : CommandResult}

theorem after_ok {operation : Control α} {value : α}
    (done : operation.run client = .ok value later) : operation.after client = later := by
  rw [Control.after, done]

theorem find_ok {found : Attachment} (done : (Control.find id).run client = .ok found later) :
    later = client ∧ client.sessions.get? id = some found := by
  rw [Control.run_find] at done
  cases present : client.sessions.get? id with
  | none =>
    rw [present] at done
    cases done
  | some attachment =>
    rw [present] at done
    cases done
    exact ⟨rfl, rfl⟩

-- The waiter finds out whether he has been woken when all has been taken in that came meanwhile.
theorem await_ok {before : Client} {ready : Bool}
    (origin : ∀ tier, sentBy tier past ++ attachment.session.queue tier = acceptedBy tier past)
    (awaits : before.Awaits id attachment past command client)
    (done : (Control.awaitPrompt id limit).run client = .ok ready later) :
    before.Awaits id attachment past command later ∧
      ∃ found, later.sessions.get? id = some found ∧ ready = found.session.display.promptReady := by
  unfold Control.awaitPrompt at done
  obtain ⟨_, noted, recorded, done⟩ := Engine.bind_ok done
  obtain ⟨_, _, got, done⟩ := Engine.bind_ok done
  cases recorded
  cases got
  obtain ⟨_, emptied, taken, done⟩ := Engine.bind_ok done
  cases taken
  obtain ⟨_, delivered, received, done⟩ := Engine.bind_ok done
  obtain ⟨found, _, looked, done⟩ := Engine.bind_ok done
  cases done
  obtain ⟨rfl, present⟩ := find_ok looked
  refine ⟨?_, found, present, rfl⟩
  obtain ⟨session, events, kept, fresh, told, awaited⟩ := awaits
  have noticed : before.Awaits id attachment past command
      { client.log (.awaitedPrompt id limit) with arriving := [] } := by
    refine ⟨session, events, kept, fresh, ?_, awaited⟩
    rw [← told]
    simp [Client.log, eventsOf]
  rw [← after_ok received]
  exact awaits_deliver origin noticed _

-- What the waiter finds at the end of his wait, and what he is told.
theorem waited (inside : attachment.session.Within Operation.isReception)
    (present : client.sessions.get? id = some attachment)
    (fresh : attachment.session.journal = []) (orderly : (attachment.session.prefaced past).Orderly)
    (done : (Control.runCommand id command true limit).run client = .ok result later) :
    attachment.session.isClosed = false ∧
    ∃ final events, later.sessions.get? id = some { attachment with session := final } ∧
      eventsOf id later.journal = eventsOf id client.journal ++ events ∧
      attachment.session.Awaited past command (final.prefaced events) ∧ final.journal = [] ∧
      result = ⟨if final.isClosed then .exited
        else if final.display.promptReady then .completed else .timedOut,
        some (shownIn events)⟩ := by
  unfold Control.runCommand at done
  obtain ⟨found, _, required, done⟩ := Engine.bind_ok done
  rw [Control.run_require, present] at required
  cases closed : attachment.session.isClosed with
  | true =>
    simp [closed] at required
  | false =>
  simp only [closed, Bool.and_false, Bool.false_eq_true, if_false] at required
  cases required
  refine ⟨rfl, ?_⟩
  have origin := balance_origin fresh orderly closed
  obtain ⟨sent, asked, submitted, done⟩ := Engine.bind_ok done
  have awaits : client.Awaits id attachment past command asked :=
    after_ok submitted ▸ awaits_submit present inside fresh orderly closed
  obtain ⟨ready, _, waited, done⟩ := Engine.bind_ok done
  obtain ⟨awaits, found, kept, woken⟩ := await_ok origin awaits waited
  obtain ⟨last, _, looked, done⟩ := Engine.bind_ok done
  cases done
  obtain ⟨rfl, same⟩ := find_ok looked
  obtain ⟨final, events, there, silent, told, awaited⟩ := awaits
  refine ⟨final, events, there, told, awaited, silent, ?_⟩
  cases same.symm.trans there
  cases kept.symm.trans there
  have grown : final.display.transcript =
      attachment.session.display.transcript ++ shownIn events := by
    have shown := awaited.shown
    rwa [Session.prefaced_journal, silent, List.append_nil] at shown
  dsimp only at woken ⊢
  rw [grown, grown_text, woken]

end Waits

end GdbControl
