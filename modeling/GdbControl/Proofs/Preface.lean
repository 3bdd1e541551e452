import GdbControl.Proofs.Bearing
import GdbControl.Proofs.Completion

/-!
The owner of a session takes the record away after each operation. No operation looks at the record,
so a session with what was recorded earlier in front of its record does the same, and what holds of
whole runs holds of the runs that go on from there. What one operation or many add to the record
tells what happened to the rest of the session meanwhile.
-/

namespace GdbControl

namespace Session

/-- A session with what was recorded earlier in front of its record. -/
def prefaced (past : List Event) (session : Session) : Session :=
  { session with journal := past ++ session.journal }

/-- A session whose record has been taken away. -/
def forgetful (session : Session) : Session := { session with journal := [] }

section Preface

variable (past : List Event) (session : Session)

@[simp] theorem prefaced_process : (session.prefaced past).process = session.process := rfl

@[simp] theorem prefaced_urgent : (session.prefaced past).urgent = session.urgent := rfl

@[simp] theorem prefaced_idle : (session.prefaced past).idle = session.idle := rfl

@[simp] theorem prefaced_sink : (session.prefaced past).sink = session.sink := rfl

@[simp] theorem prefaced_in_flight : (session.prefaced past).inFlight = session.inFlight := rfl

@[simp] theorem prefaced_completed : (session.prefaced past).completed = session.completed := rfl

@[simp] theorem prefaced_closed : (session.prefaced past).isClosed = session.isClosed := rfl

@[simp] theorem prefaced_journal : (session.prefaced past).journal = past ++ session.journal := rfl

-- A record that was taken away can be given back.
theorem forgetful_prefaced :
    session.forgetful.prefaced (past ++ session.journal) = session.prefaced past := by
  simp [prefaced, forgetful]

theorem forgetful_restored : session.forgetful.prefaced session.journal = session := by
  simp [prefaced, forgetful]

theorem prefaced_log (event : Event) :
    (session.prefaced past).log event = (session.log event).prefaced past := by
  simp [prefaced, log]

theorem prefaced_release : (session.prefaced past).release = session.release.prefaced past := by
  unfold release
  rw [prefaced_in_flight, prefaced_completed]
  cases session.inFlight.bind Command.view? with
  | none => rfl
  | some view => cases session.completed <;> rfl

theorem prefaced_launch (command : Command) :
    (session.prefaced past).launch command = (session.launch command).prefaced past := by
  unfold launch
  cases command.handler? <;> rfl

theorem prefaced_send_out (tier : Option Tier) (command : Command) :
    (session.prefaced past).sendOut tier command =
      (session.sendOut tier command).prefaced past := by
  unfold sendOut
  rw [prefaced_release, prefaced_launch, prefaced_log, prefaced_process]
  cases session.process.pipeBroken with
  | true => rfl
  | false => exact prefaced_log _ _ _

theorem prefaced_push (tier : Tier) (command : Command) :
    (session.prefaced past).push tier command = (session.push tier command).prefaced past := by
  cases tier <;> rfl

theorem prefaced_accept (tier : Tier) (command : Command) :
    (session.prefaced past).accept tier command = (session.accept tier command).prefaced past := by
  have ready : (session.prefaced past).mayWrite tier = session.mayWrite tier := by
    cases tier <;> rfl
  unfold accept
  rw [prefaced_log, ready]
  cases session.mayWrite tier with
  | true => exact prefaced_send_out _ _ _ _
  | false => exact prefaced_push _ _ _ _

theorem prefaced_poll : (session.prefaced past).poll = session.poll.prefaced past := by
  have ready : ({ session.prefaced past with questioned := false } : Session).release =
      ({ session with questioned := false } : Session).release.prefaced past :=
    prefaced_release past { session with questioned := false }
  unfold poll
  rw [ready, prefaced_urgent, prefaced_idle]
  generalize ({ session with questioned := false } : Session).release = released
  cases session.urgent with
  | cons command rest =>
    exact prefaced_send_out past { released with urgent := rest } (some .urgent) command
  | nil =>
    cases session.idle with
    | cons command rest =>
      exact prefaced_send_out past { released with idle := rest } (some .idle) command
    | nil => simp [prefaced, log]

theorem prefaced_ask : (session.prefaced past).ask = session.ask.prefaced past := by
  have asked : ({ session.prefaced past with questioned := true } : Session) =
      ({ session with questioned := true } : Session).prefaced past := rfl
  unfold ask
  rw [asked, prefaced_urgent]
  generalize ({ session with questioned := true } : Session) = question
  cases session.urgent with
  | cons command rest =>
    exact prefaced_send_out past { question with urgent := rest } (some .urgent) command
  | nil => rfl

theorem prefaced_fulfil : (session.prefaced past).fulfil = session.fulfil.prefaced past := by
  unfold fulfil
  rw [prefaced_in_flight]
  cases flight : session.inFlight with
  | none => simp [prefaced]
  | some command =>
    cases handled : command.handler? with
    | none => simp [handled, prefaced]
    | some handler => cases handler <;> simp [handled, prefaced, log, finish, settle]

theorem prefaced_hear (text : String) :
    (session.prefaced past).hear text = (session.hear text).prefaced past := by
  unfold hear
  split
  · rfl
  · rw [prefaced_sink, prefaced_log]
    cases session.sink <;> rfl

theorem prefaced_pass (text : String) (held : Bytes) (midLine : Bool) :
    (session.prefaced past).pass text held midLine =
      (session.pass text held midLine).prefaced past :=
  prefaced_hear past (session.hold held midLine) text

theorem prefaced_arrive (bytes : Bytes) :
    (session.prefaced past).arrive bytes = (session.arrive bytes).prefaced past := by
  simp [arrive, prefaced, log]

theorem prefaced_complain (message : String) :
    (session.prefaced past).complain message = (session.complain message).prefaced past := by
  simp [complain, prefaced, log]

theorem prefaced_close : (session.prefaced past).close = session.close.prefaced past := by
  unfold close
  rw [prefaced_closed]
  cases session.isClosed <;> rfl

end Preface

end Session

section Prefaced

variable {allowed : Operation → Bool} {session later : Session}

theorem reaction_prefaced {marker : Marker} (reaction : Reaction marker session later)
    (past : List Event) : Reaction marker (session.prefaced past) (later.prefaced past) := by
  cases reaction with
  | prompt kind =>
    rw [← Session.prefaced_poll]
    change Reaction marker _ (((session.log (.annotated marker)).prefaced past).enter .prompt).poll
    rw [← Session.prefaced_log]
    exact .prompt kind
  | question kind =>
    rw [← Session.prefaced_ask, ← Session.prefaced_log]
    exact .question kind
  | @phase phase kind between unfinished =>
    change Reaction marker _ (((session.log (.annotated marker)).prefaced past).enter phase)
    rw [← Session.prefaced_log]
    exact .phase kind between unfinished
  | fulfilled kind gathering =>
    rw [← Session.prefaced_fulfil, ← Session.prefaced_log]
    exact .fulfilled kind gathering
  | remark kind plain =>
    rw [← Session.prefaced_log]
    exact .remark kind plain

theorem move_prefaced (move : Move allowed session later) (past : List Event) :
    Move allowed (session.prefaced past) (later.prefaced past) := by
  cases move with
  | accept own alive =>
    rw [← Session.prefaced_accept]
    exact .accept own alive
  | request alive known settled demanded =>
    rw [← Session.prefaced_accept]
    exact .request alive known settled demanded
  | react granted alive reaction => exact .react granted alive (reaction_prefaced reaction past)
  | arrive granted alive =>
    rw [← Session.prefaced_arrive]
    exact .arrive granted alive
  | cut granted alive found reaction =>
    have reaction := reaction_prefaced reaction past
    rw [← Session.prefaced_pass] at reaction
    exact .cut granted alive found reaction
  | lines granted searched found =>
    rw [← Session.prefaced_pass]
    exact .lines granted searched found
  | flush granted shown spoken =>
    rw [← Session.prefaced_pass]
    exact .flush granted shown spoken
  | note running location frameAddress exitStatus lastSignal =>
    exact .note running location frameAddress exitStatus lastSignal
  | complain message =>
    rw [← Session.prefaced_complain]
    exact .complain message
  | hear granted =>
    rw [← Session.prefaced_hear]
    exact .hear granted
  | close granted =>
    rw [← Session.prefaced_close]
    exact .close granted
  | addBuffer granted => exact .addBuffer granted
  | removeBuffer granted => exact .removeBuffer granted
  | register granted added => exact .register granted added
  | registerHandled granted added => exact .registerHandled granted added
  | setPipe granted => exact .setPipe granted
  | send granted =>
    rw [← Session.prefaced_send_out]
    exact .send granted
  | @take tier command rest granted first =>
    have same : (session.withQueue tier rest).prefaced past =
        (session.prefaced past).withQueue tier rest := by
      cases tier <;> rfl
    rw [same]
    exact .take granted (by cases tier <;> exact first)
  | poll granted =>
    rw [← Session.prefaced_poll]
    exact .poll granted
  | ask granted =>
    rw [← Session.prefaced_ask]
    exact .ask granted
  | setSink granted => exact .setSink granted
  | setPrompting granted => exact .setPrompting granted

theorem lapses_prefaced (lapses : Lapses allowed session later) (past : List Event) :
    Lapses allowed (session.prefaced past) (later.prefaced past) := by
  induction lapses with
  | refl => exact .refl
  | tail _ lapse ih =>
    refine ih.tail ?_
    cases lapse with
    | move move => exact .move (move_prefaced move past)
    | skip granted closed found =>
      rw [← Session.prefaced_pass]
      exact .skip granted closed found
    | abort granted =>
      rw [← Session.prefaced_close]
      exact .abort granted

end Prefaced

/-- The user is shown a text. -/
def Event.isShown : Event → Bool
  | .emitted .console _ => true
  | _ => false

def Event.isIdled : Event → Bool
  | .idled => true
  | _ => false

/-- An event at which nothing is written to gdb, nothing is shown to the user and nobody is woken.
-/
def Event.isMute : Event → Bool
  | .sent _ _ | .wrote _ | .idled | .emitted .console _ | .accepted .urgent _ => false
  | _ => true

/-- The text that was shown to the user. -/
def shownIn (journal : List Event) : String := textIn (journal.filter Event.isShown)

/-- Each command that went out was written before any annotation came. -/
structure Wired (events : List Event) : Prop where
  whole : writtenIn events = (sentIn events).map Command.written
  before : ∀ front marker back, events = front ++ .annotated marker :: back →
    writtenIn front = (sentIn front).map Command.written

/-- The session has become the later one, and these events tell what happened on the way. -/
structure Session.Told (session later : Session) (events : List Event) : Prop where
  journal : later.journal = session.journal ++ events
  process : later.process = session.process
  /-- Commands that go out are written while gdb reads its input. -/
  written : session.process.pipeBroken = false → Wired events
  /-- The user asks for nothing. -/
  unasked : acceptedBy .urgent events = []
  shown : later.display.transcript = session.display.transcript ++ shownIn events
  /-- Who waits for the prompt is woken when gdb is idle, and at no other time. -/
  ready : later.display.promptReady = (session.display.promptReady || events.any Event.isIdled)
  closed : session.isClosed = true → later.isClosed = true
  /-- The last command is done with when gdb is idle, and not before. -/
  busy : later.isClosed = false → session.commands ≠ [] → events.any Event.isIdled = false →
    later.commands ≠ []

section Told

variable {session middle later : Session} {events : List Event}

theorem shown_text_append (front back : List Event) :
    shownIn (front ++ back) = shownIn front ++ shownIn back := by
  rw [shownIn, List.filter_append, text_append]
  rfl

theorem wired_silent (silent : sentIn events = [] ∧ writtenIn events = []) : Wired events := by
  refine ⟨by rw [silent.1, silent.2]; rfl, fun front marker back split => ?_⟩
  simp only [split, sentIn, writtenIn, List.filterMap_append, List.append_eq_nil_iff] at silent
  simp only [sentIn, writtenIn, silent.1.1, silent.2.1, List.map_nil]

theorem wired_append {more : List Event} (first : Wired events) (second : Wired more) :
    Wired (events ++ more) := by
  have joined {back : List Event} (rest : writtenIn back = (sentIn back).map Command.written) :
      writtenIn (events ++ back) = (sentIn (events ++ back)).map Command.written := by
    have whole := first.whole
    simp only [writtenIn, sentIn, List.filterMap_append, List.map_append] at whole rest ⊢
    rw [whole, rest]
  refine ⟨joined second.whole, fun front marker back split => ?_⟩
  rcases split_append split with ⟨inner, same⟩ | ⟨inner, rfl, rest⟩
  · exact first.before front marker inner same
  · exact joined (second.before inner marker back rest)

theorem told_refl (session : Session) : session.Told session [] :=
  ⟨by simp, rfl, fun _ => wired_silent ⟨rfl, rfl⟩, rfl, by simp [shownIn, textIn], by simp, id,
    fun _ some _ => some⟩

theorem told_alive (told : session.Told later events) (alive : later.isClosed = false) :
    session.isClosed = false := by
  cases closed : session.isClosed with
  | true => exact (told.closed closed).symm.trans alive
  | false => rfl

theorem told_trans {more : List Event} (first : session.Told middle events)
    (second : middle.Told later more) : session.Told later (events ++ more) := by
  constructor
  · rw [second.journal, first.journal, List.append_assoc]
  · exact second.process.trans first.process
  · intro reads
    have still : middle.process.pipeBroken = false := first.process ▸ reads
    exact wired_append (first.written reads) (second.written still)
  · rw [accepted_append, first.unasked, second.unasked]
    rfl
  · rw [second.shown, first.shown, shown_text_append, String.append_assoc]
  · rw [second.ready, first.ready, List.any_append, Bool.or_assoc]
  · exact second.closed ∘ first.closed
  · intro alive work calm
    rw [List.any_append, Bool.or_eq_false_iff] at calm
    exact second.busy alive (first.busy (told_alive second alive) work calm.1) calm.2

-- A change of which nobody takes notice but those who keep the record.
theorem told_mute (journal : later.journal = session.journal ++ events)
    (process : later.process = session.process)
    (shown : later.display.transcript = session.display.transcript)
    (ready : later.display.promptReady = session.display.promptReady)
    (closed : session.isClosed = true → later.isClosed = true)
    (busy : later.isClosed = false → session.commands ≠ [] → later.commands ≠ [])
    (mute : ∀ event ∈ events, event.isMute = true) : session.Told later events := by
  have calm : events.any Event.isIdled = false := by
    rw [List.any_eq_false]
    intro event member
    have own := mute event member
    cases event <;> simp_all [Event.isIdled, Event.isMute]
  have silent : events.filter Event.isShown = [] := by
    rw [List.filter_eq_nil_iff]
    intro event member
    have own := mute event member
    cases event with
    | emitted sink text => cases sink <;> simp_all [Event.isShown, Event.isMute]
    | _ => simp [Event.isShown]
  have unsent : sentIn events = [] := by
    refine List.filterMap_eq_nil_iff.mpr fun event member => ?_
    have own := mute event member
    cases event <;> first | rfl | cases own
  have unwritten : writtenIn events = [] := by
    refine List.filterMap_eq_nil_iff.mpr fun event member => ?_
    have own := mute event member
    cases event <;> first | rfl | cases own
  have unasked : acceptedBy .urgent events = [] := by
    refine List.filterMap_eq_nil_iff.mpr fun event member => ?_
    have own := mute event member
    cases event with
    | accepted tier command => cases tier <;> first | rfl | cases own
    | _ => rfl
  refine ⟨journal, process, fun _ => wired_silent ⟨unsent, unwritten⟩, unasked, ?_, ?_, closed, ?_⟩
  · simp [shown, shownIn, silent, textIn]
  · simp [ready, calm]
  · exact fun alive work _ => busy alive work

theorem told_log (session : Session) {event : Event} (mute : event.isMute = true) :
    session.Told (session.log event) [event] :=
  told_mute rfl rfl rfl rfl id (fun _ => id) (by simpa using mute)

-- A command goes out from a session that is the same but for what is queued or under way.
theorem told_sent {tier : Option Tier} {command : Command}
    (journal : middle.journal = session.journal) (process : middle.process = session.process)
    (display : middle.display = session.display) (alive : session.isClosed = false) :
    session.Told (middle.sendOut tier command) (middle.sending tier command) := by
  have kept : (middle.sendOut tier command).display = session.display :=
    (middle.send_out_display tier command).trans display
  have written : session.process.pipeBroken = false → Wired (middle.sending tier command) := by
    intro reads
    rw [Session.sending, process, reads]
    refine ⟨rfl, fun front marker back split => ?_⟩
    cases front with
    | nil => cases (List.cons.inj split).1
    | cons first rest =>
      cases rest with
      | nil => cases (List.cons.inj (List.cons.inj split).2).1
      | cons second rest => cases rest <;> cases split
  have unasked : acceptedBy .urgent (middle.sending tier command) = [] := by
    rw [Session.sending]
    cases middle.process.pipeBroken <;> rfl
  refine ⟨by simp [journal], by simp [process], written, unasked, ?_, ?_, ?_, ?_⟩
  · rw [kept, Session.sending]
    cases middle.process.pipeBroken <;> simp [shownIn, textIn, Event.isShown]
  · rw [kept, Session.sending]
    cases middle.process.pipeBroken <;> simp [Event.isIdled]
  · exact fun closed => absurd (alive.symm.trans closed) (by decide)
  · intro _ _ _
    simp [Session.commands]

theorem told_hear (session : Session) (text : String) :
    ∃ events, session.Told (session.hear text) events := by
  by_cases silent : text = ""
  · rw [Session.hear, if_pos silent]
    exact ⟨[], told_refl session⟩
  · refine ⟨[.emitted session.sink text], ?_⟩
    cases sink : session.sink with
    | console =>
      have shape : session.hear text = { session with
          display := session.display.appendTranscript text
          journal := session.journal ++ [.emitted .console text] } := by
        simp [Session.hear, silent, sink, Session.log]
      rw [shape]
      refine ⟨rfl, rfl, fun _ => wired_silent ⟨rfl, rfl⟩, rfl, ?_, ?_, id, fun _ work _ => work⟩
      · exact congrArg (session.display.transcript ++ ·) String.append_empty.symm
      · simp [Event.isIdled, Display.appendTranscript]
    | _ =>
      simp only [Session.hear, silent, sink, if_false]
      exact told_mute rfl rfl rfl rfl (by simp [Session.isClosed, Session.log, sink])
        (fun _ => id) (by simp [Event.isMute])

theorem told_pass (session : Session) (text : String) (held : Bytes) (midLine : Bool) :
    ∃ events, session.Told (session.pass text held midLine) events := by
  obtain ⟨events, heard⟩ := told_hear (session.hold held midLine) text
  have kept : session.Told (session.hold held midLine) [] :=
    told_mute (by simp [Session.hold]) rfl rfl rfl id (fun _ => id) (by simp)
  exact ⟨_, told_trans kept heard⟩

theorem told_close (session : Session) : session.Told session.close [] := by
  have closed := session.isClosed_close
  have told : session.close.journal = session.journal ++ [] := by
    rw [close_journal, List.append_nil]
  exact told_mute told (close_process session) (by rw [close_display]) (by rw [close_display])
    (fun _ => closed) (fun alive => absurd (alive.symm.trans closed) (by decide)) (by simp)

theorem accept_busy (session : Session) (tier : Tier) (command : Command) :
    (session.accept tier command).commands ≠ [] := by
  unfold Session.accept
  split
  · simp [Session.commands]
  · cases tier <;> simp [Session.commands, Session.push, Session.withQueue, Session.queue]

-- What becomes of a command once it is taken.
theorem told_placed (alive : session.isClosed = false) (tier : Tier) (command : Command) :
    ∃ events, (session.log (.accepted tier command)).Told (session.accept tier command) events := by
  have busy := accept_busy session tier command
  unfold Session.accept at busy ⊢
  split at busy
  · next ready =>
    rw [if_pos ready]
    exact ⟨_, told_sent rfl rfl rfl alive⟩
  · next waits =>
    rw [if_neg waits]
    refine ⟨[], ?_⟩
    cases tier <;>
      exact told_mute (List.append_nil _).symm rfl rfl rfl id (fun _ _ => busy) (by simp)

-- gdb is at its prompt: a command goes out, or the session is idle.
theorem told_poll (alive : session.isClosed = false) :
    ∃ events, session.Told session.poll events := by
  unfold Session.poll
  split
  · exact ⟨_, told_sent (by simp) (by simp) (by simp) alive⟩
  · exact ⟨_, told_sent (by simp) (by simp) (by simp) alive⟩
  · refine ⟨[.idled], ?_, ?_, fun _ => wired_silent ⟨rfl, rfl⟩, rfl, ?_, ?_, ?_, ?_⟩
    · simp [Session.log]
    · simp [Session.log]
    · simp [Session.log, Display.markReady, shownIn, textIn, Event.isShown]
    · simp [Display.markReady, Event.isIdled]
    · exact fun closed => absurd (alive.symm.trans closed) (by decide)
    · intro _ _ calm
      cases calm

theorem told_ask (alive : session.isClosed = false) :
    ∃ events, session.Told session.ask events := by
  unfold Session.ask
  split
  · exact ⟨_, told_sent rfl rfl rfl alive⟩
  · exact ⟨[], told_mute (by simp) rfl rfl rfl id (fun _ => id) (by simp)⟩

theorem told_enter (alive : session.isClosed = false) (phase : Phase) :
    session.Told (session.enter phase) [] :=
  told_mute (by simp [Session.enter]) rfl rfl rfl
    (fun closed => absurd (alive.symm.trans closed) (by decide)) (fun _ => id) (by simp)

theorem told_fulfil (alive : session.isClosed = false) :
    ∃ events, session.Told session.fulfil events := by
  rcases session.fulfil_cases with
    ⟨-, events, told, same⟩ | ⟨command, view, -, -, same⟩ <;> rw [same]
  · refine ⟨events, told_mute rfl rfl rfl rfl
      (fun closed => absurd (alive.symm.trans closed) (by decide)) (fun _ => id) ?_⟩
    rcases told with rfl | ⟨command, rfl⟩ <;> simp [Event.isMute]
  · exact ⟨_, told_mute rfl rfl rfl rfl
      (fun closed => absurd (alive.symm.trans closed) (by decide)) (fun _ => id)
      (by simp [Event.isMute])⟩

theorem told_reaction {marker : Marker} (alive : session.isClosed = false)
    (reaction : Reaction marker session later) : ∃ events, session.Told later events := by
  have heard : session.Told (session.log (.annotated marker)) [.annotated marker] :=
    told_log session rfl
  have first {later : Session}
      (rest : ∃ events, (session.log (.annotated marker)).Told later events) :
      ∃ events, session.Told later events := by
    obtain ⟨events, told⟩ := rest
    exact ⟨_, told_trans heard told⟩
  have logged : (session.log (.annotated marker)).isClosed = false := alive
  cases reaction with
  | prompt =>
    obtain ⟨events, polled⟩ := told_poll (enter_alive (session.log (.annotated marker)) .prompt)
    exact first ⟨_, told_trans (told_enter logged .prompt) polled⟩
  | question => exact first (told_ask logged)
  | phase => exact first ⟨_, told_enter logged _⟩
  | fulfilled => exact first (told_fulfil logged)
  | remark => exact ⟨_, heard⟩

end Told

/-- What may happen to a session between two calls of its owner. -/
def Operation.isReception : Operation → Bool
  | .ingest _ | .flush | .close => true
  | _ => false

section Reception

variable {session later : Session}

theorem told_move (move : Move Operation.isReception session later) :
    ∃ events, session.Told later events := by
  cases move with
  | accept own => cases allowed_of_within own
  | @request name view alive =>
    have awaited : session.Told (session.await name) [] :=
      told_mute (by simp [Session.await]) rfl rfl rfl id (fun _ => id) (by simp)
    have still : (session.await name).isClosed = false := alive
    have heard : (session.await name).Told
        ((session.await name).log (.accepted .idle view.refreshCommand)) _ := told_log _ rfl
    obtain ⟨events, placed⟩ := told_placed still .idle view.refreshCommand
    exact ⟨_, told_trans awaited (told_trans heard placed)⟩
  | arrive => exact ⟨_, told_mute rfl rfl rfl rfl id (fun _ => id) (by simp [Event.isMute])⟩
  | @cut _ cut _ _ alive _ reaction =>
    obtain ⟨before, passed⟩ := told_pass session (Utf8.decode cut.before) cut.after false
    have still : (session.pass (Utf8.decode cut.before) cut.after false).isClosed = false :=
      (hear_closed (session.hold cut.after false) _).trans alive
    obtain ⟨after, reacted⟩ := told_reaction still reaction
    exact ⟨_, told_trans passed reacted⟩
  | lines | flush => exact told_pass session _ _ _
  | note => exact ⟨[], told_mute (by simp) rfl rfl rfl id (fun _ => id) (by simp)⟩
  | complain => exact ⟨_, told_mute rfl rfl rfl rfl id (fun _ => id) (by simp [Event.isMute])⟩
  | close => exact ⟨[], told_close session⟩
  | send granted | registerHandled granted => cases allowed_of_within granted
  | react granted | hear granted | addBuffer granted | removeBuffer granted | register granted
  | setPipe granted | take granted | poll granted | ask granted | setSink granted
  | setPrompting granted => cases granted

theorem told_lapses (lapses : Lapses Operation.isReception session later) :
    ∃ events, session.Told later events := by
  induction lapses with
  | refl => exact ⟨[], told_refl session⟩
  | @tail middle last _ lapse ih =>
    obtain ⟨events, told⟩ := ih
    have next : ∃ more, middle.Told last more := by
      cases lapse with
      | move move => exact told_move move
      | skip => exact told_pass middle _ _ _
      | abort => exact ⟨[], told_close middle⟩
    obtain ⟨more, rest⟩ := next
    exact ⟨_, told_trans told rest⟩

end Reception

end GdbControl
