import GdbControl.Proofs.Calls

/-!
Commands leave each queue in the order in which they came, and none is lost before the session is
closed. Urgent commands go before idle ones, and no idle command ever answers a question. A command
may go out past its queue; the order holds because gdb is waited for with empty queues only.
-/

namespace GdbControl

/-- The command that is accepted into a queue. -/
def Event.acceptedBy? (tier : Tier) : Event → Option Command
  | .accepted other command => if other = tier then some command else none
  | _ => none

/-- The command that goes out from a queue, or past it. -/
def Event.sentBy? (tier : Tier) : Event → Option Command
  | .sent (some other) command => if other = tier then some command else none
  | _ => none

/-- Whether gdb is at its prompt or asks a question, if an event says either. -/
def Event.prompt? : Event → Option Annotation
  | .annotated marker =>
    match marker.kind with
    | .prompt => some .prompt
    | .question => some .question
    | _ => none
  | _ => none

/-- An event that says nothing about the order of commands. -/
def Event.Unordered (event : Event) : Prop :=
  (∀ tier, event.acceptedBy? tier = none) ∧ (∀ tier, event.sentBy? tier = none) ∧
    event.prompt? = none

section Journal

variable {tier : Tier} {journal : List Event} {event : Event}

def acceptedBy (tier : Tier) (journal : List Event) : List Command :=
  journal.filterMap (Event.acceptedBy? tier)

def sentBy (tier : Tier) (journal : List Event) : List Command :=
  journal.filterMap (Event.sentBy? tier)

/-- The prompt or question that gdb came to last. -/
def lastPrompt? (journal : List Event) : Option Annotation :=
  (journal.filterMap Event.prompt?).getLast?

/-- Idle commands go out at the prompt, when no urgent command waits. -/
def IdleInTurn (journal : List Event) : Prop :=
  ∀ before command, before ++ [.sent (some .idle) command] <+: journal →
    sentBy .urgent before = acceptedBy .urgent before ∧ lastPrompt? before = some .prompt

theorem accepted_append (journal events : List Event) :
    acceptedBy tier (journal ++ events) = acceptedBy tier journal ++ acceptedBy tier events :=
  List.filterMap_append

theorem sent_append (journal events : List Event) :
    sentBy tier (journal ++ events) = sentBy tier journal ++ sentBy tier events :=
  List.filterMap_append

theorem last_prompt_kept (silent : event.prompt? = none) :
    lastPrompt? (journal ++ [event]) = lastPrompt? journal := by
  simp [lastPrompt?, silent]

theorem last_prompt_new {kind : Annotation} (posed : event.prompt? = some kind) :
    lastPrompt? (journal ++ [event]) = some kind := by
  simp [lastPrompt?, posed]

theorem in_turn_snoc (earlier : IdleInTurn journal)
    (turn : ∀ command, event = .sent (some .idle) command →
      sentBy .urgent journal = acceptedBy .urgent journal ∧ lastPrompt? journal = some .prompt) :
    IdleInTurn (journal ++ [event]) := by
  intro before command begins
  rcases List.prefix_concat_iff.mp begins with whole | inner
  · obtain ⟨rfl, same⟩ := List.append_inj' whole rfl
    exact turn command (List.singleton_inj.mp same).symm
  · exact earlier before command inner

theorem in_turn_kept (earlier : IdleInTurn journal) (silent : event.sentBy? .idle = none) :
    IdleInTurn (journal ++ [event]) := by
  apply in_turn_snoc earlier
  rintro command rfl
  simp [Event.sentBy?] at silent

end Journal

namespace Session

/-- What was sent and what still waits is what was accepted, in the same order. -/
structure Balanced (session : Session) : Prop where
  balance : ∀ tier, sentBy tier session.journal ++ session.queue tier =
    acceptedBy tier session.journal
  turns : IdleInTurn session.journal

/-- The invariant of the queues. Closing a session loses what waits, and nothing else does. -/
structure Orderly (session : Session) : Prop where
  balance : session.isClosed = false → ∀ tier, sentBy tier session.journal ++ session.queue tier =
    acceptedBy tier session.journal
  sent : ∀ tier, sentBy tier session.journal <+: acceptedBy tier session.journal
  turns : IdleInTurn session.journal
  urgent : session.prompting = true → session.urgent = []
  idle : session.prompting = true → session.questioned = false →
    session.idle = [] ∧ session.inFlight = none ∧ lastPrompt? session.journal = some .prompt

end Session

section Orderly

variable {session later : Session}

theorem orderly_balanced (orderly : session.Orderly) (alive : session.isClosed = false) :
    session.Balanced := ⟨orderly.balance alive, orderly.turns⟩

theorem balanced_orderly (balanced : session.Balanced)
    (urgent : session.prompting = true → session.urgent = [])
    (idle : session.prompting = true → session.questioned = false →
      session.idle = [] ∧ session.inFlight = none ∧ lastPrompt? session.journal = some .prompt) :
    session.Orderly :=
  ⟨fun _ => balanced.balance, fun tier => ⟨_, balanced.balance tier⟩, balanced.turns, urgent, idle⟩

theorem unordered_single {event : Event} (silent : event.Unordered) :
    ∀ other ∈ [event], other.Unordered := by
  intro other member
  rwa [List.mem_singleton.mp member]

theorem unordered_accepted {tier : Tier} {events : List Event}
    (silent : ∀ event ∈ events, event.Unordered) : acceptedBy tier events = [] := by
  refine List.filterMap_eq_nil_iff.mpr fun event member => (silent event member).1 tier

theorem unordered_sent {tier : Tier} {events : List Event}
    (silent : ∀ event ∈ events, event.Unordered) : sentBy tier events = [] := by
  refine List.filterMap_eq_nil_iff.mpr fun event member => (silent event member).2.1 tier

theorem unordered_prompt {journal events : List Event}
    (silent : ∀ event ∈ events, event.Unordered) :
    lastPrompt? (journal ++ events) = lastPrompt? journal := by
  have none_posed : events.filterMap Event.prompt? = [] :=
    List.filterMap_eq_nil_iff.mpr fun event member => (silent event member).2.2
  simp [lastPrompt?, none_posed]

theorem unordered_turns {journal events : List Event} (earlier : IdleInTurn journal)
    (silent : ∀ event ∈ events, event.Unordered) : IdleInTurn (journal ++ events) := by
  induction events generalizing journal with
  | nil => simpa using earlier
  | cons event rest ih =>
    have first := in_turn_kept earlier ((silent event List.mem_cons_self).2.1 .idle)
    have whole := ih first fun other member => silent other (List.mem_cons_of_mem event member)
    simpa using whole

-- A move that leaves the queues and the prompt alone and tells nothing about the order.
theorem orderly_kept (orderly : session.Orderly) (events : List Event)
    (told : later.journal = session.journal ++ events)
    (silent : ∀ event ∈ events, event.Unordered)
    (queues : ∀ tier, later.queue tier = session.queue tier)
    (closed : later.isClosed = false → session.isClosed = false)
    (prompt : later.prompting = session.prompting ∧ later.questioned = session.questioned)
    (flight : later.inFlight = session.inFlight) : later.Orderly := by
  have sameUrgent : later.urgent = session.urgent := queues .urgent
  have sameIdle : later.idle = session.idle := queues .idle
  constructor
  · intro alive tier
    rw [told, accepted_append, sent_append, unordered_accepted silent, unordered_sent silent,
      queues tier, List.append_nil, List.append_nil]
    exact orderly.balance (closed alive) tier
  · intro tier
    rw [told, accepted_append, sent_append, unordered_accepted silent, unordered_sent silent,
      List.append_nil, List.append_nil]
    exact orderly.sent tier
  · rw [told]
    exact unordered_turns orderly.turns silent
  · intro prompting
    rw [sameUrgent]
    exact orderly.urgent (prompt.1 ▸ prompting)
  · intro prompting plain
    rw [sameIdle, flight, told, unordered_prompt silent]
    exact orderly.idle (prompt.1 ▸ prompting) (prompt.2 ▸ plain)

-- A command goes out that was accepted before all that waits in its queue.
theorem orderly_sent {tier : Tier} {command : Command}
    (balance : ∀ other, sentBy other session.journal ++
      (if other = tier then [command] else []) ++ session.queue other =
        acceptedBy other session.journal)
    (turns : IdleInTurn session.journal)
    (turn : tier = .idle → session.urgent = [] ∧ lastPrompt? session.journal = some .prompt) :
    (session.sendOut (some tier) command).Orderly := by
  have wrote : ∀ event ∈ (if session.process.pipeBroken then []
      else [Event.wrote command.written]), event.Unordered := by
    intro event member
    split at member
    · cases member
    · exact unordered_single ⟨fun _ => rfl, fun _ => rfl, rfl⟩ event member
  have shape : (session.sendOut (some tier) command).journal =
      (session.journal ++ [.sent (some tier) command]) ++
        (if session.process.pipeBroken then [] else [.wrote command.written]) := by
    simp [Session.sending]
  -- When it goes out, no urgent command waits, so all of those accepted have been sent.
  have sentTurn : IdleInTurn (session.journal ++ [.sent (some tier) command]) := by
    apply in_turn_snoc turns
    rintro other same
    obtain ⟨sameTier, -⟩ := Event.sent.inj same
    obtain rfl := Option.some.inj sameTier
    obtain ⟨noUrgent, posed⟩ := turn rfl
    refine ⟨?_, posed⟩
    have whole := balance .urgent
    simpa [Session.queue, noUrgent] using whole
  refine balanced_orderly ⟨?_, ?_⟩ (by simp) (by simp)
  · intro other
    have queue : (session.sendOut (some tier) command).queue other = session.queue other := by
      cases other <;> simp [Session.queue]
    have accepted : acceptedBy other [Event.sent (some tier) command] = [] := rfl
    have sent : sentBy other [Event.sent (some tier) command] =
        if other = tier then [command] else [] := by
      cases other <;> cases tier <;> rfl
    rw [shape, queue, accepted_append, sent_append, unordered_accepted wrote, unordered_sent wrote,
      accepted_append, sent_append, accepted, sent, List.append_nil, List.append_nil,
      List.append_nil]
    exact balance other
  · rw [shape]
    exact unordered_turns sentTurn wrote

theorem heard_accepted (session : Session) (tier : Tier) (command : Command) (other : Tier) :
    acceptedBy other (session.log (.accepted tier command)).journal =
      acceptedBy other session.journal ++ if other = tier then [command] else [] := by
  rw [Session.log, accepted_append]
  cases other <;> cases tier <;> rfl

theorem heard_sent (session : Session) (tier : Tier) (command : Command) (other : Tier) :
    sentBy other (session.log (.accepted tier command)).journal = sentBy other session.journal := by
  rw [Session.log, sent_append]
  exact List.append_nil _

-- What may be sent at once finds its own queue empty.
theorem orderly_past_queue (orderly : session.Orderly) (alive : session.isClosed = false)
    {tier : Tier} (command : Command) (ready : session.mayWrite tier = true) :
    ((session.log (.accepted tier command)).sendOut (some tier) command).Orderly := by
  have empty : session.queue tier = [] ∧ (tier = .idle → session.urgent = [] ∧
      lastPrompt? (session.log (.accepted tier command)).journal = some .prompt) := by
    cases tier with
    | urgent => exact ⟨orderly.urgent ready, by rintro ⟨⟩⟩
    | idle =>
      simp only [Session.mayWrite, Bool.and_eq_true, Bool.not_eq_true', List.isEmpty_iff] at ready
      obtain ⟨idle, -, posed⟩ := orderly.idle ready.1.1 ready.1.2
      exact ⟨idle, fun _ => ⟨ready.2, (last_prompt_kept rfl).trans posed⟩⟩
  have same (other : Tier) : (session.log (.accepted tier command)).queue other =
      session.queue other := by
    cases other <;> rfl
  apply orderly_sent ?_ (in_turn_kept orderly.turns rfl) empty.2
  intro other
  rw [heard_accepted, heard_sent, same, ← orderly.balance alive other]
  by_cases own : other = tier
  · subst own
    simp [empty.1]
  · simp [own]

-- What waits although gdb is at a prompt is an idle command, and the prompt a question.
theorem orderly_queued (orderly : session.Orderly) (alive : session.isClosed = false)
    {tier : Tier} (command : Command) (busy : session.mayWrite tier = false) :
    ((session.log (.accepted tier command)).push tier command).Orderly := by
  have waits (prompting : session.prompting = true) : tier = .idle ∧ session.questioned = true := by
    cases tier with
    | urgent => exact absurd (prompting.symm.trans busy) (by decide)
    | idle =>
      refine ⟨rfl, ?_⟩
      simpa [Session.mayWrite, prompting, orderly.urgent prompting] using busy
  apply balanced_orderly
  · constructor
    · intro other
      have told : ((session.log (.accepted tier command)).push tier command).journal =
          (session.log (.accepted tier command)).journal := by
        cases tier <;> rfl
      have queue : ((session.log (.accepted tier command)).push tier command).queue other =
          session.queue other ++ if other = tier then [command] else [] := by
        cases other <;> cases tier <;>
          simp [Session.push, Session.queue, Session.withQueue, Session.log]
      rw [told, queue, heard_accepted, heard_sent, ← List.append_assoc, orderly.balance alive other]
    · have turns : IdleInTurn (session.log (.accepted tier command)).journal :=
        in_turn_kept orderly.turns rfl
      cases tier <;> exact turns
  · intro prompting
    have before : session.prompting = true := by cases tier <;> exact prompting
    obtain ⟨rfl, -⟩ := waits before
    exact orderly.urgent before
  · intro prompting plain
    have before : session.prompting = true := by cases tier <;> exact prompting
    obtain ⟨rfl, asked⟩ := waits before
    exact absurd (asked.symm.trans plain) (by decide)

theorem orderly_accepted (orderly : session.Orderly) (alive : session.isClosed = false)
    (tier : Tier) (command : Command) : (session.accept tier command).Orderly := by
  unfold Session.accept
  dsimp only
  split
  · next ready => exact orderly_past_queue orderly alive command ready
  · next busy => exact orderly_queued orderly alive command (by simpa using busy)

theorem orderly_poll (balanced : session.Balanced)
    (posed : lastPrompt? session.journal = some .prompt) : session.poll.Orderly := by
  have balance := balanced.balance
  unfold Session.poll
  split
  · next command rest high =>
    refine orderly_sent ?_ (by simpa using balanced.turns) (by rintro ⟨⟩)
    intro other
    rw [Session.release_journal, ← balance other]
    cases other <;> simp [Session.queue, high]
  · next command rest high low =>
    refine orderly_sent ?_ (by simpa using balanced.turns) fun _ => ⟨by simpa using high, by simpa using posed⟩
    intro other
    rw [Session.release_journal, ← balance other]
    cases other <;> simp [Session.queue, low]
  · next high low =>
    refine balanced_orderly ⟨?_, ?_⟩ ?_ ?_
    · intro other
      have accepted : acceptedBy other [Event.idled] = [] := rfl
      have sent : sentBy other [Event.idled] = [] := rfl
      simp only [Session.log, Session.release_journal, accepted_append, sent_append, accepted, sent,
        List.append_nil, ← balance other]
      cases other <;> simp [Session.queue]
    · simpa [Session.log] using in_turn_kept balanced.turns rfl
    · intro _
      simpa [Session.log] using high
    · intro _ _
      refine ⟨by simpa [Session.log] using low, by simp [Session.log], ?_⟩
      have silent : Event.idled.prompt? = none := rfl
      simpa [Session.log] using (last_prompt_kept silent).trans posed

theorem orderly_ask (balanced : session.Balanced) : session.ask.Orderly := by
  have balance := balanced.balance
  unfold Session.ask
  split
  · next command rest high =>
    refine orderly_sent ?_ balanced.turns (by rintro ⟨⟩)
    intro other
    rw [← balance other]
    cases other <;> simp [Session.queue, high]
  · next high =>
    refine balanced_orderly ⟨?_, balanced.turns⟩ (fun _ => high) (by simp)
    intro other
    rw [← balance other]
    cases other <;> rfl

theorem balanced_annotated (balanced : session.Balanced) (marker : Marker) :
    (session.log (.annotated marker)).Balanced := by
  refine ⟨?_, in_turn_kept balanced.turns rfl⟩
  intro tier
  have accepted : acceptedBy tier [Event.annotated marker] = [] := rfl
  have sent : sentBy tier [Event.annotated marker] = [] := rfl
  simp only [Session.log, accepted_append, sent_append, accepted, sent, List.append_nil,
    ← balanced.balance tier]
  cases tier <;> rfl

theorem orderly_fulfilled (orderly : session.Orderly) (alive : session.isClosed = false) :
    session.fulfil.Orderly := by
  rcases session.fulfil_cases with ⟨-, events, told, same⟩ | ⟨command, view, -, -, same⟩ <;> rw [same]
  · refine orderly_kept orderly _ rfl ?_ (by rintro ⟨⟩ <;> rfl) (fun _ => alive) ⟨rfl, rfl⟩ rfl
    intro event member
    rcases told with rfl | ⟨command, rfl⟩
    · cases member
    · exact unordered_single ⟨fun _ => rfl, fun _ => rfl, rfl⟩ event member
  · refine orderly_kept orderly _ rfl ?_ (by rintro ⟨⟩ <;> rfl) (fun _ => alive) ⟨rfl, rfl⟩ rfl
    intro event member
    simp only [List.mem_cons, List.not_mem_nil, or_false] at member
    rcases member with rfl | rfl | rfl <;> exact ⟨fun _ => rfl, fun _ => rfl, rfl⟩

theorem orderly_reaction (orderly : session.Orderly) (alive : session.isClosed = false)
    {marker : Marker} (reaction : Reaction marker session later) : later.Orderly := by
  have heard := balanced_annotated (orderly_balanced orderly alive) marker
  have unordered (silent : (Event.annotated marker).prompt? = none) :
      ∀ event ∈ [Event.annotated marker], event.Unordered :=
    unordered_single ⟨fun _ => rfl, fun _ => rfl, silent⟩
  cases reaction with
  | prompt kind =>
    have entered : ((session.log (.annotated marker)).enter .prompt).Balanced := by
      refine ⟨fun tier => ?_, heard.turns⟩
      have balance := heard.balance tier
      cases tier <;> exact balance
    exact orderly_poll entered (last_prompt_new (by simp [Event.prompt?, kind]))
  | question kind => exact orderly_ask heard
  | phase kind between =>
    have silent : (Event.annotated marker).prompt? = none := by
      cases same : marker.kind <;> simp_all [Event.prompt?, Annotation.phase?]
    exact orderly_kept orderly _ rfl (unordered silent) (by rintro ⟨⟩ <;> rfl) (fun _ => alive)
      ⟨rfl, rfl⟩ rfl
  | fulfilled kind =>
    have silent : (Event.annotated marker).prompt? = none := by simp [Event.prompt?, kind]
    have told : (session.log (.annotated marker)).Orderly :=
      orderly_kept orderly _ rfl (unordered silent) (by rintro ⟨⟩ <;> rfl) (fun _ => alive)
        ⟨rfl, rfl⟩ rfl
    exact orderly_fulfilled told alive
  | remark kind plain =>
    have silent : (Event.annotated marker).prompt? = none := by
      cases same : marker.kind <;> simp_all [Event.prompt?, Annotation.phase?]
    exact orderly_kept orderly _ rfl (unordered silent) (by rintro ⟨⟩ <;> rfl) (fun _ => alive)
      ⟨rfl, rfl⟩ rfl

end Orderly

section Moves

variable {allowed : Operation → Bool} {session later : Session}

/-- Operations that keep the order of commands. The others put commands in flight or take them out
of their queues past what gdb said, or change the state by hand. -/
def Operation.isRegular : Operation → Bool
  | .send _ | .answerPrompt | .answerQuestion | .takeFirst _ | .setSink _ | .setPrompting _ => false
  | _ => true

theorem orderly_closed (orderly : session.Orderly) : session.close.Orderly := by
  unfold Session.close
  split
  · exact orderly
  · exact ⟨by simp [Session.isClosed], orderly.sent, orderly.turns, by simp, by simp⟩

theorem orderly_heard (orderly : session.Orderly) (text : String) :
    (session.hear text).Orderly ∧ (session.hear text).isClosed = session.isClosed := by
  obtain ⟨display, gathered, events, same, told⟩ := session.hear_shape text
  rw [same]
  refine ⟨orderly_kept orderly _ rfl ?_ (by rintro ⟨⟩ <;> rfl) id ⟨rfl, rfl⟩ rfl, rfl⟩
  intro event member
  obtain rfl := told event member
  exact ⟨fun _ => rfl, fun _ => rfl, rfl⟩

theorem orderly_passed (orderly : session.Orderly) (text : String) (held : Bytes) (midLine : Bool) :
    (session.pass text held midLine).Orderly ∧
      (session.pass text held midLine).isClosed = session.isClosed := by
  have kept : (session.hold held midLine).Orderly :=
    orderly_kept orderly [] (by simp [Session.hold]) (by simp) (by rintro ⟨⟩ <;> rfl) id ⟨rfl, rfl⟩ rfl
  exact orderly_heard kept text

theorem orderly_move (regular : ∀ operation, allowed operation = true → operation.isRegular = true)
    (orderly : session.Orderly) (move : Move allowed session later) : later.Orderly := by
  have never {operation : Operation} (granted : allowed operation = true)
      (raw : operation.isRegular = false) : later.Orderly :=
    absurd ((regular operation granted).symm.trans raw) (by decide)
  have kept (same : later.journal = session.journal)
      (queues : ∀ tier, later.queue tier = session.queue tier)
      (closed : later.isClosed = session.isClosed)
      (prompt : later.prompting = session.prompting ∧ later.questioned = session.questioned)
      (flight : later.inFlight = session.inFlight) : later.Orderly :=
    orderly_kept orderly [] (by simp [same]) (by simp) queues (closed ▸ id) prompt flight
  cases move with
  | accept own alive => exact orderly_accepted orderly alive _ _
  | @request id view alive =>
    have awaited : (session.await id).Orderly :=
      orderly_kept orderly [] (by simp [Session.await]) (by simp)
        (by rintro ⟨⟩ <;> rfl)
        (fun _ => alive) ⟨rfl, rfl⟩ rfl
    exact orderly_accepted awaited alive _ _
  | react _ alive reaction => exact orderly_reaction orderly alive reaction
  | complain message =>
    have silent : ∀ event ∈ [Event.reported message], event.Unordered :=
      unordered_single ⟨fun _ => rfl, fun _ => rfl, rfl⟩
    exact orderly_kept orderly _ rfl silent (by rintro ⟨⟩ <;> rfl) id ⟨rfl, rfl⟩ rfl
  | @arrive _ bytes =>
    have silent : ∀ event ∈ [Event.arrived bytes], event.Unordered :=
      unordered_single ⟨fun _ => rfl, fun _ => rfl, rfl⟩
    exact orderly_kept orderly _ rfl silent (by rintro ⟨⟩ <;> rfl) id ⟨rfl, rfl⟩ rfl
  | @cut _ cut _ _ alive _ reaction =>
    have passed := orderly_passed orderly (Utf8.decode cut.before) cut.after false
    exact orderly_reaction passed.1 (passed.2.trans alive) reaction
  | hear => exact (orderly_heard orderly _).1
  | lines | flush => exact (orderly_passed orderly _ _ _).1
  | close => exact orderly_closed orderly
  | send granted => exact never (allowed_of_within granted) rfl
  | take granted | poll granted | ask granted | setSink granted | setPrompting granted =>
    exact never granted rfl
  | note | addBuffer | removeBuffer | register | registerHandled | setPipe =>
    exact kept rfl (by rintro ⟨⟩ <;> rfl) rfl ⟨rfl, rfl⟩ rfl

theorem orderly_lapses
    (regular : ∀ operation, allowed operation = true → operation.isRegular = true)
    (orderly : session.Orderly) (lapses : Lapses allowed session later) : later.Orderly := by
  induction lapses with
  | refl => exact orderly
  | tail _ lapse ih =>
    cases lapse with
    | move move => exact orderly_move regular ih move
    | skip => exact (orderly_passed ih _ _ _).1
    | abort => exact orderly_closed ih

theorem orderly_start (process : Subprocess) (views : Catalog) :
    (Session.start process views).Orderly := by
  refine balanced_orderly ⟨fun tier => ?_, ?_⟩ (by rintro ⟨⟩) (by rintro ⟨⟩)
  · cases tier <;> rfl
  · intro before command begins
    have empty := List.prefix_nil.mp begins
    simp at empty

end Moves

/-- What a queue is recorded to accept is what it is recorded to be given. -/
theorem accepted_enqueued (tier : Tier) (events : List Event) :
    acceptedBy tier events = enqueuedIn tier (callsIn events) := by
  unfold acceptedBy enqueuedIn callsIn
  rw [List.filterMap_filterMap]
  refine congrArg (List.filterMap · events) (funext fun event => ?_)
  cases event <;> rfl

/-- The commands of a session come and go in order, if it was given those of the calls. -/
structure Session.KeepsOrder (session : Session) (calls : List Call) : Prop where
  recorded : callsIn session.journal = calls
  /-- No command is lost, comes twice or overtakes another of its queue. -/
  balance : session.isClosed = false → ∀ tier,
    sentBy tier session.journal ++ session.queue tier = enqueuedIn tier calls
  /-- A session that was closed sends no more, and has kept the order until then. -/
  sent : ∀ tier, sentBy tier session.journal <+: enqueuedIn tier calls
  turns : IdleInTurn session.journal

/-- Whatever a session is asked for and whatever gdb writes: each queue gives its commands out in
the order in which it was given them, by those who use the session, by handlers and by views that
fall due, and keeps all others until the session is closed; and whenever an idle command goes out, no
urgent one waits and gdb is at its prompt, not at a question. -/
theorem commands_keep_order {process : Subprocess} {views : Catalog} {operations : List Operation}
    (inside : views.Within Operation.isRegular)
    (regular : ∀ operation ∈ operations, operation.within Operation.isRegular = true) :
    ((Session.start process views).afterAll operations).KeepsOrder
      ((Session.start process views).calls operations) := by
  have run := reaches_after_all regular (Session.start process views)
  have lapses := Session.lapses_reaches (Session.start_within process inside) run
  have orderly := orderly_lapses (fun _ => id) (orderly_start process views) lapses
  have recorded := calls_recorded (Session.start process views) operations
  have same (tier : Tier) := accepted_enqueued tier
    ((Session.start process views).afterAll operations).journal
  rw [recorded] at same
  exact ⟨recorded, fun alive tier => (orderly.balance alive tier).trans (same tier),
    fun tier => same tier ▸ orderly.sent tier, orderly.turns⟩

/-- A handler enqueues a command, a view falls due, and gdb ceases to read its input. What was
enqueued goes out all the same, the urgent commands first. -/
theorem order_kept_into_broken_pipe :
    let operations : List Operation :=
      [.registerHandled "display" "info display" true .discard,
        .enqueue .idle (.typed "finish"),
        .enqueue .urgent
          (.mk "info locals" (some (.routine "locals" [.enqueue .urgent (.typed "next")] none)) none),
        .requestRefresh "display",
        .react ⟨"prompt", none⟩, .react ⟨"post-prompt", none⟩, .react ⟨"pre-prompt", none⟩,
        .setPipe true, .react ⟨"prompt", none⟩, .react ⟨"query", none⟩, .react ⟨"prompt", none⟩]
    let start := Session.start ⟨1, none, [], false, false, false⟩ Table.empty
    let session := start.afterAll operations
    session.process.pipeBroken = true ∧ session.isClosed = false ∧
      (sentBy .urgent session.journal).map Command.text = ["info locals", "next"] ∧
      (sentBy .idle session.journal).map Command.text = ["finish"] ∧
      session.idle.map Command.text = ["info display"] ∧
      session.KeepsOrder (start.calls operations) := by
  intro operations start session
  have inside : Catalog.Within Operation.isRegular Table.empty := by
    intro view member
    cases member
  have regular : ∀ operation ∈ operations, operation.within Operation.isRegular = true := by
    decide
  have shown : (session.process.pipeBroken, session.isClosed,
      (sentBy .urgent session.journal).map Command.text,
      (sentBy .idle session.journal).map Command.text, session.idle.map Command.text) =
      (true, false, ["info locals", "next"], ["finish"], ["info display"]) := by
    decide +kernel
  simp only [Prod.mk.injEq] at shown
  obtain ⟨broken, alive, urgent, idle, waiting⟩ := shown
  exact ⟨broken, alive, urgent, idle, waiting, commands_keep_order inside regular⟩

end GdbControl
