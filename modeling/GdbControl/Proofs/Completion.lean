import GdbControl.Proofs.Shifts
import Mathlib.Data.List.Induction

/-!
Every completed command got its own output, and got it once. Phases may be announced in any order,
commands may be cut short by questions, by other commands and by the end of the session; yet an output
is handed over only at the end of an errand that nothing disturbed: the command went out, gdb began to
answer it, and the answer ended. So the output is what was heard in between.
-/

namespace GdbControl

/-- An event on which it turns how the command in flight goes on: a command goes out, a phase is
announced, an output is handed over. -/
def Event.isDecisive : Event → Bool
  | .sent _ _ | .completed _ _ | .replaced _ _ => true
  | .annotated marker => marker.kind.phase?.isSome
  | _ => false

/-- Where text goes after an event. -/
def Event.sinkAfter (sink : Sink) : Event → Sink
  | .sent _ command => Session.openingSink command
  | .annotated marker =>
    match marker.kind.phase? with
    | some phase => (sink.after? phase).getD .console
    | none => sink
  | _ => sink

/-- The command in flight after an event. -/
def Event.flightAfter (flight : Option Command) : Event → Option Command
  | .sent _ command => some command
  | .annotated marker => if marker.kind = .prompt then none else flight
  | _ => flight

def sinkIn (journal : List Event) : Sink := journal.foldl Event.sinkAfter .console

def flightIn (journal : List Event) : Option Command := journal.foldl Event.flightAfter none

/-- All text that was passed on. -/
def textIn : List Event → String
  | [] => ""
  | .emitted _ text :: rest => text ++ textIn rest
  | _ :: rest => textIn rest

/-- The command with each output that was handed over, and the output. -/
def Event.completion? : Event → Option (Command × String)
  | .completed command output => some (command, output)
  | _ => none

def completionsIn (journal : List Event) : List (Command × String) :=
  journal.filterMap Event.completion?

/-- A command of the session's own that went out, with nothing since on which its course turned. -/
structure Errand where
  early : List Event
  tier : Option Tier
  command : Command
  own : command.handler?.isSome = true
  waiting : List Event
  undisturbed : ∀ event ∈ waiting, event.isDecisive = false

def Errand.untilAnswer (errand : Errand) : List Event :=
  errand.early ++ .sent errand.tier errand.command :: errand.waiting

/-- gdb has begun to answer. -/
structure BegunErrand extends Errand where
  opening : Marker
  opens : opening.kind = .postPrompt
  answer : List Event
  unbroken : ∀ event ∈ answer, event.isDecisive = false

def BegunErrand.untilEnd (errand : BegunErrand) : List Event :=
  errand.untilAnswer ++ .annotated errand.opening :: errand.answer

/-- The answer has ended. -/
structure EndedErrand extends BegunErrand where
  closing : Marker
  closes : closing.kind = .prePrompt

def EndedErrand.whole (errand : EndedErrand) : List Event :=
  errand.untilEnd ++ [.annotated errand.closing]

/-- An output is due at the end of the errand on which it was heard. A view gets an output that was
handed over to it just now. -/
def Event.Due (before : List Event) : Event → Prop
  | .completed command output => ∃ errand : EndedErrand,
    before = errand.whole ∧ command = errand.command ∧ output = textIn errand.answer
  | .replaced view text => ∃ earlier command,
    before = earlier ++ [.completed command text] ∧ command.handler? = some (.refresh view)
  | _ => True

section Record

variable {journal events : List Event} {event : Event}

theorem text_append (front back : List Event) :
    textIn (front ++ back) = textIn front ++ textIn back := by
  induction front with
  | nil => simp [textIn]
  | cons event rest ih => cases event <;> simp [textIn, ih, String.append_assoc]

theorem due_quiet (quiet : event.isDecisive = false) (before : List Event) : event.Due before := by
  cases event <;> first | exact trivial | cases quiet

theorem after_quiet (quiet : event.isDecisive = false) (sink : Sink) (flight : Option Command) :
    event.sinkAfter sink = sink ∧ event.flightAfter flight = flight := by
  cases event with
  | sent | completed | replaced => cases quiet
  | annotated marker =>
    have still : marker.kind.phase? = none := by simpa [Event.isDecisive] using quiet
    have other : marker.kind ≠ .prompt := by
      intro same
      simp [same, Annotation.phase?] at still
    simp [Event.sinkAfter, Event.flightAfter, still, other]
  | _ => exact ⟨rfl, rfl⟩

theorem sink_snoc (journal : List Event) (event : Event) :
    sinkIn (journal ++ [event]) = event.sinkAfter (sinkIn journal) := by
  simp [sinkIn]

theorem flight_snoc (journal : List Event) (event : Event) :
    flightIn (journal ++ [event]) = event.flightAfter (flightIn journal) := by
  simp [flightIn]

theorem replay_quiet (journal : List Event) (quiet : ∀ event ∈ events, event.isDecisive = false) :
    sinkIn (journal ++ events) = sinkIn journal ∧ flightIn (journal ++ events) = flightIn journal := by
  induction events generalizing journal with
  | nil => simp
  | cons event rest ih =>
    have later := ih (journal ++ [event]) fun other member => quiet other (List.mem_cons_of_mem event member)
    have now := after_quiet (quiet event List.mem_cons_self) (sinkIn journal) (flightIn journal)
    rw [sink_snoc, flight_snoc, now.1, now.2] at later
    simpa using later

theorem replay_quiet_cons (journal : List Event) (event : Event)
    (quiet : ∀ event ∈ events, event.isDecisive = false) :
    sinkIn (journal ++ event :: events) = event.sinkAfter (sinkIn journal) ∧
      flightIn (journal ++ event :: events) = event.flightAfter (flightIn journal) := by
  have later := replay_quiet (journal ++ [event]) quiet
  rw [sink_snoc, flight_snoc] at later
  simpa using later

theorem errand_awaits (errand : Errand) :
    sinkIn errand.untilAnswer = .beforeOutput ∧ flightIn errand.untilAnswer = some errand.command := by
  have replay := replay_quiet_cons errand.early (.sent errand.tier errand.command) errand.undisturbed
  simpa [Errand.untilAnswer, Event.sinkAfter, Event.flightAfter, Session.openingSink, errand.own]
    using replay

theorem errand_gathers (errand : BegunErrand) :
    sinkIn errand.untilEnd = .gathering ∧ flightIn errand.untilEnd = some errand.command := by
  obtain ⟨awaits, flight⟩ := errand_awaits errand.toErrand
  have replay := replay_quiet_cons errand.untilAnswer (.annotated errand.opening) errand.unbroken
  simpa [BegunErrand.untilEnd, Event.sinkAfter, Event.flightAfter, awaits, flight, errand.opens,
    Annotation.phase?, Sink.after?] using replay

theorem errand_ends (errand : EndedErrand) :
    sinkIn errand.whole = .afterOutput ∧ flightIn errand.whole = some errand.command := by
  obtain ⟨gathers, flight⟩ := errand_gathers errand.toBegunErrand
  simp [EndedErrand.whole, sink_snoc, flight_snoc, Event.sinkAfter, Event.flightAfter, gathers, flight,
    errand.closes, Annotation.phase?, Sink.after?]

-- What the end of an errand brings about is due there.
theorem due_handed (errand : EndedErrand) (earlier : Lawful Event.Due errand.whole)
    (shown : events = [] ∨ ∃ view, errand.command.handler? = some (.refresh view) ∧
      events = [.replaced view (textIn errand.answer), .refreshed view]) :
    Lawful Event.Due (errand.whole ++ .completed errand.command (textIn errand.answer) :: events) := by
  have completed : Lawful Event.Due
      (errand.whole ++ [.completed errand.command (textIn errand.answer)]) :=
    lawful_snoc earlier ⟨errand, rfl, rfl, rfl⟩
  rcases shown with rfl | ⟨view, handled, rfl⟩
  · exact completed
  · have replaced : Lawful Event.Due
        (errand.whole ++ [.completed errand.command (textIn errand.answer)] ++
          [.replaced view (textIn errand.answer)]) := lawful_snoc completed ⟨_, _, rfl, handled⟩
    have refreshed : Lawful Event.Due
        (errand.whole ++ [.completed errand.command (textIn errand.answer)] ++
          [.replaced view (textIn errand.answer)] ++ [.refreshed view]) := lawful_snoc replaced trivial
    simpa using refreshed

-- What came after the last command that went out does not depend on where one looks for it.
theorem since_sent_unique {front back front' back' : List Event} {sent sent' : Event}
    (same : front ++ sent :: back = front' ++ sent' :: back')
    (out : sent.isSent = true) (unsent : ∀ event ∈ back, event.isSent = false)
    (out' : sent'.isSent = true) (unsent' : ∀ event ∈ back', event.isSent = false) :
    back = back' := by
  have since (front : List Event) {back : List Event} {sent : Event} (out : sent.isSent = true)
      (unsent : ∀ event ∈ back, event.isSent = false) :
      (front ++ sent :: back).reverse.takeWhile (!·.isSent) = back.reverse := by
    rw [List.reverse_append, List.reverse_cons, List.append_assoc,
      List.takeWhile_append_of_pos (by simpa using unsent)]
    simp [out]
  have whole := since front out unsent
  rw [same, since front' out' unsent'] at whole
  exact (List.reverse_inj.mp whole).symm

-- Nothing goes out and no output is handed over where nothing turns.
theorem uneventful_quiet (quiet : event.isDecisive = false) :
    event.isSent = false ∧ event.completion? = none := by
  cases event <;> first | exact ⟨rfl, rfl⟩ | cases quiet

theorem completions_append (front back : List Event) :
    completionsIn (front ++ back) = completionsIn front ++ completionsIn back :=
  List.filterMap_append

theorem completions_none (silent : ∀ event ∈ events, event.completion? = none) :
    completionsIn events = [] :=
  List.filterMap_eq_nil_iff.mpr silent

-- Since the command of an errand went out, no other one did, and no output was handed over.
theorem errand_fresh (errand : EndedErrand) {before during : List Event} {tier : Option Tier}
    {command : Command} (same : before ++ .sent tier command :: during = errand.whole)
    (unsent : ∀ event ∈ during, event.isSent = false) : completionsIn during = [] := by
  let since := errand.waiting ++ .annotated errand.opening :: (errand.answer ++ [.annotated errand.closing])
  have whole : errand.whole = errand.early ++ .sent errand.tier errand.command :: since := by
    simp [since, EndedErrand.whole, BegunErrand.untilEnd, Errand.untilAnswer]
  have uneventful : ∀ event ∈ since, event.isSent = false ∧ event.completion? = none := by
    intro event member
    simp only [since, List.mem_append, List.mem_cons, List.not_mem_nil, or_false] at member
    rcases member with waited | rfl | answered | rfl
    · exact uneventful_quiet (errand.undisturbed event waited)
    · exact ⟨rfl, rfl⟩
    · exact uneventful_quiet (errand.unbroken event answered)
    · exact ⟨rfl, rfl⟩
  rw [whole] at same
  rw [since_sent_unique same rfl unsent rfl fun event member => (uneventful event member).1]
  exact completions_none fun event member => (uneventful event member).2

/-- Where every output was due, at most one is handed over after each command that goes out. By
induction from the end of the record. -/
theorem completed_once (due : Lawful Event.Due journal) {before during : List Event}
    {tier : Option Tier} {command : Command}
    (begins : before ++ .sent tier command :: during <+: journal)
    (unsent : ∀ event ∈ during, event.isSent = false) : (completionsIn during).length ≤ 1 := by
  induction during using List.reverseRecOn with
  | nil => simp [completionsIn]
  | append_singleton during event ih =>
    have still : ∀ event ∈ during, event.isSent = false :=
      fun other member => unsent other (List.mem_append_left _ member)
    have cut : (before ++ .sent tier command :: during) ++ [event] <+: journal := by simpa using begins
    rw [completions_append]
    cases handed : event.completion? with
    | none =>
      have nothing : completionsIn [event] = [] := completions_none (by simpa using handed)
      rw [nothing, List.append_nil]
      exact ih ((List.prefix_append _ _).trans cut) still
    | some completion =>
      cases event <;> cases handed
      obtain ⟨errand, same, -, -⟩ := due _ _ cut
      rw [errand_fresh errand same still]
      exact Nat.le_refl 1

end Record

/-- The invariant of errands: where the session stands on one is where its record says. -/
structure Session.Faithful (session : Session) : Prop where
  due : Lawful Event.Due session.journal
  awaits : session.sink = .beforeOutput → ∃ errand : Errand,
    session.journal = errand.untilAnswer ∧ session.inFlight = some errand.command ∧
      session.gathered = ""
  gathers : session.sink = .gathering → ∃ errand : BegunErrand,
    session.journal = errand.untilEnd ∧ session.inFlight = some errand.command ∧
      session.gathered = textIn errand.answer
  replay : session.isClosed = false →
    session.sink = sinkIn session.journal ∧ session.inFlight = flightIn session.journal

section Faithful

variable {session later : Session}

/-- An errand goes on through events on which nothing turns. -/
def Errand.wait (errand : Errand) (events : List Event)
    (quiet : ∀ event ∈ events, event.isDecisive = false) : Errand :=
  { errand with
    waiting := errand.waiting ++ events
    undisturbed := by
      intro event member
      exact (List.mem_append.mp member).elim (errand.undisturbed event) (quiet event) }

def BegunErrand.proceed (errand : BegunErrand) (events : List Event)
    (quiet : ∀ event ∈ events, event.isDecisive = false) : BegunErrand :=
  { errand with
    answer := errand.answer ++ events
    unbroken := by
      intro event member
      exact (List.mem_append.mp member).elim (errand.unbroken event) (quiet event) }

theorem faithful_kept (faithful : session.Faithful) {events : List Event}
    (sink : later.sink = session.sink) (flight : later.inFlight = session.inFlight)
    (told : later.journal = session.journal ++ events)
    (quiet : ∀ event ∈ events, event.isDecisive = false)
    (blank : session.sink = .beforeOutput → later.gathered = session.gathered)
    (heard : session.sink = .gathering → later.gathered = session.gathered ++ textIn events) :
    later.Faithful := by
  constructor
  · rw [told]
    exact lawful_append faithful.due fun event member before => due_quiet (quiet event member) before
  · intro awaiting
    obtain ⟨errand, record, same, empty⟩ := faithful.awaits (sink ▸ awaiting)
    refine ⟨errand.wait events quiet, ?_, flight.trans same, (blank (sink ▸ awaiting)).trans empty⟩
    rw [told, record]
    simp [Errand.wait, Errand.untilAnswer]
  · intro gathering
    obtain ⟨errand, record, same, whole⟩ := faithful.gathers (sink ▸ gathering)
    refine ⟨errand.proceed events quiet, ?_, flight.trans same, ?_⟩
    · rw [told, record]
      simp [BegunErrand.proceed, BegunErrand.untilEnd]
    · rw [heard (sink ▸ gathering), whole, ← text_append]
      rfl
  · intro alive
    have before : session.isClosed = false := by
      rw [Session.isClosed, ← sink]
      exact alive
    have replay := replay_quiet session.journal quiet
    rw [told, replay.1, replay.2, sink, flight]
    exact faithful.replay before

-- Whatever came before, a command that goes out begins anew.
theorem faithful_sent (due : Lawful Event.Due session.journal) (tier : Option Tier)
    (command : Command) : (session.sendOut tier command).Faithful := by
  let wrote : List Event := if session.process.pipeBroken then [] else [.wrote command.written]
  have quiet : ∀ event ∈ wrote, event.isDecisive = false := by
    intro event member
    simp only [wrote] at member
    split at member
    · cases member
    · rw [List.mem_singleton.mp member]
      rfl
  have told : (session.sendOut tier command).journal =
      session.journal ++ .sent tier command :: wrote := session.send_out_journal tier command
  have replay := replay_quiet_cons session.journal (.sent tier command) quiet
  constructor
  · have sent : Lawful Event.Due (session.journal ++ [.sent tier command]) :=
      lawful_snoc due trivial
    have whole := lawful_append sent fun event member before => due_quiet (quiet event member) before
    rw [told]
    simpa using whole
  · intro awaiting
    have own : command.handler?.isSome = true := by
      simpa [Session.openingSink, Option.isSome_iff_ne_none] using awaiting
    refine ⟨⟨session.journal, tier, command, own, wrote, quiet⟩, told, by simp, ?_⟩
    simp [Session.send_out_eq, own]
  · intro gathering
    simp only [Session.send_out_sink, Session.openingSink] at gathering
    split at gathering <;> cases gathering
  · intro _
    rw [told, replay.1, replay.2]
    exact ⟨by simp [Event.sinkAfter], by simp [Event.flightAfter]⟩

-- No errand is under way.
theorem faithful_elsewhere (due : Lawful Event.Due session.journal)
    (waiting : session.sink ≠ .beforeOutput) (gathering : session.sink ≠ .gathering)
    (replay : session.sink = sinkIn session.journal ∧ session.inFlight = flightIn session.journal) :
    session.Faithful :=
  ⟨due, fun same => absurd same waiting, fun same => absurd same gathering, fun _ => replay⟩

theorem faithful_poll (due : Lawful Event.Due session.journal) (console : session.sink = .console)
    (replay : sinkIn session.journal = .console ∧ flightIn session.journal = none) :
    session.poll.Faithful := by
  unfold Session.poll
  split
  · exact faithful_sent (by simpa using due) _ _
  · exact faithful_sent (by simpa using due) _ _
  · refine faithful_elsewhere ?_ (by simp [Session.log, console]) (by simp [Session.log, console]) ?_
    · have idled : Lawful Event.Due (session.journal ++ [.idled]) := lawful_snoc due trivial
      simpa [Session.log] using idled
    · simp [Session.log, console, sink_snoc, flight_snoc, Event.sinkAfter, Event.flightAfter, replay]

theorem faithful_ask (faithful : session.Faithful) : session.ask.Faithful := by
  have asked : ({ session with questioned := true } : Session).Faithful :=
    ⟨faithful.due, faithful.awaits, faithful.gathers, faithful.replay⟩
  unfold Session.ask
  dsimp only
  split
  · refine faithful_sent ?_ _ _
    exact faithful.due
  · exact ⟨asked.due, asked.awaits, asked.gathers, asked.replay⟩

theorem kind_of_phase {marker : Marker} :
    marker.kind.phase? = some .postPrompt → marker.kind = .postPrompt := by
  cases marker.kind <;> decide

theorem faithful_entered (faithful : session.Faithful) (alive : session.isClosed = false)
    {marker : Marker} {phase : Phase} (kind : marker.kind.phase? = some phase)
    (between : phase ≠ .prompt) : ((session.log (.annotated marker)).enter phase).Faithful := by
  have other := other_than_prompt kind between
  obtain ⟨sink, flight⟩ := faithful.replay alive
  constructor
  · exact lawful_snoc faithful.due trivial
  · intro awaiting
    cases same : session.sink <;> cases phase <;>
      simp [Session.enter, Session.log, same, Sink.after?] at awaiting
  · intro gathering
    -- The phase is the beginning of an answer, and the answer is empty so far.
    have begun : session.sink = .beforeOutput ∧ phase = .postPrompt := by
      cases same : session.sink <;> cases phase <;>
        simp [Session.enter, Session.log, same, Sink.after?] at gathering ⊢
    obtain ⟨errand, record, same, empty⟩ := faithful.awaits begun.1
    have opens : marker.kind = .postPrompt := kind_of_phase (begun.2 ▸ kind)
    refine ⟨⟨errand, marker, opens, [], by simp⟩, ?_, same, empty⟩
    simp [Session.enter, Session.log, record, BegunErrand.untilEnd]
  · intro _
    simp [Session.enter, Session.log, sink_snoc, flight_snoc, Event.sinkAfter, Event.flightAfter,
      kind, other, sink, flight]

-- An output that ends is handed over, and shown if it is the text of a view.
theorem fulfil_hands_over {command : Command} {output : String}
    (flight : session.inFlight = some command) (own : command.handler?.isSome = true)
    (whole : session.gathered = output) :
    session.fulfil.sink = .afterOutput ∧ session.fulfil.inFlight = some command ∧
      ∃ events, session.fulfil.journal = session.journal ++ .completed command output :: events ∧
        (events = [] ∨ ∃ view, command.handler? = some (.refresh view) ∧
          events = [.replaced view output, .refreshed view]) := by
  obtain ⟨handler, handled⟩ := Option.isSome_iff_exists.mp own
  unfold Session.fulfil
  simp only [flight, handled, whole]
  cases handler with
  | refresh view =>
    refine ⟨rfl, rfl, [.replaced view output, .refreshed view], ?_, .inr ⟨view, rfl, rfl⟩⟩
    simp [Session.finish, Session.log, Session.settle]
  | discard | routine => exact ⟨rfl, rfl, [], rfl, .inl rfl⟩

theorem faithful_fulfilled (faithful : session.Faithful) {marker : Marker}
    (kind : marker.kind = .prePrompt) (gathering : session.sink = .gathering) :
    (session.log (.annotated marker)).fulfil.Faithful := by
  obtain ⟨errand, record, flight, whole⟩ := faithful.gathers gathering
  let ended : EndedErrand := ⟨errand, marker, kind⟩
  have told : (session.log (.annotated marker)).journal = ended.whole :=
    congrArg (· ++ [Event.annotated marker]) record
  have closing : Lawful Event.Due (session.log (.annotated marker)).journal :=
    lawful_snoc faithful.due trivial
  have flies : (session.log (.annotated marker)).inFlight = some errand.command := flight
  obtain ⟨sink, kept, events, handed, shown⟩ := fulfil_hands_over flies errand.own whole
  rw [told] at handed closing
  refine faithful_elsewhere ?_ (by simp [sink]) (by simp [sink]) ?_
  · rw [handed]
    exact due_handed ended closing shown
  · obtain ⟨ends, own⟩ := errand_ends ended
    rw [handed, sink, kept]
    rcases shown with rfl | ⟨view, -, rfl⟩ <;>
      simp [sinkIn, flightIn, Event.sinkAfter, Event.flightAfter] at ends own ⊢ <;>
      exact ⟨ends.symm, own.symm⟩

theorem faithful_reaction (faithful : session.Faithful) (alive : session.isClosed = false)
    {marker : Marker} (reaction : Reaction marker session later) : later.Faithful := by
  have remarked (still : marker.kind.phase? = none) :
      (session.log (.annotated marker)).Faithful := by
    have told : (session.log (.annotated marker)).journal = session.journal ++ [.annotated marker] :=
      rfl
    refine faithful_kept faithful rfl rfl told ?_ (fun _ => rfl) ?_
    · simp [Event.isDecisive, still]
    · simp [Session.log, textIn]
  cases reaction with
  | prompt kind =>
    have console (sink : Sink) : (sink.after? .prompt).getD .console = .console := by
      cases sink <;> rfl
    refine faithful_poll (lawful_snoc faithful.due trivial) (console session.sink) ?_
    simp [Session.enter, Session.log, sink_snoc, flight_snoc, Event.sinkAfter, Event.flightAfter,
      kind, Annotation.phase?, console]
  | question kind => exact faithful_ask (remarked (by simp [kind, Annotation.phase?]))
  | phase kind between => exact faithful_entered faithful alive kind between
  | fulfilled kind gathering => exact faithful_fulfilled faithful kind gathering
  | remark kind => exact remarked kind

theorem faithful_shift (faithful : session.Faithful) (shift : Shift session later) :
    later.Faithful := by
  cases shift with
  | @aside _ events same told asides =>
    have quiet : ∀ event ∈ events, event.isDecisive = false := by
      intro event member
      have aside := asides event member
      cases event <;> first | rfl | cases aside
    have silent : textIn events = "" := by
      clear told quiet
      induction events with
      | nil => rfl
      | cons event rest ih =>
        have first := asides event List.mem_cons_self
        have others := ih fun other member => asides other (List.mem_cons_of_mem event member)
        cases event <;> first | exact others | cases first
    refine faithful_kept faithful same.sink same.inFlight told quiet (fun _ => same.gathered) fun _ => ?_
    rw [silent, String.append_empty, same.gathered]
  | @hear text spoken =>
    have told : (session.hear text).journal = session.journal ++ [.emitted session.sink text] := by
      rw [hear_spoken session spoken]
    refine faithful_kept faithful ?_ ?_ told (by simp [Event.isDecisive]) ?_ ?_ <;>
      rw [hear_spoken session spoken]
    · simp +contextual
    · simp +contextual [textIn]
  | @queue tier command =>
    have same : ((session.log (.accepted tier command)).push tier command).journal =
        session.journal ++ [.accepted tier command] := by cases tier <;> rfl
    refine faithful_kept faithful ?_ ?_ same (by simp [Event.isDecisive]) (fun _ => ?_) fun _ => ?_
    all_goals cases tier <;> simp [Session.push, Session.withQueue, Session.log, textIn]
  | overtake =>
    refine faithful_sent ?_ _ _
    exact lawful_snoc faithful.due trivial
  | react alive reaction => exact faithful_reaction faithful alive reaction
  | close =>
    unfold Session.close
    split
    · exact faithful
    · exact ⟨faithful.due, by rintro ⟨⟩, by rintro ⟨⟩, by rintro ⟨⟩⟩

theorem faithful_start (process : Subprocess) (views : Catalog) :
    (Session.start process views).Faithful :=
  ⟨lawful_nil, by rintro ⟨⟩, by rintro ⟨⟩, fun _ => ⟨rfl, rfl⟩⟩

-- A closed session hands nothing over, and stays closed.
theorem closed_shift (closed : session.isClosed = true) (shift : Shift session later) :
    later.isClosed = true ∧ completionsIn later.journal = completionsIn session.journal := by
  have never (alive : session.isClosed = false) : False := by
    cases alive.symm.trans closed
  cases shift with
  | aside same told asides =>
    refine ⟨by rwa [Session.isClosed, same.sink], ?_⟩
    rw [told, completions_append]
    refine (congrArg _ (completions_none fun event member => ?_)).trans (List.append_nil _)
    have aside := asides event member
    cases event <;> first | rfl | cases aside
  | hear spoken =>
    rw [hear_spoken session spoken]
    exact ⟨closed, by rw [completions_append]; exact List.append_nil _⟩
  | queue alive | overtake alive | react alive => exact (never alive).elim
  | close =>
    rw [Session.close_of_isClosed closed]
    exact ⟨closed, rfl⟩

theorem closed_shifts (closed : session.isClosed = true) (shifts : Shifts session later) :
    later.isClosed = true ∧ completionsIn later.journal = completionsIn session.journal := by
  induction shifts with
  | refl => exact ⟨closed, rfl⟩
  | tail _ shift ih =>
    obtain ⟨still, same⟩ := closed_shift ih.1 shift
    exact ⟨still, same.trans ih.2⟩

end Faithful

/-- A session has become the later one, and every output that was ever handed over was that of the
command that it answers. -/
structure Session.HandsOver (session later : Session) : Prop where
  own : ∀ before command output, before ++ [.completed command output] <+: later.journal →
    ∃ errand : EndedErrand, before = errand.whole ∧ command = errand.command ∧
      output = textIn errand.answer ∧
      sinkIn errand.untilAnswer = .beforeOutput ∧ sinkIn errand.untilEnd = .gathering ∧
      flightIn errand.untilEnd = some command
  once : ∀ before tier command during, before ++ .sent tier command :: during <+: later.journal →
    (∀ event ∈ during, event.isSent = false) → (completionsIn during).length ≤ 1
  closed : session.isClosed = true → completionsIn later.journal = completionsIn session.journal
  /-- A view gets an output exactly as it was handed over. -/
  placed : ∀ before view text, before ++ [.replaced view text] <+: later.journal →
    ∃ earlier command, before = earlier ++ [.completed command text] ∧
      command.handler? = some (.refresh view)
  told : later.isClosed = false →
    later.sink = sinkIn later.journal ∧ later.inFlight = flightIn later.journal

/-- Whatever a session is asked for and whatever gdb writes: each output that is handed over is that of
an errand that has just ended. Its command is the one in flight, and went out last; then gdb began to
answer, with nothing before it on which the course of the command could turn, and the same holds of the
answer, whose text is the output. After each command that goes out, at most one output is handed over.
Once the session is closed, none is. A view gets an output exactly as it was handed over. And while the
session is open, the record tells what is in flight and where text goes. -/
theorem completed_with_own_output {process : Subprocess} {views : Catalog} {session later : Session}
    (inside : views.Within Operation.isRegular)
    (run : (Session.start process views).Reaches Operation.isRegular session)
    (rest : session.Reaches Operation.isRegular later) : session.HandsOver later := by
  have first := Session.lapses_reaches (Session.start_within process inside) run
  have shifts := shifts_reaches (lapses_within (Session.start_within process inside) first) rest
  have faithful : later.Faithful := kept_shifts faithful_shift (faithful_start process views)
    ((shifts_lapses (fun _ => id) first).trans shifts)
  refine ⟨fun before command output begins => ?_, fun before tier command during => ?_,
    fun closed => ?_, fun before view text begins => ?_, faithful.replay⟩
  · obtain ⟨errand, whole, rfl, text⟩ := faithful.due before _ begins
    obtain ⟨gathers, flight⟩ := errand_gathers errand.toBegunErrand
    exact ⟨errand, whole, rfl, text, (errand_awaits errand.toErrand).1, gathers, flight⟩
  · exact completed_once faithful.due
  · exact (closed_shifts closed shifts).2
  · exact faithful.due before _ begins

/-- A question within an answer does no harm to the output of the command, and the output of the next
command, for which the session is closed too early, is never handed over. -/
theorem output_kept_across_question :
    ∃ session later : Session,
      (Session.start ⟨1, none, [], false, false, false⟩ Table.empty).Reaches Operation.isRegular
        session ∧
      session.Reaches Operation.isRegular later ∧ session.isClosed = true ∧
      (completionsIn session.journal).map Prod.snd = ["a = 1\n"] ∧ session.HandsOver later := by
  let start := Session.start ⟨1, none, [], false, false, false⟩ Table.empty
  let asked : List Operation :=
    [.enqueue .urgent (.mk "info locals" (some .discard) none), .react ⟨"prompt", none⟩,
      .react ⟨"post-prompt", none⟩, .react ⟨"query", none⟩, .emit "a = 1\n",
      .react ⟨"pre-prompt", none⟩, .enqueue .urgent (.mk "info args" (some .discard) none),
      .react ⟨"prompt", none⟩, .react ⟨"post-prompt", none⟩, .emit "b = 2\n", .close]
  have inside : Catalog.Within Operation.isRegular Table.empty := by
    intro view member
    cases member
  have run : start.Reaches Operation.isRegular (asked.foldl Session.after start) :=
    reaches_after_all (by decide) _
  have rest : (asked.foldl Session.after start).Reaches Operation.isRegular
      ((asked.foldl Session.after start).after (.react ⟨"pre-prompt", none⟩)) :=
    .single ⟨_, rfl, rfl⟩
  exact ⟨_, _, run, rest, by decide +kernel, by decide +kernel, completed_with_own_output inside run rest⟩

end GdbControl
