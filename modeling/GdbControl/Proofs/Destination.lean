import GdbControl.Proofs.Bearing
import GdbControl.Proofs.Completion

/-!
Where the output of gdb goes. Text goes to the sink that it finds when it is passed on, and only
annotations and commands that go out move the sink. So text goes where the annotations before it
say, unless a command went out while the text was still held. Between two operations no more is held
than the last newline and an unfinished line, and nothing that arrived is lost.
-/

namespace GdbControl

/-- Where text goes after events, if it went to the sink before them. -/
def sinkSince (sink : Sink) (events : List Event) : Sink := events.foldl Event.sinkAfter sink

/-- Where text goes after commands went out, if it went to the sink before them. -/
def designated (sink : Sink) (sent : List Command) : Sink :=
  (sent.getLast?.map Session.openingSink).getD sink

def Event.isAnnotated : Event → Bool
  | .annotated _ => true
  | _ => false

/-- What is gathered for a handler after an event. -/
def Event.gatheredAfter (gathered : String) : Event → String
  | .sent _ command => if command.handler?.isSome then "" else gathered
  | .emitted .gathering text => gathered ++ text
  | _ => gathered

def gatheredSince (gathered : String) (events : List Event) : String :=
  events.foldl Event.gatheredAfter gathered

def Event.reaches (sink : Sink) : Event → Bool
  | .emitted other _ => other = sink
  | _ => false

/-- All text that was passed on to a sink. -/
def textTo (sink : Sink) (events : List Event) : String :=
  textIn (events.filter (Event.reaches sink))

/-- The session has become the later one, and these events tell where text went on the way. -/
structure Session.Conveys (session later : Session) (events : List Event) : Prop where
  journal : later.journal = session.journal ++ events
  sink : later.sink = sinkSince session.sink events
  directed : ∀ front sink text back, events = front ++ .emitted sink text :: back →
    sink = sinkSince session.sink front
  /-- A command goes out when it is asked for, or when an annotation lets it out. -/
  cued : ∀ front tier command back, events = front ++ .sent tier command :: back →
    (∃ earlier other, tier = some other ∧ front = earlier ++ [.accepted other command]) ∨
      ∃ earlier marker, front = earlier ++ [.annotated marker]
  transcript : later.display.transcript = session.display.transcript ++ textTo .console events
  programOutput : later.display.programOutput =
    session.display.programOutput ++ textTo .program events
  gathered : later.gathered = gatheredSince session.gathered events

/-- An event at which no text is passed on and the sink does not move. -/
def Event.isStill : Event → Bool
  | .emitted _ _ | .sent _ _ => false
  | .annotated marker => marker.kind.phase?.isNone
  | _ => true

section Since

variable {sink : Sink} {events : List Event}

theorem since_append (front back : List Event) :
    sinkSince sink (front ++ back) = sinkSince (sinkSince sink front) back :=
  List.foldl_append

theorem gathered_append (gathered : String) (front back : List Event) :
    gatheredSince gathered (front ++ back) = gatheredSince (gatheredSince gathered front) back :=
  List.foldl_append

theorem text_to_append (sink : Sink) (front back : List Event) :
    textTo sink (front ++ back) = textTo sink front ++ textTo sink back := by
  rw [textTo, List.filter_append, text_append]
  rfl

theorem since_still (still : ∀ event ∈ events, event.isStill = true) :
    sinkSince sink events = sink := by
  induction events with
  | nil => rfl
  | cons event rest ih =>
    have same : event.sinkAfter sink = sink := by
      have own := still event List.mem_cons_self
      cases event with
      | annotated marker =>
        have silent : marker.kind.phase? = none := Option.isNone_iff_eq_none.mp own
        simp [Event.sinkAfter, silent]
      | sent => cases own
      | _ => rfl
    have later := ih fun other member => still other (List.mem_cons_of_mem event member)
    rw [sinkSince, List.foldl_cons, same]
    exact later

theorem gathered_still (gathered : String) (still : ∀ event ∈ events, event.isStill = true) :
    gatheredSince gathered events = gathered := by
  induction events with
  | nil => rfl
  | cons event rest ih =>
    have same : event.gatheredAfter gathered = gathered := by
      have own := still event List.mem_cons_self
      cases event <;> first | rfl | cases own
    have later := ih fun other member => still other (List.mem_cons_of_mem event member)
    rw [gatheredSince, List.foldl_cons, same]
    exact later

theorem text_to_still (sink : Sink) (still : ∀ event ∈ events, event.isStill = true) :
    textTo sink events = "" := by
  have nothing : events.filter (Event.reaches sink) = [] := by
    refine List.filter_eq_nil_iff.mpr fun event member => ?_
    have own := still event member
    cases event with
    | emitted => cases own
    | _ => simp [Event.reaches]
  rw [textTo, nothing]
  rfl

-- While no annotation comes, the last command that went out decides.
theorem since_unannotated (unannotated : ∀ event ∈ events, event.isAnnotated = false) :
    sinkSince sink events = designated sink (sentIn events) := by
  induction events using List.reverseRecOn with
  | nil => rfl
  | append_singleton earlier event ih =>
    have before := ih fun other member => unannotated other (List.mem_append_left _ member)
    have own := unannotated event (by simp)
    rw [since_append, before, sentIn, sentIn, List.filterMap_append]
    cases event with
    | annotated => cases own
    | sent tier command => simp [sinkSince, Event.sinkAfter, designated, Event.command?]
    | _ => exact congrArg (designated sink) (List.append_nil _).symm

end Since

section Conveys

variable {session middle later : Session} {events more : List Event}

theorem conveys_trans (first : session.Conveys middle events) (second : middle.Conveys later more) :
    session.Conveys later (events ++ more) := by
  constructor
  · rw [second.journal, first.journal, List.append_assoc]
  · rw [second.sink, first.sink, since_append]
  · intro front sink text back split
    rcases split_append split with ⟨inner, same⟩ | ⟨inner, rfl, rest⟩
    · exact first.directed front sink text inner same
    · rw [second.directed inner sink text back rest, first.sink, since_append]
  · intro front tier command back split
    rcases split_append split with ⟨inner, same⟩ | ⟨inner, rfl, rest⟩
    · exact first.cued front tier command inner same
    · rcases second.cued inner tier command back rest with
        ⟨earlier, other, own, rfl⟩ | ⟨earlier, marker, rfl⟩
      · exact .inl ⟨events ++ earlier, other, own, (List.append_assoc _ _ _).symm⟩
      · exact .inr ⟨events ++ earlier, marker, (List.append_assoc _ _ _).symm⟩
  · rw [second.transcript, first.transcript, text_to_append, String.append_assoc]
  · rw [second.programOutput, first.programOutput, text_to_append, String.append_assoc]
  · rw [second.gathered, first.gathered, gathered_append]

-- A change that has nothing to do with where text goes.
theorem conveys_still (journal : later.journal = session.journal ++ events)
    (still : ∀ event ∈ events, event.isStill = true) (sink : later.sink = session.sink)
    (gathered : later.gathered = session.gathered)
    (transcript : later.display.transcript = session.display.transcript)
    (programOutput : later.display.programOutput = session.display.programOutput) :
    session.Conveys later events := by
  refine ⟨journal, ?_, ?_, ?_, ?_, ?_, ?_⟩
  · rw [sink, since_still still]
  · rintro front sink text back rfl
    cases still (.emitted sink text) (by simp)
  · rintro front tier command back rfl
    cases still (.sent tier command) (by simp)
  · rw [transcript, text_to_still .console still, String.append_empty]
  · rw [programOutput, text_to_still .program still, String.append_empty]
  · rw [gathered, gathered_still _ still]

theorem conveys_log (session : Session) {event : Event} (still : event.isStill = true) :
    session.Conveys (session.log event) [event] :=
  conveys_still rfl (by simpa using still) rfl rfl rfl rfl

theorem conveys_hear (session : Session) (text : String) :
    ∃ events, session.Conveys (session.hear text) events := by
  by_cases silent : text = ""
  · rw [Session.hear, if_pos silent]
    exact ⟨[], conveys_still (by simp) (by simp) rfl rfl rfl rfl⟩
  · refine ⟨[.emitted session.sink text], ?_⟩
    have directed : ∀ front sink said back,
        [Event.emitted session.sink text] = front ++ .emitted sink said :: back →
          sink = sinkSince session.sink front := by
      intro front sink said back split
      cases front with
      | nil =>
        cases split
        rfl
      | cons first front => simp at split
    have cued : ∀ front tier command back,
        [Event.emitted session.sink text] ≠ front ++ .sent tier command :: back := by
      intro front tier command back split
      cases front <;> simp at split
    refine ⟨?_, ?_, directed, fun front tier command back split =>
      absurd split (cued front tier command back), ?_, ?_, ?_⟩
    all_goals
      cases sink : session.sink <;>
        simp [Session.hear, Session.log, silent, sink, sinkSince, Event.sinkAfter, textTo, textIn,
          Event.reaches, gatheredSince, Event.gatheredAfter, Display.appendTranscript,
          Display.appendProgramOutput]

theorem conveys_pass (session : Session) (text : String) (held : Bytes) (midLine : Bool) :
    ∃ events, session.Conveys (session.pass text held midLine) events := by
  have kept : session.Conveys (session.hold held midLine) [] :=
    conveys_still (by simp [Session.hold]) (by simp) rfl rfl rfl rfl
  obtain ⟨events, heard⟩ := conveys_hear (session.hold held midLine) text
  exact ⟨_, conveys_trans kept heard⟩

-- A command goes out on its cue.
theorem conveys_out {cue : Event} {tier : Option Tier} {command : Command}
    (heard : session.Conveys middle [cue])
    (cued : (∃ other, tier = some other ∧ cue = .accepted other command) ∨
      ∃ marker, cue = .annotated marker) :
    session.Conveys (middle.sendOut tier command) ([cue] ++ middle.sending tier command) := by
  let wrote : List Event := if middle.process.pipeBroken then [] else [.wrote command.written]
  have still : ∀ event ∈ wrote, event.isStill = true := by
    intro event member
    simp only [wrote] at member
    split at member
    · cases member
    · rw [List.mem_singleton.mp member]
      rfl
  have sending : middle.sending tier command = [.sent tier command] ++ wrote := rfl
  have display := middle.send_out_display tier command
  have unheard (sink : Sink) : textTo sink (middle.sending tier command) = "" := by
    rw [sending, text_to_append, text_to_still sink still]
    rfl
  have member {event : Event} {front back : List Event}
      (split : [cue] ++ middle.sending tier command = front ++ event :: back) :
      event = cue ∨ event = .sent tier command ∨ event ∈ wrote := by
    have inside : event ∈ [cue] ++ middle.sending tier command := by simp [split]
    simpa [sending] using inside
  constructor
  · rw [Session.send_out_journal, heard.journal, List.append_assoc]
  · rw [since_append, ← heard.sink, sending, since_append, since_still still, Session.send_out_sink]
    rfl
  · intro front sink text back split
    rcases member split with rfl | same | written
    · rcases cued with ⟨_, -, same⟩ | ⟨_, same⟩ <;> cases same
    · cases same
    · cases still _ written
  · intro front other sent back split
    cases front with
    | nil =>
      cases (List.cons.inj split).1
      rcases cued with ⟨_, -, same⟩ | ⟨_, same⟩ <;> cases same
    | cons first front =>
      obtain ⟨rfl, rest⟩ := List.cons.inj split
      cases front with
      | nil =>
        cases (List.cons.inj rest).1
        rcases cued with ⟨own, tier, rfl⟩ | ⟨marker, rfl⟩
        · exact .inl ⟨[], own, tier, rfl⟩
        · exact .inr ⟨[], marker, rfl⟩
      | cons second front =>
        have whole : wrote = front ++ .sent other sent :: back := (List.cons.inj rest).2
        have written : .sent other sent ∈ wrote := whole.symm ▸ by simp
        cases still _ written
  · rw [display, heard.transcript, text_to_append, unheard, String.append_empty]
  · rw [display, heard.programOutput, text_to_append, unheard, String.append_empty]
  · rw [gathered_append, ← heard.gathered, sending, gathered_append, gathered_still _ still,
      Session.send_out_eq, ← middle.release_gathered]
    rfl

theorem conveys_accept (session : Session) (tier : Tier) (command : Command) :
    ∃ events, session.Conveys (session.accept tier command) events := by
  have heard : session.Conveys (session.log (.accepted tier command)) [.accepted tier command] :=
    conveys_log session rfl
  unfold Session.accept
  split
  · exact ⟨_, conveys_out heard (.inl ⟨tier, rfl, rfl⟩)⟩
  · refine ⟨[.accepted tier command], ?_⟩
    cases tier <;> exact conveys_still rfl (by simp [Event.isStill]) rfl rfl rfl rfl

-- Nothing but what is queued, under way or awaited has changed.
theorem conveys_same (display : later.display = session.display) (sink : later.sink = session.sink)
    (gathered : later.gathered = session.gathered) (journal : later.journal = session.journal) :
    session.Conveys later [] :=
  conveys_still (by simp [journal]) (by simp) sink gathered (by rw [display]) (by rw [display])

theorem conveys_poll {marker : Marker} (heard : session.Conveys middle [.annotated marker]) :
    ∃ events, session.Conveys middle.poll events := by
  have sent {rest : Session} (same : middle.Conveys rest []) (tier : Option Tier)
      (command : Command) :
      ∃ events, session.Conveys (rest.sendOut tier command) events :=
    ⟨_, conveys_out (conveys_trans heard same) (.inr ⟨marker, rfl⟩)⟩
  have display : ({ middle with questioned := false } : Session).release.display =
      middle.display := Session.release_display _
  have sink : ({ middle with questioned := false } : Session).release.sink = middle.sink :=
    Session.release_sink _
  have gathered : ({ middle with questioned := false } : Session).release.gathered =
      middle.gathered := Session.release_gathered _
  have journal : ({ middle with questioned := false } : Session).release.journal = middle.journal :=
    Session.release_journal _
  unfold Session.poll
  dsimp only
  split
  · refine sent ?_ _ _
    exact conveys_same display sink gathered journal
  · refine sent ?_ _ _
    exact conveys_same display sink gathered journal
  · refine ⟨[.annotated marker] ++ [.idled], conveys_trans heard (conveys_still ?_ ?_ sink gathered
      ?_ ?_)⟩
    · exact congrArg (· ++ [Event.idled]) journal
    · simp [Event.isStill]
    · exact congrArg (fun shown : Display => shown.markReady.transcript) display
    · exact congrArg (fun shown : Display => shown.markReady.programOutput) display

theorem conveys_ask {marker : Marker} (heard : session.Conveys middle [.annotated marker]) :
    ∃ events, session.Conveys middle.ask events := by
  unfold Session.ask
  dsimp only
  split
  · exact ⟨_, conveys_out (conveys_trans heard (conveys_same rfl rfl rfl rfl)) (.inr ⟨marker, rfl⟩)⟩
  · exact ⟨_, conveys_trans heard (conveys_same rfl rfl rfl rfl)⟩

theorem conveys_phase (session : Session) {marker : Marker} {phase : Phase}
    (kind : marker.kind.phase? = some phase) :
    session.Conveys ((session.log (.annotated marker)).enter phase) [.annotated marker] := by
  have unheard (sink : Sink) : textTo sink [.annotated marker] = "" := rfl
  have only {event : Event} {front back : List Event}
      (split : [.annotated marker] = front ++ event :: back) : event = .annotated marker := by
    have inside : event ∈ [.annotated marker] := by simp [split]
    exact List.mem_singleton.mp inside
  refine ⟨rfl, ?_, ?_, ?_, ?_, ?_, rfl⟩
  · simp [Session.enter, Session.log, sinkSince, Event.sinkAfter, kind]
  · intro front sink text back split
    cases only split
  · intro front tier command back split
    cases only split
  · rw [unheard, String.append_empty]
    rfl
  · rw [unheard, String.append_empty]
    rfl

theorem conveys_fulfil (session : Session) {marker : Marker} (kind : marker.kind = .prePrompt)
    (gathering : session.sink = .gathering) :
    ∃ events, session.Conveys (session.log (.annotated marker)).fulfil events := by
  have phase : marker.kind.phase? = some .prePrompt := by rw [kind]; rfl
  have entered := conveys_phase session phase
  have sink : ((session.log (.annotated marker)).enter .prePrompt).sink = .afterOutput := by
    simp [Session.enter, Session.log, gathering, Sink.after?]
  rcases (session.log (.annotated marker)).fulfil_cases with
    ⟨-, events, told, same⟩ | ⟨command, view, -, -, same⟩ <;> rw [same]
  · refine ⟨_, conveys_trans entered (conveys_still rfl ?_ sink.symm rfl rfl rfl)⟩
    rcases told with rfl | ⟨command, rfl⟩ <;> simp [Event.isStill]
  · refine ⟨_, conveys_trans entered (conveys_still rfl ?_ sink.symm rfl rfl rfl)⟩
    simp [Event.isStill]

theorem conveys_reaction {marker : Marker} (reaction : Reaction marker session later) :
    ∃ events, session.Conveys later events := by
  have plain (silent : marker.kind.phase? = none) :
      session.Conveys (session.log (.annotated marker)) [.annotated marker] :=
    conveys_log session (by simp [Event.isStill, silent])
  cases reaction with
  | prompt kind => exact conveys_poll (conveys_phase session (by rw [kind]; rfl))
  | question kind => exact conveys_ask (plain (by rw [kind]; rfl))
  | phase kind => exact ⟨_, conveys_phase session kind⟩
  | fulfilled kind gathering => exact conveys_fulfil session kind gathering
  | remark kind => exact ⟨_, plain kind⟩

end Conveys

/-- What a session is asked for in talk with gdb, and what its handlers perform. -/
def Operation.isConversing (operation : Operation) : Bool :=
  operation.keepsReading && operation.isRegular

section Conversation

variable {session later : Session}

theorem conveys_move (move : Move Operation.isConversing session later) :
    ∃ events, session.Conveys later events := by
  cases move with
  | accept => exact conveys_accept _ _ _
  | @request id view =>
    have awaited : session.Conveys (session.await id) [] := conveys_same rfl rfl rfl rfl
    obtain ⟨events, asked⟩ := conveys_accept (session.await id) .idle view.refreshCommand
    exact ⟨_, conveys_trans awaited asked⟩
  | arrive => exact ⟨_, conveys_still rfl (by simp [Event.isStill]) rfl rfl rfl rfl⟩
  | @cut _ cut _ _ _ _ reaction =>
    obtain ⟨before, passed⟩ := conveys_pass session (Utf8.decode cut.before) cut.after false
    obtain ⟨after, reacted⟩ := conveys_reaction reaction
    exact ⟨_, conveys_trans passed reacted⟩
  | lines => exact conveys_pass session _ _ _
  | complain => exact ⟨_, conveys_still rfl (by simp [Event.isStill]) rfl rfl rfl rfl⟩
  | addBuffer | removeBuffer =>
    exact ⟨[], conveys_still (by simp) (by simp) rfl rfl rfl rfl⟩
  | note | register | registerHandled | setPipe => exact ⟨_, conveys_same rfl rfl rfl rfl⟩
  | send granted => cases allowed_of_within granted
  | react granted | flush granted | hear granted | close granted | take granted | poll granted
  | ask granted | setSink granted | setPrompting granted => cases granted

theorem conveys_moves (moves : Moves Operation.isConversing session later) :
    ∃ events, session.Conveys later events := by
  induction moves with
  | refl => exact ⟨[], conveys_same rfl rfl rfl rfl⟩
  | tail _ move ih =>
    obtain ⟨events, told⟩ := ih
    obtain ⟨more, next⟩ := conveys_move move
    exact ⟨_, conveys_trans told next⟩

theorem conversing_reads (operation : Operation) (own : operation.isConversing = true) :
    operation.keepsReading = true := (Bool.and_eq_true_iff.mp own).1

/-- What a session may be asked for in talk with gdb. The host says that gdb went quiet, handlers do
not. -/
def Operation.isConversed (operation : Operation) : Prop :=
  operation.within Operation.isConversing = true ∨ operation = .flush

theorem conversed_readable {operation : Operation} (conversed : operation.isConversed) :
    operation.isReadable :=
  conversed.imp (operation_mono conversing_reads operation) id

theorem flushed_cases {answer : Answer} (done : session.perform .flush = .ok answer later) :
    later = session ∨ later =
      session.pass (Utf8.decodeOpen session.held).1 (Utf8.decodeOpen session.held).2 true := by
  have after : later = Engine.flush.after session := by
    have ran : (do let shown ← Engine.flush; pure (Answer.flag shown) : Engine Answer).run session =
        .ok answer later := done
    obtain ⟨shown, middle, ran, same⟩ := Engine.bind_ok ran
    cases same
    rw [Engine.after, ran]
    rfl
  rw [after, Engine.after, Engine.run_flush]
  cases session.isClosed with
  | true => exact .inl rfl
  | false =>
    cases session.withholds with
    | true => exact .inl rfl
    | false =>
      by_cases silent : (Utf8.decodeOpen session.held).1 = ""
      · simp only [silent]
        exact .inl rfl
      · simp only [silent]
        exact .inr rfl

theorem conveys_perform {operation : Operation} {answer : Answer}
    (inside : session.Within Operation.isConversing) (conversed : operation.isConversed)
    (done : session.perform operation = .ok answer later) :
    later.Within Operation.isConversing ∧ ∃ events, session.Conveys later events := by
  rcases conversed with own | rfl
  · have ends := Session.perform_ends inside own
    rw [done] at ends
    exact ⟨moves_within inside ends.1, conveys_moves ends.1⟩
  · rcases flushed_cases done with rfl | rfl
    · exact ⟨inside, [], conveys_same rfl rfl rfl rfl⟩
    · exact ⟨pass_within inside _ _ _, conveys_pass session _ _ _⟩

theorem conveys_perform_all {operations : List Operation}
    (inside : session.Within Operation.isConversing)
    (conversed : ∀ operation ∈ operations, operation.isConversed)
    (run : session.performAll operations = some later) :
    later.Within Operation.isConversing ∧ ∃ events, session.Conveys later events := by
  induction operations generalizing session with
  | nil =>
    cases run
    exact ⟨inside, [], conveys_same rfl rfl rfl rfl⟩
  | cons operation rest ih =>
    have others := fun next member => conversed next (List.mem_cons_of_mem operation member)
    unfold Session.performAll at run
    split at run
    · next answer middle done =>
      obtain ⟨kept, events, first⟩ :=
        conveys_perform inside (conversed operation List.mem_cons_self) done
      obtain ⟨last, more, second⟩ := ih kept others run
      exact ⟨last, _, conveys_trans first second⟩
    · cases run

end Conversation

/-- Sections with some text in front of the first of them. -/
def leadBy [Append τ] (text : τ) : List (τ × Marker) × τ → List (τ × Marker) × τ
  | ([], rest) => ([], text ++ rest)
  | ((first, marker) :: others, rest) => ((text ++ first, marker) :: others, rest)

section Reading

variable {session later : Session} {events : List Event}

theorem read_led (text : String) (events : List Event) :
    readIn text events = leadBy text (readIn "" events) := by
  induction events generalizing text with
  | nil => simp [readIn, leadBy]
  | cons event rest ih =>
    cases event with
    | emitted sink more =>
      rw [readIn, readIn, ih (text ++ more), ih ("" ++ more)]
      rcases readIn "" rest with ⟨parts, last⟩
      cases parts <;> simp [leadBy, String.append_assoc]
    | annotated marker => simp [readIn, leadBy]
    | _ => exact ih text

theorem exact_whole (exact_ : session.Exact) :
    (readIn "" session.journal).1 =
        (Stream.sectionsOf true [] (arrivedIn session.journal)).1.map
          (fun part => (Utf8.decode part.1, part.2)) ∧
      (readIn "" session.journal).2 ++ Utf8.decode session.held =
        Utf8.decode (Stream.sectionsOf true [] (arrivedIn session.journal)).2 := by
  obtain ⟨done, text, read⟩ := exact_.read
  have searched : Stream.sectionsOf (!session.midLine) text session.held =
      ([], text ++ session.held) :=
    Stream.sections_plain exact_.drained.searched text
  have ahead := read.ahead []
  rw [List.append_nil, List.append_nil, searched, List.append_nil] at ahead
  have spoken := read.spoken []
  rw [List.append_nil] at spoken
  exact ⟨by rw [ahead]; exact read.sections, by rw [spoken, ahead]⟩

-- Text that was passed on already, and its bytes, may be taken away from what was read since.
theorem led_apart {lineStart : Bool} {text bytes rest : Bytes} {said : String}
    {read : List (String × Marker) × String}
    (spoken : said ++ Utf8.decode bytes = Utf8.decode (text ++ bytes))
    (parts : (leadBy said read).1 = (Stream.sectionsOf lineStart text bytes).1.map
      fun part => (Utf8.decode part.1, part.2))
    (last : (leadBy said read).2 ++ Utf8.decode rest =
      Utf8.decode (Stream.sectionsOf lineStart text bytes).2) :
    read.1 = (Stream.sectionsOf lineStart [] bytes).1.map
        (fun part => (Utf8.decode part.1, part.2)) ∧
      read.2 ++ Utf8.decode rest = Utf8.decode (Stream.sectionsOf lineStart [] bytes).2 := by
  obtain ⟨parted, tail⟩ := read
  cases found : Stream.firstMarker? lineStart bytes with
  | none =>
    rw [Stream.sections_plain found] at parts last ⊢
    cases parted with
    | cons => simp [leadBy] at parts
    | nil =>
      refine ⟨rfl, ?_⟩
      simp only [leadBy] at last
      rw [← spoken, String.append_assoc] at last
      exact (String.append_right_inj _).mp last
  | some cut =>
    rw [Stream.sections_cut found] at parts last ⊢
    cases parted with
    | nil => simp [leadBy] at parts
    | cons first others =>
      -- The marker line begins with a character, so no character lies across the cut.
      obtain ⟨after, shape⟩ := Stream.first_marker_sub found
      have ascii : Stream.sub < 0x80 := by decide
      rw [shape, Utf8.decode_cut_ascii _ _ ascii, ← List.append_assoc,
        Utf8.decode_cut_ascii _ _ ascii, ← String.append_assoc] at spoken
      have before := (String.append_left_inj _).mp spoken
      simp only [leadBy, List.map_cons, List.cons.injEq, Prod.mk.injEq] at parts
      obtain ⟨⟨text, marker⟩, same⟩ := parts
      rw [← before] at text
      have said := (String.append_right_inj _).mp text
      refine ⟨?_, last⟩
      rw [List.map_cons, ← same, List.nil_append, ← said, ← marker]

-- What was read between two moments is what stands in the stream between them.
theorem read_since (exact_ : session.Exact) (exact' : later.Exact)
    (told : later.journal = session.journal ++ events) :
    let sections := Stream.sectionsOf (!session.midLine) [] (session.held ++ arrivedIn events)
    (readIn "" events).1 = sections.1.map (fun part => (Utf8.decode part.1, part.2)) ∧
      (readIn "" events).2 ++ Utf8.decode later.held = Utf8.decode sections.2 := by
  obtain ⟨done, text, read⟩ := exact_.read
  obtain ⟨parts, last⟩ := exact_whole exact'
  rw [told, arrived_append, read_append, read.sections, read.ahead] at parts last
  rw [read_led] at parts last
  rw [List.map_append] at parts
  exact led_apart (read.spoken _) (List.append_cancel_left parts) last

end Reading

-- Between two moments of a run, the sink that text finds is the one of any earlier moment, moved by
-- what went out since, if no annotation came since.
theorem directed_since {session later : Session} {events : List Event}
    (conveys : session.Conveys later events) {front recent back : List Event} {sink : Sink}
    {text : String} (split : events = front ++ recent ++ .emitted sink text :: back)
    (unannotated : ∀ event ∈ recent, event.isAnnotated = false) :
    sink = designated (sinkSince session.sink front) (sentIn recent) := by
  rw [conveys.directed (front ++ recent) sink text back split, since_append,
    since_unannotated unannotated]

/-- A session has become the later one, and all of the output that it held or was fed with since went
where the sink pointed. -/
structure Session.Delivers (session later : Session) (stream : Bytes) (events : List Event) : Prop where
  arrived : arrivedIn events = stream
  parts : (readIn "" events).1 =
    (Stream.sectionsOf (!session.midLine) [] (session.held ++ stream)).1.map
      fun part => (Utf8.decode part.1, part.2)
  /-- Nothing is lost: what was not passed on is held. -/
  rest : (readIn "" events).2 ++ Utf8.decode later.held =
    Utf8.decode (Stream.sectionsOf (!session.midLine) [] (session.held ++ stream)).2
  held : Stream.newline ∉ later.held.tail
  /-- Text goes to the sink of any moment since which no annotation came, unless a command went out
  since: then the last such command says where it goes. -/
  directed : ∀ front recent sink text back, events = front ++ recent ++ .emitted sink text :: back →
    (∀ event ∈ recent, event.isAnnotated = false) →
      sink = designated (sinkSince session.sink front) (sentIn recent)
  conveys : session.Conveys later events

/-- Whatever a session is asked for in talk with gdb, if nothing fails: from any moment to any later
one, all of the output that was held or fed is passed on around its marker lines, in order, but for
the last newline and an unfinished line, which are held. Text goes to the sink of any moment since
which no annotation came, such as that when it arrived or that when the annotation before it was
acted upon, unless a command went out since: then the last such command says where it goes. A
command goes out when it is asked for, or when an annotation lets it out. What goes to the console
or the program is shown, and what is gathered since the session's own command went out is kept for
its handler. -/
theorem output_follows_sink {process : Subprocess} {views : Catalog} {session later : Session}
    {before operations : List Operation} (inside : views.Within Operation.isConversing)
    (first : ∀ operation ∈ before, operation.isConversed)
    (conversed : ∀ operation ∈ operations, operation.isConversed)
    (run : (Session.start process views).performAll before = some session)
    (rest : session.performAll operations = some later) :
    ∃ events, session.Delivers later (fedIn (session.calls operations)) events := by
  have reads : views.Within Operation.keepsReading := fun view member =>
    handler_mono conversing_reads view.handler (inside view member)
  have exact_ := exact_perform_all (exact_start process reads)
    (fun operation member => conversed_readable (first operation member)) run
  have exact' := exact_perform_all exact_
    (fun operation member => conversed_readable (conversed operation member)) rest
  obtain ⟨kept, -⟩ := conveys_perform_all (Session.start_within process inside) first run
  obtain ⟨-, events, conveys⟩ := conveys_perform_all kept conversed rest
  obtain ⟨parts, last⟩ := read_since exact_ exact' conveys.journal
  have arrived : arrivedIn events = fedIn (session.calls operations) := by
    have recorded := calls_recorded session operations
    rw [after_of_perform_all rest, conveys.journal, calls_append] at recorded
    exact (arrived_fed events).trans (congrArg fedIn (List.append_cancel_left recorded))
  rw [← arrived]
  exact ⟨events, rfl, parts, last, exact'.drained.unended,
    fun _ _ _ _ _ split unannotated => directed_since conveys split unannotated, conveys⟩

/-- A letter arrives at the prompt and is held. Then the session asks gdb for something, and the
letter is passed on and goes nowhere. -/
theorem held_letter_discarded :
    let prompt := "\n\x1A\x1Aprompt\n".toUTF8.data.toList
    let answer := "\n\x1A\x1Apost-prompt\n".toUTF8.data.toList
    let before : List Operation := [.ingest [prompt]]
    let operations : List Operation :=
      [.ingest ["x".toUTF8.data.toList],
        .enqueue .urgent (.mk "info locals" (some (.routine "locals" [] none)) none),
        .ingest [answer]]
    ∃ session later : Session,
      (Session.start ⟨1, none, [], false, false, false⟩ Table.empty).performAll before = some session ∧
      session.performAll operations = some later ∧
      session.sink = .console ∧ later.display.transcript = session.display.transcript ∧
      fedIn (session.calls operations) = "x".toUTF8.data.toList ++ answer ∧
      ∃ events, session.Delivers later (fedIn (session.calls operations)) events := by
  intro prompt answer before operations
  have first : ∀ operation ∈ before, operation.isConversed := by
    intro operation member
    rw [List.mem_singleton.mp member]
    exact .inl rfl
  have conversed : ∀ operation ∈ operations, operation.isConversed := by
    intro operation member
    simp only [operations, List.mem_cons, List.not_mem_nil, or_false] at member
    rcases member with rfl | rfl | rfl <;> exact .inl rfl
  have inside : Catalog.Within Operation.isConversing Table.empty := by
    intro view member
    cases member
  have shown : ((Session.start ⟨1, none, [], false, false, false⟩ Table.empty).performAll before).map
      (fun session => (session.sink, session.display.transcript, fedIn (session.calls operations),
        (session.performAll operations).map (·.display.transcript))) =
      some (.console, "\n", "x".toUTF8.data.toList ++ answer, some "\n") := by
    decide +kernel
  obtain ⟨session, run, facts⟩ := Option.map_eq_some_iff.mp shown
  simp only [Prod.mk.injEq] at facts
  obtain ⟨sink, transcript, fed, later⟩ := facts
  obtain ⟨later, rest, same⟩ := Option.map_eq_some_iff.mp later
  exact ⟨session, later, run, rest, sink, same.trans transcript.symm, fed,
    output_follows_sink inside first conversed run rest⟩

/-- Text does not always go where the sink pointed when it arrived. What is held while a command of
the session's own goes out is not shown, although it would have been when it arrived. And if a
handler may pass on the unfinished rest of the output, then text behind a marker line that has
arrived goes where the sink pointed before that line, which is never acted upon. -/
theorem text_redirected :
    let marked (tag : String) : Bytes := ("\n\x1A\x1A" ++ tag ++ "\n").toUTF8.data.toList
    let asking (body : List Operation) : Operation :=
      .enqueue .urgent (.mk "info locals" (some (.routine "locals" body none)) none)
    let start := Session.start ⟨1, none, [], false, false, false⟩ Table.empty
    (∃ fed later : Session,
      start.performAll [.ingest [marked "prompt"], .ingest ["x".toUTF8.data.toList]] = some fed ∧
      fed.performAll [asking [], .ingest [marked "post-prompt"]] = some later ∧
      fed.sink = .console ∧ fed.held = "x".toUTF8.data.toList ∧
      later.held = [] ∧ textTo .console later.journal = "\n" ∧
      textTo .beforeOutput later.journal = "x\n") ∧
    ∃ later : Session,
      start.performAll [asking [.flush], .ingest [marked "prompt"], .ingest [marked "post-prompt"],
        .ingest [marked "pre-prompt" ++ "A".toUTF8.data.toList ++ marked "prompt" ++
          "B\n".toUTF8.data.toList]] = some later ∧
      (Stream.sectionsOf true [] (arrivedIn later.journal)).1.map (·.2.tag) =
        ["prompt", "post-prompt", "pre-prompt", "prompt"] ∧
      (Stream.sectionsOf true [] (arrivedIn later.journal)).2 = "B\n".toUTF8.data.toList ∧
      Sink.after? .prompt .afterOutput = some .console ∧
      textTo .console later.journal = "\n" ∧
      textTo .afterOutput later.journal = "A\n\x1A\x1Aprompt\nB\n" := by
  intro marked asking start
  have held : ((start.performAll [.ingest [marked "prompt"], .ingest ["x".toUTF8.data.toList]]).map
      fun fed => (fed.sink, fed.held,
        (fed.performAll [asking [], .ingest [marked "post-prompt"]]).map fun later =>
          (later.held, textTo .console later.journal, textTo .beforeOutput later.journal))) =
      some (.console, "x".toUTF8.data.toList, some ([], "\n", "x\n")) := by
    decide +kernel
  have passed : ((start.performAll [asking [.flush], .ingest [marked "prompt"],
      .ingest [marked "post-prompt"], .ingest [marked "pre-prompt" ++ "A".toUTF8.data.toList ++
        marked "prompt" ++ "B\n".toUTF8.data.toList]]).map fun later =>
      ((Stream.sectionsOf true [] (arrivedIn later.journal)).1.map (·.2.tag),
        (Stream.sectionsOf true [] (arrivedIn later.journal)).2,
        textTo .console later.journal, textTo .afterOutput later.journal)) =
      some (["prompt", "post-prompt", "pre-prompt", "prompt"], "B\n".toUTF8.data.toList, "\n",
        "A\n\x1A\x1Aprompt\nB\n") := by
    decide +kernel
  constructor
  · obtain ⟨fed, run, facts⟩ := Option.map_eq_some_iff.mp held
    simp only [Prod.mk.injEq] at facts
    obtain ⟨sink, letter, rest⟩ := facts
    obtain ⟨later, rest, facts⟩ := Option.map_eq_some_iff.mp rest
    simp only [Prod.mk.injEq] at facts
    exact ⟨fed, later, run, rest, sink, letter, facts⟩
  · obtain ⟨later, run, facts⟩ := Option.map_eq_some_iff.mp passed
    simp only [Prod.mk.injEq] at facts
    exact ⟨later, run, facts.1, facts.2.1, rfl, facts.2.2⟩

end GdbControl
