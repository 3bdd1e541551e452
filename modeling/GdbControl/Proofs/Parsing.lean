import GdbControl.Proofs.Calls
import GdbControl.Proofs.Sections

/-!
A session reads the whole of gdb's output, and reads it as it is written: it acts upon the marker
lines of the stream, each once and in their order, and passes on all of the text between them. Reads
may end anywhere, gdb may go quiet anywhere, and handlers may take in output themselves.
-/

namespace GdbControl

/-- Operations by which a session reads the stream and nothing but the stream. -/
def Operation.keepsReading : Operation → Bool
  | .flush | .react _ | .emit _ | .close => false
  | _ => true

/-- An event that tells what arrived and how it was read. -/
def Event.isReading : Event → Bool
  | .arrived _ | .emitted _ _ | .annotated _ => true
  | _ => false

/-- All of the output that arrived. -/
def arrivedIn : List Event → Bytes
  | [] => []
  | .arrived bytes :: rest => bytes ++ arrivedIn rest
  | _ :: rest => arrivedIn rest

/-- The annotations that were acted upon, each with the text that was passed on before it, and the
text that was passed on after the last. -/
def readIn (text : String) : List Event → List (String × Marker) × String
  | [] => ([], text)
  | .emitted _ more :: rest => readIn (text ++ more) rest
  | .annotated marker :: rest =>
    let others := readIn "" rest
    ((text, marker) :: others.1, others.2)
  | _ :: rest => readIn text rest

section Record

theorem arrived_append (front back : List Event) :
    arrivedIn (front ++ back) = arrivedIn front ++ arrivedIn back := by
  induction front with
  | nil => rfl
  | cons event rest ih => cases event <;> simp [arrivedIn, ih]

/-- What arrives is what is fed. -/
theorem arrived_fed (events : List Event) : arrivedIn events = fedIn (callsIn events) := by
  induction events with
  | nil => rfl
  | cons event rest ih =>
    cases event with
    | arrived bytes => exact congrArg (bytes ++ ·) ih
    | _ => exact ih

theorem read_append (text : String) (front back : List Event) :
    readIn text (front ++ back) =
      ((readIn text front).1 ++ (readIn (readIn text front).2 back).1,
        (readIn (readIn text front).2 back).2) := by
  induction front generalizing text with
  | nil => rfl
  | cons event rest ih => cases event <;> simp [readIn, ih]

theorem arrived_plain {events : List Event} (plain : ∀ event ∈ events, event.isReading = false) :
    arrivedIn events = [] := by
  induction events with
  | nil => rfl
  | cons event rest ih =>
    have later := ih fun other member => plain other (List.mem_cons_of_mem event member)
    have first := plain event List.mem_cons_self
    cases event with
    | arrived | emitted | annotated => cases first
    | accepted | sent | wrote | completed | replaced | refreshed | idled | reported => exact later

theorem read_plain {events : List Event} (text : String)
    (plain : ∀ event ∈ events, event.isReading = false) : readIn text events = ([], text) := by
  induction events with
  | nil => rfl
  | cons event rest ih =>
    have later := ih fun other member => plain other (List.mem_cons_of_mem event member)
    have first := plain event List.mem_cons_self
    cases event with
    | arrived | emitted | annotated => cases first
    | accepted | sent | wrote | completed | replaced | refreshed | idled | reported => exact later

end Record

/-- The later session has read what the earlier one had, and recorded more only of other things. -/
structure Session.Unread (session later : Session) : Prop where
  position : later.position = session.position
  events : ∃ events, later.journal = session.journal ++ events ∧
    ∀ event ∈ events, event.isReading = false

section Unread

variable {allowed : Operation → Bool} {session middle later : Session}

theorem unread_same (position : later.position = session.position)
    (journal : later.journal = session.journal) : session.Unread later :=
  ⟨position, [], by simp [journal], by simp⟩

theorem unread_log {event : Event} (position : later.position = session.position)
    (journal : later.journal = session.journal ++ [event]) (plain : event.isReading = false) :
    session.Unread later := by
  refine ⟨position, [event], journal, ?_⟩
  intro other member
  rwa [List.mem_singleton.mp member]

theorem unread_trans (first : session.Unread middle) (second : middle.Unread later) :
    session.Unread later := by
  obtain ⟨events, same, plain⟩ := first.events
  obtain ⟨others, same', plain'⟩ := second.events
  refine ⟨second.position.trans first.position, events ++ others, ?_, ?_⟩
  · rw [same', same, List.append_assoc]
  · intro event member
    exact (List.mem_append.mp member).elim (plain event) (plain' event)

theorem unread_send_out (session : Session) (tier : Option Tier) (command : Command) :
    session.Unread (session.sendOut tier command) := by
  refine ⟨session.send_out_position tier command, _, session.send_out_journal tier command, ?_⟩
  intro event member
  unfold Session.sending at member
  cases session.process.pipeBroken <;> simp at member <;> grind [Event.isReading]

theorem unread_sent {tier : Option Tier} {command : Command}
    (same : session.Unread middle) : session.Unread (middle.sendOut tier command) :=
  unread_trans same (unread_send_out middle tier command)

theorem unread_accept (session : Session) (tier : Tier) (command : Command) :
    session.Unread (session.accept tier command) := by
  have heard : session.Unread (session.log (.accepted tier command)) :=
    unread_log rfl rfl rfl
  unfold Session.accept
  split
  · exact unread_sent heard
  · refine unread_trans heard (unread_same ?_ ?_) <;> cases tier <;> rfl

theorem unread_poll (session : Session) : session.Unread session.poll := by
  have ready : session.Unread ({ session with questioned := false } : Session).release :=
    unread_same (Session.release_position _) (by simp)
  unfold Session.poll
  dsimp only
  split
  · exact unread_sent (unread_trans ready (unread_same rfl rfl))
  · exact unread_sent (unread_trans ready (unread_same rfl rfl))
  · exact unread_trans ready (unread_log rfl rfl rfl)

theorem unread_ask (session : Session) : session.Unread session.ask := by
  unfold Session.ask
  dsimp only
  split
  · exact unread_sent (unread_same rfl rfl)
  · exact unread_same rfl rfl

theorem unread_fulfil (session : Session) : session.Unread session.fulfil := by
  refine ⟨session.fulfil_position, ?_⟩
  rcases session.fulfil_cases with ⟨-, events, shown, same⟩ | ⟨command, view, -, -, same⟩
  · refine ⟨events, by rw [same], ?_⟩
    rcases shown with rfl | ⟨command, rfl⟩ <;> simp [Event.isReading]
  · refine ⟨_, by rw [same], ?_⟩
    simp [Event.isReading]

-- All that is read by an annotation is the annotation.
theorem unread_reaction {marker : Marker} (reaction : Reaction marker session later) :
    (session.log (.annotated marker)).Unread later := by
  cases reaction with
  | prompt =>
    have entered : (session.log (.annotated marker)).Unread
        ((session.log (.annotated marker)).enter .prompt) := unread_same rfl rfl
    exact unread_trans entered (unread_poll _)
  | question => exact unread_ask _
  | phase => exact unread_same rfl rfl
  | fulfilled => exact unread_fulfil _
  | remark => exact unread_same rfl rfl

end Unread

/-- How far the stream was read: of the bytes taken in, these sections with their marker lines, and
then this text, of which `heard` was passed on. The rest of the stream begins with what is held,
whatever is still to come. -/
structure Session.Parses (session : Session) (taken : Bytes) (done : List (Bytes × Marker))
    (text : Bytes) (heard : String) : Prop where
  spoken : ∀ more, heard ++ Utf8.decode (session.held ++ more) =
    Utf8.decode (text ++ (session.held ++ more))
  ahead : ∀ more, Stream.sectionsOf true [] (taken ++ more) =
    (done ++ (Stream.sectionsOf (!session.midLine) text (session.held ++ more)).1,
      (Stream.sectionsOf (!session.midLine) text (session.held ++ more)).2)

/-- The front of what is held may be passed on as a text, and the rest held on. -/
structure Session.Passes (session : Session) (front rest : Bytes) (said : String) (midLine : Bool) :
    Prop where
  held : session.held = front ++ rest
  cut : ∀ more, Utf8.decode (session.held ++ more) = said ++ Utf8.decode (rest ++ more)
  passed : ∀ more, Stream.firstMarker? (!session.midLine) (front ++ (rest ++ more)) =
    (Stream.firstMarker? (!midLine) (rest ++ more)).map (Stream.Cut.prepend front)

section Parses

variable {session later : Session} {taken : Bytes} {done : List (Bytes × Marker)} {text : Bytes}
  {heard : String}

theorem parses_same (parses : session.Parses taken done text heard)
    (same : later.position = session.position) : later.Parses taken done text heard := by
  obtain ⟨held, midLine⟩ := Prod.mk.inj same
  refine ⟨?_, ?_⟩
  · rw [held]
    exact parses.spoken
  · rw [held, midLine]
    exact parses.ahead

theorem parses_arrived (parses : session.Parses taken done text heard) (bytes : Bytes) :
    (session.arrive bytes).Parses (taken ++ bytes) done text heard := by
  have held : (session.arrive bytes).held = session.held ++ bytes := rfl
  constructor
  · intro more
    rw [held, List.append_assoc]
    exact parses.spoken (bytes ++ more)
  · intro more
    rw [held, List.append_assoc, List.append_assoc]
    exact parses.ahead (bytes ++ more)

-- Text is passed on, and the search goes on behind it.
theorem parses_passed (parses : session.Parses taken done text heard) {front rest : Bytes}
    {said : String} {midLine : Bool} (passes : session.Passes front rest said midLine) :
    (session.pass said rest midLine).Parses taken done (text ++ front) (heard ++ said) := by
  obtain ⟨kept, inLine⟩ := Prod.mk.inj (pass_position session said rest midLine)
  constructor
  · intro more
    rw [kept, String.append_assoc, ← passes.cut more, parses.spoken more, passes.held]
    simp
  · intro more
    rw [kept, inLine, parses.ahead more, passes.held, List.append_assoc,
      Stream.sections_passed (passes.passed more)]

-- The marker line begins with a character, so no character lies across the cut.
theorem parses_said (parses : session.Parses taken done text heard) {more : Bytes} {cut : Stream.Cut}
    (found : Stream.firstMarker? (!session.midLine) (session.held ++ more) = some cut) :
    heard ++ Utf8.decode cut.before = Utf8.decode (text ++ cut.before) := by
  obtain ⟨rest, shape⟩ := Stream.first_marker_sub found
  have ascii : Stream.sub < 0x80 := by decide
  have spoken := parses.spoken more
  rw [shape, Utf8.decode_cut_ascii _ _ ascii, ← List.append_assoc, Utf8.decode_cut_ascii _ _ ascii,
    ← String.append_assoc] at spoken
  exact (String.append_left_inj _).mp spoken

-- A marker line is taken out, and the text after it begins.
theorem parses_cut (parses : session.Parses taken done text heard) {cut : Stream.Cut}
    (found : Stream.firstMarker? (!session.midLine) session.held = some cut) :
    (session.pass (Utf8.decode cut.before) cut.after false).Parses taken
      (done ++ [(text ++ cut.before, cut.marker)]) [] "" := by
  obtain ⟨kept, fresh⟩ :=
    Prod.mk.inj (pass_position session (Utf8.decode cut.before) cut.after false)
  refine ⟨fun more => by simp, fun more => ?_⟩
  rw [parses.ahead more, Stream.sections_cut (Stream.first_marker_extend more found), kept, fresh]
  simp [Stream.Cut.extend]

-- Complete lines in which no marker was found.
theorem lines_pass (searched : session.Searched) {lines tail : Bytes}
    (found : Stream.lastLine? session.held = some (lines, tail)) :
    session.Passes lines tail (Utf8.decode lines) false := by
  obtain ⟨unfinished, shape, -, held⟩ := Stream.last_line_shape found
  refine ⟨held, fun more => ?_, fun more => Stream.first_marker_searched more searched found⟩
  rw [held, List.append_assoc, shape]
  exact Utf8.decode_cut_ascii lines (unfinished ++ more) (by decide)

-- When gdb goes quiet, an unfinished line that is no marker is passed on up to its last whole
-- character.
theorem flush_pass (drained : session.Drained) (shown : session.withholds = false)
    (spoken : (Utf8.decodeOpen session.held).1 ≠ "") :
    ∃ front, session.Passes front (Utf8.decodeOpen session.held).2
      (Utf8.decodeOpen session.held).1 true := by
  obtain ⟨front, present, held⟩ := Utf8.decode_open_split spoken
  refine ⟨front, held, Utf8.decode_cut_open session.held, fun more => ?_⟩
  generalize (Utf8.decodeOpen session.held).2 = rest at held ⊢
  have unended := drained.unended
  unfold Session.withholds at shown
  dsimp only at shown
  rw [held] at shown unended
  cases front with
  | nil => exact absurd rfl present
  | cons byte front =>
    -- A newline that was kept back is passed on with the line; otherwise all is one line.
    by_cases afterNewline : byte = Stream.newline
    · subst afterNewline
      have single : Stream.newline ∉ front ++ rest := unended
      have line : front ++ rest ≠ [] ∧ Stream.mayBeginMarker (front ++ rest) = false := by
        simpa using shown
      have inLine : Stream.firstMarker? true (front ++ (rest ++ more)) =
          (Stream.firstMarker? false (rest ++ more)).map (Stream.Cut.prepend front) :=
        Stream.first_marker_shown more line.1 single fun _ => line.2
      rw [List.cons_append, Stream.first_marker_newline, inLine, Stream.prepend_twice]
      rfl
    · have single : Stream.newline ∉ (byte :: front) ++ rest := by
        intro member
        rcases List.mem_cons.mp member with same | inside
        · exact afterNewline same.symm
        · exact unended inside
      refine Stream.first_marker_shown more (by simp) single fun lineStart => ?_
      simpa [afterNewline, lineStart] using shown

end Parses

/-- What was read so far: these sections with their marker lines, and then this text. The rest of the
stream begins with what is held, whatever is still to come. -/
structure Session.Read (session : Session) (done : List (Bytes × Marker)) (text : Bytes) : Prop where
  sections : (readIn "" session.journal).1 = done.map fun part => (Utf8.decode part.1, part.2)
  spoken : ∀ more, (readIn "" session.journal).2 ++ Utf8.decode (session.held ++ more) =
    Utf8.decode (text ++ (session.held ++ more))
  ahead : ∀ more, Stream.sectionsOf true [] (arrivedIn session.journal ++ more) =
    (done ++ (Stream.sectionsOf (!session.midLine) text (session.held ++ more)).1,
      (Stream.sectionsOf (!session.midLine) text (session.held ++ more)).2)

section Reading

variable {allowed : Operation → Bool} {session later : Session} {done : List (Bytes × Marker)}
  {text : Bytes}

theorem read_parses (read : session.Read done text) :
    session.Parses (arrivedIn session.journal) done text (readIn "" session.journal).2 :=
  ⟨read.spoken, read.ahead⟩

theorem read_of_parses {taken : Bytes} {heard : String}
    (parses : session.Parses taken done text heard) (came : arrivedIn session.journal = taken)
    (said : readIn "" session.journal =
      (done.map fun part => (Utf8.decode part.1, part.2), heard)) : session.Read done text := by
  constructor
  · rw [said]
  · rw [said]
    exact parses.spoken
  · rw [came]
    exact parses.ahead

theorem read_unread (read : session.Read done text) (unread : session.Unread later) :
    later.Read done text := by
  obtain ⟨events, journal, plain⟩ := unread.events
  refine read_of_parses (parses_same (read_parses read) unread.position) ?_ ?_
  · rw [journal, arrived_append, arrived_plain plain, List.append_nil]
  · rw [journal, read_append, read_plain _ plain, List.append_nil]
    exact Prod.ext read.sections rfl

theorem read_arrived (read : session.Read done text) (bytes : Bytes) :
    (session.arrive bytes).Read done text := by
  refine read_of_parses (parses_arrived (read_parses read) bytes) ?_ ?_
  · simp [Session.arrive, Session.log, arrived_append, arrivedIn]
  · rw [← read.sections]
    simp [Session.arrive, Session.log, read_append, readIn]

theorem arrived_pass (session : Session) (said : String) (rest : Bytes) (midLine : Bool) :
    arrivedIn (session.pass said rest midLine).journal = arrivedIn session.journal := by
  by_cases silent : said = ""
  · simp [Session.pass, Session.hear, Session.hold, silent]
  · cases sink : session.sink <;>
      simp [Session.pass, Session.hear, Session.hold, Session.log, silent, sink, arrived_append,
        arrivedIn]

theorem read_pass (session : Session) (said : String) (rest : Bytes) (midLine : Bool) :
    readIn "" (session.pass said rest midLine).journal =
      ((readIn "" session.journal).1, (readIn "" session.journal).2 ++ said) := by
  by_cases silent : said = ""
  · simp [Session.pass, Session.hear, Session.hold, silent]
  · cases sink : session.sink <;>
      simp [Session.pass, Session.hear, Session.hold, Session.log, silent, sink, read_append, readIn]

theorem read_passed (read : session.Read done text) {front rest : Bytes} {said : String}
    {midLine : Bool} (passes : session.Passes front rest said midLine) :
    (session.pass said rest midLine).Read done (text ++ front) := by
  refine read_of_parses (parses_passed (read_parses read) passes) (arrived_pass _ _ _ _) ?_
  rw [read_pass, read.sections]

theorem read_cut (read : session.Read done text) {cut : Stream.Cut}
    (found : Stream.firstMarker? (!session.midLine) session.held = some cut) :
    ((session.pass (Utf8.decode cut.before) cut.after false).log (.annotated cut.marker)).Read
      (done ++ [(text ++ cut.before, cut.marker)]) [] := by
  have parses := read_parses read
  have whole : Stream.firstMarker? (!session.midLine) (session.held ++ []) = some cut := by
    rwa [List.append_nil]
  have said := parses_said parses whole
  refine read_of_parses (parses_same (parses_cut parses found) rfl) ?_ ?_
  · simp [Session.log, arrived_append, arrivedIn, arrived_pass]
  · simp [Session.log, read_append, read_pass, readIn, read.sections, said]

theorem read_lines (read : session.Read done text) (searched : session.Searched)
    {lines tail : Bytes} (found : Stream.lastLine? session.held = some (lines, tail)) :
    (session.pass (Utf8.decode lines) tail false).Read done (text ++ lines) :=
  read_passed read (lines_pass searched found)

theorem read_move
    (keeps : ∀ operation, allowed operation = true → operation.keepsReading = true)
    (read : session.Read done text) (move : Move allowed session later) :
    ∃ done text, later.Read done text := by
  have kept (unread : session.Unread later) : ∃ done text, later.Read done text :=
    ⟨done, text, read_unread read unread⟩
  -- Only what arrives, a marker line and lines without one are read; nothing else is heard.
  cases move with
  | accept => exact kept (unread_accept _ _ _)
  | @request id =>
    have awaited : session.Unread (session.await id) := unread_same rfl rfl
    exact kept (unread_trans awaited (unread_accept _ _ _))
  | arrive => exact ⟨done, text, read_arrived read _⟩
  | cut _ _ found reaction => exact ⟨_, _, read_unread (read_cut read found) (unread_reaction reaction)⟩
  | lines _ searched found => exact ⟨done, _, read_lines read searched found⟩
  | react granted | flush granted | hear granted | close granted => cases keeps _ granted
  | complain => exact kept (unread_log rfl rfl rfl)
  | send => exact kept (unread_send_out _ _ _)
  | @take tier => cases tier <;> exact kept (unread_same rfl rfl)
  | poll => exact kept (unread_poll _)
  | ask => exact kept (unread_ask _)
  | note | addBuffer | removeBuffer | register | registerHandled | setPipe | setSink
  | setPrompting => exact kept (unread_same rfl rfl)

theorem read_moves
    (keeps : ∀ operation, allowed operation = true → operation.keepsReading = true)
    (read : session.Read done text) (moves : Moves allowed session later) :
    ∃ done text, later.Read done text := by
  induction moves with
  | refl => exact ⟨done, text, read⟩
  | tail _ move ih =>
    obtain ⟨done, text, read⟩ := ih
    exact read_move keeps read move

theorem read_flush (read : session.Read done text) (drained : session.Drained)
    (shown : session.withholds = false) (spoken : (Utf8.decodeOpen session.held).1 ≠ "") :
    ∃ front, (session.pass (Utf8.decodeOpen session.held).1 (Utf8.decodeOpen session.held).2 true).Read
      done (text ++ front) := by
  obtain ⟨front, passes⟩ := flush_pass drained shown spoken
  exact ⟨front, read_passed read passes⟩

end Reading

section Runs

variable {session later : Session}

/-- What a session may be asked for while it reads: the host says that gdb went quiet, handlers do
not. -/
def Operation.isReadable (operation : Operation) : Prop :=
  operation.within Operation.keepsReading = true ∨ operation = .flush

/-- A session that has read what arrived, and holds an unfinished line at most. -/
structure Session.Exact (session : Session) : Prop where
  inside : session.Within Operation.keepsReading
  drained : session.Drained
  read : ∃ done text, session.Read done text

theorem exact_start (process : Subprocess) {views : Catalog}
    (inside : views.Within Operation.keepsReading) : (Session.start process views).Exact := by
  refine ⟨Session.start_within process inside, ⟨rfl, by simp [Session.start]⟩, [], [], rfl, ?_, ?_⟩
  · intro more
    rfl
  · intro more
    rfl

theorem exact_flush {answer : Answer} (exact_ : session.Exact)
    (done : session.perform .flush = .ok answer later) : later.Exact := by
  have ran : (do let shown ← Engine.flush; pure (Answer.flag shown) : Engine Answer).run session =
      .ok answer later := done
  obtain ⟨shown, middle, ran, same⟩ := Engine.bind_ok ran
  cases same
  rw [Engine.run_flush] at ran
  split at ran
  · cases ran
  · split at ran
    · cases ran
      exact exact_
    · next open_ =>
      split at ran
      · cases ran
        exact exact_
      · next spoken =>
        cases ran
        obtain ⟨sections, text, read⟩ := exact_.read
        obtain ⟨front, read⟩ := read_flush read exact_.drained (by simpa using open_) spoken
        exact ⟨pass_within exact_.inside _ _ _, Engine.flushed_drained session, sections, _, read⟩

theorem exact_perform {operation : Operation} {answer : Answer} (exact_ : session.Exact)
    (readable : operation.isReadable) (done : session.perform operation = .ok answer later) :
    later.Exact := by
  rcases readable with own | rfl
  · have ends := Session.perform_ends exact_.inside own
    rw [done] at ends
    obtain ⟨moves, settled⟩ := ends
    obtain ⟨sections, text, read⟩ := exact_.read
    exact ⟨moves_within exact_.inside moves, drained_settled exact_.drained settled,
      read_moves (fun _ => id) read moves⟩
  · exact exact_flush exact_ done

theorem exact_perform_all {operations : List Operation} (exact_ : session.Exact)
    (readable : ∀ operation ∈ operations, operation.isReadable)
    (run : session.performAll operations = some later) : later.Exact := by
  induction operations generalizing session with
  | nil =>
    cases run
    exact exact_
  | cons operation rest ih =>
    have first := readable operation List.mem_cons_self
    have others := fun next member => readable next (List.mem_cons_of_mem operation member)
    unfold Session.performAll at run
    split at run
    · next answer middle done => exact ih (exact_perform exact_ first done) others run
    · cases run

/-- A session has read a stream of output, all of it, exactly as it is written. -/
structure Session.ReadsExactly (session : Session) (stream : Bytes) : Prop where
  arrived : arrivedIn session.journal = stream
  announced : Stream.Announce (stream.splitOn Stream.newline).dropLast
    ((readIn "" session.journal).1.map Prod.snd)
  markers : (readIn "" session.journal).1.map Prod.snd =
    (stream.splitOn Stream.newline).dropLast.filterMap Stream.markerOf?
  parts : (readIn "" session.journal).1 =
    (Stream.sectionsOf true [] stream).1.map fun part => (Utf8.decode part.1, part.2)
  /-- What was passed on since the last marker line, with what is held, is the rest. -/
  rest : (readIn "" session.journal).2 ++ Utf8.decode session.held =
    Utf8.decode (Stream.sectionsOf true [] stream).2

/-- However the output is divided into reads, wherever gdb goes quiet, and whatever else is asked for
on the way: if nothing fails, the annotations that were acted upon are the marker lines of all output
that was fed, the text that was passed on before each of them is what stands between it and the one
before, and what was passed on since the last, with what is held, is the rest. -/
theorem stream_read_exactly {process : Subprocess} {views : Catalog} {session : Session}
    {operations : List Operation} (inside : views.Within Operation.keepsReading)
    (readable : ∀ operation ∈ operations, operation.isReadable)
    (run : (Session.start process views).performAll operations = some session) :
    session.ReadsExactly (fedIn ((Session.start process views).calls operations)) := by
  have exact_ := exact_perform_all (exact_start process inside) readable run
  obtain ⟨done, text, read⟩ := exact_.read
  have searched : Stream.sectionsOf (!session.midLine) text session.held = ([], text ++ session.held) :=
    Stream.sections_plain exact_.drained.searched text
  have ahead := read.ahead []
  rw [List.append_nil, List.append_nil, searched, List.append_nil] at ahead
  have parts : (readIn "" session.journal).1 =
      (Stream.sectionsOf true [] (arrivedIn session.journal)).1.map
        (fun part => (Utf8.decode part.1, part.2)) := by
    rw [ahead]
    exact read.sections
  have markers : (readIn "" session.journal).1.map Prod.snd =
      ((arrivedIn session.journal).splitOn Stream.newline).dropLast.filterMap Stream.markerOf? := by
    rw [parts, List.map_map]
    exact Stream.sections_markers [] _
  have arrived :
      arrivedIn session.journal = fedIn ((Session.start process views).calls operations) := by
    have recorded := calls_recorded (Session.start process views) operations
    rw [after_of_perform_all run] at recorded
    exact (arrived_fed _).trans (congrArg fedIn recorded)
  rw [← arrived]
  refine ⟨rfl, ?_, markers, parts, ?_⟩
  · rw [markers]
    exact Stream.announce_lines _
  · have spoken := read.spoken []
    rw [List.append_nil] at spoken
    rw [spoken, ahead]

/-- Reads that end within a marker line, a flush within a line that has a marker after its first
letter, and so is none, and a handler that takes in output. -/
theorem stream_read_around_flush :
    let operations : List Operation :=
      [.enqueue .urgent (.mk "info locals" (some (.routine "locals"
          [.enqueue .idle (.typed "next"), .ingest ["z".toUTF8.data.toList]] none)) none),
        .ingest ["\n\x1A".toUTF8.data.toList,
          "\x1Aprompt\n\n\x1A\x1Apost-prompt\nx".toUTF8.data.toList],
        .flush,
        .ingest ["\x1A\x1Aprompt\n\x1A\x1Apre-prompt\ny".toUTF8.data.toList]]
    let start := Session.start ⟨1, none, [], false, false, false⟩ Table.empty
    ∃ session : Session,
      start.performAll operations = some session ∧
      (readIn "" session.journal).1.map (·.2.tag) = ["prompt", "post-prompt", "pre-prompt"] ∧
      fedIn (start.calls operations) =
        ("\n\x1A\x1Aprompt\n\n\x1A\x1Apost-prompt\nx" ++
          "\x1A\x1Aprompt\n\x1A\x1Apre-prompt\nyz").toUTF8.data.toList ∧
      session.ReadsExactly (fedIn (start.calls operations)) := by
  intro operations start
  have readable : ∀ operation ∈ operations, operation.isReadable := by
    intro operation member
    simp only [operations, List.mem_cons, List.not_mem_nil, or_false] at member
    rcases member with rfl | rfl | rfl | rfl
    · exact .inl rfl
    · exact .inl rfl
    · exact .inr rfl
    · exact .inl rfl
  have inside : Catalog.Within Operation.keepsReading Table.empty := by
    intro view member
    cases member
  have shown : (start.performAll operations).map
      (fun session => (readIn "" session.journal).1.map (·.2.tag)) =
        some ["prompt", "post-prompt", "pre-prompt"] := by
    decide +kernel
  have fed : fedIn (start.calls operations) =
      ("\n\x1A\x1Aprompt\n\n\x1A\x1Apost-prompt\nx" ++
        "\x1A\x1Aprompt\n\x1A\x1Apre-prompt\nyz").toUTF8.data.toList := by
    decide +kernel
  obtain ⟨session, run, tags⟩ := Option.map_eq_some_iff.mp shown
  exact ⟨session, run, tags, fed, stream_read_exactly inside readable run⟩

/-- If a handler may pass on the unfinished rest of the output, as if gdb had gone quiet, then a
marker line that has arrived already is passed on as text. -/
theorem marker_passed_on_by_handler :
    let operations : List Operation :=
      [.enqueue .urgent (.mk "info locals" (some (.routine "locals" [.flush] none)) none),
        .ingest ["\n\x1A\x1Aprompt\n".toUTF8.data.toList],
        .ingest ["\n\x1A\x1Apost-prompt\n".toUTF8.data.toList],
        .ingest ["\n\x1A\x1Apre-prompt\nA\n\x1A\x1Aprompt\n".toUTF8.data.toList]]
    ∃ session : Session,
      (Session.start ⟨1, none, [], false, false, false⟩ Table.empty).performAll operations =
        some session ∧
      (readIn "" session.journal).1.map (·.2.tag) = ["prompt", "post-prompt", "pre-prompt"] ∧
      (((arrivedIn session.journal).splitOn Stream.newline).dropLast.filterMap
        Stream.markerOf?).map (·.tag) = ["prompt", "post-prompt", "pre-prompt", "prompt"] := by
  intro operations
  have shown : ((Session.start ⟨1, none, [], false, false, false⟩ Table.empty).performAll
      operations).map (fun session => ((readIn "" session.journal).1.map (·.2.tag),
        (((arrivedIn session.journal).splitOn Stream.newline).dropLast.filterMap
          Stream.markerOf?).map (·.tag))) =
      some (["prompt", "post-prompt", "pre-prompt"],
        ["prompt", "post-prompt", "pre-prompt", "prompt"]) := by
    decide +kernel
  obtain ⟨session, run, tags⟩ := Option.map_eq_some_iff.mp shown
  exact ⟨session, run, (Prod.mk.inj tags).1, (Prod.mk.inj tags).2⟩

end Runs

end GdbControl
