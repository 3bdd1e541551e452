import GdbControl.Proofs.Held

/-!
It makes no difference how gdb's output is divided into reads. What is held of a read is looked at
again together with the next one, and a search that has passed over lines without a marker goes on
where it stopped. Handlers may do anything but take in output themselves; only a handler that closes
the session and then brings it back would lose what was held, and how much that is depends on the
reads.
-/

namespace GdbControl

namespace Session

/-- Sessions that differ in nothing but how their output was divided. -/
structure Alike (first second : Session) : Prop where
  bare : first.bare = second.bare
  position : first.position = second.position

/-- The second session holds more, and otherwise differs in no more than that. -/
structure Lags (more : Bytes) (first second : Session) : Prop where
  bare : first.bare = second.bare
  position : second.position = (first.held ++ more, first.midLine)

end Session

section Passing

variable {first second : Session} {text : String}

theorem alike_closed (same : first.bare = second.bare) : first.isClosed = second.isClosed := by
  have bared := congrArg Session.isClosed same
  exact bared

theorem hear_alike (same : first.bare = second.bare) :
    (first.hear text).bare = (second.hear text).bare := by
  rw [← Session.bare_hear first, ← Session.bare_hear second, same]

theorem pass_bare (session : Session) (text : String) (held : Bytes) (midLine : Bool) :
    (session.pass text held midLine).bare = (session.hear text).bare :=
  hear_alike (session.bare_hold held midLine)

-- Text may be passed on in parts.
theorem hear_append (session : Session) (front back : String) :
    ((session.hear front).hear back).bare = (session.hear (front ++ back)).bare := by
  by_cases noFront : front = ""
  · simp [Session.hear, noFront]
  · by_cases noBack : back = ""
    · have nothing : (session.hear front).hear back = session.hear front := by
        rw [noBack]
        rfl
      rw [nothing, noBack, String.append_empty]
    · have whole : front ++ back ≠ "" := fun empty => noFront (String.append_eq_empty_iff.mp empty).1
      cases sink : session.sink <;>
        simp [Session.hear, noFront, noBack, whole, sink, Session.log, Session.bare,
          Event.isIntake, Display.appendTranscript, Display.appendProgramOutput, String.append_assoc]

theorem pass_lags {rest more : Bytes} (same : first.bare = second.bare) :
    (first.pass text rest false).Lags more (second.pass text (rest ++ more) false) := by
  have position := pass_position first text rest false
  obtain ⟨held, midLine⟩ := Prod.mk.inj position
  constructor
  · rw [pass_bare, pass_bare]
    exact hear_alike same
  · rw [pass_position, held, midLine]

-- A stretch that a newline begins is decoded on its own.
theorem decode_lines (lines : Bytes) {part : Bytes}
    (begins : ∀ byte ∈ part.head?, byte = Stream.newline) :
    Utf8.decode (lines ++ part) = Utf8.decode lines ++ Utf8.decode part := by
  cases part with
  | nil =>
    have nothing : Utf8.decode [] = "" := rfl
    simp [nothing]
  | cons byte rest =>
    have ascii : byte < 0x80 := by
      rw [begins byte rfl]
      decide
    exact Utf8.decode_cut_ascii lines rest ascii

theorem lines_begin {rest lines tail : Bytes}
    (found : Stream.lastLine? (Stream.newline :: rest) = some (lines, tail)) :
    ∀ byte ∈ lines.head?, byte = Stream.newline := by
  obtain ⟨unfinished, -, -, shape⟩ := Stream.last_line_shape found
  cases lines with
  | nil => simp
  | cons first lines => simpa using (List.cons.inj shape).1.symm

theorem before_begins {rest : Bytes} {cut : Stream.Cut}
    (found : Stream.firstMarker? true (Stream.newline :: rest) = some cut) :
    ∀ byte ∈ cut.before.head?, byte = Stream.newline := by
  rw [Stream.first_marker_newline] at found
  obtain ⟨inner, -, rfl⟩ := Option.map_eq_some_iff.mp found
  simp [Stream.Cut.prepend]

-- Text that is passed on in two parts, with a read in between, and the same text at once.
theorem passed_twice {resumed : Session} {lines part : Bytes} (same : first.bare = second.bare)
    (resumes : (first.hear (Utf8.decode lines)).bare = resumed.bare)
    (begins : ∀ byte ∈ part.head?, byte = Stream.newline) (rest : Bytes) :
    (resumed.pass (Utf8.decode part) rest false).Alike
      (second.pass (Utf8.decode (lines ++ part)) rest false) := by
  constructor
  · rw [pass_bare, pass_bare, decode_lines lines begins]
    calc (resumed.hear (Utf8.decode part)).bare
        = ((first.hear (Utf8.decode lines)).hear (Utf8.decode part)).bare := (hear_alike resumes).symm
      _ = (first.hear (Utf8.decode lines ++ Utf8.decode part)).bare := hear_append _ _ _
      _ = (second.hear (Utf8.decode lines ++ Utf8.decode part)).bare := hear_alike same
  · rw [pass_position, pass_position]

end Passing

namespace Engine

section Cuts

variable {allowed : Operation → Bool} {depth : Nat} {first later : Session}

theorem bare_reported (result : EStateM.Result Fault Session Unit) :
    bareResult (reported (bareResult result)) = bareResult (reported result) := by
  cases result with
  | ok value later => simp [reported, bareResult, Session.bare_bare]
  | error fault later =>
    cases only : fault.isReported <;>
      simp [reported, bareResult, only, Session.bare_bare, Session.bare_complain]

theorem react_moves (inside : first.Within allowed) {marker : Marker}
    (done : (reactOrReport (complete depth) marker).run first = .ok () later) :
    first.isClosed = false ∧
      ∃ middle, Reaction marker first middle ∧ Moves allowed middle later := by
  cases closed : first.isClosed with
  | true =>
    rw [run_react_or_report, run_react_closed _ _ closed] at done
    cases done
  | false =>
    obtain ⟨middle, reaction, ends⟩ :=
      react_or_report_ends marker inside closed (routines_traced depth)
    rw [done] at ends
    exact ⟨rfl, middle, reaction, ends.1⟩

theorem react_within (inside : first.Within allowed) {marker : Marker}
    (done : (reactOrReport (complete depth) marker).run first = .ok () later) :
    later.Within allowed := by
  obtain ⟨-, middle, reaction, moves⟩ := react_moves inside done
  exact moves_within (reaction_within inside reaction) moves

-- A marker line that is found is acted upon, if the reading succeeds.
theorem cut_of_drain {cut : Stream.Cut}
    (found : Stream.firstMarker? (!first.midLine) first.held = some cut)
    (done : drain (complete depth) first = .ok () later) :
    ∃ middle, (reactOrReport (complete depth) cut.marker).run
      (first.pass (Utf8.decode cut.before) cut.after false) = .ok () middle := by
  rw [drain_eq, found] at done
  simp only [run_accept_cut] at done
  split at done
  · cases done
  · next value middle ran => exact ⟨middle, ran⟩

theorem drain_plain {complete : Completion}
    (plain : Stream.firstMarker? (!first.midLine) first.held = none) :
    drain complete first = emitLines.run first := by
  rw [drain_eq, plain]

theorem drain_within (inside : first.Within allowed)
    (done : drain (complete depth) first = .ok () later) : later.Within allowed := by
  induction size : first.held.length using Nat.strongRecOn generalizing first with
  | _ size ih =>
    subst size
    have emitted {session : Session} (inside : session.Within allowed)
        (done : emitLines.run session = .ok () later) : later.Within allowed := by
      rw [run_emit_lines] at done
      split at done
      · cases done
        exact inside
      · cases done
        exact pass_within inside _ _ _
    cases found : Stream.firstMarker? (!first.midLine) first.held with
    | none => exact emitted inside ((drain_plain found).symm.trans done)
    | some cut =>
      obtain ⟨middle, ran⟩ := cut_of_drain found done
      have kept := react_within (pass_within inside _ _ _) ran
      rw [drain_eq, found] at done
      simp only [run_accept_cut, ran] at done
      split at done
      · next less => exact ih middle.held.length less kept done rfl
      · exact emitted kept done

theorem drain_nothing {complete : Completion} (nothing : first.held = []) :
    drain complete first = .ok () first := by
  have plain : Stream.firstMarker? (!first.midLine) first.held = none := by
    rw [nothing]
    rfl
  rw [drain_plain plain, run_emit_lines, nothing]
  rfl

end Cuts

section Reading

variable {allowed : Operation → Bool} {depth : Nat} {drops : Bool} {first second later : Session}
  (quiet : ∀ operation, allowed operation = true → operation.isQuiet = true)
  (steady : Steady allowed drops)

include quiet

theorem react_alike (inside : first.Within allowed) (same : first.bare = second.bare) {marker : Marker}
    (done : (reactOrReport (complete depth) marker).run first = .ok () later) :
    ∃ later', (reactOrReport (complete depth) marker).run second = .ok () later' ∧
      later.bare = later'.bare := by
  have alike := blind_same (blind_react (routines_blind quiet depth) marker) inside same
  have results : bareResult ((reactOrReport (complete depth) marker).run first) =
      bareResult ((reactOrReport (complete depth) marker).run second) := by
    rw [run_react_or_report, run_react_or_report, ← bare_reported, alike, bare_reported]
  rw [done] at results
  cases other : (reactOrReport (complete depth) marker).run second with
  | ok value later' =>
    rw [other] at results
    exact ⟨later', rfl, (EStateM.Result.ok.inj results).2⟩
  | error fault later' =>
    rw [other] at results
    cases results

include steady

-- What is held once a marker line has been acted upon.
theorem react_held (inside : first.Within allowed) {marker : Marker}
    (done : (reactOrReport (complete depth) marker).run first = .ok () later) :
    later.position = (first.heldAt drops later, first.midLine) := by
  obtain ⟨alive, middle, reaction, moves⟩ := react_moves inside done
  have kept := moves_held quiet steady (reaction_alive alive reaction) moves
  obtain ⟨held, midLine⟩ := Prod.mk.inj (reaction_position reaction)
  rwa [Session.heldAt, held, midLine] at kept

-- No more is held than before.
theorem react_shorter (inside : first.Within allowed) {marker : Marker}
    (done : (reactOrReport (complete depth) marker).run first = .ok () later) :
    later.held.length ≤ first.held.length := by
  have held : later.held = first.heldAt drops later :=
    congrArg Prod.fst (react_held quiet steady inside done)
  rw [held, Session.heldAt]
  split
  · exact Nat.zero_le _
  · exact Nat.le_refl _

theorem react_keeps_alike (inside : first.Within allowed) (alike : first.Alike second)
    {marker : Marker} (done : (reactOrReport (complete depth) marker).run first = .ok () later) :
    ∃ later', (reactOrReport (complete depth) marker).run second = .ok () later' ∧
      later.Alike later' := by
  obtain ⟨later', done', same⟩ := react_alike quiet inside alike.bare done
  have inside' := within_of_bare alike.bare inside
  have kept := react_held quiet steady inside done
  have kept' := react_held quiet steady inside' done'
  obtain ⟨held, midLine⟩ := Prod.mk.inj alike.position
  refine ⟨later', done', same, ?_⟩
  rw [kept, kept', Session.heldAt, Session.heldAt, alike_closed same, held, midLine]

-- Unless what was held is dropped, the session that held more still does.
theorem react_lags (inside : first.Within allowed) {more : Bytes}
    (lags : first.Lags more second) {marker : Marker}
    (done : (reactOrReport (complete depth) marker).run first = .ok () later)
    (unclosed : (drops && later.isClosed) = false) :
    ∃ later', (reactOrReport (complete depth) marker).run second = .ok () later' ∧
      later.Lags more later' := by
  obtain ⟨later', done', same⟩ := react_alike quiet inside lags.bare done
  have kept := react_held quiet steady inside done
  have kept' := react_held quiet steady (within_of_bare lags.bare inside) done'
  rw [Session.heldAt, unclosed] at kept
  rw [Session.heldAt, ← alike_closed same, unclosed] at kept'
  obtain ⟨held, midLine⟩ := Prod.mk.inj lags.position
  obtain ⟨rest, inLine⟩ := Prod.mk.inj kept
  refine ⟨later', done', same, ?_⟩
  rw [kept', rest, inLine, held, midLine]
  rfl

theorem drain_cut (inside : first.Within allowed) {cut : Stream.Cut}
    (found : Stream.firstMarker? (!first.midLine) first.held = some cut)
    (done : (reactOrReport (complete depth) cut.marker).run
      (first.pass (Utf8.decode cut.before) cut.after false) = .ok () later) :
    later.held.length < first.held.length ∧
      drain (complete depth) first = drain (complete depth) later := by
  have less : later.held.length < first.held.length := by
    have shorter := react_shorter quiet steady (pass_within inside _ _ _) done
    have position := pass_position first (Utf8.decode cut.before) cut.after false
    have held : (first.pass (Utf8.decode cut.before) cut.after false).held = cut.after :=
      congrArg Prod.fst position
    rw [held] at shorter
    exact Nat.lt_of_le_of_lt shorter (Stream.length_firstMarker? found)
  refine ⟨less, ?_⟩
  rw [drain_eq, found]
  simp only [run_accept_cut, done, less, if_true]

-- Sessions that are alike once the text before a marker line is passed on.
theorem drain_cut_alike (inside : first.Within allowed) (inside' : second.Within allowed)
    {cut cut' : Stream.Cut}
    (found : Stream.firstMarker? (!first.midLine) first.held = some cut)
    (found' : Stream.firstMarker? (!second.midLine) second.held = some cut')
    (marker : cut'.marker = cut.marker)
    (passed : (first.pass (Utf8.decode cut.before) cut.after false).Alike
      (second.pass (Utf8.decode cut'.before) cut'.after false))
    (done : drain (complete depth) first = .ok () later)
    (rest : ∀ middle middle' : Session, middle.held.length < first.held.length →
      middle.Within allowed → middle.Alike middle' → drain (complete depth) middle = .ok () later →
        ∃ later', drain (complete depth) middle' = .ok () later' ∧ later.Alike later') :
    ∃ later', drain (complete depth) second = .ok () later' ∧ later.Alike later' := by
  obtain ⟨middle, ran⟩ := cut_of_drain found done
  obtain ⟨middle', ran', alike⟩ :=
    react_keeps_alike quiet steady (pass_within inside _ _ _) passed ran
  rw [← marker] at ran'
  obtain ⟨less, onward⟩ := drain_cut quiet steady inside found ran
  obtain ⟨-, onward'⟩ := drain_cut quiet steady inside' found' ran'
  rw [onward] at done
  rw [onward']
  exact rest middle middle' less (react_within (pass_within inside _ _ _) ran) alike done

/-- Sessions that are alike take in the same output alike. By induction on what is held. -/
theorem drain_alike (inside : first.Within allowed) (alike : first.Alike second)
    (done : drain (complete depth) first = .ok () later) :
    ∃ later', drain (complete depth) second = .ok () later' ∧ later.Alike later' := by
  induction size : first.held.length using Nat.strongRecOn generalizing first second with
  | _ size ih =>
    subst size
    obtain ⟨held, midLine⟩ := Prod.mk.inj alike.position
    have inside' := within_of_bare alike.bare inside
    have passed (text : String) (rest : Bytes) : (first.pass text rest false).Alike
        (second.pass text rest false) := by
      constructor
      · rw [pass_bare, pass_bare]
        exact hear_alike alike.bare
      · rw [pass_position, pass_position]
    cases found : Stream.firstMarker? (!first.midLine) first.held with
    | none =>
      have found' : Stream.firstMarker? (!second.midLine) second.held = none := by
        rw [← held, ← midLine, found]
      rw [drain_plain found, run_emit_lines] at done
      rw [drain_plain found', run_emit_lines, ← held]
      cases last : Stream.lastLine? first.held with
      | none =>
        rw [last] at done
        cases done
        exact ⟨second, rfl, alike⟩
      | some parts =>
        rw [last] at done
        cases done
        exact ⟨_, rfl, passed _ _⟩
    | some cut =>
      have found' : Stream.firstMarker? (!second.midLine) second.held = some cut := by
        rw [← held, ← midLine, found]
      apply drain_cut_alike quiet steady inside inside' found found' rfl (passed _ _) done
      intro middle middle' less kept alike' done'
      exact ih middle.held.length less kept alike' done' rfl

-- The second read begins after lines that were passed on already.
theorem drain_resumed {more lines tail : Bytes} {resumed last : Session}
    (inside : first.Within allowed) (lags : first.Lags more second)
    (plain : first.Searched) (parts : Stream.lastLine? first.held = some (lines, tail))
    (resumes : (first.hear (Utf8.decode lines)).bare = resumed.bare)
    (position : resumed.position = (tail ++ more, false))
    (finish : drain (complete depth) resumed = .ok () last) :
    ∃ last', drain (complete depth) second = .ok () last' ∧ last.Alike last' := by
  obtain ⟨unfinished, rfl, -, shape⟩ := Stream.last_line_shape parts
  obtain ⟨held, midLine⟩ := Prod.mk.inj position
  obtain ⟨held', midLine'⟩ := Prod.mk.inj lags.position
  have whole : second.held = lines ++ (Stream.newline :: unfinished ++ more) := by
    rw [held', shape, List.append_assoc]
  have passed (rest : Bytes) {part : Bytes} (begins : ∀ byte ∈ part.head?, byte = Stream.newline) :=
    passed_twice lags.bare resumes begins rest
  have searched : Stream.firstMarker? (!second.midLine) second.held =
      (Stream.firstMarker? (!resumed.midLine) resumed.held).map (Stream.Cut.prepend lines) := by
    rw [whole, midLine', held, midLine]
    exact Stream.first_marker_searched more plain parts
  -- From here on both find the same; only the text in front of it is in two parts or in one.
  cases found : Stream.firstMarker? (!resumed.midLine) resumed.held with
  | none =>
    rw [found, Option.map_none] at searched
    rw [drain_plain found, run_emit_lines] at finish
    rw [drain_plain searched, run_emit_lines, whole]
    obtain ⟨lines', tail', parts'⟩ : ∃ lines' tail',
        Stream.lastLine? (Stream.newline :: unfinished ++ more) = some (lines', tail') :=
      Stream.last_line_found List.mem_cons_self
    rw [held, parts'] at finish
    cases finish
    rw [Stream.last_line_append lines parts']
    exact ⟨_, rfl, passed tail' (lines_begin parts')⟩
  | some cut =>
    rw [found, Option.map_some] at searched
    have begins : ∀ byte ∈ cut.before.head?, byte = Stream.newline := by
      rw [held, midLine] at found
      exact before_begins found
    have again : resumed.Within allowed := within_of_bare resumes (hear_within inside _)
    refine drain_cut_alike quiet steady again (within_of_bare lags.bare inside) found searched rfl
      (passed cut.after begins) finish ?_
    intro middle middle' less kept alike finish'
    exact drain_alike quiet steady kept alike finish'

/-- If nothing more was held after the first read, then the reading goes on with the second read as
it would with both. -/
theorem drain_lags (inside : first.Within allowed) {more : Bytes}
    (lags : first.Lags more second) (done : drain (complete depth) first = .ok () later)
    (alive : later.isClosed = false) {resumed last : Session} (again : later.Lags more resumed)
    (finish : drain (complete depth) resumed = .ok () last) :
    ∃ last', drain (complete depth) second = .ok () last' ∧ last.Alike last' := by
  induction size : first.held.length using Nat.strongRecOn generalizing first second with
  | _ size ih =>
    subst size
    obtain ⟨held, midLine⟩ := Prod.mk.inj lags.position
    cases found : Stream.firstMarker? (!first.midLine) first.held with
    | none =>
      rw [drain_plain found, run_emit_lines] at done
      cases parts : Stream.lastLine? first.held with
      | none =>
        -- The first read passed nothing on, so it is looked at again with the second one.
        rw [parts] at done
        cases done
        have alike : resumed.Alike second :=
          ⟨again.bare.symm.trans lags.bare, again.position.trans lags.position.symm⟩
        exact drain_alike quiet steady (within_of_bare again.bare inside) alike finish
      | some both =>
        obtain ⟨lines, tail⟩ := both
        rw [parts] at done
        cases done
        have resumes := again.bare
        rw [pass_bare] at resumes
        obtain ⟨kept, fresh⟩ := Prod.mk.inj (pass_position first (Utf8.decode lines) tail false)
        refine drain_resumed quiet steady inside lags found parts resumes ?_ finish
        rw [again.position, kept, fresh]
    | some cut =>
      -- Both act upon the same marker line, and go on with what follows it.
      have found' : Stream.firstMarker? (!second.midLine) second.held = some (cut.extend more) := by
        rw [held, midLine]
        exact Stream.first_marker_extend more found
      have inside' := within_of_bare lags.bare inside
      obtain ⟨middle, ran⟩ := cut_of_drain found done
      obtain ⟨less, rest⟩ := drain_cut quiet steady inside found ran
      have passed : (first.pass (Utf8.decode cut.before) cut.after false).Lags more
          (second.pass (Utf8.decode cut.before) (cut.after ++ more) false) := pass_lags lags.bare
      -- A session that dropped what was held would still be closed at the end.
      have unclosed : (drops && middle.isClosed) = false := by
        cases dropped : drops && middle.isClosed with
        | false => rfl
        | true =>
          have nothing := congrArg Prod.fst (react_held quiet steady (pass_within inside _ _ _) ran)
          simp only [Session.position, Session.heldAt, dropped, if_true] at nothing
          rw [rest, drain_nothing nothing] at done
          cases done
          simp [alive] at dropped
      obtain ⟨middle', ran', lags'⟩ :=
        react_lags quiet steady (pass_within inside _ _ _) passed ran unclosed
      obtain ⟨-, rest'⟩ := drain_cut quiet steady inside' found' ran'
      rw [rest] at done
      rw [rest']
      exact ih middle.held.length less (react_within (pass_within inside _ _ _) ran) lags' done rfl

end Reading

section Reads

variable {allowed : Operation → Bool} {depth : Nat} {drops : Bool} {session middle later : Session}

theorem ingested {bytes : Bytes} (done : (ingest (complete depth) bytes).run session = .ok () later) :
    session.isClosed = false ∧ drain (complete depth) (session.arrive bytes) = .ok () later := by
  rw [run_ingest] at done
  split at done
  · cases done
  · next alive =>
    split at done
    · next value last ran =>
      cases done
      exact ⟨by simpa using alive, ran⟩
    · cases done

theorem ingest_append (quiet : ∀ operation, allowed operation = true → operation.isQuiet = true)
    (steady : Steady allowed drops) (inside : session.Within allowed) {bytes more : Bytes}
    (first : (ingest (complete depth) bytes).run session = .ok () middle)
    (second : (ingest (complete depth) more).run middle = .ok () later) :
    ∃ later', (ingest (complete depth) (bytes ++ more)).run session = .ok () later' ∧
      later.Alike later' := by
  obtain ⟨alive, done⟩ := ingested first
  obtain ⟨still, finish⟩ := ingested second
  have lags : (session.arrive bytes).Lags more (session.arrive (bytes ++ more)) := by
    constructor
    · rw [Session.bare_arrive, Session.bare_arrive]
    · simp [Session.position, Session.arrive, Session.log]
  have again : middle.Lags more (middle.arrive more) := ⟨(middle.bare_arrive more).symm, rfl⟩
  have arrived : (session.arrive bytes).Within allowed := within_of_same inside rfl rfl
  obtain ⟨later', whole, alike⟩ := drain_lags quiet steady arrived lags done still again finish
  refine ⟨later', ?_, alike⟩
  rw [run_ingest, alive, whole]
  rfl

theorem ingest_within (inside : session.Within allowed) {bytes : Bytes}
    (done : (ingest (complete depth) bytes).run session = .ok () later) : later.Within allowed := by
  have arrived : (session.arrive bytes).Within allowed := within_of_same inside rfl rfl
  exact drain_within arrived (ingested done).2

/-- Reads may be joined. By induction on their number. -/
theorem ingest_flatten (quiet : ∀ operation, allowed operation = true → operation.isQuiet = true)
    (steady : Steady allowed drops) (inside : session.Within allowed) {pieces : List Bytes}
    (present : pieces ≠ [])
    (done : (pieces.forM (ingest (complete depth))).run session = .ok () later) :
    ∃ later', (ingest (complete depth) pieces.flatten).run session = .ok () later' ∧
      later.Alike later' := by
  induction pieces generalizing session with
  | nil => exact absurd rfl present
  | cons piece rest ih =>
    obtain ⟨value, middle, first, others⟩ := bind_ok done
    cases rest with
    | nil =>
      cases others
      exact ⟨_, by simpa using first, rfl, rfl⟩
    | cons next rest =>
      obtain ⟨last, joined, alike⟩ := ih (ingest_within inside first) (by simp) others
      obtain ⟨whole, ran, same⟩ := ingest_append quiet steady inside first joined
      exact ⟨whole, by simpa using ran, alike.bare.trans same.bare, alike.position.trans same.position⟩

end Reads

end Engine

section Division

variable {allowed : Operation → Bool}

theorem steady_of_tame
    (tame : allowed .close = false ∨
      ∀ operation, allowed operation = true → operation.revives = false) :
    ∃ drops, Steady allowed drops := by
  rcases tame with unclosed | unrevived
  · exact ⟨false, unclosed⟩
  · exact ⟨true, unrevived⟩

theorem gathering_within {body : List Operation} (own : Operation.allWithin allowed body = true) :
    (Session.gathering body).Within allowed := by
  constructor
  · intro command member
    obtain rfl := List.mem_singleton.mp member
    exact own
  · intro view member
    cases member

theorem ingested_pieces {session later : Session} {pieces : List Bytes} {answer : Answer}
    (done : session.perform (.ingest pieces) = .ok answer later) :
    (pieces.forM (Engine.ingest Engine.handle)).run session = .ok () later := by
  obtain ⟨value, middle, ran, same⟩ := Engine.bind_ok done
  cases same
  exact ran

/-- Reads of the same output that are divided in two ways, none of which fails, leave the same
session behind, and the record of what it did differs in no more than the reads and the stretches of
text that were passed on. No handler takes in or passes on output, and either none closes the
session or none brings it back. -/
theorem division_makes_no_difference
    (quiet : ∀ operation, allowed operation = true → operation.isQuiet = true)
    (tame : allowed .close = false ∨
      ∀ operation, allowed operation = true → operation.revives = false)
    {session one other : Session} (inside : session.Within allowed) {first second : List Bytes}
    (present : first ≠ []) (present' : second ≠ []) (same : first.flatten = second.flatten)
    {answer answer' : Answer} (done : session.perform (.ingest first) = .ok answer one)
    (done' : session.perform (.ingest second) = .ok answer' other) :
    { one with journal := [] } = { other with journal := [] } ∧
      one.journal.filter (!·.isIntake) = other.journal.filter (!·.isIntake) := by
  obtain ⟨drops, steady⟩ := steady_of_tame tame
  obtain ⟨whole, joined, alike⟩ :=
    Engine.ingest_flatten quiet steady inside present (ingested_pieces done)
  obtain ⟨whole', joined', alike'⟩ :=
    Engine.ingest_flatten quiet steady inside present' (ingested_pieces done')
  rw [same, joined'] at joined
  cases joined
  have bare : one.bare = other.bare := alike.bare.trans alike'.bare.symm
  obtain ⟨held, midLine⟩ := Prod.mk.inj (alike.position.trans alike'.position.symm)
  have journal := congrArg Session.journal bare
  refine ⟨?_, journal⟩
  have rebuilt (session : Session) : { session with journal := [] } = { session.bare with
      held := session.held, midLine := session.midLine, journal := [] } := rfl
  rw [rebuilt one, rebuilt other, bare, held, midLine]

/-- A marker line that comes in two reads, and whose handler sends the next command. -/
theorem division_inside_marker :
    let session := Session.gathering [.send (.typed "next")]
    let divided := ["v\n\x1A".toUTF8.data.toList, "\x1Apre-prompt\nA\n".toUTF8.data.toList]
    let whole := ["v\n\x1A\x1Apre-prompt\nA\n".toUTF8.data.toList]
    let one := session.after (.ingest divided)
    let other := session.after (.ingest whole)
    one.display.transcript = "A" ∧
      { one with journal := [] } = { other with journal := [] } ∧
      one.journal.filter (!·.isIntake) = other.journal.filter (!·.isIntake) := by
  intro session divided whole one other
  have inside : session.Within (fun operation => operation.isQuiet && !operation matches .close) :=
    gathering_within (by decide)
  have quiet : ∀ operation : Operation,
      (operation.isQuiet && !operation matches .close) = true → operation.isQuiet = true := by
    intro operation own
    exact (Bool.and_eq_true _ _ ▸ own).1
  have same : divided.flatten = whole.flatten := by decide +kernel
  obtain ⟨answer, done⟩ : ∃ answer, session.perform (.ingest divided) = .ok answer one :=
    Session.perform_of_succeeds (by decide +kernel)
  obtain ⟨answer', done'⟩ : ∃ answer, session.perform (.ingest whole) = .ok answer other :=
    Session.perform_of_succeeds (by decide +kernel)
  refine ⟨by decide +kernel, ?_⟩
  exact division_makes_no_difference quiet (.inl rfl) inside (by simp [divided]) (by simp [whole])
    same done done'

/-- A handler that closes the session drops what is held, so if it then brings the session back, what
follows the marker line is lost only if it came in the same read. -/
theorem division_seen_after_revival :
    let session := Session.gathering [.close, .send (.typed "next")]
    let divided := ["\n\x1A\x1Apre-prompt\n".toUTF8.data.toList, "A\n".toUTF8.data.toList]
    let whole := ["\n\x1A\x1Apre-prompt\nA\n".toUTF8.data.toList]
    session.Within Operation.isQuiet ∧ session.isClosed = false ∧ divided.flatten = whole.flatten ∧
      session.succeeds (.ingest divided) = true ∧ session.succeeds (.ingest whole) = true ∧
      (session.after (.ingest divided)).display.transcript = "A" ∧
      (session.after (.ingest whole)).display.transcript = "" := by
  have inside : (Session.gathering [.close, .send (.typed "next")]).Within Operation.isQuiet :=
    gathering_within (by decide)
  refine ⟨inside, rfl, ?_⟩
  decide +kernel

end Division

end GdbControl
