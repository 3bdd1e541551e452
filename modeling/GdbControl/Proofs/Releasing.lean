import GdbControl.Proofs.Held
import GdbControl.Proofs.Parsing
import GdbControl.Proofs.Sequences

/-!
What a flush passes on: as much of the held output as can be passed on without harm. A line that may
still begin a marker stays, and so does a character that has begun. To tell the former, a session
knows where a line begins: in what it holds, or by a flag. Both agree with the stream, unless handlers
flush or close.
-/

namespace GdbControl

/-- Operations that keep the place of the held output in the stream. -/
def Operation.keepsPlace : Operation → Bool
  | .flush | .close => false
  | _ => true

/-- Bytes after which a line begins. -/
def Stream.EndsLine (before : Bytes) : Prop := before = [] ∨ before.getLast? = some Stream.newline

namespace Session

/-- The unfinished line that is held, without the newline before it. -/
def line (session : Session) : Bytes :=
  if session.held.head? = some Stream.newline then session.held.drop 1 else session.held

/-- Whether the held line is a line from its start, as far as the session knows. -/
def StartsLine (session : Session) : Prop :=
  session.held.head? = some Stream.newline ∨ session.midLine = false

/-- Whether the held line is a line of the stream from its start. -/
def StartsStreamLine (session : Session) : Prop :=
  ∃ before, arrivedIn session.journal = before ++ session.line ∧ Stream.EndsLine before

/-- Whether none of the held output can be passed on without harm: there is no unfinished line, or it
may begin a marker, or all of it is a character that has begun. -/
def Retains (session : Session) (startsLine : Prop) : Prop :=
  session.line = [] ∨
    (startsLine ∧ (session.line = [Stream.sub] ∨ [Stream.sub, Stream.sub] <+: session.line)) ∨
    Utf8.Begun session.held

end Session

theorem Stream.may_begin_iff (line : Bytes) :
    Stream.mayBeginMarker line = true ↔
      line = [] ∨ line = [Stream.sub] ∨ [Stream.sub, Stream.sub] <+: line := by
  match line with
  | [] => simp [Stream.mayBeginMarker]
  | [first] => simp [Stream.mayBeginMarker]
  | first :: second :: rest =>
    simp [Stream.mayBeginMarker, List.cons_prefix_cons, @eq_comm _ Stream.sub]

section Flushing

variable {session later : Session}

theorem withholds_iff (session : Session) :
    session.withholds = true ↔ session.line = [] ∨ session.StartsLine ∧
      (session.line = [Stream.sub] ∨ [Stream.sub, Stream.sub] <+: session.line) := by
  change (session.line.isEmpty || ((decide (session.held.head? = some Stream.newline) ||
    !session.midLine) && Stream.mayBeginMarker session.line)) = true ↔ _
  rw [Bool.or_eq_true, Bool.and_eq_true, Bool.or_eq_true, Stream.may_begin_iff, decide_eq_true_eq,
    Bool.not_eq_true', List.isEmpty_iff]
  constructor
  · rintro (empty | ⟨starts, empty | begins⟩)
    · exact .inl empty
    · exact .inl empty
    · exact .inr ⟨starts, begins⟩
  · rintro (empty | ⟨starts, begins⟩)
    · exact .inl empty
    · exact .inr ⟨starts, .inr begins⟩

theorem silent_iff (bytes : Bytes) :
    (Utf8.decodeOpen bytes).1 = "" ↔ bytes = [] ∨ Utf8.Begun bytes := by
  rw [← Utf8.unfinished_iff]
  constructor
  · exact Utf8.unfinished_of_silent
  · intro unfinished
    have silent : Utf8.run [] bytes = ([], bytes) := unfinished
    simp [Utf8.decodeOpen, silent]

theorem line_nil (nothing : session.held = []) : session.line = [] := by
  simp [Session.line, nothing]

theorem retains_iff (session : Session) :
    session.Retains session.StartsLine ↔
      session.withholds = true ∨ (Utf8.decodeOpen session.held).1 = "" := by
  rw [withholds_iff, silent_iff]
  unfold Session.Retains
  constructor
  · rintro (empty | begins | begun)
    · exact .inl (.inl empty)
    · exact .inl (.inr begins)
    · exact .inr (.inr begun)
  · rintro ((empty | begins) | empty | begun)
    · exact .inl empty
    · exact .inr (.inl begins)
    · exact .inl (line_nil empty)
    · exact .inr (.inr begun)

theorem perform_flush (session : Session) :
    session.perform .flush =
      match Engine.flush.run session with
      | .ok shown later => .ok (.flag shown) later
      | .error fault later => .error fault later := by
  change (do let shown ← Engine.flush; pure (Answer.flag shown) : Engine Answer).run session = _
  rw [EStateM.run_bind]
  cases Engine.flush.run session <;> rfl

theorem flush_retained (alive : session.isClosed = false)
    (retains : session.Retains session.StartsLine) :
    session.perform .flush = .ok (.flag false) session := by
  rw [perform_flush, Engine.run_flush, alive]
  rcases (retains_iff session).mp retains with withheld | silent
  · simp [withheld]
  · simp [silent]

theorem flush_released (alive : session.isClosed = false)
    (released : ¬ session.Retains session.StartsLine) :
    ∃ front rest, Utf8.Divides session.held front rest ∧ Utf8.decode front ≠ "" ∧
      rest.length ≤ 3 ∧
      session.perform .flush = .ok (.flag true) (session.pass (Utf8.decode front) rest true) := by
  obtain ⟨shown, spoken⟩ := not_or.mp (mt (retains_iff session).mpr released)
  obtain ⟨front, divides, text⟩ := Utf8.decode_open_divides session.held
  refine ⟨front, _, divides, text ▸ spoken, Utf8.divides_short divides, ?_⟩
  rw [perform_flush, Engine.run_flush, alive, ← text]
  simp [shown, spoken]

theorem passed_alive (alive : session.isClosed = false) (text : String) (rest : Bytes)
    (midLine : Bool) : (session.pass text rest midLine).isClosed = false :=
  (hear_closed (session.hold rest midLine) text).trans alive

theorem flush_cases {answer : Answer} (done : session.perform .flush = .ok answer later) :
    session.isClosed = false ∧
      ((session.Retains session.StartsLine ∧ later = session) ∨
        (¬ session.Retains session.StartsLine ∧ ∃ front rest,
          Utf8.Divides session.held front rest ∧
          later = session.pass (Utf8.decode front) rest true)) := by
  cases closed : session.isClosed with
  | true =>
    rw [perform_flush, Engine.run_flush, closed] at done
    cases done
  | false =>
    refine ⟨rfl, ?_⟩
    by_cases retains : session.Retains session.StartsLine
    · rw [flush_retained closed retains] at done
      cases done
      exact .inl ⟨retains, rfl⟩
    · obtain ⟨front, rest, divides, -, -, passed⟩ := flush_released closed retains
      rw [passed] at done
      cases done
      exact .inr ⟨retains, front, rest, divides, rfl⟩

/-- A flush leaves nothing behind that could be passed on by another one. -/
theorem flush_again {answer : Answer} (done : session.perform .flush = .ok answer later) :
    later.perform .flush = .ok (.flag false) later := by
  obtain ⟨alive, ⟨retains, rfl⟩ | ⟨-, front, rest, divides, rfl⟩⟩ := flush_cases done
  · exact flush_retained alive retains
  · refine flush_retained (passed_alive alive _ _ _) ?_
    have kept : (session.pass (Utf8.decode front) rest true).held = rest :=
      congrArg Prod.fst (pass_position session _ _ _)
    rcases divides.begun with nothing | begun
    · exact .inl (line_nil (kept.trans nothing))
    · refine .inr (.inr ?_)
      rw [kept]
      exact begun

end Flushing

section Runs

/-- Whatever is asked of a session, if nothing fails it holds an unfinished line at most. -/
theorem drained_perform_all {session later : Session} {operations : List Operation}
    (drained : session.Drained) (run : session.performAll operations = some later) :
    later.Drained := by
  induction operations generalizing session with
  | nil =>
    cases run
    exact drained
  | cons operation rest ih =>
    unfold Session.performAll at run
    split at run
    · next answer middle done =>
      have ends := Session.perform_ends (within_all session) (operation_within_all operation)
      rw [done] at ends
      exact ih (drained_settled drained ends.2) run
    · cases run

end Runs

/-- Where the held output stands in the stream: after the bytes that were passed on. The flag of the
session tells whether a line begins there, as far as it matters to what is held. -/
structure Session.HoldsAfter (session : Session) (passed : Bytes) : Prop where
  arrived : arrivedIn session.journal = passed ++ session.held
  fresh : session.midLine = false →
    Stream.EndsLine passed ∨ session.held.head? = some Stream.newline
  inside : session.midLine = true → ¬ Stream.EndsLine passed ∨
    ∃ byte, session.held.head? = some byte ∧ byte ≠ Stream.newline ∧ byte ≠ Stream.sub

section Place

variable {allowed : Operation → Bool} {session later : Session} {passed : Bytes}

theorem holds_after_same (place : session.HoldsAfter passed)
    (position : later.position = session.position)
    (arrived : arrivedIn later.journal = arrivedIn session.journal) : later.HoldsAfter passed := by
  obtain ⟨held, midLine⟩ := Prod.mk.inj position
  refine ⟨?_, ?_, ?_⟩
  · rw [arrived, held]
    exact place.arrived
  · rw [midLine, held]
    exact place.fresh
  · rw [midLine, held]
    exact place.inside

theorem holds_after_unread (place : session.HoldsAfter passed) (unread : session.Unread later) :
    later.HoldsAfter passed := by
  obtain ⟨events, journal, plain⟩ := unread.events
  refine holds_after_same place unread.position ?_
  rw [journal, arrived_append, arrived_plain plain, List.append_nil]

theorem holds_after_arrive (place : session.HoldsAfter passed) (bytes : Bytes) :
    (session.arrive bytes).HoldsAfter passed := by
  have kept {byte : UInt8} (first : session.held.head? = some byte) :
      (session.arrive bytes).held.head? = some byte := by
    simp [Session.arrive, List.head?_append, first]
  refine ⟨?_, ?_, ?_⟩
  · simp [Session.arrive, Session.log, arrived_append, arrivedIn, place.arrived]
  · intro fresh
    exact (place.fresh fresh).imp id kept
  · intro inside
    exact (place.inside inside).imp id (Exists.imp fun _ found => ⟨kept found.1, found.2⟩)

theorem holds_after_pass (place : session.HoldsAfter passed) {front rest : Bytes}
    (held : session.held = front ++ rest) (text : String) {midLine : Bool}
    (fresh : midLine = false →
      Stream.EndsLine (passed ++ front) ∨ rest.head? = some Stream.newline)
    (inside : midLine = true → ¬ Stream.EndsLine (passed ++ front) ∨
      ∃ byte, rest.head? = some byte ∧ byte ≠ Stream.newline ∧ byte ≠ Stream.sub) :
    (session.pass text rest midLine).HoldsAfter (passed ++ front) := by
  obtain ⟨kept, inLine⟩ := Prod.mk.inj (pass_position session text rest midLine)
  refine ⟨?_, ?_, ?_⟩
  · rw [arrived_pass, place.arrived, held, kept, List.append_assoc]
  · rw [inLine, kept]
    exact fresh
  · rw [inLine, kept]
    exact inside

theorem holds_after_reaction (place : session.HoldsAfter passed) {marker : Marker}
    (reaction : Reaction marker session later) : later.HoldsAfter passed := by
  have told : (session.log (.annotated marker)).HoldsAfter passed :=
    holds_after_same place rfl (by simp [Session.log, arrived_append, arrivedIn])
  exact holds_after_unread told (unread_reaction reaction)

theorem holds_after_cut (place : session.HoldsAfter passed) {cut : Stream.Cut}
    (found : Stream.firstMarker? (!session.midLine) session.held = some cut) :
    ∃ passed, (session.pass (Utf8.decode cut.before) cut.after false).HoldsAfter passed := by
  obtain ⟨line, -, -, shape⟩ := Stream.first_marker_parts found
  have held : session.held = (cut.before ++ line ++ [Stream.newline]) ++ cut.after := by simp [shape]
  refine ⟨_, holds_after_pass place held _ (fun _ => .inl (.inr ?_)) (by rintro ⟨⟩)⟩
  rw [← List.append_assoc]
  exact List.getLast?_concat

theorem holds_after_lines (place : session.HoldsAfter passed) {lines tail : Bytes}
    (found : Stream.lastLine? session.held = some (lines, tail)) :
    (session.pass (Utf8.decode lines) tail false).HoldsAfter (passed ++ lines) := by
  obtain ⟨unfinished, rfl, -, shape⟩ := Stream.last_line_shape found
  exact holds_after_pass place shape _ (fun _ => .inr rfl) (by rintro ⟨⟩)

theorem holds_after_move (keeps : ∀ operation, allowed operation = true → operation.keepsPlace = true)
    (place : session.HoldsAfter passed) (move : Move allowed session later) :
    ∃ passed, later.HoldsAfter passed := by
  have kept (unread : session.Unread later) : ∃ passed, later.HoldsAfter passed :=
    ⟨passed, holds_after_unread place unread⟩
  cases move with
  | accept => exact kept (unread_accept _ _ _)
  | @request id =>
    have awaited : session.Unread (session.await id) := unread_same rfl rfl
    exact kept (unread_trans awaited (unread_accept _ _ _))
  | arrive => exact ⟨passed, holds_after_arrive place _⟩
  | react _ _ reaction => exact ⟨passed, holds_after_reaction place reaction⟩
  | cut _ _ found reaction =>
    obtain ⟨passed, place⟩ := holds_after_cut place found
    exact ⟨passed, holds_after_reaction place reaction⟩
  | lines _ _ found => exact ⟨_, holds_after_lines place found⟩
  | @hear text =>
    exact ⟨passed, holds_after_same place (session.hear_position text)
      (arrived_pass session text session.held session.midLine)⟩
  | flush granted | close granted => cases keeps _ granted
  | complain => exact kept (unread_log rfl rfl rfl)
  | send => exact kept (unread_send_out _ _ _)
  | @take tier => cases tier <;> exact kept (unread_same rfl rfl)
  | poll => exact kept (unread_poll _)
  | ask => exact kept (unread_ask _)
  | note | addBuffer | removeBuffer | register | registerHandled | setPipe | setSink
  | setPrompting => exact kept (unread_same rfl rfl)

theorem holds_after_moves (keeps : ∀ operation, allowed operation = true → operation.keepsPlace = true)
    (place : session.HoldsAfter passed) (moves : Moves allowed session later) :
    ∃ passed, later.HoldsAfter passed := by
  induction moves with
  | refl => exact ⟨passed, place⟩
  | tail _ move ih =>
    obtain ⟨passed, place⟩ := ih
    exact holds_after_move keeps place move

theorem line_unended (drained : session.Drained) : Stream.newline ∉ session.line := by
  have unended := drained.unended
  unfold Session.line
  split
  · rwa [List.drop_one]
  · next other =>
    intro member
    cases held : session.held with
    | nil =>
      rw [held] at member
      cases member
    | cons first rest =>
      rw [held] at member unended other
      rcases List.mem_cons.mp member with rfl | later
      · exact other rfl
      · exact unended later

theorem line_suffix (session : Session) : session.line <:+ session.held := by
  unfold Session.line
  split
  · exact List.drop_suffix 1 session.held
  · exact List.suffix_rfl

-- A flush that passes on all that is held leaves the stream inside a line.
theorem line_left_open (drained : session.Drained) (present : session.line ≠ []) (passed : Bytes) :
    ¬ Stream.EndsLine (passed ++ session.held) := by
  obtain ⟨front, shape⟩ := line_suffix session
  obtain ⟨others, last, same⟩ := (List.eq_nil_or_concat session.line).resolve_left present
  have inLine : last ≠ Stream.newline := by
    rintro rfl
    exact line_unended drained (by simp [same])
  rw [← shape, same, List.concat_eq_append, ← List.append_assoc, ← List.append_assoc]
  rintro (nothing | ended)
  · exact List.append_ne_nil_of_right_ne_nil _ (List.cons_ne_nil _ _) nothing
  · rw [List.getLast?_concat] at ended
    exact inLine (Option.some.inj ended)

theorem begun_not_ascii {bytes : Bytes} (begun : Utf8.Begun bytes) :
    ∃ byte, bytes.head? = some byte ∧ byte ≠ Stream.newline ∧ byte ≠ Stream.sub := by
  have unfinished : Utf8.run [] bytes = ([], bytes) := Utf8.unfinished_iff.mpr (.inr begun)
  have absent {byte : UInt8} (ascii : byte < 0x80) : byte ∉ bytes := by
    have kept := Utf8.ascii_not_open ascii bytes
    rwa [Utf8.decodeOpen, unfinished] at kept
  cases bytes with
  | nil => exact absurd rfl (Utf8.begun_some begun)
  | cons first rest =>
    refine ⟨first, rfl, ?_, ?_⟩
    · rintro rfl
      exact absent (by decide) List.mem_cons_self
    · rintro rfl
      exact absent (by decide) List.mem_cons_self

theorem holds_after_flush (place : session.HoldsAfter passed) (drained : session.Drained)
    {answer : Answer} (done : session.perform .flush = .ok answer later) :
    ∃ passed, later.HoldsAfter passed := by
  obtain ⟨-, ⟨-, rfl⟩ | ⟨released, front, rest, divides, rfl⟩⟩ := flush_cases done
  · exact ⟨passed, place⟩
  · refine ⟨_, holds_after_pass place divides.whole _ (by rintro ⟨⟩) fun _ => ?_⟩
    rcases divides.begun with rfl | begun
    · have whole : session.held = front := divides.whole.trans (List.append_nil front)
      exact .inl (whole ▸ line_left_open drained (fun empty => released (.inl empty)) passed)
    · exact .inr (begun_not_ascii begun)

theorem flush_within (inside : session.Within allowed) {answer : Answer}
    (done : session.perform .flush = .ok answer later) : later.Within allowed := by
  obtain ⟨-, ⟨-, rfl⟩ | ⟨-, front, rest, -, rfl⟩⟩ := flush_cases done
  · exact inside
  · exact pass_within inside _ _ _

theorem holds_after_perform_all {operations : List Operation}
    (inside : session.Within Operation.keepsPlace)
    (placed : ∀ operation ∈ operations,
      operation.within Operation.keepsPlace = true ∨ operation = .flush)
    (drained : session.Drained) (place : session.HoldsAfter passed)
    (run : session.performAll operations = some later) : ∃ passed, later.HoldsAfter passed := by
  induction operations generalizing session passed with
  | nil =>
    cases run
    exact ⟨passed, place⟩
  | cons operation rest ih =>
    have others := fun next member => placed next (List.mem_cons_of_mem operation member)
    unfold Session.performAll at run
    split at run
    · next answer middle done =>
      have single : session.performAll [operation] = some middle := by
        simp [Session.performAll, done]
      have drained' : middle.Drained := drained_perform_all drained single
      rcases placed operation List.mem_cons_self with own | rfl
      · have ends := Session.perform_ends inside own
        rw [done] at ends
        obtain ⟨passed, place⟩ := holds_after_moves (fun _ => id) place ends.1
        exact ih (moves_within inside ends.1) others drained' place run
      · obtain ⟨passed, place⟩ := holds_after_flush place drained done
        exact ih (flush_within inside done) others drained' place run
    · cases run

/-- Where a line matters, the session and the stream agree on where it begins. -/
theorem retains_of_holds_after (place : session.HoldsAfter passed) :
    session.Retains session.StartsLine ↔ session.Retains session.StartsStreamLine := by
  have agree (begins : session.line = [Stream.sub] ∨ [Stream.sub, Stream.sub] <+: session.line) :
      session.StartsLine ↔ session.StartsStreamLine := by
    by_cases afterNewline : session.held.head? = some Stream.newline
    · refine iff_of_true (.inl afterNewline) ⟨passed ++ [Stream.newline], ?_, .inr List.getLast?_concat⟩
      obtain ⟨rest, shape⟩ := List.head?_eq_some_iff.mp afterNewline
      rw [place.arrived, Session.line, if_pos afterNewline, shape]
      simp
    · have whole : session.line = session.held := if_neg afterNewline
      have first : session.held.head? = some Stream.sub := by
        rw [← whole]
        rcases begins with only | ⟨rest, shape⟩
        · rw [only]
          rfl
        · rw [← shape]
          rfl
      have stream : session.StartsStreamLine ↔ Stream.EndsLine passed := by
        unfold Session.StartsStreamLine
        rw [place.arrived, whole]
        constructor
        · rintro ⟨before, same, ends⟩
          rwa [List.append_cancel_right same]
        · exact fun ends => ⟨passed, rfl, ends⟩
      rw [stream]
      cases inLine : session.midLine with
      | false => exact iff_of_true (.inr inLine) ((place.fresh inLine).resolve_right afterNewline)
      | true =>
        refine iff_of_false ?_ ((place.inside inLine).resolve_right ?_)
        · rintro (newline | fresh)
          · exact afterNewline newline
          · exact absurd (fresh.symm.trans inLine) (by decide)
        · rintro ⟨byte, same, -, other⟩
          exact other (Option.some.inj (same.symm.trans first))
  unfold Session.Retains
  refine or_congr Iff.rfl (or_congr ?_ Iff.rfl)
  constructor
  · rintro ⟨starts, begins⟩
    exact ⟨(agree begins).mp starts, begins⟩
  · rintro ⟨starts, begins⟩
    exact ⟨(agree begins).mpr starts, begins⟩

end Place

/-- A flush of a session does what it is there to do: nothing if all that is held has to be kept, and
else it passes on all of it but a character that has begun at the end. -/
structure Session.Flushes (session : Session) : Prop where
  unended : Stream.newline ∉ session.line
  retained : session.Retains session.StartsLine → session.perform .flush = .ok (.flag false) session
  released : ¬ session.Retains session.StartsLine → ∃ front rest,
    Utf8.Divides session.held front rest ∧ Utf8.decode front ≠ "" ∧ rest.length ≤ 3 ∧
    session.perform .flush = .ok (.flag true) (session.pass (Utf8.decode front) rest true)
  again : ∀ answer later, session.perform .flush = .ok answer later →
    later.perform .flush = .ok (.flag false) later

/-- Whatever was asked of a session that is alive, if nothing failed: a flush does nothing if all that
is held has to be kept, and says so. Otherwise it passes on the text of all that is held but a character
that has begun at the end, and keeps that, which is at most three bytes. A second flush does nothing.
If handlers neither flush nor close, a line is kept for a marker only where it is one of the stream. -/
theorem flush_releases_all_but_the_rest {process : Subprocess} {views : Catalog} {session : Session}
    {operations : List Operation}
    (run : (Session.start process views).performAll operations = some session)
    (alive : session.isClosed = false) :
    session.Flushes ∧
      (views.Within Operation.keepsPlace →
        (∀ operation ∈ operations,
          operation.within Operation.keepsPlace = true ∨ operation = .flush) →
        (session.Retains session.StartsLine ↔ session.Retains session.StartsStreamLine)) := by
  have begun : (Session.start process views).Drained := drained_unended List.not_mem_nil
  have drained := drained_perform_all begun run
  have flushes : session.Flushes :=
    ⟨line_unended drained, flush_retained alive, flush_released alive, fun _ _ => flush_again⟩
  refine ⟨flushes, ?_⟩
  intro inside placed
  have first : (Session.start process views).HoldsAfter [] :=
    ⟨rfl, fun _ => .inl (.inl rfl), by rintro ⟨⟩⟩
  obtain ⟨passed, place⟩ :=
    holds_after_perform_all (Session.start_within process inside) placed begun first run
  exact retains_of_holds_after place

/-- A newline and a line that ends in half a character, after a flush that ended within the line before
it: the newline is passed on with the line, and the half of the character stays. -/
theorem newline_released_with_line :
    let operations : List Operation :=
      [.ingest ["Name".toUTF8.data.toList], .flush, .ingest [[0x0A, 0x3F, 0xE2, 0x82]]]
    ∃ session : Session,
      (Session.start ⟨1, none, [], false, false, false⟩ Table.empty).performAll operations =
        some session ∧ session.isClosed = false ∧
      (session.held, session.midLine) = ([0x0A, 0x3F, 0xE2, 0x82], false) ∧ session.Flushes ∧
      (session.Retains session.StartsLine ↔ session.Retains session.StartsStreamLine) := by
  intro operations
  have shown : ((Session.start ⟨1, none, [], false, false, false⟩ Table.empty).performAll
      operations).map (fun session => (session.isClosed, session.held, session.midLine)) =
        some (false, [0x0A, 0x3F, 0xE2, 0x82], false) := by
    decide +kernel
  obtain ⟨session, run, state⟩ := Option.map_eq_some_iff.mp shown
  obtain ⟨alive, place⟩ := Prod.mk.inj state
  have inside : Catalog.Within Operation.keepsPlace Table.empty := by
    intro view member
    cases member
  have placed : ∀ operation ∈ operations,
      operation.within Operation.keepsPlace = true ∨ operation = .flush := by
    intro operation member
    simp only [operations, List.mem_cons, List.not_mem_nil, or_false] at member
    rcases member with rfl | rfl | rfl
    · exact .inl rfl
    · exact .inr rfl
    · exact .inl rfl
  obtain ⟨flushes, agree⟩ := flush_releases_all_but_the_rest run alive
  exact ⟨session, run, alive, place, flushes, agree inside placed⟩

/-- The first two bytes of a surrogate are no incomplete character, and no flush passes them on. -/
theorem surrogate_start_not_released :
    ∃ session : Session,
      (Session.start ⟨1, none, [], false, false, false⟩ Table.empty).performAll
        [.ingest [[0xED, 0xA0]]] = some session ∧ session.isClosed = false ∧
      session.line = [0xED, 0xA0] ∧ session.held = [0xED, 0xA0] ∧
      (¬ ∃ rest, rest <:+ session.held ∧ Utf8.Incomplete rest) ∧
      session.perform .flush = .ok (.flag false) session := by
  have shown : ((Session.start ⟨1, none, [], false, false, false⟩ Table.empty).performAll
      [.ingest [[0xED, 0xA0]]]).map (fun session => (session.isClosed, session.line, session.held)) =
        some (false, [0xED, 0xA0], [0xED, 0xA0]) := by
    decide +kernel
  obtain ⟨session, run, state⟩ := Option.map_eq_some_iff.mp shown
  obtain ⟨alive, line, held⟩ : session.isClosed = false ∧ session.line = [0xED, 0xA0] ∧
      session.held = [0xED, 0xA0] := by simpa using state
  have surrogate : Utf8.SurrogateStart session.held := ⟨0xA0, by decide, by decide, held⟩
  refine ⟨session, run, alive, line, held, ?_, flush_retained alive (.inr (.inr (.inr surrogate)))⟩
  rintro ⟨rest, ends, incomplete⟩
  obtain ⟨front, divides, -⟩ := Utf8.decode_open_divides session.held
  have whole := divides.only session.held List.suffix_rfl (.inr surrogate)
  have same := (divides.only rest ends (.inl incomplete)).trans whole.symm
  exact Utf8.surrogate_not_incomplete surrogate (same ▸ incomplete)

end GdbControl
