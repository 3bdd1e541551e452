import GdbControl.Proofs.Waking

/-!
What the user gets to see of a gdb that goes away. From its first byte on, all that it said is shown,
without the marker lines, but for what was still held when the output ended: the last newline and
what came after it. If gdb had gone quiet before, even that was shown, except for a newline, a line
that might have become a marker, and a broken character.
-/

namespace GdbControl

/-- An annotation that announces no phase and asks nothing. -/
def Marker.isRemark (marker : Marker) : Bool :=
  marker.kind.phase?.isNone && marker.kind != .question

namespace Stream

/-- The complete lines. -/
def lines (bytes : Bytes) : List Bytes := (bytes.splitOn newline).dropLast

/-- What follows the last newline. -/
def unfinished (bytes : Bytes) : Bytes :=
  (bytes.splitOn newline).getLast (List.splitOn_ne_nil newline bytes)

/-- The bytes without the marker lines. -/
def plain (bytes : Bytes) : Bytes := unlines (plainLines (lines bytes)) ++ unfinished bytes

/-- All marker lines are remarks. -/
def isTame (bytes : Bytes) : Bool :=
  (lines bytes).all fun line => (markerOf? line).all Marker.isRemark

/-- Bytes that stay back when gdb goes quiet: a line that may begin a marker, also after the newline
that was kept back, or a character that is not complete. An empty line may begin a marker too. -/
inductive Withheld : Bytes → Prop where
  | line {line : Bytes} (begins : mayBeginMarker line = true) : Withheld line
  | nextLine {line : Bytes} (begins : mayBeginMarker line = true) : Withheld (newline :: line)
  | character {bytes : Bytes} (unfinished : Utf8.Unfinished bytes) : Withheld bytes

section Plain

variable {bytes : Bytes}

theorem sections_cuts (text : Bytes) (front : List Bytes) (last : Bytes) :
    sections true text (front ++ [last]) = ((cuts text front).1, (cuts text front).2 ++ last) := by
  induction front generalizing text with
  | nil => rfl
  | cons line rest ih =>
    have filled : rest ++ [last] ≠ [] := List.append_ne_nil_of_right_ne_nil rest (List.cons_ne_nil last [])
    obtain ⟨next, others, shape⟩ := List.exists_cons_of_ne_nil filled
    rw [List.cons_append, shape]
    cases written : markerOf? line with
    | none => simp [sections, cuts, written, ← shape, ih]
    | some marker => simp [sections, cuts, written, ← shape, ih]

-- What is left after the last marker are complete lines.
theorem cuts_rest (before front : List Bytes) :
    ∃ rest, (cuts (unlines before) front).2 = unlines rest := by
  induction front generalizing before with
  | nil => exact ⟨before, rfl⟩
  | cons line rest ih =>
    cases written : markerOf? line with
    | none =>
      obtain ⟨left, same⟩ := ih (before ++ [line])
      refine ⟨left, ?_⟩
      rw [cuts, written, ← same, unlines_append]
      simp [unlines]
    | some marker =>
      obtain ⟨left, same⟩ := ih []
      exact ⟨left, by rw [cuts, written]; exact same⟩

theorem sections_plain_text (bytes : Bytes) :
    textOf (sectionsOf true [] bytes).1 ++ Utf8.decode (sectionsOf true [] bytes).2 =
      Utf8.decode (plain bytes) := by
  have whole : sectionsOf true [] bytes =
      ((cuts [] (lines bytes)).1, (cuts [] (lines bytes)).2 ++ unfinished bytes) := by
    rw [← sections_cuts, lines, unfinished, List.dropLast_concat_getLast]
    rfl
  obtain ⟨rest, left⟩ := cuts_rest [] (lines bytes)
  have text : textOf (cuts [] (lines bytes)).1 ++ Utf8.decode (cuts [] (lines bytes)).2 =
      Utf8.decode (unlines (plainLines (lines bytes))) := text_cuts [] (lines bytes)
  change (cuts [] (lines bytes)).2 = unlines rest at left
  rw [whole, plain, decode_unlines, ← text, left, decode_unlines, String.append_assoc]

theorem tame_remark (tame : isTame bytes = true) {part : Bytes × Marker}
    (member : part ∈ (sectionsOf true [] bytes).1) : part.2.isRemark = true := by
  have listed : part.2 ∈ (sectionsOf true [] bytes).1.map Prod.snd := List.mem_map_of_mem member
  rw [sectionsOf, sections_markers] at listed
  obtain ⟨line, present, written⟩ := List.mem_filterMap.mp listed
  have own := List.all_eq_true.mp tame line present
  rwa [written] at own

theorem sections_suffix (bytes : Bytes) : (sectionsOf true [] bytes).2 <:+ bytes := by
  obtain ⟨written, -, joined⟩ := sections_whole bytes
  exact ⟨_, joined.symm⟩

end Plain

end Stream

/-- A session as it is created: its text goes to the user, neither a prompt of gdb nor any of its output
has come, and its views are refreshed into their buffers. -/
structure Session.Fresh (session : Session) : Prop where
  console : session.sink = .console
  busy : session.prompting = false
  nothing : session.held = []
  lineStart : session.midLine = false
  views : session.views.Buffered

/-- A session to which gdb says nothing but text and remarks. The stream is all that gdb will say, and
`taken` what it has said so far; of that the session has shown its user all but what it still holds. -/
structure Session.Listens (session : Session) (stream taken : Bytes) (before : String) : Prop where
  console : session.sink = .console
  busy : session.prompting = false
  views : session.views.Buffered
  expected : taken <+: stream
  shown : ∃ done text heard, session.Parses taken done text heard ∧
    session.display.transcript = before ++ Stream.textOf done ++ heard

section Listens

variable {session later : Session} {stream taken : Bytes} {before : String}

theorem fresh_listens (fresh : session.Fresh) (stream : Bytes) :
    session.Listens stream [] session.display.transcript := by
  refine ⟨fresh.console, fresh.busy, fresh.views, List.nil_prefix, [], [], "", ?_, ?_⟩
  · constructor
    · intro more
      rw [fresh.nothing]
      exact String.empty_append
    · intro more
      rw [fresh.nothing, fresh.lineStart]
      rfl
  · simp [Stream.textOf]

theorem listens_alive (listens : session.Listens stream taken before) :
    session.isClosed = false := by
  rw [Session.isClosed, listens.console]
  rfl

-- What is shown and what is held make up all that was taken in.
theorem listens_shown (listens : session.Listens stream taken before) (drained : session.Drained) :
    (∃ shown, session.display.transcript = before ++ shown ∧
      shown ++ Utf8.decode session.held = Utf8.decode (Stream.plain taken)) ∧
      session.held <:+ taken := by
  obtain ⟨done, text, heard, parses, shown⟩ := listens.shown
  have ahead := parses.ahead []
  have spoken := parses.spoken []
  rw [List.append_nil, List.append_nil, Stream.sections_plain drained.searched] at ahead
  rw [List.append_nil] at spoken
  have suffix := Stream.sections_suffix taken
  rw [ahead] at suffix
  refine ⟨⟨Stream.textOf done ++ heard, ?_, ?_⟩, (List.suffix_append text session.held).trans suffix⟩
  · rw [shown, String.append_assoc]
  · rw [← Stream.sections_plain_text, ahead, List.append_nil, String.append_assoc, spoken]

theorem pass_views (session : Session) (said : String) (rest : Bytes) (midLine : Bool) :
    (session.pass said rest midLine).views = session.views :=
  (hear_same (session.hold rest midLine) said).2

theorem pass_shown (console : session.sink = .console) (said : String) (rest : Bytes)
    (midLine : Bool) :
    (session.pass said rest midLine).display.transcript = session.display.transcript ++ said := by
  have grown := congrArg Talk.transcript (pass_talk session said rest midLine)
  simpa only [Session.talk, Talk.hear, console, if_true] using grown

theorem listens_passed (listens : session.Listens stream taken before) {front rest : Bytes}
    {said : String} {midLine : Bool} (passes : session.Passes front rest said midLine) :
    (session.pass said rest midLine).Listens stream taken before := by
  have talk := pass_talk session said rest midLine
  obtain ⟨done, text, heard, parses, shown⟩ := listens.shown
  refine ⟨(congrArg Talk.sink talk).trans listens.console,
    (congrArg Talk.waits talk).trans listens.busy, ?_, listens.expected,
    done, _, _, parses_passed parses passes, ?_⟩
  · rw [pass_views]
    exact listens.views
  · rw [pass_shown listens.console, shown, String.append_assoc]

theorem listens_arrived (listens : session.Listens stream taken before) {bytes : Bytes}
    (expected : taken ++ bytes <+: stream) :
    (session.arrive bytes).Listens stream (taken ++ bytes) before := by
  obtain ⟨done, text, heard, parses, shown⟩ := listens.shown
  exact ⟨listens.console, listens.busy, listens.views, expected, done, text, heard,
    parses_arrived parses bytes, shown⟩

theorem listens_forgetful (listens : session.Listens stream taken before) :
    session.forgetful.Listens stream taken before := by
  obtain ⟨done, text, heard, parses, shown⟩ := listens.shown
  exact ⟨listens.console, listens.busy, listens.views, listens.expected, done, text, heard,
    parses_same parses rfl, shown⟩

end Listens

namespace Engine

section Intake

variable {session : Session} {stream taken : Bytes} {before : String}

-- A marker line that is found is one of the stream.
theorem found_remark (tame : Stream.isTame stream = true)
    (listens : session.Listens stream taken before) {cut : Stream.Cut}
    (found : Stream.firstMarker? (!session.midLine) session.held = some cut) :
    cut.marker.kind.phase? = none ∧ cut.marker.kind ≠ .question := by
  obtain ⟨done, text, heard, parses, -⟩ := listens.shown
  obtain ⟨more, whole⟩ := listens.expected
  have ahead := parses.ahead more
  rw [whole, Stream.sections_cut (Stream.first_marker_extend more found)] at ahead
  have listed : (text ++ cut.before, cut.marker) ∈ (Stream.sectionsOf true [] stream).1 := by
    rw [ahead]
    simp [Stream.Cut.extend]
  simpa [Marker.isRemark] using Stream.tame_remark tame listed

theorem cut_listens (tame : Stream.isTame stream = true)
    (listens : session.Listens stream taken before) {cut : Stream.Cut}
    (found : Stream.firstMarker? (!session.midLine) session.held = some cut) :
    ∃ later, (acceptCut handle cut).run session = .ok () later ∧
      later.Listens stream taken before ∧ later.held = cut.after := by
  obtain ⟨done, text, heard, parses, shown⟩ := listens.shown
  obtain ⟨silent, plain⟩ := found_remark tame listens found
  let said := session.pass (Utf8.decode cut.before) cut.after false
  have talk : said.talk = session.talk.hear (Utf8.decode cut.before) := pass_talk session _ _ _
  have console : said.sink = .console := (congrArg Talk.sink talk).trans listens.console
  have alive : said.isClosed = false := by
    rw [Session.isClosed, console]
    rfl
  have busy : said.prompting = false := (congrArg Talk.waits talk).trans listens.busy
  have views : said.views.Buffered := (pass_views session _ _ _).symm ▸ listens.views
  obtain ⟨later, ran, unmoved⟩ := remark_runs alive busy views silent plain handle
  have position : later.position = said.position := unmoved.unread.position
  refine ⟨later, ?_, ⟨(congrArg Talk.sink unmoved.talk).trans console,
    (congrArg Talk.waits unmoved.talk).trans busy, ?_, listens.expected,
    done ++ [(text ++ cut.before, cut.marker)], [], "",
    parses_same (parses_cut parses found) position, ?_⟩,
    congrArg Prod.fst (position.trans (pass_position session _ _ _))⟩
  · rw [run_accept_cut, run_react_or_report, ran]
    rfl
  · rw [unmoved.views]
    exact views
  -- The section that the marker line ends has been shown to its last character.
  · have whole : Stream.firstMarker? (!session.midLine) (session.held ++ []) = some cut := by
      rwa [List.append_nil]
    have kept : later.display.transcript = said.display.transcript :=
      congrArg Talk.transcript unmoved.talk
    rw [kept, pass_shown listens.console, shown, String.append_assoc, parses_said parses whole,
      Stream.text_of_append]
    simp [Stream.textOf, String.append_assoc]

theorem lines_listens (listens : session.Listens stream taken before)
    (searched : session.Searched) :
    ∃ later, emitLines.run session = .ok () later ∧ later.Listens stream taken before ∧
      later.Drained := by
  have granted : Operation.keepsReading (.ingest []) = true := rfl
  have drains := lines_drain granted searched
  rw [run_emit_lines] at drains ⊢
  cases found : Stream.lastLine? session.held with
  | none =>
    rw [found] at drains
    exact ⟨session, rfl, listens, drains.2⟩
  | some parts =>
    rw [found] at drains
    exact ⟨_, rfl, listens_passed listens (lines_pass searched found), drains.2⟩

/-- By induction on the held output: less is held after each marker line. -/
theorem drain_listens (tame : Stream.isTame stream = true) (session : Session)
    (listens : session.Listens stream taken before) :
    ∃ later, drain handle session = .ok () later ∧ later.Listens stream taken before ∧
      later.Drained := by
  induction size : session.held.length using Nat.strongRecOn generalizing session with
  | _ size ih =>
    subst size
    rw [drain_eq]
    cases found : Stream.firstMarker? (!session.midLine) session.held with
    | none => exact lines_listens listens found
    | some cut =>
      obtain ⟨later, ran, listens, held⟩ := cut_listens tame listens found
      have shorter : later.held.length < session.held.length := by
        rw [held]
        exact Stream.length_firstMarker? found
      simp only [ran, shorter, if_true]
      exact ih later.held.length shorter later listens rfl

theorem ingest_listens (tame : Stream.isTame stream = true)
    (listens : session.Listens stream taken before) {bytes : Bytes}
    (expected : taken ++ bytes <+: stream) :
    ∃ later, (ingest handle bytes).run session = .ok () later ∧
      later.Listens stream (taken ++ bytes) before ∧ later.Drained := by
  obtain ⟨later, ran, settled⟩ := drain_listens tame _ (listens_arrived listens expected)
  refine ⟨later, ?_, settled⟩
  rw [run_ingest, listens_alive listens, ran]
  rfl

theorem withheld_of_withholds (withheld : session.withholds = true) :
    Stream.Withheld session.held := by
  unfold Session.withholds at withheld
  have started {line : Bytes} {lineStart : Bool}
      (kept : (line.isEmpty || (lineStart && Stream.mayBeginMarker line)) = true) :
      Stream.mayBeginMarker line = true := by
    rcases Bool.or_eq_true_iff.mp kept with empty | begins
    · rw [List.isEmpty_iff.mp empty]
      rfl
    · exact (Bool.and_eq_true_iff.mp begins).2
  by_cases afterNewline : session.held.head? = some Stream.newline
  · obtain ⟨line, shape⟩ := List.head?_eq_some_iff.mp afterNewline
    rw [shape] at withheld ⊢
    exact .nextLine (started withheld)
  · simp only [afterNewline, if_false] at withheld
    exact .line (started withheld)

theorem flush_listens (listens : session.Listens stream taken before) (drained : session.Drained) :
    ∃ answer later, flush.run session = .ok answer later ∧ later.Listens stream taken before ∧
      later.Drained ∧ Stream.Withheld later.held := by
  rw [run_flush, listens_alive listens]
  simp only [Bool.false_eq_true, if_false]
  split
  · next withheld => exact ⟨false, session, rfl, listens, drained, withheld_of_withholds withheld⟩
  · next open_ =>
    split
    · next silent =>
      exact ⟨false, session, rfl, listens, drained, .character (Utf8.unfinished_of_silent silent)⟩
    · next spoken =>
      obtain ⟨front, passes⟩ := flush_pass drained (by simpa using open_) spoken
      refine ⟨true, _, rfl, listens_passed listens passes, flushed_drained session, ?_⟩
      have kept : (session.pass (Utf8.decodeOpen session.held).1
          (Utf8.decodeOpen session.held).2 true).held = (Utf8.decodeOpen session.held).2 :=
        congrArg Prod.fst (pass_position session _ _ _)
      rw [kept]
      exact .character (Utf8.run_unfinished Utf8.unfinished_nil session.held)

end Intake

end Engine

namespace Reading

/-- gdb is quiet or says something, and nobody closes the session. -/
def isLively (reading : Reading) : Bool :=
  !reading.closedBefore &&
    match reading.outcome with
    | .quiet => true
    | .bytes available => !available.isEmpty
    | .failed _ => false

/-- What gdb says. -/
def said (reading : Reading) : Bytes :=
  match reading.outcome with
  | .bytes available => available
  | _ => []

def silence : Reading := ⟨.quiet, false⟩

def ending : Reading := ⟨.bytes [], false⟩

section Division

variable {reading : Reading}

theorem lively_cases (lively : reading.isLively = true) :
    reading = silence ∨ ∃ first rest, reading = ⟨.bytes (first :: rest), false⟩ := by
  obtain ⟨outcome, closedBefore⟩ := reading
  cases closedBefore with
  | true => cases lively
  | false =>
    cases outcome with
    | quiet => exact .inl rfl
    | bytes available =>
      cases available with
      | nil => cases lively
      | cons first rest => exact .inr ⟨first, rest, rfl⟩
    | failed reason => cases lively

theorem chunks_present {bytes : Bytes} (present : bytes ≠ []) : ∀ chunk ∈ chunks bytes, chunk ≠ [] := by
  fun_induction chunks bytes with
  | case1 bytes small => simpa using present
  | case2 bytes large ih =>
    have long : readSize < bytes.length := by omega
    have left : bytes.drop readSize ≠ [] := by
      rw [Ne, List.drop_eq_nil_iff]
      omega
    intro chunk member
    rcases List.mem_cons.mp member with rfl | later
    · simp [present, readSize]
    · exact ih left chunk later

theorem divided_bytes (available : Bytes) :
    divided ⟨.bytes available, false⟩ = (chunks available).map fun chunk => ⟨.bytes chunk, false⟩ := by
  refine List.ext_getElem? fun index => ?_
  simp [divided]

theorem divided_lively (lively : reading.isLively = true) :
    ∀ part ∈ reading.divided, part.isLively = true := by
  rcases lively_cases lively with rfl | ⟨first, rest, rfl⟩
  · simp [divided, silence, isLively]
  · rw [divided_bytes]
    intro part member
    obtain ⟨chunk, listed, rfl⟩ := List.mem_map.mp member
    simpa [isLively] using chunks_present (List.cons_ne_nil first rest) chunk listed

theorem divided_said (lively : reading.isLively = true) :
    reading.divided.flatMap said = reading.said := by
  rcases lively_cases lively with rfl | ⟨first, rest, rfl⟩
  · rfl
  · rw [divided_bytes, List.flatMap_map]
    exact List.flatMap_id.trans (flatten_chunks _)

theorem divided_ending : ending.divided = [ending] := by
  rw [ending, divided_bytes]
  simp [chunks]

theorem script_said {script : List Reading} (lively : ∀ reading ∈ script, reading.isLively = true) :
    (script.flatMap divided).flatMap said = script.flatMap said := by
  induction script with
  | nil => rfl
  | cons reading rest ih =>
    rw [List.flatMap_cons, List.flatMap_append, List.flatMap_cons,
      divided_said (lively reading List.mem_cons_self),
      ih fun other member => lively other (List.mem_cons_of_mem reading member)]

theorem script_silent {script : List Reading} (silent : script.getLast? = some silence) :
    (script.flatMap divided).getLast? = some silence := by
  obtain ⟨front, rfl⟩ := List.getLast?_eq_some_iff.mp silent
  simp [List.flatMap_append, divided, silence]

end Division

end Reading

/-- The client after readings of a session that listens: of these the user was shown all but what the
session still holds. -/
def Client.HasRead (client : Client) (id : String) (attachment : Attachment) (stream : Bytes)
    (past : List Reading) : Prop :=
  ∃ session, client.sessions.get? id = some { attachment with session := session } ∧
    session.Listens stream (past.flatMap Reading.said) attachment.session.display.transcript ∧
    session.Drained ∧
    (past.getLast? = some Reading.silence → Stream.Withheld session.held)

namespace Control

section Pump

variable {client : Client} {id : String} {attachment : Attachment} {stream : Bytes}
  {past : List Reading}

theorem run_is_alive {found : Attachment} (present : client.sessions.get? id = some found) :
    (isAlive id).run client = .ok (!found.session.isClosed) client := by
  unfold isAlive
  rw [EStateM.run_bind, run_find, present]
  rfl

theorem pump_silence (hasRead : client.HasRead id attachment stream past) (rest : List Reading) :
    ∃ later, (pump id (Reading.silence :: rest)).run client = (pump id rest).run later ∧
      later.HasRead id attachment stream (past ++ [Reading.silence]) := by
  obtain ⟨session, present, listens, drained, -⟩ := hasRead
  have alive := listens_alive listens
  obtain ⟨answer, flushed, ran, listens, drained, withheld⟩ := Engine.flush_listens listens drained
  let polled := client.log (.polled id Reading.interval)
  have still : polled.sessions.get? id = some { attachment with session := session } := present
  refine ⟨polled.keep id { attachment with session := session } flushed, ?_,
    flushed.forgetful, ?_, ?_, drained_of_same drained rfl, fun _ => withheld⟩
  · have done : (onSession id (discard Engine.flush : Engine Unit)).run polled =
        .ok () (polled.keep id { attachment with session := session } flushed) := by
      rw [run_on_session still, Engine.run_discard, ran]
    have recorded : (record (.polled id Reading.interval)).run client = .ok () polled := rfl
    have first := run_is_alive present
    have second := run_is_alive still
    dsimp only at first second
    rw [alive] at first second
    rw [Reading.silence, pump]
    simp [EStateM.run_bind, first, recorded, second, done]
  · rw [kept_get, if_pos rfl]
  · simpa [Reading.said, Reading.silence] using listens_forgetful listens

theorem pump_bytes (tame : Stream.isTame stream = true)
    (hasRead : client.HasRead id attachment stream past) {first : UInt8} {others : Bytes}
    (expected : past.flatMap Reading.said ++ first :: others <+: stream) (rest : List Reading) :
    let reading : Reading := ⟨.bytes (first :: others), false⟩
    ∃ later, (pump id (reading :: rest)).run client = (pump id rest).run later ∧
      later.HasRead id attachment stream (past ++ [reading]) := by
  intro reading
  obtain ⟨session, present, listens, drained, -⟩ := hasRead
  have alive := listens_alive listens
  obtain ⟨taken, ran, listens, drained⟩ := Engine.ingest_listens tame listens expected
  refine ⟨client.keep id { attachment with session := session } taken, ?_,
    taken.forgetful, ?_, ?_, drained_of_same drained rfl, ?_⟩
  · have done : (onSession id (Engine.ingest Engine.handle (first :: others))).run client =
        .ok () (client.keep id { attachment with session := session } taken) := by
      rw [run_on_session present, ran]
    have open_ := run_is_alive present
    dsimp only at open_
    rw [alive] at open_
    rw [pump]
    simp [reading, EStateM.run_bind, open_, done]
  · rw [kept_get, if_pos rfl]
  · simpa [Reading.said, reading] using listens_forgetful listens
  · simp [reading, Reading.silence]

/-- By induction on the readings. -/
theorem pump_lively (tame : Stream.isTame stream = true) {readings : List Reading}
    (lively : ∀ reading ∈ readings, reading.isLively = true)
    (hasRead : client.HasRead id attachment stream past)
    (expected : past.flatMap Reading.said ++ readings.flatMap Reading.said <+: stream)
    (rest : List Reading) :
    ∃ later, (pump id (readings ++ rest)).run client = (pump id rest).run later ∧
      later.HasRead id attachment stream (past ++ readings) := by
  induction readings generalizing client past with
  | nil => exact ⟨client, rfl, by rwa [List.append_nil]⟩
  | cons reading others ih =>
    have later := fun other member => lively other (List.mem_cons_of_mem reading member)
    have next : ∃ middle, (pump id (reading :: (others ++ rest))).run client =
        (pump id (others ++ rest)).run middle ∧
          middle.HasRead id attachment stream (past ++ [reading]) := by
      rcases Reading.lively_cases (lively reading List.mem_cons_self) with
        rfl | ⟨first, more, rfl⟩
      · exact pump_silence hasRead _
      · refine pump_bytes tame hasRead (List.IsPrefix.trans ?_ expected) _
        rw [List.flatMap_cons]
        exact ⟨others.flatMap Reading.said, List.append_assoc _ _ _⟩
    obtain ⟨middle, ran, hasRead⟩ := next
    obtain ⟨last, finished, hasRead⟩ := ih later hasRead (by simpa using expected)
    exact ⟨last, ran.trans finished, by simpa using hasRead⟩

theorem run_pump_ending (hasRead : client.HasRead id attachment stream past) :
    (pump id [Reading.ending]).run client = .ok () client := by
  obtain ⟨session, present, listens, -⟩ := hasRead
  have open_ := run_is_alive present
  dsimp only at open_
  rw [listens_alive listens] at open_
  rw [pump, EStateM.run_bind, open_]
  rfl

end Pump

end Control

theorem attached_fresh {client attached : Client} {program id : String} {args : List String}
    {attachment : Attachment} (started : (Control.attach program args).run client = .ok id attached)
    (kept : attached.sessions.get? id = some attachment) : attachment.session.Fresh := by
  obtain ⟨config, process, views, known, setup⟩ := attached_session started kept
  rw [setup]
  exact ⟨rfl, rfl, rfl, rfl, catalog_buffered known⟩

/-- A session has been read to the end of gdb's output. Some of it has been shown, and some was lost. -/
structure Client.ReadsOut (client : Client) (id : String) (attachment : Attachment)
    (script : List Reading) (later : Client) (session : Session) (shown : String) (lost : Bytes) :
    Prop where
  ran : (Control.readAll id (script ++ [Reading.ending])).run client = .ok () later
  kept : later.sessions.get? id = some { attachment with session := session }
  gone : session.Gone
  transcript : session.display.transcript = attachment.session.display.transcript ++ shown
  whole : shown ++ Utf8.decode lost = Utf8.decode (Stream.plain (script.flatMap Reading.said))
  suffix : lost <:+ script.flatMap Reading.said
  unended : Stream.newline ∉ lost.tail
  withheld : script.getLast? = some Reading.silence → Stream.Withheld lost

/-- When gdb's output ends, the user has been shown all of it but the marker lines and what was lost:
at most the last newline and the line after it that was not complete. Where gdb was quiet just before
the end, that line is lost only if it might have begun a marker, or as far as its last character is
not complete. -/
theorem output_shown_to_its_end {client : Client} {id : String} {attachment : Attachment}
    (present : client.sessions.get? id = some attachment) (fresh : attachment.session.Fresh)
    {script : List Reading} (lively : ∀ reading ∈ script, reading.isLively = true)
    (tame : Stream.isTame (script.flatMap Reading.said) = true) :
    ∃ later session shown lost, client.ReadsOut id attachment script later session shown lost := by
  let stream := script.flatMap Reading.said
  let readings := script.flatMap Reading.divided
  have started : client.HasRead id attachment stream [] :=
    ⟨attachment.session, present, fresh_listens fresh stream,
      drained_unended (fresh.nothing ▸ List.not_mem_nil), by simp⟩
  have parts : ∀ reading ∈ readings, reading.isLively = true := by
    intro reading member
    obtain ⟨whole, listed, part⟩ := List.mem_flatMap.mp member
    exact Reading.divided_lively (lively whole listed) reading part
  have said : readings.flatMap Reading.said = stream := Reading.script_said lively
  have expected : [].flatMap Reading.said ++ readings.flatMap Reading.said <+: stream := by
    rw [said]
    exact List.prefix_rfl
  obtain ⟨middle, pumped, hasRead⟩ :=
    Control.pump_lively tame parts started expected [Reading.ending]
  rw [Control.run_pump_ending hasRead] at pumped
  obtain ⟨session, kept, listens, drained, settled⟩ := hasRead
  obtain ⟨⟨shown, transcript, whole⟩, suffix⟩ := listens_shown listens drained
  rw [List.nil_append, said] at whole suffix
  let exited : Session := { session.close with display := session.close.display.markReady }
  have same : session.close.display = session.display := close_display session
  refine ⟨middle.keep id { attachment with session := session } exited, exited.forgetful, shown,
    session.held, ?_, ?_, ⟨session.isClosed_close, rfl⟩, ?_, whole, suffix, drained.unended,
    fun silent => settled (Reading.script_silent silent)⟩
  · have readings : (script ++ [Reading.ending]).flatMap Reading.divided =
        readings ++ [Reading.ending] := by
      rw [List.flatMap_append]
      simp [Reading.divided_ending, readings]
    unfold Control.readAll
    rw [readings, EStateM.run_bind, Engine.run_catch, pumped]
    exact run_on_session kept (Engine.receive .exit)
  · rw [kept_get, if_pos rfl]
  · rw [← transcript, ← same]
    rfl

/-- The program says something, a marker line lies across two reads, and then all goes quiet. -/
theorem farewell_shown :
    let client : Client := { config := { gdbPath := .string "gdb" } }
    let script : List Reading :=
      [⟨.bytes "hello\n\x1A".toUTF8.data.toList, false⟩, Reading.silence,
        ⟨.bytes "\x1Aframe-end\nbye".toUTF8.data.toList, false⟩, Reading.silence]
    let stream := script.flatMap Reading.said
    ∃ (attached : Client) (id : String) (attachment : Attachment),
      (Control.attach "" []).run client = .ok id attached ∧
      attached.sessions.get? id = some attachment ∧ attachment.session.Fresh ∧
      (∀ reading ∈ script, reading.isLively = true) ∧ Stream.isTame stream = true ∧
      Utf8.decode (Stream.plain stream) = "hello\nbye" ∧
      ∃ later session shown lost,
        attached.ReadsOut id attachment script later session shown lost := by
  intro client script stream
  have begun : (match (Control.attach "" []).run client with
      | .ok id attached => (attached.sessions.get? id).isSome
      | .error _ _ => false) = true := by
    decide +kernel
  have lively : ∀ reading ∈ script, reading.isLively = true := by decide +kernel
  have tame : Stream.isTame stream = true := by decide +kernel
  split at begun
  · next id attached started =>
    obtain ⟨attachment, kept⟩ := Option.isSome_iff_exists.mp begun
    have fresh := attached_fresh started kept
    exact ⟨attached, id, attachment, started, kept, fresh, lively, tame, by decide +kernel,
      output_shown_to_its_end kept fresh lively tame⟩
  · cases begun

/-- The end comes with the last words, before all goes quiet. -/
theorem farewell_lost :
    let client : Client := { config := { gdbPath := .string "gdb" } }
    let script : List Reading := [⟨.bytes "hello\nbye".toUTF8.data.toList, false⟩]
    let stream := script.flatMap Reading.said
    ∃ (attached : Client) (id : String) (attachment : Attachment) (later : Client)
      (ended : Attachment),
      (Control.attach "" []).run client = .ok id attached ∧
      attached.sessions.get? id = some attachment ∧ attachment.session.Fresh ∧
      (∀ reading ∈ script, reading.isLively = true) ∧ Stream.isTame stream = true ∧
      (Control.readAll id (script ++ [Reading.ending])).run attached = .ok () later ∧
      later.sessions.get? id = some ended ∧
      Stream.unfinished stream = "bye".toUTF8.data.toList ∧
      Utf8.decode (Stream.plain stream) = "hello\nbye" ∧
      attachment.session.display.transcript = "" ∧ ended.session.display.transcript = "hello" := by
  intro client script stream
  have run : ((Engine.given? ((Control.attach "" []).run client)).bind fun given =>
      (Engine.given? ((Control.readAll given.1 (script ++ [Reading.ending])).run given.2)).bind
        fun read => (given.2.sessions.get? given.1).bind fun attachment =>
          (read.2.sessions.get? given.1).map fun ended =>
            (attachment.session.display.transcript, ended.session.display.transcript)) =
      some ("", "hello") := by
    decide +kernel
  obtain ⟨⟨id, attached⟩, given, run⟩ := Option.bind_eq_some_iff.mp run
  obtain ⟨⟨_, later⟩, read, run⟩ := Option.bind_eq_some_iff.mp run
  obtain ⟨attachment, kept, met⟩ := Option.bind_eq_some_iff.mp run
  obtain ⟨ended, left, same⟩ := Option.map_eq_some_iff.mp met
  obtain ⟨before, after⟩ := Prod.mk.inj same
  have started := Engine.given_ok given
  exact ⟨attached, id, attachment, later, ended, started, kept, attached_fresh started kept,
    by decide +kernel, by decide +kernel, Engine.given_ok read, left, by decide +kernel,
    by decide +kernel, before, after⟩

end GdbControl
