import GdbControl.Proofs.Bearing

/-!
A session follows the script of a gdb that keeps to the protocol from one marker line to the next,
however its output is divided into reads and wherever gdb goes quiet. What is asked of the session
meanwhile goes out at once or waits.
-/

namespace GdbControl

section Script

variable {gdb : Gdb} {session : Session} {done : List (Bytes × Marker)} {text more : Bytes} {count : Nat}

-- What is left of the script begins with what is held: nothing, or text up to the next marker line.
theorem script_ahead (read : session.Read done text)
    (whole : arrivedIn session.journal ++ more = gdb.printed count) :
    (Stream.firstMarker? (!session.midLine) (session.held ++ more) = none →
      gdb.told count = done ∧ session.talk.heard = "") ∧
    (∀ cut, Stream.firstMarker? (!session.midLine) (session.held ++ more) = some cut →
      session.talk.heard ++ Utf8.decode cut.before = Utf8.decode (text ++ cut.before) ∧
      ∃ others, gdb.told count = done ++ (text ++ cut.before, cut.marker) :: others) := by
  have ahead := read.ahead more
  have told := sections_printed gdb count []
  have spoken := read.spoken more
  rw [List.append_nil, ← whole, ahead] at told
  obtain ⟨sections, rest⟩ := Prod.mk.inj told
  have heard : session.talk.heard = (readIn "" session.journal).2 := rfl
  rw [← heard] at spoken
  constructor
  · intro nothing
    rw [Stream.sections_plain nothing] at sections rest
    have empty : text ++ (session.held ++ more) = [] := rest
    obtain ⟨noText, noBytes⟩ := List.append_eq_nil_iff.mp empty
    refine ⟨?_, ?_⟩
    · simpa [Stream.sectionsOf, Stream.sections] using sections.symm
    · rw [noText, noBytes] at spoken
      simpa [Utf8.decode, Utf8.characters, Utf8.run, Utf8.broken] using spoken
  · intro cut found
    refine ⟨parses_said (read_parses read) found, ?_⟩
    rw [Stream.sections_cut found] at sections
    exact ⟨_, by simpa [Stream.sectionsOf, Stream.sections] using sections.symm⟩

end Script

section Reading

variable {gdb : Gdb} {session : Session} {done : List (Bytes × Marker)}

theorem conforms_finished (conforms : session.Conforms gdb) (waits : session.prompting = true) :
    ∃ done, session.Hears gdb done ∧ Finished gdb session.talk done := by
  obtain ⟨done, hears, stage⟩ := conforms
  obtain ⟨text, read⟩ := hears.read
  obtain ⟨more, whole⟩ := hears.arrived
  obtain ⟨calm, busy⟩ := script_ahead read whole
  have waiting : session.talk.waits = true := waits
  cases stage with
  | idle _ console completed shown =>
    -- Nothing is left of the script that could have been heard.
    have heard : session.talk.heard = "" := by
      cases found : Stream.firstMarker? (!session.midLine) (session.held ++ more) with
      | none => exact (calm found).2
      | some cut =>
        obtain ⟨-, others, next⟩ := busy cut found
        simp [Session.talk] at next
    refine ⟨_, hears, rfl, console, completed, ?_, heard⟩
    rw [shown, heard, String.append_empty]
  | greeting _ _ still | user _ _ _ _ still | asked _ _ _ still | answered _ _ _ _ still
  | ended _ _ still => cases still.symm.trans waiting

theorem pass_talk (session : Session) (said : String) (rest : Bytes) (midLine : Bool) :
    (session.pass said rest midLine).talk = session.talk.hear said :=
  talk_hear (session.hold rest midLine) said

theorem pass_sound (sound : session.Sound) (other : session.sink ≠ .program) (said : String)
    (rest : Bytes) (midLine : Bool) : (session.pass said rest midLine).Sound := by
  have held : (session.hold rest midLine).Sound :=
    sound_same sound rfl rfl (fun _ => .inl) ⟨rfl, rfl⟩ ⟨sound.unasked, sound.rested⟩ ⟨rfl, rfl⟩
  exact sound_hear held other said

theorem conforms_passed (hears : session.Hears gdb done) (stage : Stage gdb session.talk done)
    {said : String} {rest : Bytes} {midLine : Bool}
    (read : ∃ text, (session.pass said rest midLine).Read done text) :
    (session.pass said rest midLine).Conforms gdb := by
  have talk := pass_talk session said rest midLine
  have sent : sentIn (session.pass said rest midLine).journal = sentIn session.journal :=
    congrArg Talk.sent talk
  refine ⟨done, ⟨pass_sound hears.sound (stage_sink stage).2 said rest midLine, ?_, read⟩, ?_⟩
  · rw [arrived_pass, sent]
    exact hears.arrived
  · rw [talk]
    exact stage_hear stage said

end Reading

namespace Engine

section Intake

variable {gdb : Gdb} {session : Session}

-- The next marker line of the script is the one that was found.
theorem cut_conforms (conforms : session.Conforms gdb) {cut : Stream.Cut}
    (found : Stream.firstMarker? (!session.midLine) session.held = some cut) :
    ∃ later, (acceptCut handle cut).run session = .ok () later ∧ later.Conforms gdb ∧
      later.held = cut.after := by
  have alive := conforms_alive conforms
  obtain ⟨done, hears, stage⟩ := conforms
  obtain ⟨text, read⟩ := hears.read
  obtain ⟨more, whole⟩ := hears.arrived
  obtain ⟨heard, others, next⟩ :=
    (script_ahead read whole).2 _ (Stream.first_marker_extend more found)
  let said := session.pass (Utf8.decode cut.before) cut.after false
  have talk : said.talk = session.talk.hear (Utf8.decode cut.before) := pass_talk session _ _ _
  have cue : Cue gdb said.talk cut.marker (done ++ [(text ++ cut.before, cut.marker)]) := by
    rw [talk]
    exact stage_cue (stage_hear stage _) next heard
  have still : said.isClosed = false := (hear_closed (session.hold cut.after false) _).trans alive
  have acted : (said.log (.annotated cut.marker)).Hears gdb
      (done ++ [(text ++ cut.before, cut.marker)]) := by
    have sound := pass_sound hears.sound (stage_sink stage).2 (Utf8.decode cut.before) cut.after false
    refine ⟨sound_annotated sound cut.marker, ?_, [], read_cut read found⟩
    have sent : sentIn (said.log (.annotated cut.marker)).journal = sentIn session.journal :=
      congrArg Talk.sent ((talk_annotated said cut.marker).trans (congrArg Talk.mark talk))
    have came : arrivedIn (said.log (.annotated cut.marker)).journal = arrivedIn session.journal := by
      rw [Session.log, arrived_append, arrived_pass]
      exact List.append_nil _
    rw [sent, came]
    exact hears.arrived
  obtain ⟨later, ran, conforms, position⟩ := react_conforms still acted cue
  refine ⟨later, ?_, conforms, ?_⟩
  · rw [run_accept_cut, run_react_or_report, ran]
    rfl
  · exact congrArg Prod.fst (position.trans (pass_position session _ _ _))

theorem lines_conforms (conforms : session.Conforms gdb) (searched : session.Searched) :
    ∃ later, emitLines.run session = .ok () later ∧ later.Conforms gdb := by
  rw [run_emit_lines]
  cases found : Stream.lastLine? session.held with
  | none => exact ⟨session, rfl, conforms⟩
  | some parts =>
    obtain ⟨done, hears, stage⟩ := conforms
    obtain ⟨text, read⟩ := hears.read
    exact ⟨_, rfl, conforms_passed hears stage ⟨_, read_lines read searched found⟩⟩

/-- By induction on the held output: less is held after each marker line. -/
theorem drain_conforms (session : Session) (conforms : session.Conforms gdb) :
    ∃ later, drain handle session = .ok () later ∧ later.Conforms gdb := by
  induction size : session.held.length using Nat.strongRecOn generalizing session with
  | _ size ih =>
    subst size
    rw [drain_eq]
    cases found : Stream.firstMarker? (!session.midLine) session.held with
    | none => exact lines_conforms conforms found
    | some cut =>
      obtain ⟨later, ran, conforms, held⟩ := cut_conforms conforms found
      have shorter : later.held.length < session.held.length := by
        rw [held]
        exact Stream.length_firstMarker? found
      simp only [ran, shorter, if_true]
      exact ih later.held.length shorter later conforms rfl

theorem ingest_conforms (conforms : session.Conforms gdb) {bytes : Bytes}
    (printed : arrivedIn session.journal ++ bytes <+: gdb.printed (sentIn session.journal).length) :
    ∃ later, (ingest handle bytes).run session = .ok () later ∧ later.Conforms gdb := by
  have alive := conforms_alive conforms
  obtain ⟨done, hears, stage⟩ := conforms
  obtain ⟨text, read⟩ := hears.read
  have arrived : (session.arrive bytes).Conforms gdb := by
    have quiet : ∀ event ∈ [Event.arrived bytes], event.command? = none ∧ event.line? = none := by
      simp [Event.command?, Event.line?]
    have wire := wire_silent session.journal quiet
    have came : arrivedIn (session.arrive bytes).journal = arrivedIn session.journal ++ bytes := by
      simp [Session.arrive, Session.log, arrived_append, arrivedIn]
    have sent : sentIn (session.arrive bytes).journal = sentIn session.journal := wire.1
    have talk : (session.arrive bytes).talk = session.talk := by
      simp [Session.talk, wire.1, Session.arrive, Session.log, completionsIn, read_append, readIn,
        Event.completion?]
    have sound : (session.arrive bytes).Sound :=
      sound_same hears.sound rfl rfl (fun _ => .inl) ⟨rfl, rfl⟩
        ⟨hears.sound.unasked, hears.sound.rested⟩ wire
    refine ⟨done, ⟨sound, ?_, text, read_arrived read bytes⟩, ?_⟩
    · rw [came, sent]
      exact printed
    · rw [talk]
      exact stage
  obtain ⟨later, ran, conforms⟩ := drain_conforms _ arrived
  refine ⟨later, ?_, conforms⟩
  rw [run_ingest, alive, ran]
  rfl

theorem flush_conforms (conforms : session.Conforms gdb) (drained : session.Drained) :
    ∃ shown later, flush.run session = .ok shown later ∧ later.Conforms gdb ∧ later.Drained := by
  rw [run_flush, conforms_alive conforms]
  simp only [Bool.false_eq_true, if_false]
  split
  · exact ⟨false, session, rfl, conforms, drained⟩
  · next open_ =>
    split
    · exact ⟨false, session, rfl, conforms, drained⟩
    · next spoken =>
      obtain ⟨done, hears, stage⟩ := conforms
      obtain ⟨text, read⟩ := hears.read
      obtain ⟨front, passed⟩ := read_flush read drained (by simpa using open_) spoken
      exact ⟨true, _, rfl, conforms_passed hears stage ⟨_, passed⟩, flushed_drained session⟩

end Intake

section Drained

variable {session later : Session}

theorem sound_within (sound : session.Sound) (allowed : Operation → Bool) : session.Within allowed := by
  constructor
  · intro command member
    have plain := sound.plain command member
    match command with
    | .mk _ none _ | .mk _ (some .discard) _ | .mk _ (some (.refresh _)) _ => rfl
    | .mk _ (some (.routine _ _ _)) _ => cases plain
  · intro view member
    obtain ⟨entry, known, rfl⟩ := List.mem_map.mp member
    rw [sound.views entry known]
    rfl

theorem ingest_drained {gdb : Gdb} (conforms : session.Conforms gdb) (drained : session.Drained)
    {bytes : Bytes} (ran : (ingest handle bytes).run session = .ok () later) : later.Drained := by
  obtain ⟨done, hears, -⟩ := conforms
  have granted : Operation.keepsReading (.ingest [bytes]) = true := rfl
  have traced : Traced Operation.keepsReading (ingest handle bytes) :=
    traced_ingest granted (routines_traced maxNesting) bytes
  have ends := traced session (sound_within hears.sound _)
  rw [ran] at ends
  exact drained_settled drained ends.2

end Drained

section Asking

variable {gdb : Gdb} {session : Session}

theorem accepted_unmoved (session : Session) (tier : Tier) (command : Command) :
    session.Unmoved (session.log (.accepted tier command)) := by
  have quiet : ∀ event ∈ [Event.accepted tier command], event.command? = none ∧ event.line? = none := by
    simp [Event.command?, Event.line?]
  have wire := wire_silent session.journal quiet
  have told : (session.log (.accepted tier command)).journal =
      session.journal ++ [.accepted tier command] := rfl
  refine ⟨?_, unread_log rfl told rfl, rfl, rfl, rfl, rfl, fun _ => .inl, rfl, fun _ => id, wire.2⟩
  simp [Session.talk, wire.1, Session.log, completionsIn, read_append, readIn, Event.completion?]

/-- A command that is asked for goes out at once if gdb waits for it, and waits in its queue if not. -/
theorem enqueue_conforms (conforms : session.Conforms gdb) (tier : Tier) {command : Command}
    (plain : command.isPlain = true) :
    ∃ sent later, (enqueue tier command).run session = .ok sent later ∧ later.Conforms gdb ∧
      later.position = session.position := by
  have alive := conforms_alive conforms
  cases waits : session.prompting with
  | false =>
    obtain ⟨later, ran, unmoved⟩ := enqueue_busy alive tier waits plain
    exact ⟨false, later, ran, conforms_unmoved conforms unmoved, unmoved.unread.position⟩
  | true =>
    have heard := conforms_unmoved conforms (accepted_unmoved session tier command)
    obtain ⟨done, hears, finished⟩ := conforms_finished heard waits
    have sent := conforms_sent hears finished (some tier) plain
    have unasked : session.questioned = false := hears.sound.unasked
    have rested : session.urgent = [] := (List.append_eq_nil_iff.mp (hears.sound.rested waits)).1
    have ready : session.mayWrite tier = true := by
      cases tier <;> simp [Session.mayWrite, waits, unasked, rested]
    refine ⟨true, _, ?_, sent, Session.send_out_position _ _ _⟩
    rw [run_enqueue, alive, ready, Session.accept, ready, Session.outcome]
    simp [hears.sound.heard]

theorem refresh_conforms (conforms : session.Conforms gdb) {id : String} {view : View}
    (known : session.views.find id = .ok view) :
    ∃ asked later, (requestRefresh id).run session = .ok asked later ∧ later.Conforms gdb ∧
      later.position = session.position := by
  rw [run_request_refresh, conforms_alive conforms]
  simp only [Bool.false_eq_true, if_false, known]
  split
  · exact ⟨false, session, rfl, conforms, rfl⟩
  · have awaited := conforms_unmoved conforms (await_unmoved session id)
    obtain ⟨done, hears, -⟩ := conforms
    obtain ⟨sent, later, ran, conforms, position⟩ :=
      enqueue_conforms awaited .idle (refresh_plain hears.sound.views known)
    rw [ran]
    exact ⟨true, later, rfl, conforms, position⟩

end Asking

end Engine

end GdbControl
