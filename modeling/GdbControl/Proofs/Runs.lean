import GdbControl.Proofs.Traces

/-!
Annotations, stretches of output, operations and runs as moves. What an annotation does is a reaction,
and then moves that the reaction brings about: refreshes that were asked for, and what the handler of
a fulfilled command performs.
-/

namespace GdbControl

namespace Engine

section Reactions

variable {allowed : Operation → Bool} {depth : Nat} {session : Session}

-- What becomes of a command's output, once the command is fulfilled, is a sequence of moves.
theorem fulfilled_ends {tag : String} (inside : session.Within allowed)
    (gathering : session.sink = .gathering) (routines : RoutinesTraced allowed depth) :
    Ends allowed session.fulfil ((enterPrePrompt (complete depth) tag).run session) := by
  have kept : session.fulfil.Within allowed :=
    within_of_same inside (fulfil_same session).1 (fulfil_same session).2
  rw [run_pre_prompt_gathering (complete depth) tag gathering]
  unfold Session.fulfil at kept ⊢
  dsimp only at kept ⊢
  cases flight : session.inFlight with
  | none => exact ends_still rfl
  | some command =>
    cases handled : command.handler? with
    | none =>
      simp only [Option.bind_some, handled, Option.map_none]
      exact ends_still rfl
    | some handler =>
      simp only [Option.bind_some, handled, Option.map_some]
      cases handler with
      | discard =>
        rw [complete_discard]
        exact ends_still rfl
      | refresh view =>
        rw [complete_refresh]
        exact ends_still rfl
      | routine name body fault =>
        have own : (Handler.routine name body fault).within allowed = true :=
          handler_of_command (inside.commands command (by simp [Session.commands, flight])) handled
        simp only [flight, handled] at kept
        exact routines name fault session.gathered own _ kept

theorem react_ends (marker : Marker) (inside : session.Within allowed)
    (alive : session.isClosed = false)
    (routines : RoutinesTraced allowed depth) :
    ∃ middle, Reaction marker session middle ∧
      Ends allowed middle ((react (complete depth) marker).run session) := by
  have told : (session.log (.annotated marker)).Within allowed := within_of_same inside rfl rfl
  have announce {phase : Phase} {next : Engine Unit} (kind : marker.kind.phase? = some phase)
      (between : phase ≠ .prompt) (unfinished : phase = .prePrompt → session.sink ≠ .gathering)
      (notes : Notes next) :
      ∃ middle, Reaction marker session middle ∧ Ends allowed middle
        ((do enter phase marker.tag; next).run (session.log (.annotated marker))) :=
    ⟨_, .phase kind between unfinished, enter_noted notes⟩
  have remark {next : Engine Unit} (kind : marker.kind.phase? = none)
      (plain : marker.kind ≠ .question) (traced : Traced allowed next) :
      ∃ middle, Reaction marker session middle ∧
        Ends allowed middle (next.run (session.log (.annotated marker))) :=
    ⟨_, .remark kind plain, traced _ told⟩
  have noted {next : Engine Unit} (kind : marker.kind.phase? = none)
      (plain : marker.kind ≠ .question) (notes : Notes next) :
      ∃ middle, Reaction marker session middle ∧
        Ends allowed middle (next.run (session.log (.annotated marker))) :=
    remark kind plain (traced_of_after fun heard _ => notes_advance notes heard)
  have asked (ids : List String) : Traced allowed (discard (requestRefreshes ids)) :=
    traced_map _ (traced_request_refreshes ids)
  simp only [react, EStateM.run_bind, run_require_open, alive, Bool.false_eq_true, if_false, run_record]
  cases kind : Annotation.ofTag marker.tag with
  | prePrompt =>
    by_cases gathering : session.sink = .gathering
    · exact ⟨_, .fulfilled kind gathering, fulfilled_ends told gathering routines⟩
    · exact ⟨_, .phase (congrArg Annotation.phase? kind) (by decide) fun _ => gathering,
        ends_still (after_pre_prompt (complete depth) marker.tag gathering)⟩
  | prompt => exact ⟨_, .prompt kind, ends_still (after_enter_prompt _ _)⟩
  | postPrompt =>
    exact ⟨_, .phase (congrArg Annotation.phase? kind) (by decide) (by rintro ⟨⟩),
      ends_still (after_enter .postPrompt _ _)⟩
  | question => exact ⟨_, .question kind, ends_still (after_answer_question _)⟩
  | starting =>
    exact announce (congrArg Annotation.phase? kind) (by decide) (by rintro ⟨⟩)
      (notes_modify fun _ => ⟨_, _, _, _, _, rfl⟩)
  | exited =>
    exact announce (congrArg Annotation.phase? kind) (by decide) (by rintro ⟨⟩)
      (notes_modify fun _ => ⟨_, _, _, _, _, rfl⟩)
  | stopping =>
    exact ⟨_, .phase (congrArg Annotation.phase? kind) (by decide) (by rintro ⟨⟩),
      ends_still (after_enter .stopping _ _)⟩
  | stopped =>
    exact announce (congrArg Annotation.phase? kind) (by decide) (by rintro ⟨⟩)
      (notes_modify fun _ => ⟨_, _, _, _, _, rfl⟩)
  | signalName =>
    exact noted (congrArg Annotation.phase? kind) (by simp [Marker.kind, kind])
      (notes_modify fun _ => ⟨_, _, _, _, _, rfl⟩)
  | source =>
    exact noted (congrArg Annotation.phase? kind) (by simp [Marker.kind, kind])
      (notes_location marker.args)
  | frameBegin =>
    exact noted (congrArg Annotation.phase? kind) (by simp [Marker.kind, kind])
      (notes_frame marker.args)
  | breakpointsInvalid =>
    exact remark (congrArg Annotation.phase? kind) (by simp [Marker.kind, kind])
      (asked breakpointViews)
  | framesInvalid =>
    exact remark (congrArg Annotation.phase? kind) (by simp [Marker.kind, kind]) (asked frameViews)
  | other =>
    exact remark (congrArg Annotation.phase? kind) (by simp [Marker.kind, kind]) (traced_pure ())

theorem run_react_closed (complete : Completion) (marker : Marker) (closed : session.isClosed = true) :
    (react complete marker).run session = .error .tornDown session := by
  simp [react, EStateM.run_bind, run_require_open, closed]

theorem traced_react {marker : Marker} (granted : allowed (.react marker) = true)
    (routines : RoutinesTraced allowed depth) : Traced allowed (react (complete depth) marker) := by
  intro session inside
  cases closed : session.isClosed with
  | true =>
    rw [run_react_closed _ _ closed]
    exact ends_still rfl
  | false =>
    obtain ⟨middle, reaction, ends⟩ := react_ends marker inside closed routines
    exact ends_head (advances_move (.react granted closed reaction) (reaction_position reaction)) ends

/-- A result in which a failure that is only reported has been reported. -/
def reported : EStateM.Result Fault Session Unit → EStateM.Result Fault Session Unit
  | .ok value later => .ok value later
  | .error fault later =>
    if fault.isReported then .ok () (later.complain fault.message) else .error fault later

theorem run_react_or_report (complete : Completion) (marker : Marker) (session : Session) :
    (reactOrReport complete marker).run session = reported ((react complete marker).run session) := by
  rw [reactOrReport, run_catch]
  cases (react complete marker).run session with
  | ok value later => rfl
  | error fault later => cases fault <;> rfl

-- A failure that is reported is not a failure of the intake any more.
theorem react_or_report_ends (marker : Marker) (inside : session.Within allowed)
    (alive : session.isClosed = false)
    (routines : RoutinesTraced allowed depth) :
    ∃ middle, Reaction marker session middle ∧
      Ends allowed middle ((reactOrReport (complete depth) marker).run session) := by
  obtain ⟨middle, reaction, ends⟩ := react_ends marker inside alive routines
  refine ⟨middle, reaction, ?_⟩
  rw [run_react_or_report]
  cases done : (react (complete depth) marker).run session with
  | ok value later =>
    rw [done] at ends
    exact ends
  | error fault later =>
    rw [done] at ends
    unfold reported
    dsimp only
    split
    · next only =>
      exact advances_trans (ends.2 only) (advances_move (.complain fault.message) rfl)
    · exact ends

end Reactions

section Intake

variable {allowed : Operation → Bool} {depth : Nat} {pieces : List Bytes} {session : Session}

/-- How the reading of held output may end. A failure of it is never one that is only reported. -/
def Drains (allowed : Operation → Bool) (session : Session) :
    EStateM.Result Fault Session Unit → Prop
  | .ok _ later => Moves allowed session later ∧ later.Drained
  | .error fault later => Lapses allowed session later ∧ fault.isReported = false

theorem drains_head {result : EStateM.Result Fault Session Unit} {middle : Session}
    (first : Moves allowed session middle) (rest : Drains allowed middle result) :
    Drains allowed session result := by
  cases result with
  | ok value later => exact ⟨first.trans rest.1, rest.2⟩
  | error fault later => exact ⟨(lapses_of_moves first).trans rest.1, rest.2⟩

theorem lines_drain (granted : allowed (.ingest pieces) = true) (searched : session.Searched) :
    Drains allowed session (emitLines.run session) := by
  rw [run_emit_lines]
  cases found : Stream.lastLine? session.held with
  | none => exact ⟨.refl, drained_unended (Stream.last_line_absent found)⟩
  | some parts =>
    obtain ⟨lines, tail⟩ := parts
    obtain ⟨unfinished, rfl, unended, -⟩ := Stream.last_line_shape found
    refine ⟨.single (.lines granted searched found), ?_⟩
    refine drained_of_same ?_ (Session.hear_position _ _)
    refine ⟨?_, unended⟩
    have nothing := Stream.first_marker_unended true unended
    simp [Session.Searched, Session.hold, Stream.first_marker_newline, nothing]

theorem cut_drain (inside : session.Within allowed) (granted : allowed (.ingest pieces) = true)
    (routines : RoutinesTraced allowed depth) {cut : Stream.Cut}
    (found : Stream.firstMarker? (!session.midLine) session.held = some cut) :
    match (acceptCut (complete depth) cut).run session with
    | .ok _ later =>
      Moves allowed session later ∧ (later.held.length < session.held.length ∨ later.Searched)
    | .error fault later => Lapses allowed session later ∧ fault.isReported = false := by
  have position : (session.pass (Utf8.decode cut.before) cut.after false).position =
      (cut.after, false) := pass_position _ _ _ _
  have closedness : (session.pass (Utf8.decode cut.before) cut.after false).isClosed =
      session.isClosed := by
    obtain ⟨display, gathered, events, same, -⟩ :=
      (session.hold cut.after false).hear_shape (Utf8.decode cut.before)
    rw [Session.pass, same]
    rfl
  have shorter := Stream.length_firstMarker? found
  rw [run_accept_cut]
  cases closed : session.isClosed with
  | true =>
    rw [run_react_or_report, run_react_closed _ _ (closedness.trans closed)]
    exact ⟨.single (.skip granted closed found), rfl⟩
  | false =>
    -- The handler leaves what is held alone, or has drained it by reads of its own.
    obtain ⟨middle, reaction, ends⟩ := react_or_report_ends cut.marker (pass_within inside _ _ _)
      (closedness.trans closed) routines
    have first : Move allowed session middle := .cut granted closed found reaction
    cases done : (reactOrReport (complete depth) cut.marker).run
        (session.pass (Utf8.decode cut.before) cut.after false) with
    | ok value later =>
      rw [done] at ends
      refine ⟨.head first ends.1, ?_⟩
      rcases ends.2 with same | drained
      · have held := congrArg Prod.fst ((same.trans (reaction_position reaction)).trans position)
        have shown : later.held = cut.after := held
        exact .inl (shown ▸ shorter)
      · exact .inr drained.searched
    | error fault later =>
      rw [done] at ends
      refine ⟨.head (.move first) ends.1, ?_⟩
      rw [run_react_or_report] at done
      unfold reported at done
      split at done
      · cases done
      · split at done
        · cases done
        · next unreported =>
          cases done
          simpa using unreported

/-- By induction on the held output: less is held after each marker line, or nothing is left to be
searched. -/
theorem drain_drains (granted : allowed (.ingest pieces) = true)
    (routines : RoutinesTraced allowed depth) (session : Session) (inside : session.Within allowed) :
    Drains allowed session (drain (complete depth) session) := by
  induction size : session.held.length using Nat.strongRecOn generalizing session with
  | _ size ih =>
    subst size
    rw [drain_eq]
    cases found : Stream.firstMarker? (!session.midLine) session.held with
    | none => exact lines_drain granted found
    | some cut =>
      have ends := cut_drain inside granted routines found
      dsimp only
      cases done : (acceptCut (complete depth) cut).run session with
      | error fault later =>
        rw [done] at ends
        exact ends
      | ok value later =>
        rw [done] at ends
        obtain ⟨moves, rest⟩ := ends
        dsimp only
        split
        · next less =>
          exact drains_head moves
            (ih later.held.length less later (moves_within inside moves) rfl)
        · next more =>
          have searched := rest.resolve_left more
          exact drains_head moves (lines_drain granted searched)

theorem traced_ingest (granted : allowed (.ingest pieces) = true)
    (routines : RoutinesTraced allowed depth) (bytes : Bytes) :
    Traced allowed (ingest (complete depth) bytes) := by
  intro session inside
  rw [run_ingest]
  cases closed : session.isClosed with
  | true => exact ends_still rfl
  | false =>
    have arrived : Move allowed session (session.arrive bytes) := .arrive granted closed
    have drains := drain_drains granted routines _ (move_within inside arrived)
    simp only [Bool.false_eq_true, if_false]
    cases done : drain (complete depth) (session.arrive bytes) with
    | ok value later =>
      rw [done] at drains
      exact ⟨.head arrived drains.1, .inr drains.2⟩
    | error fault later =>
      rw [done] at drains
      have lapses := Relation.ReflTransGen.head (.move arrived) drains.1
      refine ⟨?_, fun reported => absurd (reported.symm.trans drains.2) (by decide)⟩
      split
      · exact lapses.tail (.abort granted)
      · exact lapses

theorem flushed_drained (session : Session) :
    (session.pass (Utf8.decodeOpen session.held).1 (Utf8.decodeOpen session.held).2 true).Drained := by
  have kept := Session.hear_position
    (session.hold (Utf8.decodeOpen session.held).2 true) (Utf8.decodeOpen session.held).1
  refine drained_of_same ?_ kept
  exact drained_unended (Utf8.ascii_not_open (by decide) session.held)

theorem traced_flush (granted : allowed .flush = true) : Traced allowed flush := by
  refine traced_of_after fun session _ => ?_
  rw [after, run_flush]
  split
  · exact advances_refl session
  · split
    · exact advances_refl session
    · next shown =>
      split
      · exact advances_refl session
      · next spoken =>
        exact ⟨.single (.flush granted (by simpa using shown) spoken), .inr (flushed_drained session)⟩

end Intake

section Perform

variable {allowed : Operation → Bool} {depth : Nat}

theorem traced_emit {text : String} (granted : allowed (.emit text) = true) :
    Traced allowed (emit text) := by
  refine traced_of_after fun session _ => ?_
  rw [after, run_emit]
  exact advances_move (.hear granted) (session.hear_position text)

theorem traced_register {view : View} (move : ∀ {session : Session} {views : Catalog},
    session.views.register view = .ok views → Move allowed session { session with views := views }) :
    Traced allowed (registerView view) := by
  refine traced_of_after fun session _ => ?_
  simp only [registerView, after_bind, EStateM.run_get]
  cases added : session.views.register view with
  | error fault => exact advances_refl session
  | ok views => exact advances_move (move added) rfl

theorem traced_require_open : Traced allowed requireOpen := by
  refine traced_same fun session => ?_
  rw [after, run_require_open]
  cases session.isClosed <;> rfl

theorem traced_send {command : Command}
    (own : (Operation.send command).within allowed = true) : Traced allowed (send none command) := by
  refine traced_of_after fun session _ => ?_
  have sent : (send none command).after session = session.sendOut none command := by
    rw [after, run_send, Session.outcome]
    cases (session.sendOut none command).process.pipeBroken <;> rfl
  rw [sent]
  exact advances_move (.send own) (session.send_out_position none command)

theorem traced_take_first {tier : Tier} (granted : allowed (.takeFirst tier) = true) :
    Traced allowed (takeFirst tier) := by
  refine traced_of_after fun session _ => ?_
  rw [after, run_take_first]
  cases first : session.queue tier with
  | nil => exact advances_refl session
  | cons command rest => exact advances_move (.take granted first) (by cases tier <;> rfl)

theorem traced_close (granted : allowed .close = true) :
    Traced allowed (modify Session.close : Engine Unit) := by
  refine traced_of_after fun session _ => ⟨.single (.close granted), ?_⟩
  change session.Settled session.close
  unfold Session.close
  split
  · exact .inl rfl
  · exact .inr (drained_unended (by simp))

theorem traced_perform (routines : RoutinesTraced allowed depth) {operation : Operation}
    (own : operation.within allowed = true) : Traced allowed (perform (complete depth) operation) := by
  have granted := allowed_of_within own
  have quiet {first : Engine Unit} (traced : Traced allowed first) :
      Traced allowed (do first; pure Answer.nothing) :=
    traced_bind traced fun _ => traced_pure _
  have moved {change : Session → Session}
      (move : ∀ session, Move allowed session (change session))
      (same : ∀ session, (change session).position = session.position) :
      Traced allowed (do modify change; pure Answer.nothing) :=
    quiet (traced_modify move same)
  cases operation with
  | ingest pieces => exact quiet (traced_forM fun piece _ => traced_ingest granted routines piece)
  | flush => exact traced_map _ (traced_flush granted)
  | enqueue tier command => exact traced_map _ (traced_enqueue own)
  | send command => exact quiet (traced_send own)
  | answerPrompt =>
    refine quiet (traced_of_after fun session _ => ?_)
    rw [after_answer_prompt]
    exact advances_move (.poll granted) session.poll_position
  | answerQuestion =>
    refine quiet (traced_of_after fun session _ => ?_)
    rw [after_answer_question]
    exact advances_move (.ask granted) session.ask_position
  | takeFirst tier => exact traced_bind (traced_take_first granted) fun _ => traced_pure _
  | react marker => exact quiet (traced_react granted routines)
  | emit text => exact quiet (traced_emit granted)
  | requestRefresh view => exact traced_map _ (traced_request_refresh view)
  | requestRefreshes views => exact traced_map _ (traced_request_refreshes views)
  | addBuffer view => exact moved (fun _ => .addBuffer granted) fun _ => rfl
  | removeBuffer view => exact moved (fun _ => .removeBuffer granted) fun _ => rfl
  | register view command => exact quiet (traced_register (.register granted))
  | registerHandled view command demanded handler =>
    exact quiet (traced_register (.registerHandled own))
  | setSink sink => exact moved (fun _ => .setSink granted) fun _ => rfl
  | setPrompting prompting => exact moved (fun _ => .setPrompting granted) fun _ => rfl
  | setPipe broken => exact moved (fun _ => .setPipe granted) fun _ => rfl
  | requireOpen => exact quiet traced_require_open
  | close => exact quiet (traced_close granted)

/-- By induction on the depth: a routine performs its operations with one level less. -/
theorem routines_traced (depth : Nat) : RoutinesTraced allowed depth := by
  induction depth with
  | zero => exact fun _ _ _ _ _ => traced_throw .nesting
  | succ depth ih =>
    intro body name fault output own
    refine traced_bind (traced_forM fun operation member => ?_) fun _ => ?_
    · exact traced_map _ (traced_perform ih (mem_of_all_within own member))
    · cases fault with
      | none => exact traced_pure ()
      | some fault => exact traced_throw fault

end Perform

end Engine

namespace Session

/-- The session after an operation, whether or not it failed. -/
def after (session : Session) (operation : Operation) : Session :=
  Engine.stateOf (session.perform operation)

def succeeds (session : Session) (operation : Operation) : Bool :=
  match session.perform operation with
  | .ok _ _ => true
  | .error _ _ => false

theorem perform_of_succeeds {session : Session} {operation : Operation}
    (succeeds : session.succeeds operation = true) :
    ∃ answer, session.perform operation = .ok answer (session.after operation) := by
  unfold Session.succeeds at succeeds
  unfold after
  cases done : session.perform operation with
  | ok answer later => exact ⟨answer, rfl⟩
  | error fault later => simp [done] at succeeds

/-- The session after operations of which none fails. -/
def performAll (session : Session) : List Operation → Option Session
  | [] => some session
  | operation :: rest =>
    match session.perform operation with
    | .ok _ later => later.performAll rest
    | .error _ _ => none

/-- What a session may become by operations that are allowed. Any of them may fail. -/
def Reaches (allowed : Operation → Bool) : Session → Session → Prop :=
  Relation.ReflTransGen fun session later =>
    ∃ operation : Operation, operation.within allowed = true ∧ later = session.after operation

/-- A session that gathers the output of a command, whose handler will perform these operations. -/
def gathering (body : List Operation) : Session :=
  (((start ⟨1, none, [], false, false, false⟩ Table.empty).after
    (.enqueue .urgent (.mk "info locals" (some (.routine "locals" body none)) none))).after
      (.react ⟨"prompt", none⟩)).after (.react ⟨"post-prompt", none⟩)

section Reaches

variable {allowed : Operation → Bool} {session later : Session}

theorem perform_ends {operation : Operation} (inside : session.Within allowed)
    (own : operation.within allowed = true) :
    Engine.Ends allowed session (session.perform operation) :=
  Engine.traced_perform (Engine.routines_traced Engine.maxNesting) own session inside

theorem lapses_reaches (inside : session.Within allowed) (run : session.Reaches allowed later) :
    Lapses allowed session later := by
  induction run with
  | refl => exact .refl
  | tail _ step ih =>
    obtain ⟨operation, own, rfl⟩ := step
    exact ih.trans (Engine.ends_lapses (perform_ends (lapses_within inside ih) own))

theorem start_within (process : Subprocess) {views : Catalog} (inside : views.Within allowed) :
    (Session.start process views).Within allowed := by
  refine ⟨?_, inside⟩
  intro command member
  cases member

end Reaches

end Session

end GdbControl
