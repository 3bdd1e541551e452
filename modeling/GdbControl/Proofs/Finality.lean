import GdbControl.Proofs.Split

/-!
Closing a session is final. It may be closed deep inside the reading of a chunk, by a handler, with
text and marker lines still ahead, and nothing in the loops around the handler asks whether that has
happened. So two runs are compared: the run as it is, and one that breaks off at the moment at which
a handler has closed the session. They differ in nothing but complaints.
-/

namespace GdbControl

/-- The calls that serve a session. Handlers may make them as well. -/
def Operation.isPublic : Operation → Bool
  | .ingest _ | .flush | .enqueue _ _ | .react _ | .requestRefresh _ | .requestRefreshes _
  | .requireOpen | .close => true
  | _ => false

/-- What is changed around a session: its views, their buffers, and whether gdb can be written to.
-/
def Operation.isOutward : Operation → Bool
  | .addBuffer _ | .removeBuffer _ | .register _ _ | .registerHandled _ _ _ _ | .setPipe _ => true
  | _ => false

def Operation.isOffered (operation : Operation) : Bool :=
  operation.isPublic || operation.isOutward

/-- A closed session in which nothing is left. -/
structure Session.Emptied (session : Session) : Prop where
  closed : session.isClosed = true
  held : session.held = []
  urgent : session.urgent = []
  idle : session.idle = []
  awaiting : session.awaiting = []
  gathered : session.gathered = ""
  inFlight : session.inFlight = none
  prompting : session.prompting = false

/-- A session in which nothing is left once it is closed. -/
def Session.Sealed (session : Session) : Prop := session.isClosed = true → session.Emptied

/-- Every call is refused and changes nothing; to close the session again changes nothing either. -/
structure Session.Refuses (session : Session) : Prop where
  ingest : ∀ bytes, (Engine.ingest Engine.handle bytes).run session = .error .tornDown session
  flush : Engine.flush.run session = .error .tornDown session
  enqueue : ∀ tier command, (Engine.enqueue tier command).run session = .error .tornDown session
  react : ∀ marker, (Engine.react Engine.handle marker).run session = .error .tornDown session
  requestRefresh : ∀ view, (Engine.requestRefresh view).run session = .error .tornDown session
  close : session.close = session

/-- The later session has said and done nothing more, and shows nothing more: the engine is the
same, and a buffer has the text that it had, or was opened since and is empty. -/
structure Session.Silent (session later : Session) : Prop where
  engine : later = { session with
    views := later.views
    process := later.process
    display := later.display }
  display : later.display = { session.display with buffers := later.display.buffers }
  buffers : ∀ view text, later.display.buffers.get? view = some text →
    session.display.buffers.get? view = some text ∨ text = ""

/-- As `complete`, but a routine is broken off as soon as one of its operations has left the session
closed. -/
def Engine.untilClosed : Nat → Completion
  | _, .discard, _ => pure ()
  | _, .refresh view, output => finishRefresh view output
  | 0, .routine _ _ _, _ => throw .nesting
  | depth + 1, .routine _ body fault, _ => do
    body.forM fun operation => do
      discard (perform (untilClosed depth) operation)
      requireOpen
    match fault with
    | none => pure ()
    | some fault => throw fault

section Silent

variable {session later : Session}

theorem silent_refl (session : Session) : session.Silent session :=
  ⟨rfl, rfl, fun _ _ => .inl⟩

theorem silent_trans {middle : Session} (first : session.Silent middle)
    (second : middle.Silent later) : session.Silent later := by
  refine ⟨?_, ?_, fun view text shown => ?_⟩
  · rw [second.engine, first.engine]
  · rw [second.display, first.display]
  · rcases second.buffers view text shown with known | empty
    · exact first.buffers view text known
    · exact .inr empty

theorem silent_around (views : Catalog) (process : Subprocess) :
    session.Silent { session with views := views, process := process } :=
  ⟨rfl, rfl, fun _ _ => .inl⟩

theorem silent_add (session : Session) (view : String) :
    session.Silent { session with display := session.display.addBuffer view } := by
  refine ⟨rfl, rfl, fun other text shown => ?_⟩
  simp only [Display.addBuffer, Table.insertIfNew] at shown
  split at shown
  · exact .inl shown
  · by_cases same : other = view
    · subst same
      rw [Table.get?_insert_self] at shown
      exact .inr (Option.some.inj shown).symm
    · rw [Table.get?_insert_of_ne _ _ same] at shown
      exact .inl shown

theorem silent_remove (session : Session) (view : String) :
    session.Silent { session with display := session.display.removeBuffer view } := by
  refine ⟨rfl, rfl, fun other text shown => ?_⟩
  simp only [Display.removeBuffer] at shown
  by_cases same : other = view
  · subst same
    rw [Table.get?_erase_self] at shown
    cases shown
  · rw [Table.get?_erase_of_ne _ same] at shown
    exact .inl shown

end Silent

section Emptied

variable {session later : Session}

theorem emptied_close (alive : session.isClosed = false) : session.close.Emptied := by
  have closed : session.close = { session with
      urgent := [], idle := [], awaiting := [], gathered := "", inFlight := none,
      prompting := false, questioned := false, held := [], sink := .closed } := by
    simp [Session.close, alive]
  rw [closed]
  exact ⟨rfl, rfl, rfl, rfl, rfl, rfl, rfl, rfl⟩

theorem sealed_of_alive (alive : session.isClosed = false) : session.Sealed :=
  fun closed => by cases alive.symm.trans closed

theorem sealed_close (whole : session.Sealed) : session.close.Sealed := by
  cases closed : session.isClosed with
  | true =>
    rw [Session.close_of_isClosed closed]
    exact whole
  | false => exact fun _ => emptied_close closed

theorem emptied_complain (emptied : session.Emptied) (message : String) :
    (session.complain message).Emptied :=
  ⟨emptied.closed, emptied.held, emptied.urgent, emptied.idle, emptied.awaiting, emptied.gathered,
    emptied.inFlight, emptied.prompting⟩

theorem emptied_complaints (emptied : session.Emptied) (messages : List String) :
    (messages.foldl Session.complain session).Emptied := by
  induction messages generalizing session with
  | nil => exact emptied
  | cons message rest ih => exact ih (emptied_complain emptied message)

theorem emptied_refuses (emptied : session.Emptied) : session.Refuses where
  ingest bytes := by rw [Engine.run_ingest, if_pos emptied.closed]
  flush := by rw [Engine.run_flush, if_pos emptied.closed]
  enqueue tier command := by rw [Engine.run_enqueue, if_pos emptied.closed]
  react marker := Engine.run_react_closed _ _ emptied.closed
  requestRefresh view := by rw [Engine.run_request_refresh, if_pos emptied.closed]
  close := Session.close_of_isClosed emptied.closed

theorem holding_alive (whole : session.Sealed) (holds : session.held ≠ []) :
    session.isClosed = false := by
  cases closed : session.isClosed with
  | true => exact absurd (whole closed).held holds
  | false => rfl

-- A closed session has nothing to pass on.
theorem pass_alive (whole : session.Sealed) (holds : session.held ≠ []) (text : String)
    (held : Bytes) (midLine : Bool) : (session.pass text held midLine).isClosed = false := by
  have alive : session.isClosed = false := holding_alive whole holds
  exact (hear_closed (session.hold held midLine) text).trans alive

theorem holds_of_marker {lineStart : Bool} {cut : Stream.Cut}
    (found : Stream.firstMarker? lineStart session.held = some cut) : session.held ≠ [] := by
  intro nothing
  rw [nothing] at found
  cases found

theorem holds_of_lines {parts : Bytes × Bytes}
    (found : Stream.lastLine? session.held = some parts) : session.held ≠ [] := by
  intro nothing
  rw [nothing] at found
  cases found

theorem sealed_move (whole : session.Sealed) (move : Move Operation.isPublic session later) :
    later.Sealed := by
  cases move with
  | accept _ alive => exact sealed_of_alive (accept_alive alive _ _)
  | @request id _ alive =>
    have awaited : (session.await id).isClosed = false := alive
    exact sealed_of_alive (accept_alive awaited _ _)
  | react _ alive reaction => exact sealed_of_alive (reaction_alive alive reaction)
  | arrive _ alive => exact sealed_of_alive alive
  | cut _ _ found reaction =>
    exact sealed_of_alive (reaction_alive (pass_alive whole (holds_of_marker found) _ _ _) reaction)
  | lines _ _ found => exact sealed_of_alive (pass_alive whole (holds_of_lines found) _ _ _)
  | flush _ _ spoken =>
    have holds : session.held ≠ [] := by
      intro nothing
      rw [nothing] at spoken
      exact spoken rfl
    exact sealed_of_alive (pass_alive whole holds _ _ _)
  | note | complain =>
    exact fun closed =>
      have emptied := whole closed
      ⟨emptied.closed, emptied.held, emptied.urgent, emptied.idle, emptied.awaiting,
        emptied.gathered, emptied.inFlight, emptied.prompting⟩
  | close => exact sealed_close whole
  | send granted | registerHandled granted => cases allowed_of_within granted
  | hear granted | addBuffer granted | removeBuffer granted | register granted | setPipe granted
  | take granted | poll granted | ask granted | setSink granted | setPrompting granted =>
    cases granted

theorem sealed_lapses (whole : session.Sealed) (lapses : Lapses Operation.isPublic session later) :
    later.Sealed := by
  induction lapses with
  | refl => exact whole
  | @tail middle _ _ lapse ih =>
    cases lapse with
    | move move => exact sealed_move ih move
    | skip _ closed found => exact absurd (ih closed).held (holds_of_marker found)
    | abort => exact sealed_close ih

end Emptied

namespace Engine

/-- An operation that does nothing to a session in which nothing is left. -/
def Inert (operation : Engine α) : Prop :=
  ∀ session : Session, session.Emptied → operation.after session = session

section Inert

theorem inert_bind {operation : Engine α} {next : α → Engine β} (first : Inert operation)
    (rest : ∀ value, Inert (next value)) : Inert (operation >>= next) := by
  intro session emptied
  have still := first session emptied
  rw [after_bind]
  unfold after at still
  cases done : operation.run session with
  | ok value later =>
    rw [done] at still
    cases still
    exact rest value later emptied
  | error fault later =>
    rw [done] at still
    exact still

theorem inert_pure (value : α) : Inert (pure value) := fun _ _ => rfl

theorem inert_map {operation : Engine α} (f : α → β) (first : Inert operation) :
    Inert (f <$> operation) :=
  inert_bind first fun value => inert_pure (f value)

theorem inert_forM {operation : β → Engine Unit} {items : List β}
    (each : ∀ item, Inert (operation item)) : Inert (items.forM operation) := by
  induction items with
  | nil => exact inert_pure ()
  | cons item rest ih => exact inert_bind (each item) fun _ => ih

theorem inert_refused {operation : Engine α}
    (refused : ∀ session : Session, session.isClosed = true →
      operation.run session = .error .tornDown session) : Inert operation := by
  intro session emptied
  rw [after, refused session emptied.closed]
  rfl

theorem inert_require_open : Inert requireOpen :=
  inert_refused fun session closed => by rw [run_require_open, if_pos closed]

theorem inert_ingest (complete : Completion) (bytes : Bytes) : Inert (ingest complete bytes) :=
  inert_refused fun session closed => by rw [run_ingest, if_pos closed]

theorem inert_request_refresh (view : String) : Inert (requestRefresh view) :=
  inert_refused fun session closed => by rw [run_request_refresh, if_pos closed]

theorem inert_request_refreshes (views : List String) : Inert (requestRefreshes views) := by
  induction views with
  | nil => exact inert_pure []
  | cons view rest ih =>
    have others (asked : Bool) : Inert (do
        let others ← requestRefreshes rest
        pure (if asked then view :: others else others)) :=
      inert_bind ih fun _ => inert_pure _
    refine inert_bind (fun _ _ => rfl) fun session => ?_
    dsimp only
    split
    · exact inert_bind (inert_request_refresh view) others
    · exact inert_bind (inert_pure false) others

theorem inert_perform (complete : Completion) {operation : Operation}
    (granted : operation.isPublic = true) : Inert (perform complete operation) := by
  cases operation with
  | ingest pieces => exact inert_bind (inert_forM (inert_ingest complete)) fun _ => inert_pure _
  | flush =>
    exact inert_map _ (inert_refused fun session closed => by rw [run_flush, if_pos closed])
  | enqueue tier command =>
    exact inert_map _ (inert_refused fun session closed => by rw [run_enqueue, if_pos closed])
  | react marker =>
    exact inert_bind (inert_refused fun session closed => run_react_closed complete marker closed)
      fun _ => inert_pure _
  | requestRefresh view => exact inert_map _ (inert_request_refresh view)
  | requestRefreshes views => exact inert_map _ (inert_request_refreshes views)
  | requireOpen => exact inert_bind inert_require_open fun _ => inert_pure _
  | close =>
    exact inert_bind (fun session emptied => Session.close_of_isClosed emptied.closed)
      fun _ => inert_pure _
  | _ => cases granted

theorem drain_emptied {session : Session} (complete : Completion) (emptied : session.Emptied) :
    drain complete session = .ok () session := by
  rw [drain_eq, emptied.held]
  change emitLines.run session = _
  rw [run_emit_lines, emptied.held]
  rfl

end Inert

/-- A run and one that breaks off when the session is closed end alike, or the one broke off, and
the other had nothing left to do but to complain. -/
def Agrees (whole brief : EStateM.Result Fault Session α) : Prop :=
  (whole = brief ∧ (stateOf whole).Sealed ∧ (stateOf whole).Within Operation.isPublic) ∨
    ∃ closing messages, brief = .error .tornDown closing ∧ closing.Emptied ∧
      stateOf whole = List.foldl Session.complain closing messages

def Curtails (whole brief : Engine α) : Prop :=
  ∀ session : Session, session.Sealed → session.Within Operation.isPublic →
    Agrees (whole.run session) (brief.run session)

section Curtails

variable {session : Session}

theorem agrees_same {whole brief : EStateM.Result Fault Session α} (same : whole = brief)
    (inside : session.Within Operation.isPublic) (full : session.Sealed)
    (ends : Ends Operation.isPublic session whole) : Agrees whole brief :=
  have lapses := ends_lapses ends
  .inl ⟨same, sealed_lapses full lapses, lapses_within inside lapses⟩

theorem curtails_traced {operation : Engine α} (traced : Traced Operation.isPublic operation) :
    Curtails operation operation :=
  fun session full inside => agrees_same rfl inside full (traced session inside)

theorem curtails_bind {whole brief : Engine α} {next cut : α → Engine β}
    (first : Curtails whole brief) (rest : ∀ value, Curtails (next value) (cut value))
    (inert : ∀ value, Inert (next value)) : Curtails (whole >>= next) (brief >>= cut) := by
  intro session full inside
  rw [EStateM.run_bind, EStateM.run_bind]
  rcases first session full inside with
    ⟨same, full', inside'⟩ | ⟨closing, messages, broke, emptied, state⟩
  · rw [← same]
    cases done : whole.run session with
    | ok value later =>
      rw [done] at full' inside'
      exact rest value later full' inside'
    | error fault later =>
      rw [done] at full' inside'
      exact .inl ⟨rfl, full', inside'⟩
  · refine .inr ⟨closing, messages, by rw [broke], emptied, ?_⟩
    cases done : whole.run session with
    | ok value later =>
      rw [done] at state
      have still : later.Emptied := by
        rw [show later = _ from state]
        exact emptied_complaints emptied messages
      exact (inert value later still).trans state
    | error fault later =>
      rw [done] at state
      exact state

theorem curtails_forM {whole brief : β → Engine Unit} {items : List β}
    (each : ∀ item ∈ items, Curtails (whole item) (brief item))
    (inert : ∀ item ∈ items, Inert (whole item)) :
    Curtails (items.forM whole) (items.forM brief) ∧ Inert (items.forM whole) := by
  induction items with
  | nil => exact ⟨curtails_traced (traced_pure ()), inert_pure ()⟩
  | cons item rest ih =>
    have ⟨later, still⟩ := ih (fun other member => each other (List.mem_cons_of_mem item member))
      fun other member => inert other (List.mem_cons_of_mem item member)
    exact ⟨curtails_bind (each item List.mem_cons_self) (fun _ => later) fun _ => still,
      inert_bind (inert item List.mem_cons_self) fun _ => still⟩

-- The run that asks after an operation whether the session is open breaks off if it is not.
theorem curtails_checked {whole brief : Engine Unit} (curtails : Curtails whole brief) :
    Curtails whole (do brief; requireOpen) := by
  intro session full inside
  rw [EStateM.run_bind]
  rcases curtails session full inside with ⟨same, full', inside'⟩ | ⟨closing, messages, broke, rest⟩
  · rw [← same]
    cases done : whole.run session with
    | error fault later =>
      rw [done] at full' inside'
      exact .inl ⟨rfl, full', inside'⟩
    | ok value later =>
      rw [done] at full' inside'
      dsimp only
      rw [run_require_open]
      cases closed : later.isClosed with
      | false => exact .inl ⟨rfl, full', inside'⟩
      | true => exact .inr ⟨later, [], rfl, full' closed, rfl⟩
  · exact .inr ⟨closing, messages, by rw [broke], rest⟩

end Curtails

/-- What becomes of a completed command, whole and broken off. -/
def Curtailed (whole brief : Completion) : Prop :=
  ∀ handler output, handler.within Operation.isPublic = true →
    Curtails (whole handler output) (brief handler output)

section Perform

variable {depth : Nat} {brief : Completion} {session : Session}

-- A handler is called where output has been gathered, and nowhere else.
theorem run_react_elsewhere (first second : Completion) (marker : Marker)
    (elsewhere : marker.kind = .prePrompt → session.sink ≠ .gathering) :
    (react first marker).run session = (react second marker).run session := by
  cases closed : session.isClosed with
  | true => rw [run_react_closed _ _ closed, run_react_closed _ _ closed]
  | false =>
    simp only [react, EStateM.run_bind, run_require_open, closed, Bool.false_eq_true, if_false,
      run_record]
    cases kind : Annotation.ofTag marker.tag with
    | prePrompt =>
      have away : (session.log (.annotated marker)).sink ≠ .gathering := elsewhere kind
      simp only [run_pre_prompt_elsewhere _ marker.tag away]
    | _ => rfl

theorem agrees_react (curtailed : Curtailed (complete depth) brief) (marker : Marker)
    (full : session.Sealed) (inside : session.Within Operation.isPublic) :
    Agrees ((react (complete depth) marker).run session) ((react brief marker).run session) := by
  have traced : Ends Operation.isPublic session ((react (complete depth) marker).run session) :=
    traced_react rfl (routines_traced depth) session inside
  by_cases hands : session.isClosed = false ∧ marker.kind = .prePrompt ∧ session.sink = .gathering
  · obtain ⟨alive, kind, gathering⟩ := hands
    have asks (completion : Completion) : (react completion marker).run session =
        (enterPrePrompt completion marker.tag).run (session.log (.annotated marker)) := by
      unfold Marker.kind at kind
      simp only [react, EStateM.run_bind, run_require_open, alive, Bool.false_eq_true, if_false,
        run_record, kind]
    have told : (session.log (.annotated marker)).sink = .gathering := gathering
    rw [asks] at traced ⊢
    rw [asks]
    rw [run_pre_prompt_gathering _ _ told] at traced ⊢
    rw [run_pre_prompt_gathering _ _ told]
    have flight : (session.log (.annotated marker)).inFlight = session.inFlight := rfl
    simp only [flight] at traced ⊢
    cases found : session.inFlight.bind fun command => command.handler?.map (command, ·) with
    | none =>
      simp only [found] at traced ⊢
      exact agrees_same rfl inside full traced
    | some pair =>
      obtain ⟨command, handler⟩ := pair
      simp only [Option.bind_eq_some_iff, Option.map_eq_some_iff, Prod.mk.injEq] at found
      obtain ⟨flown, inFlight, own, handled, rfl, rfl⟩ := found
      have known := inside.commands flown (by simp [Session.commands, inFlight])
      exact curtailed own _ (handler_of_command known handled) _ (sealed_of_alive rfl)
        (within_of_same inside rfl rfl)
  · cases closed : session.isClosed with
    | true =>
      rw [run_react_closed _ _ closed] at traced ⊢
      rw [run_react_closed _ _ closed]
      exact agrees_same rfl inside full traced
    | false =>
      have same := run_react_elsewhere (complete depth) brief marker fun kind gathering =>
        hands ⟨closed, kind, gathering⟩
      exact agrees_same same inside full traced

theorem agrees_reported {whole cut : EStateM.Result Fault Session Unit}
    (agrees : Agrees whole cut) : Agrees (reported whole) (reported cut) := by
  rcases agrees with ⟨rfl, full, inside⟩ | ⟨closing, messages, rfl, emptied, state⟩
  · refine .inl ⟨rfl, ?_⟩
    cases whole with
    | ok value later => exact ⟨full, inside⟩
    | error fault later =>
      unfold reported
      dsimp only
      split
      · exact ⟨sealed_move full (.complain fault.message),
          move_within inside (.complain fault.message)⟩
      · exact ⟨full, inside⟩
  · cases whole with
    | ok value later => exact .inr ⟨closing, messages, rfl, emptied, state⟩
    | error fault later =>
      cases shown : fault.isReported with
      | false =>
        refine .inr ⟨closing, messages, rfl, emptied, ?_⟩
        simpa [reported, shown] using state
      | true =>
        refine .inr ⟨closing, messages ++ [fault.message], rfl, emptied, ?_⟩
        have same : later = List.foldl Session.complain closing messages := state
        simp [reported, shown, stateOf, same]

theorem agrees_lines (full : session.Sealed) (inside : session.Within Operation.isPublic) :
    Agrees (emitLines.run session) (emitLines.run session) := by
  rw [run_emit_lines]
  cases found : Stream.lastLine? session.held with
  | none => exact .inl ⟨rfl, full, inside⟩
  | some parts =>
    have alive := pass_alive full (holds_of_lines found) (Utf8.decode parts.1) parts.2 false
    exact .inl ⟨rfl, sealed_of_alive alive, pass_within inside _ _ _⟩

/-- By induction on the held output. Where the run has broken off, nothing is held any more. -/
theorem agrees_drain (curtailed : Curtailed (complete depth) brief) (session : Session)
    (full : session.Sealed) (inside : session.Within Operation.isPublic) :
    Agrees (drain (complete depth) session) (drain brief session) := by
  induction size : session.held.length using Nat.strongRecOn generalizing session with
  | _ size ih =>
    subst size
    rw [drain_eq, drain_eq]
    cases found : Stream.firstMarker? (!session.midLine) session.held with
    | none => exact agrees_lines full inside
    | some cut =>
      have holds := holds_of_marker found
      have passed := pass_alive full holds (Utf8.decode cut.before) cut.after false
      have agrees := agrees_reported (agrees_react curtailed cut.marker (sealed_of_alive passed)
        (pass_within inside _ _ _))
      rw [← run_react_or_report, ← run_react_or_report, ← run_accept_cut,
        ← run_accept_cut] at agrees
      dsimp only
      rcases agrees with ⟨same, full', inside'⟩ | ⟨closing, messages, broke, emptied, state⟩
      · rw [← same]
        cases done : (acceptCut (complete depth) cut).run session with
        | error fault later =>
          rw [done] at full' inside'
          exact .inl ⟨rfl, full', inside'⟩
        | ok value later =>
          rw [done] at full' inside'
          dsimp only
          split
          · next less => exact ih later.held.length less later full' inside' rfl
          · exact agrees_lines full' inside'
      · rw [broke]
        refine .inr ⟨closing, messages, rfl, emptied, ?_⟩
        cases done : (acceptCut (complete depth) cut).run session with
        | error fault later =>
          rw [done] at state
          exact state
        | ok value later =>
          rw [done] at state
          have still : later.Emptied := by
            rw [show later = _ from state]
            exact emptied_complaints emptied messages
          have less : later.held.length < session.held.length := by
            rw [still.held]
            exact List.length_pos_iff.mpr holds
          simp only [if_pos less, drain_emptied _ still]
          exact state

theorem curtails_ingest (curtailed : Curtailed (complete depth) brief) (bytes : Bytes) :
    Curtails (ingest (complete depth) bytes) (ingest brief bytes) := by
  intro session full inside
  have granted : Operation.isPublic (.ingest []) = true := rfl
  have traced := traced_ingest granted (routines_traced depth) bytes session inside
  cases closed : session.isClosed with
  | true =>
    refine agrees_same ?_ inside full traced
    rw [run_ingest, run_ingest, if_pos closed, if_pos closed]
  | false =>
    have arrived : Move Operation.isPublic session (session.arrive bytes) := .arrive granted closed
    have agrees := agrees_drain curtailed (session.arrive bytes) (sealed_move full arrived)
      (move_within inside arrived)
    rw [run_ingest] at traced ⊢
    rw [run_ingest]
    simp only [closed, Bool.false_eq_true, if_false] at traced ⊢
    rcases agrees with ⟨same, -⟩ | ⟨closing, messages, broke, emptied, state⟩
    · exact agrees_same (by rw [same]) inside full traced
    · rw [broke]
      refine .inr ⟨closing, messages, rfl, emptied, ?_⟩
      have still := emptied_complaints emptied messages
      cases done : drain (complete depth) (session.arrive bytes) with
      | ok value later =>
        rw [done] at state
        exact state
      | error fault later =>
        rw [done] at state
        have same : later = List.foldl Session.complain closing messages := state
        subst same
        dsimp only [stateOf]
        split
        · exact Session.close_of_isClosed still.closed
        · rfl

theorem curtails_perform (curtailed : Curtailed (complete depth) brief) {operation : Operation}
    (own : operation.within Operation.isPublic = true) :
    Curtails (perform (complete depth) operation) (perform brief operation) := by
  have alike (same : perform brief operation = perform (complete depth) operation) :
      Curtails (perform (complete depth) operation) (perform brief operation) :=
    same.symm ▸ curtails_traced (traced_perform (routines_traced depth) own)
  cases operation with
  | ingest pieces =>
    have whole : Curtails (pieces.forM (ingest (complete depth)))
        (pieces.forM (ingest brief)) ∧ _ :=
      curtails_forM (fun piece _ => curtails_ingest curtailed piece) fun piece _ =>
        inert_ingest _ piece
    exact curtails_bind whole.1 (fun _ => curtails_traced (traced_pure _)) fun _ => inert_pure _
  | react marker =>
    exact curtails_bind (fun _ full inside => agrees_react curtailed marker full inside)
      (fun _ => curtails_traced (traced_pure _)) fun _ => inert_pure _
  | _ => exact alike rfl

-- A view that nobody waits for may get its text even so.
theorem curtails_finish (view output : String) :
    Curtails (finishRefresh view output) (finishRefresh view output) := by
  intro session full inside
  refine .inl ⟨rfl, fun closed => ?_, within_of_same inside rfl rfl⟩
  have emptied := full closed
  have awaiting : (session.finish view output).awaiting = [] := by
    simp [Session.finish, Session.log, Session.settle, emptied.awaiting]
  exact ⟨closed, emptied.held, emptied.urgent, emptied.idle, awaiting, emptied.gathered,
    emptied.inFlight, emptied.prompting⟩

/-- By induction on the depth. After its last operation a routine may only fail. -/
theorem curtailed_complete (depth : Nat) : Curtailed (complete depth) (untilClosed depth) := by
  intro handler output own
  induction depth generalizing handler output with
  | zero =>
    cases handler with
    | discard => exact curtails_traced (traced_pure ())
    | refresh view => exact curtails_finish view output
    | routine => exact curtails_traced (traced_throw .nesting)
  | succ depth ih =>
    cases handler with
    | discard => exact curtails_traced (traced_pure ())
    | refresh view => exact curtails_finish view output
    | routine name body fault =>
      have each (operation : Operation) (member : operation ∈ body) :
          Curtails (discard (perform (complete depth) operation)) (do
            discard (perform (untilClosed depth) operation)
            requireOpen) :=
        curtails_checked (curtails_bind (curtails_perform ih (mem_of_all_within own member))
          (fun _ => curtails_traced (traced_pure ())) fun _ => inert_pure ())
      have still (operation : Operation) (member : operation ∈ body) :
          Inert (discard (perform (complete depth) operation)) :=
        inert_map _ (inert_perform _ (allowed_of_within (mem_of_all_within own member)))
      refine curtails_bind (curtails_forM each still).1 (fun _ => curtails_traced ?_) fun _ => ?_
      · cases fault with
        | none => exact traced_pure ()
        | some fault => exact traced_throw fault
      · cases fault with
        | none => exact inert_pure ()
        | some fault => exact fun _ _ => rfl

end Perform

end Engine

section Final

variable {session later : Session}

theorem emptied_silent (emptied : session.Emptied) (silent : session.Silent later) :
    later.Emptied := by
  rw [silent.engine]
  exact ⟨emptied.closed, emptied.held, emptied.urgent, emptied.idle, emptied.awaiting,
    emptied.gathered, emptied.inFlight, emptied.prompting⟩

theorem silent_after (emptied : session.Emptied) {operation : Operation}
    (offered : operation.isOffered = true) : session.Silent (session.after operation) := by
  have registered (view : View) (answer : Answer) :
      session.Silent (Engine.after (do Engine.registerView view; pure answer) session) := by
    simp only [Engine.registerView, Engine.after_bind, bind_assoc, EStateM.run_get]
    cases session.views.register view with
    | error fault => exact silent_refl session
    | ok views => exact silent_around views session.process
  cases served : operation.isPublic with
  | true =>
    have still : session.after operation = session :=
      Engine.inert_perform Engine.handle served session emptied
    rw [still]
    exact silent_refl session
  | false =>
    cases operation with
    | addBuffer view => exact silent_add session view
    | removeBuffer view => exact silent_remove session view
    | register view command => exact registered _ _
    | registerHandled view command demanded handler => exact registered _ _
    | setPipe broken => exact silent_around _ _
    | ingest | flush | enqueue | react | requestRefresh | requestRefreshes | requireOpen | close =>
      cases served
    | send | answerPrompt | answerQuestion | takeFirst | emit | setSink | setPrompting =>
      cases offered

theorem silent_reaches (emptied : session.Emptied)
    (run : session.Reaches Operation.isOffered later) : session.Silent later := by
  induction run with
  | refl => exact silent_refl session
  | tail _ step ih =>
    obtain ⟨operation, own, rfl⟩ := step
    exact silent_trans ih (silent_after (emptied_silent emptied ih) (allowed_of_within own))

theorem same_reaches (emptied : session.Emptied)
    (run : session.Reaches Operation.isPublic later) : later = session := by
  induction run with
  | refl => rfl
  | tail _ step ih =>
    obtain ⟨operation, own, rfl⟩ := step
    subst ih
    exact Engine.inert_perform Engine.handle (allowed_of_within own) _ emptied

/-- What a session has become by an operation that closed it, `closing` if it had been broken off at
that moment, is its end. -/
structure Session.IsFinal (closing ended : Session) : Prop where
  emptied : closing.Emptied
  brokenOff : ∃ messages, ended = List.foldl Session.complain closing messages
  unchanged : ∀ later, ended.Reaches Operation.isPublic later → later = ended
  silent : ∀ later, ended.Reaches Operation.isOffered later →
    ended.Silent later ∧ later.Emptied ∧ later.Refuses

/-- However a session is closed, that is its end. If an operation closes it, by a handler deep in
the reading of a chunk perhaps, the operation ends as if it had been broken off at that moment, but
for complaints about handlers that fail. Nothing is left in the session then. No later call changes
anything: each is refused, but for closing the session once more. And whatever is changed around the
session, it says and shows nothing more. -/
theorem closing_is_final {operation : Operation} (inside : session.Within Operation.isPublic)
    (alive : session.isClosed = false) (own : operation.within Operation.isPublic = true)
    (closes : (session.after operation).isClosed = true) :
    ((Engine.perform (Engine.untilClosed Engine.maxNesting) operation).after session).IsFinal
      (session.after operation) := by
  let closing := (Engine.perform (Engine.untilClosed Engine.maxNesting) operation).after session
  let ended := session.after operation
  have agrees : Engine.Agrees (session.perform operation) _ :=
    Engine.curtails_perform (Engine.curtailed_complete Engine.maxNesting) own session
      (sealed_of_alive alive) inside
  have broken : closing.Emptied ∧
      ∃ messages, ended = List.foldl Session.complain closing messages := by
    rcases agrees with ⟨same, full, -⟩ | ⟨cut, messages, broke, emptied, state⟩
    · have whole : closing = ended := (congrArg Engine.stateOf same).symm
      rw [whole]
      exact ⟨full closes, [], rfl⟩
    · have cut_off : closing = cut := congrArg Engine.stateOf broke
      rw [cut_off]
      exact ⟨emptied, messages, state⟩
  have finished : ended.Emptied := by
    obtain ⟨emptied, messages, state⟩ := broken
    rw [state]
    exact emptied_complaints emptied messages
  refine ⟨broken.1, broken.2, fun later run => same_reaches finished run, fun later run => ?_⟩
  have silent := silent_reaches finished run
  have still := emptied_silent finished silent
  exact ⟨silent, still, emptied_refuses still⟩

/-- A handler closes the session while it is being read, and the text and the marker line after that
are lost. -/
theorem closed_while_reading :
    let session := Session.gathering [.close]
    let operation : Operation :=
      .ingest ["\n\x1A\x1Apre-prompt\nA\n\x1A\x1Aprompt\nB\n".toUTF8.data.toList]
    let closing := (Engine.perform (Engine.untilClosed Engine.maxNesting) operation).after session
    let ended := session.after operation
    (session.isClosed = false ∧ ended.isClosed = true ∧ ended.display.transcript = "") ∧
      closing.IsFinal ended := by
  intro session operation closing ended
  have inside : session.Within Operation.isPublic := gathering_within (by decide)
  have shown : session.isClosed = false ∧ ended.isClosed = true ∧
      ended.display.transcript = "" := by
    decide +kernel
  exact ⟨shown, closing_is_final inside shown.1 rfl shown.2.1⟩

end Final

end GdbControl
