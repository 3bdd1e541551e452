import GdbControl.Proofs.MarkerLines
import GdbControl.Proofs.Moves
import GdbControl.Proofs.Utf8

/-!
That every operation is a sequence of moves. Handlers call operations and operations call handlers;
the induction is on how deep they may still be nested, and within one depth on the held output.

An operation that succeeds, or whose failure is only reported, leaves the held output alone or leaves
neither a marker line nor a complete line in it. So reading may go on where a handler left off.
-/

namespace GdbControl

/-- Whether a failure in acting upon an annotation is reported, and reading goes on. -/
def Fault.isReported : Fault → Bool
  | .outOfPhase _ _ => true
  | _ => false

/-- What is left of the held output is at most a newline and an unfinished line. -/
structure Session.Drained (session : Session) : Prop where
  searched : session.Searched
  unended : Stream.newline ∉ session.held.tail

/-- Held output is left alone or drained. -/
def Session.Settled (session later : Session) : Prop :=
  later.position = session.position ∨ later.Drained

/-- A sequence of moves that leaves the held output settled. -/
def Session.Advances (allowed : Operation → Bool) (session later : Session) : Prop :=
  Moves allowed session later ∧ session.Settled later

/-- What an annotation says of the program is noted, and nothing else changes. -/
def Session.Noted (session later : Session) : Prop :=
  ∃ running location frameAddress exitStatus lastSignal, later = { session with
    running := running
    location := location
    frameAddress := frameAddress
    exitStatus := exitStatus
    lastSignal := lastSignal }

theorem noted_refl (session : Session) : session.Noted session := ⟨_, _, _, _, _, rfl⟩

section Advances

variable {allowed : Operation → Bool} {session middle later : Session}

theorem drained_of_same (drained : session.Drained) (same : later.position = session.position) :
    later.Drained := by
  obtain ⟨held, midLine⟩ := Prod.mk.inj same
  constructor
  · unfold Session.Searched
    rw [held, midLine]
    exact drained.searched
  · rw [held]
    exact drained.unended

theorem drained_unended (absent : Stream.newline ∉ session.held) : session.Drained :=
  ⟨Stream.first_marker_unended _ absent, fun member => absent (List.mem_of_mem_tail member)⟩

theorem drained_settled (drained : session.Drained) (settled : session.Settled later) :
    later.Drained := by
  rcases settled with same | drained'
  · exact drained_of_same drained same
  · exact drained'

theorem settled_trans (first : session.Settled middle) (second : middle.Settled later) :
    session.Settled later := by
  rcases second with same | drained
  · rcases first with before | drained
    · exact .inl (same.trans before)
    · exact .inr (drained_of_same drained same)
  · exact .inr drained

theorem advances_refl (session : Session) : session.Advances allowed session := ⟨.refl, .inl rfl⟩

theorem advances_trans (first : session.Advances allowed middle)
    (second : middle.Advances allowed later) : session.Advances allowed later :=
  ⟨first.1.trans second.1, settled_trans first.2 second.2⟩

theorem advances_move (move : Move allowed session later)
    (same : later.position = session.position) : session.Advances allowed later :=
  ⟨.single move, .inl same⟩

end Advances

namespace Engine

/-- The session in which an operation ends, whether or not it failed. -/
def stateOf : EStateM.Result Fault Session α → Session
  | .ok _ later => later
  | .error _ later => later

def after (operation : Engine α) (session : Session) : Session := stateOf (operation.run session)

/-- How an operation may end that begins in a session. -/
def Ends (allowed : Operation → Bool) (session : Session) : EStateM.Result Fault Session α → Prop
  | .ok _ later => session.Advances allowed later
  | .error fault later =>
    Lapses allowed session later ∧ (fault.isReported = true → session.Advances allowed later)

/-- An operation that does nothing but moves. -/
def Traced (allowed : Operation → Bool) (operation : Engine α) : Prop :=
  ∀ session : Session, session.Within allowed → Ends allowed session (operation.run session)

/-- An operation that only takes notes. -/
def Notes (operation : Engine Unit) : Prop :=
  ∀ session, ∃ later, operation.run session = .ok () later ∧ session.Noted later

/-- Routines that may still be nested so deep and that keep to what is allowed are traced. -/
def RoutinesTraced (allowed : Operation → Bool) (depth : Nat) : Prop :=
  ∀ ⦃body : List Operation⦄ (name : String) (fault : Option Fault) (output : String),
    Operation.allWithin allowed body = true →
      Traced allowed (complete depth (.routine name body fault) output)

section Traced

variable {allowed : Operation → Bool}

theorem ends_of_advances {result : EStateM.Result Fault Session α} {session : Session}
    (advances : session.Advances allowed (stateOf result)) : Ends allowed session result := by
  cases result with
  | ok value later => exact advances
  | error fault later => exact ⟨lapses_of_moves advances.1, fun _ => advances⟩

theorem ends_still {result : EStateM.Result Fault Session α} {session : Session}
    (same : stateOf result = session) : Ends allowed session result :=
  ends_of_advances (same ▸ advances_refl _)

theorem ends_head {result : EStateM.Result Fault Session α} {session middle : Session}
    (first : session.Advances allowed middle) (rest : Ends allowed middle result) :
    Ends allowed session result := by
  cases result with
  | ok value later => exact advances_trans first rest
  | error fault later =>
    exact ⟨(lapses_of_moves first.1).trans rest.1, fun reported => advances_trans first (rest.2 reported)⟩

theorem ends_lapses {result : EStateM.Result Fault Session α} {session : Session}
    (ends : Ends allowed session result) : Lapses allowed session (stateOf result) := by
  cases result with
  | ok value later => exact lapses_of_moves ends.1
  | error fault later => exact ends.1

theorem traced_of_after {operation : Engine α}
    (advances : ∀ session : Session, session.Within allowed →
      session.Advances allowed (operation.after session)) : Traced allowed operation :=
  fun session inside => ends_of_advances (advances session inside)

theorem traced_bind {operation : Engine α} {next : α → Engine β}
    (first : Traced allowed operation) (later : ∀ value, Traced allowed (next value)) :
    Traced allowed (operation >>= next) := by
  intro session inside
  have ends := first session inside
  rw [EStateM.run_bind]
  cases done : operation.run session with
  | ok value middle =>
    rw [done] at ends
    exact ends_head ends (later value middle (moves_within inside ends.1))
  | error fault middle => rwa [done] at ends

theorem traced_same {operation : Engine α}
    (same : ∀ session, operation.after session = session) : Traced allowed operation :=
  fun session _ => ends_still (same session)

theorem traced_pure (value : α) : Traced allowed (pure value) := traced_same fun _ => rfl

theorem traced_throw (fault : Fault) : Traced (α := α) allowed (throw fault) :=
  traced_same fun _ => rfl

theorem traced_get : Traced allowed (get : Engine Session) := traced_same fun _ => rfl

theorem traced_map {operation : Engine α} (f : α → β) (first : Traced allowed operation) :
    Traced allowed (f <$> operation) := by
  have same : (f <$> operation) = operation >>= fun value => pure (f value) := by
    rfl
  rw [same]
  exact traced_bind first fun value => traced_pure (f value)

theorem traced_modify {change : Session → Session}
    (move : ∀ session, Move allowed session (change session))
    (same : ∀ session, (change session).position = session.position) :
    Traced allowed (modify change : Engine Unit) :=
  traced_of_after fun session _ => advances_move (move session) (same session)

theorem traced_forM {operation : β → Engine Unit} {items : List β}
    (each : ∀ item ∈ items, Traced allowed (operation item)) : Traced allowed (items.forM operation) := by
  induction items with
  | nil => exact traced_pure ()
  | cons item rest ih =>
    have later := ih fun other member => each other (List.mem_cons_of_mem item member)
    exact traced_bind (each item List.mem_cons_self) fun _ => later

end Traced

section Steps

variable {allowed : Operation → Bool}

theorem after_bind (operation : Engine α) (next : α → Engine β) (session : Session) :
    (operation >>= next).after session =
      match operation.run session with
      | .ok value later => (next value).after later
      | .error _ later => later := by
  simp only [after, EStateM.run_bind]
  cases operation.run session <;> rfl

theorem after_enqueue (tier : Tier) (command : Command) (session : Session) :
    (enqueue tier command).after session =
      if session.isClosed then session else session.accept tier command := by
  by_cases closed : session.isClosed
  · simp [after, stateOf, run_enqueue, closed]
  · by_cases ready : session.mayWrite tier
    · cases broken : (session.accept tier command).process.pipeBroken <;>
        simp [after, stateOf, run_enqueue, closed, ready, Session.outcome, broken]
    · simp [after, stateOf, run_enqueue, closed, ready]

theorem traced_enqueue {tier : Tier} {command : Command}
    (own : (Operation.enqueue tier command).within allowed = true) :
    Traced allowed (enqueue tier command) := by
  refine traced_of_after fun session _ => ?_
  rw [after_enqueue]
  split
  · exact advances_refl session
  · next alive =>
    exact advances_move (.accept own (by simpa using alive)) (session.accept_position tier command)

theorem traced_request_refresh (id : String) : Traced allowed (requestRefresh id) := by
  refine traced_of_after fun session _ => ?_
  rw [after, run_request_refresh]
  cases closed : session.isClosed with
  | true => exact advances_refl session
  | false =>
    simp only [Bool.false_eq_true, if_false]
    cases known : session.views.find id with
    | error fault => exact advances_refl session
    | ok view =>
      dsimp only
      split
      · exact advances_refl session
      · next wanted =>
        simp only [Bool.or_eq_true, Bool.not_eq_true', not_or, Bool.not_eq_true,
          Bool.not_eq_false] at wanted
        have alive : (session.await id).isClosed = false := closed
        have asked := after_enqueue .idle view.refreshCommand (session.await id)
        simp only [alive, Bool.false_eq_true, if_false, after] at asked
        have move : Move allowed session ((session.await id).accept .idle view.refreshCommand) :=
          .request closed known wanted.1 wanted.2
        have same := (session.await id).accept_position .idle view.refreshCommand
        have advances := advances_move move same
        rw [← asked] at advances
        cases done : (enqueue .idle view.refreshCommand).run (session.await id) <;>
          rw [done] at advances <;> exact advances

theorem traced_request_refreshes (ids : List String) : Traced allowed (requestRefreshes ids) := by
  induction ids with
  | nil => exact traced_pure []
  | cons id rest ih =>
    have others (asked : Bool) : Traced allowed (do
        let others ← requestRefreshes rest
        pure (if asked then id :: others else others)) :=
      traced_bind ih fun _ => traced_pure _
    refine traced_bind traced_get fun session => ?_
    dsimp only
    split
    · exact traced_bind (traced_request_refresh id) others
    · exact traced_bind (traced_pure false) others

theorem after_enter (phase : Phase) (tag : String) (session : Session) :
    (enter phase tag).after session = session.enter phase := by
  rw [after, run_enter]
  cases (session.sink.after? phase).isSome <;> rfl

theorem after_answer_prompt (session : Session) : answerPrompt.after session = session.poll := by
  rw [after, run_answer_prompt, Session.outcome]
  cases session.urgent.isEmpty && session.idle.isEmpty <;>
    cases session.poll.process.pipeBroken <;> rfl

theorem after_answer_question (session : Session) : answerQuestion.after session = session.ask := by
  rw [after, run_answer_question, Session.outcome]
  cases session.urgent.isEmpty <;> cases session.ask.process.pipeBroken <;> rfl

theorem after_enter_prompt (tag : String) (session : Session) :
    (enterPrompt tag).after session = (session.enter .prompt).poll := by
  rw [← after_answer_prompt, ← after_enter .prompt tag]
  simp only [after, run_enter_prompt]
  cases (enter .prompt tag).run session with
  | ok value later => rfl
  | error fault later =>
    dsimp only [stateOf]
    cases answerPrompt.run later <;> rfl

theorem after_pre_prompt (complete : Completion) (tag : String) {session : Session}
    (elsewhere : session.sink ≠ .gathering) :
    (enterPrePrompt complete tag).after session = session.enter .prePrompt := by
  rw [← after_enter .prePrompt tag, after, run_pre_prompt_elsewhere complete tag elsewhere]
  rfl

theorem notes_modify {change : Session → Session}
    (noted : ∀ session : Session, session.Noted (change session)) : Notes (modify change) :=
  fun session => ⟨change session, rfl, noted session⟩

theorem notes_nothing : Notes (pure ()) := fun session => ⟨session, rfl, noted_refl session⟩

theorem notes_location (args : Option String) : Notes (noteLocation args) := by
  intro session
  unfold noteLocation
  split
  · exact ⟨session, rfl, noted_refl session⟩
  · exact ⟨_, rfl, _, _, _, _, _, rfl⟩

theorem notes_frame (args : Option String) : Notes (noteFrame args) := by
  intro session
  unfold noteFrame
  split
  · exact ⟨_, rfl, _, _, _, _, _, rfl⟩
  · exact ⟨session, rfl, noted_refl session⟩

theorem notes_advance {next : Engine Unit} (notes : Notes next) (session : Session) :
    session.Advances allowed (next.after session) := by
  obtain ⟨later, done, running, location, frameAddress, exitStatus, lastSignal, rfl⟩ := notes session
  rw [after, done]
  exact advances_move (.note running location frameAddress exitStatus lastSignal) rfl

theorem enter_noted {phase : Phase} {tag : String} {next : Engine Unit} {session : Session}
    (notes : Notes next) :
    Ends allowed (session.enter phase) ((do enter phase tag; next).run session) := by
  rw [EStateM.run_bind, run_enter]
  split
  · next value later entered =>
    split at entered
    · cases entered
      exact ends_of_advances (notes_advance notes _)
    · cases entered
  · next fault later entered =>
    split at entered
    · cases entered
    · cases entered
      exact ends_still rfl

end Steps

end Engine
end GdbControl
