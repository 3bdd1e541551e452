import GdbControl.Proofs.Blind

/-!
What becomes of the held output while handlers are at work that take in none themselves. It stays as
it is, unless a handler closes the session, which drops it. A session that is closed then stays so,
with nothing held, if no handler brings it back.
-/

namespace GdbControl

/-- Operations that bring a closed session back: a command that goes out past all queues, and a sink
that is moved by hand. -/
def Operation.revives : Operation → Bool
  | .send _ | .setSink _ => true
  | _ => false

/-- Handlers never close the session, or never bring it back. `drops` says which: whether the held
output may be dropped. -/
def Steady (allowed : Operation → Bool) (drops : Bool) : Prop :=
  if drops then ∀ operation, allowed operation = true → operation.revives = false
  else allowed .close = false

/-- A closed session without any command. -/
structure Session.Dead (session : Session) : Prop where
  closed : session.isClosed = true
  urgent : session.urgent = []
  idle : session.idle = []

/-- What is still held later of what is held now, if no output is taken in. -/
def Session.heldAt (drops : Bool) (session later : Session) : Bytes :=
  if drops && later.isClosed then [] else session.held

section Alive

variable {session later : Session}

theorem send_out_alive (session : Session) (tier : Option Tier) (command : Command) :
    (session.sendOut tier command).isClosed = false := by
  simp only [Session.isClosed, Session.send_out_sink, Session.openingSink]
  split <;> rfl

theorem accept_alive (alive : session.isClosed = false) (tier : Tier) (command : Command) :
    (session.accept tier command).isClosed = false := by
  unfold Session.accept
  split
  · exact send_out_alive _ _ _
  · cases tier <;> exact alive

theorem poll_alive (alive : session.isClosed = false) : session.poll.isClosed = false := by
  unfold Session.poll
  split
  · exact send_out_alive _ _ _
  · exact send_out_alive _ _ _
  · simpa [Session.isClosed, Session.log] using alive

theorem ask_alive (alive : session.isClosed = false) : session.ask.isClosed = false := by
  unfold Session.ask
  split
  · exact send_out_alive _ _ _
  · exact alive

theorem enter_alive (session : Session) (phase : Phase) : (session.enter phase).isClosed = false := by
  unfold Session.enter Session.isClosed
  cases phase <;> cases session.sink <;> rfl

theorem fulfil_alive (session : Session) : session.fulfil.isClosed = false := by
  rcases session.fulfil_cases with ⟨-, events, -, same⟩ | ⟨command, view, -, -, same⟩ <;>
    rw [same] <;> rfl

theorem reaction_alive {marker : Marker} (alive : session.isClosed = false)
    (reaction : Reaction marker session later) : later.isClosed = false := by
  cases reaction with
  | prompt => exact poll_alive (enter_alive _ _)
  | question => exact ask_alive alive
  | phase => exact enter_alive _ _
  | fulfilled => exact fulfil_alive _
  | remark => exact alive

theorem hear_closed (session : Session) (text : String) :
    (session.hear text).isClosed = session.isClosed := by
  obtain ⟨display, gathered, events, same, -⟩ := session.hear_shape text
  rw [same]
  rfl

end Alive

section Kept

variable {allowed : Operation → Bool} {session later : Session}
  (quiet : ∀ operation, allowed operation = true → operation.isQuiet = true)

include quiet

theorem kept_position (unclosed : allowed .close = false) (move : Move allowed session later) :
    later.position = session.position := by
  cases move with
  | accept => exact Session.accept_position _ _ _
  | request => exact Session.accept_position _ _ _
  | react _ _ reaction => exact reaction_position reaction
  | arrive granted | cut granted | lines granted => cases quiet _ granted
  | flush granted => cases quiet _ granted
  | hear => exact Session.hear_position _ _
  | close granted => cases unclosed.symm.trans granted
  | send => exact Session.send_out_position _ _ _
  | @take tier => cases tier <;> rfl
  | poll => exact Session.poll_position _
  | ask => exact Session.ask_position _
  | note | complain | addBuffer | removeBuffer | register | registerHandled | setPipe | setSink
  | setPrompting => rfl

theorem dead_move (tame : ∀ operation, allowed operation = true → operation.revives = false)
    (dead : session.Dead) (move : Move allowed session later) :
    later.Dead ∧ later.position = session.position := by
  have never (alive : session.isClosed = false) : False := by
    cases alive.symm.trans dead.closed
  cases move with
  | accept _ alive | request alive | react _ alive => exact (never alive).elim
  | arrive granted | cut granted | lines granted => cases quiet _ granted
  | flush granted => cases quiet _ granted
  | hear =>
    obtain ⟨display, gathered, events, same, -⟩ := session.hear_shape _
    rw [same]
    exact ⟨⟨dead.closed, dead.urgent, dead.idle⟩, rfl⟩
  | close =>
    rw [Session.close_of_isClosed dead.closed]
    exact ⟨dead, rfl⟩
  | send granted => cases tame _ (allowed_of_within granted)
  | setSink granted => cases tame _ granted
  | @take tier command rest _ first =>
    cases tier with
    | urgent => cases dead.urgent.symm.trans first
    | idle => cases dead.idle.symm.trans first
  | poll =>
    refine ⟨?_, Session.poll_position _⟩
    unfold Session.poll
    simp only [dead.urgent, dead.idle]
    exact ⟨by simpa [Session.isClosed, Session.log] using dead.closed, by simp [Session.log],
      by simp [Session.log]⟩
  | ask =>
    refine ⟨?_, Session.ask_position _⟩
    unfold Session.ask
    simp only [dead.urgent]
    exact ⟨dead.closed, rfl, dead.idle⟩
  | note | complain | addBuffer | removeBuffer | register | registerHandled | setPipe
  | setPrompting => exact ⟨⟨dead.closed, dead.urgent, dead.idle⟩, rfl⟩

-- A session that is open stays so and holds what it holds, or it dies and drops that.
theorem kept_or_dead (tame : ∀ operation, allowed operation = true → operation.revives = false)
    (alive : session.isClosed = false) (moves : Moves allowed session later) :
    (later.isClosed = false ∧ later.position = session.position) ∨
      (later.Dead ∧ later.position = ([], session.midLine)) := by
  induction moves with
  | refl => exact .inl ⟨alive, rfl⟩
  | @tail middle later _ move ih =>
    rcases ih with ⟨open_, same⟩ | ⟨dead, dropped⟩
    -- An open session is closed by `close` alone; a dead one has no command to send.
    · have kept (still : later.isClosed = false) (position : later.position = middle.position) :
          (later.isClosed = false ∧ later.position = session.position) ∨
            (later.Dead ∧ later.position = ([], session.midLine)) :=
        .inl ⟨still, position.trans same⟩
      cases move with
      | accept => exact kept (accept_alive open_ _ _) (Session.accept_position _ _ _)
      | @request id =>
        have awaited : (middle.await id).isClosed = false := open_
        exact kept (accept_alive awaited _ _) (Session.accept_position _ _ _)
      | react _ _ reaction =>
        exact kept (reaction_alive open_ reaction) (reaction_position reaction)
      | arrive granted | cut granted | lines granted => cases quiet _ granted
      | flush granted => cases quiet _ granted
      | hear => exact kept ((hear_closed _ _).trans open_) (Session.hear_position _ _)
      | close =>
        -- What is held is dropped, but not whether it began inside a line.
        have midLine : middle.midLine = session.midLine := congrArg Prod.snd same
        have closed : middle.close = { middle with
            urgent := [], idle := [], awaiting := [], gathered := "", inFlight := none,
            prompting := false, questioned := false, held := [], sink := .closed } := by
          simp [Session.close, open_]
        rw [closed]
        exact .inr ⟨⟨rfl, rfl, rfl⟩, congrArg (Prod.mk []) midLine⟩
      | send granted => cases tame _ (allowed_of_within granted)
      | setSink granted => cases tame _ granted
      | @take tier => cases tier <;> exact kept open_ rfl
      | poll => exact kept (poll_alive open_) (Session.poll_position _)
      | ask => exact kept (ask_alive open_) (Session.ask_position _)
      | note | complain | addBuffer | removeBuffer | register | registerHandled | setPipe
      | setPrompting => exact kept open_ rfl
    · obtain ⟨still, position⟩ := dead_move quiet tame dead move
      exact .inr ⟨still, position.trans dropped⟩

theorem moves_held {drops : Bool} (steady : Steady allowed drops) (alive : session.isClosed = false)
    (moves : Moves allowed session later) :
    later.position = (session.heldAt drops later, session.midLine) := by
  cases drops with
  | false =>
    have same : later.position = session.position := by
      induction moves with
      | refl => rfl
      | tail _ move ih => exact (kept_position quiet steady move).trans ih
    exact same
  | true =>
    rcases kept_or_dead quiet steady alive moves with ⟨still, same⟩ | ⟨dead, dropped⟩
    · rw [Session.heldAt, still]
      exact same
    · rw [Session.heldAt, dead.closed]
      exact dropped

end Kept

end GdbControl
