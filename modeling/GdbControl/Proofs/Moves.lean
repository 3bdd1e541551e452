import GdbControl.Proofs.Effects
import GdbControl.Proofs.Scope
import Mathlib.Logic.Relation

/-!
Every operation of a session, whether it succeeds or fails, is a sequence of moves: small changes of
the state, each described in full. What all moves keep is kept by every run, however operations,
handlers and failures are nested in one another. A move is possible only where an operation that is
allowed can make it.
-/

namespace GdbControl

/-- The phase that an annotation announces, if it announces one. -/
def Annotation.phase? : Annotation → Option Phase
  | .prePrompt => some .prePrompt
  | .prompt => some .prompt
  | .postPrompt => some .postPrompt
  | .starting => some .starting
  | .exited | .stopping | .stopped => some .stopping
  | _ => none

def Marker.kind (marker : Marker) : Annotation := Annotation.ofTag marker.tag

theorem other_than_prompt {marker : Marker} {phase : Phase} (kind : marker.kind.phase? = some phase)
    (between : phase ≠ .prompt) : marker.kind ≠ .prompt := by
  intro same
  rw [same] at kind
  exact between (Option.some.inj kind).symm

/-- What an annotation means to the commands and the sink of a session. -/
inductive Reaction (marker : Marker) (session : Session) : Session → Prop where
  | prompt (kind : marker.kind = .prompt) :
    Reaction marker session ((session.log (.annotated marker)).enter .prompt).poll
  | question (kind : marker.kind = .question) :
    Reaction marker session (session.log (.annotated marker)).ask
  /-- The sink moves, and no more, unless that ends the output of the command in flight. -/
  | phase {phase : Phase} (kind : marker.kind.phase? = some phase)
    (between : phase ≠ .prompt) (unfinished : phase = .prePrompt → session.sink ≠ .gathering) :
    Reaction marker session ((session.log (.annotated marker)).enter phase)
  | fulfilled (kind : marker.kind = .prePrompt)
    (gathering : session.sink = .gathering) :
    Reaction marker session (session.log (.annotated marker)).fulfil
  | remark (kind : marker.kind.phase? = none)
    (plain : marker.kind ≠ .question) :
    Reaction marker session (session.log (.annotated marker))

/-- No marker line is left in the held output. -/
def Session.Searched (session : Session) : Prop :=
  Stream.firstMarker? (!session.midLine) session.held = none

inductive Move (allowed : Operation → Bool) (session : Session) : Session → Prop where
  | accept {tier : Tier} {command : Command}
    (own : (Operation.enqueue tier command).within allowed = true)
    (alive : session.isClosed = false) : Move allowed session (session.accept tier command)
  | request {id : String} {view : View} (alive : session.isClosed = false)
    (known : session.views.find id = .ok view) (settled : session.isAwaiting id = false)
    (demanded : session.demands view = true) :
    Move allowed session ((session.await id).accept .idle view.refreshCommand)
  | react {marker : Marker} {later : Session} (granted : allowed (.react marker) = true)
    (alive : session.isClosed = false) (reaction : Reaction marker session later) :
    Move allowed session later
  | arrive {pieces : List Bytes} {bytes : Bytes} (granted : allowed (.ingest pieces) = true)
    (alive : session.isClosed = false) : Move allowed session (session.arrive bytes)
  /-- The first marker line of the held output is acted upon. -/
  | cut {pieces : List Bytes} {cut : Stream.Cut} {later : Session}
    (granted : allowed (.ingest pieces) = true) (alive : session.isClosed = false)
    (found : Stream.firstMarker? (!session.midLine) session.held = some cut)
    (reaction : Reaction cut.marker (session.pass (Utf8.decode cut.before) cut.after false) later) :
    Move allowed session later
  | lines {pieces : List Bytes} {lines tail : Bytes} (granted : allowed (.ingest pieces) = true)
    (searched : session.Searched) (found : Stream.lastLine? session.held = some (lines, tail)) :
    Move allowed session (session.pass (Utf8.decode lines) tail false)
  | flush (granted : allowed .flush = true) (shown : session.withholds = false)
    (spoken : (Utf8.decodeOpen session.held).1 ≠ "") :
    Move allowed session
      (session.pass (Utf8.decodeOpen session.held).1 (Utf8.decodeOpen session.held).2 true)
  -- Notes and complaints are made of what an annotation says.
  | note (running : Bool) (location : Option SourceLocation) (frameAddress : Option String)
    (exitStatus : Option Int) (lastSignal : Option String) :
    Move allowed session { session with
      running := running
      location := location
      frameAddress := frameAddress
      exitStatus := exitStatus
      lastSignal := lastSignal }
  | complain (message : String) : Move allowed session (session.complain message)
  | hear {text : String} (granted : allowed (.emit text) = true) :
    Move allowed session (session.hear text)
  | close (granted : allowed .close = true) : Move allowed session session.close
  | addBuffer {view : String} (granted : allowed (.addBuffer view) = true) :
    Move allowed session { session with display := session.display.addBuffer view }
  | removeBuffer {view : String} (granted : allowed (.removeBuffer view) = true) :
    Move allowed session { session with display := session.display.removeBuffer view }
  | register {view command : String} {views : Catalog}
    (granted : allowed (.register view command) = true)
    (added : session.views.register (.buffered view command) = .ok views) :
    Move allowed session { session with views := views }
  | registerHandled {view command : String} {demanded : Bool} {handler : Handler} {views : Catalog}
    (granted : (Operation.registerHandled view command demanded handler).within allowed = true)
    (added : session.views.register ⟨view, .fixed demanded, command, handler⟩ = .ok views) :
    Move allowed session { session with views := views }
  | setPipe {broken : Bool} (granted : allowed (.setPipe broken) = true) :
    Move allowed session { session with process := { session.process with pipeBroken := broken } }
  -- The moves that follow are made by hand, without regard to what gdb said.
  | send {command : Command} (granted : (Operation.send command).within allowed = true) :
    Move allowed session (session.sendOut none command)
  | take {tier : Tier} {command : Command} {rest : List Command}
    (granted : allowed (.takeFirst tier) = true) (first : session.queue tier = command :: rest) :
    Move allowed session (session.withQueue tier rest)
  | poll (granted : allowed .answerPrompt = true) : Move allowed session session.poll
  | ask (granted : allowed .answerQuestion = true) : Move allowed session session.ask
  | setSink {sink : Sink} (granted : allowed (.setSink sink) = true) :
    Move allowed session { session with sink := sink }
  | setPrompting {prompting : Bool} (granted : allowed (.setPrompting prompting) = true) :
    Move allowed session { session with prompting := prompting }

/-- A sequence of moves. -/
abbrev Moves (allowed : Operation → Bool) : Session → Session → Prop :=
  Relation.ReflTransGen (Move allowed)

/-- A move, or what only an operation does that fails. -/
inductive Lapse (allowed : Operation → Bool) (session : Session) : Session → Prop where
  | move {later : Session} (move : Move allowed session later) : Lapse allowed session later
  /-- A session that is closed does not act upon a marker line. -/
  | skip {pieces : List Bytes} {cut : Stream.Cut} (granted : allowed (.ingest pieces) = true)
    (closed : session.isClosed = true)
    (found : Stream.firstMarker? (!session.midLine) session.held = some cut) :
    Lapse allowed session (session.pass (Utf8.decode cut.before) cut.after false)
  /-- A queue was empty against all expectation. -/
  | abort {pieces : List Bytes} (granted : allowed (.ingest pieces) = true) :
    Lapse allowed session session.close

abbrev Lapses (allowed : Operation → Bool) : Session → Session → Prop :=
  Relation.ReflTransGen (Lapse allowed)

section Commands

variable {allowed : Operation → Bool} {session later : Session}

-- A session stays within what is allowed if it gets no command and no view from elsewhere.
theorem within_of_commands (inside : session.Within allowed)
    (commands : ∀ command ∈ later.commands,
      command ∈ session.commands ∨ command.within allowed = true)
    (views : later.views = session.views) : later.Within allowed := by
  constructor
  · intro command member
    rcases commands command member with known | own
    · exact inside.commands command known
    · exact own
  · rw [views]
    exact inside.views

theorem within_of_same (inside : session.Within allowed)
    (commands : later.commands = session.commands) (views : later.views = session.views) :
    later.Within allowed :=
  within_of_commands inside (fun _ member => .inl (commands ▸ member)) views

theorem send_out_within (inside : session.Within allowed) (tier : Option Tier) {command : Command}
    (own : command.within allowed = true) : (session.sendOut tier command).Within allowed := by
  refine within_of_commands inside ?_ (by simp)
  intro other member
  simp only [Session.commands, Session.send_out_urgent, Session.send_out_idle,
    Session.send_out_in_flight, Option.toList_some, List.mem_append, List.mem_singleton] at member ⊢
  rcases member with queued | rfl
  · exact .inl (.inl queued)
  · exact .inr own

theorem push_commands {tier : Tier} {command other : Command}
    (member : other ∈ (session.push tier command).commands) :
    other ∈ session.commands ∨ other = command := by
  cases tier <;>
    simp only [Session.push, Session.withQueue, Session.queue, Session.commands, List.mem_append,
      List.mem_singleton] at member ⊢ <;>
    grind

theorem accept_display (session : Session) (tier : Tier) (command : Command) :
    (session.accept tier command).display = session.display := by
  unfold Session.accept
  split
  · exact Session.send_out_display _ _ _
  · cases tier <;> rfl

theorem accept_process (session : Session) (tier : Tier) (command : Command) :
    (session.accept tier command).process = session.process := by
  unfold Session.accept
  split
  · exact Session.send_out_process _ _ _
  · cases tier <;> rfl

theorem accept_within (inside : session.Within allowed) (tier : Tier) {command : Command}
    (own : command.within allowed = true) : (session.accept tier command).Within allowed := by
  have heard : (session.log (.accepted tier command)).Within allowed :=
    within_of_same inside rfl rfl
  unfold Session.accept
  split
  · exact send_out_within heard (some tier) own
  · apply within_of_commands heard
    · intro other member
      rcases push_commands member with known | rfl
      · exact .inl known
      · exact .inr own
    · cases tier <;> rfl

-- A command that goes out of a queue stays with the session, in flight.
theorem sent_commands {rest : Session} {tier : Tier} {command : Command}
    (first : command ∈ session.commands)
    (known : ∀ other ∈ rest.commands, other ∈ session.commands) :
    ∀ other ∈ (rest.sendOut (some tier) command).commands, other ∈ session.commands := by
  intro other member
  simp only [Session.commands, Session.send_out_urgent, Session.send_out_idle,
    Session.send_out_in_flight, Option.toList_some, List.mem_append, List.mem_singleton] at member
  rcases member with queued | rfl
  · exact known other (List.mem_append_left _ (List.mem_append.mpr queued))
  · exact first

theorem poll_commands (session : Session) :
    ∀ command ∈ session.poll.commands, command ∈ session.commands := by
  unfold Session.poll
  split
  · next first rest high =>
    refine sent_commands (by simp [Session.commands, high]) fun other member => ?_
    simp only [Session.commands, high, Session.release_idle, Session.release_in_flight,
      List.mem_append, List.mem_cons] at member ⊢
    grind
  · next first rest high low =>
    refine sent_commands (by simp [Session.commands, low]) fun other member => ?_
    simp only [Session.commands, high, low, Session.release_urgent, Session.release_in_flight,
      List.mem_append, List.mem_cons] at member ⊢
    grind
  · next high low => simp [Session.commands, Session.log, high, low]

theorem poll_same (session : Session) :
    session.poll.process = session.process ∧ session.poll.views = session.views := by
  unfold Session.poll
  split <;> simp [Session.log]

theorem ask_commands (session : Session) :
    ∀ command ∈ session.ask.commands, command ∈ session.commands := by
  unfold Session.ask
  split
  · next first rest high =>
    refine sent_commands (by simp [Session.commands, high]) fun other member => ?_
    simp only [Session.commands, high, List.mem_append, List.mem_cons] at member ⊢
    grind
  · exact fun _ member => member

theorem ask_same (session : Session) :
    session.ask.process = session.process ∧ session.ask.views = session.views := by
  unfold Session.ask
  split <;> simp

theorem poll_within (inside : session.Within allowed) : session.poll.Within allowed :=
  within_of_commands inside (fun command member => .inl (poll_commands session command member))
    (poll_same session).2

theorem ask_within (inside : session.Within allowed) : session.ask.Within allowed :=
  within_of_commands inside (fun command member => .inl (ask_commands session command member))
    (ask_same session).2

theorem fulfil_same (session : Session) :
    session.fulfil.commands = session.commands ∧ session.fulfil.views = session.views := by
  rcases session.fulfil_cases with ⟨-, events, -, same⟩ | ⟨command, view, -, -, same⟩ <;>
    rw [same] <;> exact ⟨rfl, rfl⟩

theorem reaction_within {marker : Marker} (inside : session.Within allowed)
    (reaction : Reaction marker session later) : later.Within allowed := by
  cases reaction with
  | prompt => exact poll_within (within_of_same inside rfl rfl)
  | question => exact ask_within (within_of_same inside rfl rfl)
  | phase => exact within_of_same inside rfl rfl
  | fulfilled =>
    have same := fulfil_same (session.log (.annotated marker))
    exact within_of_same inside same.1 same.2
  | remark => exact within_of_same inside rfl rfl

theorem hear_same (session : Session) (text : String) :
    (session.hear text).commands = session.commands ∧
      (session.hear text).views = session.views := by
  obtain ⟨display, gathered, events, same, -⟩ := session.hear_shape text
  rw [same]
  exact ⟨rfl, rfl⟩

theorem hear_within (inside : session.Within allowed) (text : String) :
    (session.hear text).Within allowed :=
  within_of_same inside (hear_same session text).1 (hear_same session text).2

theorem pass_within (inside : session.Within allowed) (text : String) (held : Bytes)
    (midLine : Bool) : (session.pass text held midLine).Within allowed := by
  have kept : (session.hold held midLine).Within allowed := within_of_same inside rfl rfl
  exact hear_within kept text

theorem close_within (inside : session.Within allowed) : session.close.Within allowed := by
  unfold Session.close
  split
  · exact inside
  · refine within_of_commands inside ?_ rfl
    intro other member
    simp [Session.commands] at member

theorem close_journal (session : Session) : session.close.journal = session.journal := by
  unfold Session.close
  split <;> rfl

theorem close_display (session : Session) : session.close.display = session.display := by
  unfold Session.close
  split <;> rfl

theorem close_process (session : Session) : session.close.process = session.process := by
  unfold Session.close
  split <;> rfl

theorem find_mem {catalog : Catalog} {id : String} {view : View}
    (known : catalog.find id = .ok view) : (id, view) ∈ catalog.entries := by
  unfold Catalog.find at known
  split at known
  · next found hit =>
    cases known
    obtain ⟨front, back, shape, -⟩ := List.lookup_eq_some_iff.mp hit
    simp [shape]
  · cases known

theorem register_entries {catalog later : Catalog} {view : View}
    (added : catalog.register view = .ok later) :
    later.entries = catalog.entries ++ [(view.id, view)] := by
  unfold Catalog.register at added
  split at added
  · cases added
  · next fresh =>
    cases added
    have absent : view.id ∉ catalog.entries.map Prod.fst := by
      intro present
      exact fresh (by simpa [Table.contains, Table.get?] using present)
    simp only [Table.insert, absent, dite_false]

theorem register_within {catalog views : Catalog} {view : View}
    (inside : catalog.Within allowed) (own : view.handler.within allowed = true)
    (added : catalog.register view = .ok views) : views.Within allowed := by
  intro other member
  simp only [Table.values, register_entries added, List.map_append, List.map_cons, List.map_nil,
    List.mem_append, List.mem_singleton] at member
  rcases member with known | rfl
  · exact inside other known
  · exact own

theorem move_within (inside : session.Within allowed) (move : Move allowed session later) :
    later.Within allowed := by
  cases move with
  | accept own => exact accept_within inside _ (command_of_enqueue own)
  | @request id view _ known =>
    have own : view.refreshCommand.within allowed = true :=
      inside.views view (List.mem_map_of_mem (find_mem known))
    have awaited : (session.await id).Within allowed := within_of_same inside rfl rfl
    exact accept_within awaited .idle own
  | react _ _ reaction => exact reaction_within inside reaction
  | cut _ _ _ reaction => exact reaction_within (pass_within inside _ _ _) reaction
  | hear => exact hear_within inside _
  | lines | flush => exact pass_within inside _ _ _
  | close => exact close_within inside
  | register _ added => exact ⟨inside.commands, register_within inside.views rfl added⟩
  | registerHandled granted added =>
    exact ⟨inside.commands, register_within inside.views (handler_of_register granted) added⟩
  | send granted => exact send_out_within inside none (command_of_send granted)
  | @take tier command rest _ first =>
    refine within_of_commands inside ?_ (by cases tier <;> rfl)
    intro other member
    cases tier <;>
      simp only [Session.queue, Session.withQueue, Session.commands, List.mem_append]
        at first member ⊢ <;>
      grind
  | poll => exact poll_within inside
  | ask => exact ask_within inside
  | arrive | note | complain | addBuffer | removeBuffer | setPipe | setSink | setPrompting =>
    exact within_of_same inside rfl rfl

theorem moves_within (inside : session.Within allowed) (moves : Moves allowed session later) :
    later.Within allowed := by
  induction moves with
  | refl => exact inside
  | tail _ move ih => exact move_within ih move

theorem lapses_within (inside : session.Within allowed) (lapses : Lapses allowed session later) :
    later.Within allowed := by
  induction lapses with
  | refl => exact inside
  | tail _ lapse ih =>
    cases lapse with
    | move move => exact move_within ih move
    | skip => exact pass_within ih _ _ _
    | abort => exact close_within ih

theorem lapses_of_moves (moves : Moves allowed session later) : Lapses allowed session later :=
  moves.lift id fun _ _ => .move

end Commands

section Position

variable {session later : Session}

theorem reaction_position {marker : Marker} (reaction : Reaction marker session later) :
    later.position = session.position := by
  cases reaction with
  | prompt => exact Session.poll_position _
  | question => exact Session.ask_position _
  | fulfilled => exact Session.fulfil_position _
  | phase | remark => rfl

theorem pass_position (session : Session) (text : String) (held : Bytes) (midLine : Bool) :
    (session.pass text held midLine).position = (held, midLine) :=
  Session.hear_position (session.hold held midLine) text

end Position

end GdbControl
