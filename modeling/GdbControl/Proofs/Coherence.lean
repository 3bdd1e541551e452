import GdbControl.Proofs.Shifts

/-!
Where output goes agrees with the command in flight. The sinks that a command of the session's own
passes through are left with it: while output is awaited, gathered or complete, such a command is in
flight, and when gdb is idle at its prompt, nothing is in flight and output goes to the user.
-/

namespace GdbControl

/-- A command of the session's own is in flight. -/
def Session.ServesItself (session : Session) : Prop :=
  ∃ command, session.inFlight = some command ∧ command.handler?.isSome = true

/-- The invariant of the sink. A question may come at any time, so it says nothing of the sink. -/
structure Session.Coherent (session : Session) : Prop where
  begun : session.sink = .beforeOutput ∨ session.sink = .gathering →
    session.ServesItself ∧ session.completed = false
  ended : session.sink = .afterOutput → session.ServesItself ∧ session.completed = true
  calm : session.prompting = true → session.questioned = false →
    session.sink = .console ∨ session.sink = .program

section Coherent

variable {session later : Session}

theorem coherent_same (coherent : session.Coherent) (same : session.SameExchange later) :
    later.Coherent := by
  constructor
  · rw [same.sink, Session.ServesItself, same.inFlight, same.completed]
    exact coherent.begun
  · rw [same.sink, Session.ServesItself, same.inFlight, same.completed]
    exact coherent.ended
  · rw [same.prompting, same.questioned, same.sink]
    exact coherent.calm

-- Whatever came before, a command that goes out takes the sink with it.
theorem coherent_sent (session : Session) (tier : Option Tier) (command : Command) :
    (session.sendOut tier command).Coherent := by
  cases own : command.handler?.isSome with
  | true =>
    have serves : (session.sendOut tier command).ServesItself := ⟨command, by simp, own⟩
    exact ⟨fun _ => ⟨serves, by simp⟩, by simp [Session.openingSink, own], by simp⟩
  | false => exact ⟨by simp [Session.openingSink, own], by simp [Session.openingSink, own], by simp⟩

theorem coherent_console (console : session.sink = .console) : session.Coherent :=
  ⟨by simp [console], by simp [console], fun _ _ => .inl console⟩

theorem coherent_poll (console : session.sink = .console) : session.poll.Coherent := by
  unfold Session.poll
  split
  · exact coherent_sent _ _ _
  · exact coherent_sent _ _ _
  · exact coherent_console (by simpa [Session.log] using console)

theorem coherent_ask (coherent : session.Coherent) : session.ask.Coherent := by
  unfold Session.ask
  split
  · exact coherent_sent _ _ _
  · exact ⟨coherent.begun, coherent.ended, by simp⟩

-- A phase moves the sink on, or back to the console. None makes gdb's answer begin anew.
theorem coherent_entered (coherent : session.Coherent) {phase : Phase} (between : phase ≠ .prompt)
    (unfinished : phase = .prePrompt → session.sink ≠ .gathering) :
    (session.enter phase).Coherent := by
  cases sink : session.sink with
  | console | program =>
    have reset : (session.enter phase).sink = .console ∨ (session.enter phase).sink = .program := by
      cases phase <;> simp [Session.enter, sink, Sink.after?]
    exact ⟨by rcases reset with same | same <;> simp [same],
      by rcases reset with same | same <;> simp [same], fun _ _ => reset⟩
  | beforeOutput =>
    have serves := coherent.begun (.inl sink)
    cases phase with
    | postPrompt =>
      refine ⟨fun _ => serves, ?_, fun prompting plain => ?_⟩
      · simp [Session.enter, sink, Sink.after?]
      · have calm := coherent.calm prompting plain
        simp [sink] at calm
    | _ => exact coherent_console (by simp [Session.enter, sink, Sink.after?])
  | gathering =>
    cases phase with
    | prePrompt => exact absurd sink (unfinished rfl)
    | _ => exact coherent_console (by simp [Session.enter, sink, Sink.after?])
  | afterOutput =>
    cases phase with
    | prompt => exact absurd rfl between
    | _ => exact coherent_console (by simp [Session.enter, sink, Sink.after?])
  | closed => exact coherent_console (by cases phase <;> simp [Session.enter, sink, Sink.after?])

theorem coherent_fulfilled (coherent : session.Coherent) (gathering : session.sink = .gathering) :
    session.fulfil.Coherent := by
  have serves := (coherent.begun (.inr gathering)).1
  have asked (prompting : session.prompting = true) (plain : session.questioned = false) : False := by
    have calm := coherent.calm prompting plain
    simp [gathering] at calm
  rcases session.fulfil_cases with ⟨-, events, -, same⟩ | ⟨command, view, -, -, same⟩ <;> rw [same]
  · exact ⟨by simp, fun _ => ⟨serves, rfl⟩, fun prompting plain => (asked prompting plain).elim⟩
  · exact ⟨by simp, fun _ => ⟨serves, rfl⟩, fun prompting plain => (asked prompting plain).elim⟩

theorem coherent_reaction (coherent : session.Coherent) {marker : Marker}
    (reaction : Reaction marker session later) : later.Coherent := by
  have told : (session.log (.annotated marker)).Coherent :=
    coherent_same coherent ⟨rfl, rfl, rfl, rfl, rfl, rfl, rfl, rfl⟩
  cases reaction with
  | prompt =>
    have console (sink : Sink) : (sink.after? .prompt).getD .console = .console := by
      cases sink <;> rfl
    exact coherent_poll (console session.sink)
  | question => exact coherent_ask told
  | phase _ between unfinished => exact coherent_entered told between unfinished
  | fulfilled _ gathering => exact coherent_fulfilled told gathering
  | remark => exact told

theorem coherent_shift (coherent : session.Coherent) (shift : Shift session later) :
    later.Coherent := by
  cases shift with
  | aside same => exact coherent_same coherent same
  | hear spoken =>
    rw [hear_spoken session spoken]
    exact ⟨coherent.begun, coherent.ended, coherent.calm⟩
  | @queue tier =>
    cases tier <;> exact ⟨coherent.begun, coherent.ended, coherent.calm⟩
  | overtake => exact coherent_sent _ _ _
  | react _ reaction => exact coherent_reaction coherent reaction
  | close =>
    unfold Session.close
    split
    · exact coherent
    · exact ⟨by simp, by simp, by simp⟩

theorem coherent_start (process : Subprocess) (views : Catalog) :
    (Session.start process views).Coherent := coherent_console rfl

end Coherent

/-- The sink, the command in flight and the queues of a session fit together. -/
structure Session.SinkFits (session : Session) : Prop where
  begun : session.sink = .beforeOutput ∨ session.sink = .gathering →
    (∃ command, session.inFlight = some command ∧ command.handler?.isSome = true) ∧
      session.completed = false
  ended : session.sink = .afterOutput →
    (∃ command, session.inFlight = some command ∧ command.handler?.isSome = true) ∧
      session.completed = true
  urgent : session.prompting = true → session.urgent = []
  idle : session.prompting = true → session.questioned = false →
    session.inFlight = none ∧ session.urgent = [] ∧ session.idle = [] ∧
      (session.sink = .console ∨ session.sink = .program)

/-- In every state that a session comes to, whatever fails on the way: while the session waits for the
output of a command, or gathers it, a command of its own is in flight and not complete; once the
output has ended, that command is complete; when gdb waits for a line, no urgent command waits; and
when gdb is idle at its prompt, nothing waits, nothing is in flight, and output goes to the user or
comes from the program. -/
theorem sink_agrees_with_flight {process : Subprocess} {views : Catalog} {session : Session}
    (inside : views.Within Operation.isRegular)
    (run : (Session.start process views).Reaches Operation.isRegular session) :
    session.SinkFits := by
  have lapses := Session.lapses_reaches (Session.start_within process inside) run
  have orderly := orderly_lapses (fun _ => id) (orderly_start process views) lapses
  have coherent : session.Coherent :=
    kept_shifts coherent_shift (coherent_start process views) (shifts_lapses (fun _ => id) lapses)
  refine ⟨coherent.begun, coherent.ended, orderly.urgent, fun prompting plain => ?_⟩
  obtain ⟨idle, flight, -⟩ := orderly.idle prompting plain
  exact ⟨flight, orderly.urgent prompting, idle, coherent.calm prompting plain⟩

/-- A question that comes while a command of the session's own gives its output, and nothing can be
written: gdb waits for a line, yet the command stays in flight. -/
theorem flight_kept_at_question :
    let command := Command.mk "info locals" (some .discard) none
    ∃ session : Session,
      (Session.start ⟨1, none, [], true, false, false⟩ Table.empty).Reaches Operation.isRegular
        session ∧
      session.sink = .gathering ∧ session.prompting = true ∧ session.inFlight = some command ∧
      session.SinkFits := by
  intro command
  have inside : Catalog.Within Operation.isRegular Table.empty := by
    intro view member
    cases member
  have run : (Session.start ⟨1, none, [], true, false, false⟩ Table.empty).Reaches
      Operation.isRegular
      (((((Session.start ⟨1, none, [], true, false, false⟩ Table.empty).after
        (.enqueue .urgent command)).after (.react ⟨"prompt", none⟩)).after
          (.react ⟨"post-prompt", none⟩)).after (.react ⟨"query", none⟩)) :=
    .tail (.tail (.tail (.single ⟨_, rfl, rfl⟩) ⟨_, rfl, rfl⟩) ⟨_, rfl, rfl⟩) ⟨_, rfl, rfl⟩
  exact ⟨_, run, rfl, rfl, rfl, sink_agrees_with_flight inside run⟩

end GdbControl
