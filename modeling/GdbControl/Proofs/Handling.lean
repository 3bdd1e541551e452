import GdbControl.Proofs.Happenings

/-!
What becomes of gdb's outputs once they are handed to their handlers. In talk with a gdb that keeps
to the protocol, each output reaches the handler of the command that it answers, and that handler is
called with it once: the output of a refresh becomes the text of its view, which waits no longer, and
that of a setup command is dropped.
-/

namespace GdbControl

/-- The texts for views among the outputs that were handed over. -/
def refreshesIn (completions : List (Command × String)) : List (String × String) :=
  completions.filterMap fun completion =>
    (completion.1.handler?.bind Handler.view?).map (·, completion.2)

/-- The view that a turn opens or closes. One that nobody knows is not opened. -/
def Turn.toggles (session : Session) : Turn → List Happening
  | .openView view => if session.views.contains view then [.opened view] else []
  | .closeView view => [.closed view]
  | .command _ | .quiet | .output _ => []

/-- What happens to the views of a session in a turn: what the user does, and then what the session
has on record. -/
def Turn.happenings (turn : Turn) (session : Session) : List Happening :=
  turn.toggles session ++
    happeningsIn ((session.take turn).journal.drop session.journal.length)

/-- What happens to the views of a session in several turns, one after another. -/
def Session.history (session : Session) : List Turn → List Happening
  | [] => []
  | turn :: rest => turn.happenings session ++ (session.take turn).history rest

/-- Every handler that was given an output has done with it what it is there to do, once. -/
structure Session.Handled (session : Session) (history : List Happening) : Prop where
  /-- The texts of the history are the outputs that refreshes were given. -/
  given : givenIn history = refreshesIn (completionsIn session.journal)
  replaced : replacedIn session.journal = refreshesIn (completionsIn session.journal)
  refreshed : refreshedIn session.journal =
    (refreshesIn (completionsIn session.journal)).map Prod.fst
  counted : ∀ view, session.display.refreshCount view =
    ((refreshesIn (completionsIn session.journal)).map Prod.fst).count view
  shown : ∀ view, Holds history view (session.display.buffers.get? view)
  /-- A view waits no longer once its refresh was given its output. -/
  awaited : ∀ view, view ∈ session.awaiting ↔
    ∃ command ∈ session.outstanding, command.view? = some view

section Record

theorem refreshes_recorded (events : List Event) :
    refreshesIn (completionsIn events) = givenIn (happeningsIn events) := by
  unfold refreshesIn completionsIn givenIn happeningsIn
  rw [List.filterMap_filterMap, List.filterMap_filterMap]
  refine congrArg (List.filterMap · events) (funext fun event => ?_)
  cases event with
  | accepted tier command =>
    cases named : command.view? <;>
      simp [Event.completion?, Event.happening?, named, Happening.given?]
  | completed command output =>
    simp only [Event.completion?, Event.happening?, Option.bind_some]
    cases command.handler?.bind Handler.view? <;> rfl
  | _ => rfl

end Record

section Turns

variable {gdb : Gdb} {session later : Session}

theorem take_after (session : Session) (turn : Turn) :
    session.take turn = turn.perform.after session := by
  unfold Session.take Engine.after
  cases turn.perform.run session <;> rfl

theorem discard_after (operation : Engine α) (session : Session) :
    (discard operation).after session = operation.after session := by
  unfold Engine.after
  rw [Engine.run_discard]
  cases operation.run session <;> rfl

/-- What a turn does to the views is what the user does, and what is on record. -/
theorem undergoes_turn (ready : session.Ready gdb) (attentive : session.Attentive) (turn : Turn) :
    (session.take turn).Attentive ∧ session.Undergoes (turn.toggles session) (session.take turn) := by
  have alive := conforms_alive ready.conforms
  rw [take_after]
  cases turn with
  | command text =>
    rw [Turn.perform, discard_after]
    exact ⟨attentive_submit attentive alive text, undergoes_submit alive text⟩
  | openView id =>
    rw [Turn.perform, discard_after]
    refine ⟨attentive_open attentive alive id, ?_⟩
    cases known : session.views.get? id with
    | none =>
      have absent : session.views.find id = .error (.unknownView id) := by rw [Catalog.find, known]
      rw [Engine.after_open alive, absent]
      simp only [Turn.toggles, Table.contains, known, Option.isSome_none, Bool.false_eq_true, if_false]
      exact undergoes_refl session
    | some view =>
      have found : session.views.find id = .ok view := by rw [Catalog.find, known]
      simp only [Turn.toggles, Table.contains, known, Option.isSome_some, if_true]
      exact undergoes_open attentive.accounted.views alive found
  | closeView id =>
    have woken : session.display.promptReady = true →
        (session.display.removeBuffer id).promptReady = true := fun ready => ready
    exact ⟨attentive_around attentive woken session.process, undergoes_closed session id⟩
  | quiet => exact ⟨attentive_receive attentive .quiet, undergoes_receive attentive .quiet⟩
  | output bytes =>
    exact ⟨attentive_receive attentive (.output bytes), undergoes_receive attentive (.output bytes)⟩

theorem toggles_given (session : Session) (turn : Turn) : givenIn (turn.toggles session) = [] := by
  cases turn with
  | openView view =>
    simp only [Turn.toggles]
    split <;> rfl
  | _ => rfl

/-- By induction on the turns: what happens in each of them is told of it. -/
theorem undergoes_converse {turns : List Turn} (ready : session.Ready gdb)
    (attentive : session.Attentive) (conversed : gdb.converse session turns = some later) :
    later.Attentive ∧ ∃ events, later.journal = session.journal ++ events ∧
      givenIn (session.history turns) = givenIn (happeningsIn events) ∧
      session.Lives (session.history turns) later ∧ session.Renders events later := by
  induction turns generalizing session with
  | nil =>
    cases conversed
    exact ⟨attentive, [], (List.append_nil _).symm, rfl, lives_refl _,
      renders_still rfl rfl rfl rfl⟩
  | cons turn rest ih =>
    unfold Gdb.converse at conversed
    split at conversed
    · next allowed =>
      obtain ⟨kept, undergone⟩ := undergoes_turn ready attentive turn
      obtain ⟨events, told, lived, rendered⟩ := undergone.lived
      obtain ⟨last, more, further, given, living, rendering⟩ :=
        ih (take_ready ready allowed) kept conversed
      have recorded : turn.happenings session = turn.toggles session ++ happeningsIn events := by
        rw [Turn.happenings, told, List.drop_left]
      refine ⟨last, events ++ more, by rw [further, told, List.append_assoc], ?_, ?_,
        renders_trans rendered rendering⟩
      · rw [Session.history, recorded, given_append, given_append, toggles_given, given,
          happenings_append, given_append, List.nil_append]
      · rw [Session.history, recorded]
        exact lives_trans lived living
    · cases conversed

end Turns

/-- Whatever the commands, the views, the outputs and the reads: from the setup of a session on, each
turn leaves all of gdb's output attributed to what it answers, and every handler that is given an
output is called with it, so that the views show what gdb gave for them last. -/
theorem output_attributed {gdb : Gdb} {client attached : Client} {program id : String}
    {args : List String} {attachment : Attachment} {turns : List Turn} {session : Session}
    (started : (Control.attach program args).run client = .ok id attached)
    (kept : attached.sessions.get? id = some attachment)
    (heard : attachment.session.process.pipeBroken = false)
    (conversed : gdb.converse attachment.session turns = some session) :
    gdb.Attributes session ∧ session.Handled (attachment.session.history turns) := by
  obtain ⟨config, process, views, known, setup⟩ := attached_session started kept
  have buffered := catalog_buffered known
  have listens : process.pipeBroken = false := by
    rw [setup] at heard
    exact heard
  have ready : attachment.session.Ready gdb := setup ▸ startup_ready gdb listens buffered
  have begun : attachment.session.Attentive := setup ▸ attentive_start process buffered
  have blank : attachment.session.journal = [] ∧ attachment.session.display = {} := by
    rw [setup]
    exact ⟨rfl, rfl⟩
  obtain ⟨attentive, events, told, given, lived, rendered⟩ :=
    undergoes_converse ready begun conversed
  have whole : session.journal = events := by rw [told, blank.1, List.nil_append]
  have same : session.awaiting.Perm (session.outstanding.filterMap Command.view?) := by
    rw [outstanding_views]
    exact attentive.accounted.same
  refine ⟨ready_attributes (converse_ready ready conversed), ?_⟩
  constructor
  · rw [given, whole, refreshes_recorded]
  · rw [whole, refreshes_recorded]
    exact rendered.replaced
  · rw [whole, refreshes_recorded]
    exact rendered.refreshed
  · intro view
    rw [whole, refreshes_recorded, ← rendered.refreshed, rendered.counted view, blank.2]
    exact Nat.zero_add _
  · intro view
    rw [lived.shown view, blank.2]
    exact holds_buffer _ view
  · intro view
    rw [same.mem_iff, List.mem_filterMap]

/-- A new breakpoint, and the list of breakpoints after it. -/
def breakpointOutput : Nat → List Bytes
  | 3 => ["Breakpoint 1 at 0x1136".toUTF8.data.toList, announcing "breakpoints-invalid"]
  | 4 => ["1 breakpoint keep y 0x1136".toUTF8.data.toList]
  | _ => []

theorem breakpoint_lines (index : Nat) : ∀ line ∈ breakpointOutput index,
    Stream.newline ∉ line ∧
      (Stream.markerOf? line = none ∨ Stream.markerOf? line = some ⟨"breakpoints-invalid", none⟩) := by
  unfold breakpointOutput
  split <;> decide +kernel

/-- A gdb that sets a breakpoint when it is given its fourth line, and lists it for the fifth. -/
def breakpointGdb : Gdb where
  banner := ["GNU gdb".toUTF8.data.toList]
  prompt := ["(gdb)".toUTF8.data.toList]
  single := by decide +kernel
  plain := by decide +kernel
  response index :=
    { output := breakpointOutput index
      prompt := ["(gdb)".toUTF8.data.toList]
      single := by
        have single : ∀ line ∈ ["(gdb)".toUTF8.data.toList], Stream.newline ∉ line := by
          decide +kernel
        intro line member
        rcases List.mem_append.mp member with output | prompt
        · exact (breakpoint_lines index line output).1
        · exact single line prompt
      tame := by
        intro line member marker written
        rcases (breakpoint_lines index line member).2 with none | invalid
        · cases none.symm.trans written
        · cases invalid.symm.trans written
          decide +kernel
      plain := by decide +kernel }

/-- A breakpoint is set while its view is open, and a marker line lies across two reads. -/
theorem refresh_attributed :
    let client : Client := { config := { gdbPath := .string "gdb" } }
    let answer (index : Nat) := Stream.unlines (breakpointGdb.response index).lines
    let turns : List Turn :=
      [.openView "breakpoints", .output ((breakpointGdb.printed 0).take 10), .quiet,
        .output ((breakpointGdb.printed 0).drop 10), .command "break main", .output (answer 0),
        .output (answer 1), .output (answer 2), .output ((answer 3).take 20), .quiet,
        .output ((answer 3).drop 20), .output (answer 4)]
    ∃ (attached : Client) (id : String) (attachment : Attachment) (session : Session),
      (Control.attach "" []).run client = .ok id attached ∧
        attached.sessions.get? id = some attachment ∧
        attachment.session.process.pipeBroken = false ∧
        breakpointGdb.converse attachment.session turns = some session ∧
        (completionsIn session.journal).map (·.2) = ["", "", "", "1 breakpoint keep y 0x1136\n"] ∧
        session.display.transcript = "GNU gdb\n(gdb)\nBreakpoint 1 at 0x1136\n(gdb)\n" ∧
        session.display.refreshCount "breakpoints" = 1 ∧
        session.display.buffers.get? "breakpoints" = some "1 breakpoint keep y 0x1136\n" ∧
        breakpointGdb.Attributes session ∧ session.Handled (attachment.session.history turns) := by
  intro client answer turns
  have shown : ((Engine.given? ((Control.attach "" []).run client)).bind fun given =>
      (given.2.sessions.get? given.1).bind fun attachment =>
        (breakpointGdb.converse attachment.session turns).map fun session =>
          ((attachment.session.process.pipeBroken, session.display.refreshCount "breakpoints"),
            (completionsIn session.journal).map (·.2), session.display.transcript,
            session.display.buffers.get? "breakpoints")) =
      some ((false, 1), ["", "", "", "1 breakpoint keep y 0x1136\n"],
        "GNU gdb\n(gdb)\nBreakpoint 1 at 0x1136\n(gdb)\n",
        some "1 breakpoint keep y 0x1136\n") := by
    decide +kernel
  obtain ⟨⟨id, attached⟩, given, met⟩ := Option.bind_eq_some_iff.mp shown
  obtain ⟨attachment, kept, met⟩ := Option.bind_eq_some_iff.mp met
  obtain ⟨session, conversed, same⟩ := Option.map_eq_some_iff.mp met
  obtain ⟨⟨heard, count⟩, handed, transcript, buffer⟩ := by simpa only [Prod.mk.injEq] using same
  have started := Engine.given_ok given
  exact ⟨attached, id, attachment, session, started, kept, heard, conversed, handed, transcript,
    count, buffer, output_attributed started kept heard conversed⟩

end GdbControl
