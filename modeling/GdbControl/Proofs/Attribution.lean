import GdbControl.Client.Exchange
import GdbControl.Client.Launch
import GdbControl.Proofs.Following

/-!
Every output of a gdb that keeps to the protocol is attributed to the command that it answers: however
the output is divided into reads, wherever gdb goes quiet, and whatever the user asks for meanwhile. The
outputs of the session's own commands go to their handlers, and all else is shown.
-/

namespace GdbControl

/-- What may come next in a session with gdb: the user asks for something, or gdb does something. -/
inductive Turn where
  | command (text : String)
  | openView (view : String)
  | closeView (view : String)
  | quiet
  | output (bytes : Bytes)
deriving DecidableEq, Repr

def Turn.perform : Turn → Engine Unit
  | .command text => discard (Engine.submit text)
  | .openView view => discard (Engine.openView view)
  | .closeView view => Engine.onDisplay (·.removeBuffer view)
  | .quiet => Engine.receive .quiet
  | .output bytes => Engine.receive (.output bytes)

/-- The session after a turn, whether or not it failed. -/
def Session.take (session : Session) (turn : Turn) : Session :=
  match turn.perform.run session with
  | .ok _ later | .error _ later => later

/-- Output comes only when gdb has printed it, for as many lines as were written to it by then. -/
def Gdb.allows (gdb : Gdb) (session : Session) : Turn → Bool
  | .output bytes => (arrivedIn session.journal ++ bytes).isPrefixOf
      (gdb.printed (writtenIn session.journal).length)
  | _ => true

/-- The session after turns, each of which is possible when it comes. -/
def Gdb.converse (gdb : Gdb) (session : Session) : List Turn → Option Session
  | [] => some session
  | turn :: rest =>
    if gdb.allows session turn then gdb.converse (session.take turn) rest else none

/-- All that gdb printed is attributed to what it answers, and nothing else is. -/
structure Gdb.Attributes (gdb : Gdb) (session : Session) : Prop where
  alive : session.isClosed = false
  silent : session.display.diagnostics = []
  apart : session.display.programOutput = ""
  /-- gdb was given the lines of the commands that went out. -/
  written : writtenIn session.journal = (sentIn session.journal).map Command.written
  /-- Handlers get the outputs of their own commands, each once and in order. -/
  handed : completionsIn session.journal <+: gdb.completions (sentIn session.journal)
  shown : ∃ more, gdb.shown (sentIn session.journal) = session.display.transcript ++ more
  /-- What was answered, and has arrived, was handed over or shown. -/
  delivered : ∀ count, gdb.printed count <+: arrivedIn session.journal →
    gdb.completions ((sentIn session.journal).take count) <+: completionsIn session.journal ∧
      ∃ more, session.display.transcript = gdb.shown ((sentIn session.journal).take count) ++ more
  /-- When all that gdb printed has arrived, gdb waits for a line and no command is left. -/
  settled : arrivedIn session.journal = gdb.printed (sentIn session.journal).length →
    session.prompting = true ∧ session.urgent = [] ∧ session.idle = []
  /-- No turn fails, but for a view that nobody knows. -/
  progress : ∀ turn, gdb.allows session turn = true →
    (∃ later, turn.perform.run session = .ok () later) ∨
      ∃ view, turn = .openView view ∧ session.views.contains view = false ∧
        turn.perform.run session = .error (.unknownView view) session

/-- A session in talk with gdb between two turns. -/
structure Session.Ready (gdb : Gdb) (session : Session) : Prop where
  conforms : session.Conforms gdb
  drained : session.Drained

section Turns

variable {gdb : Gdb} {session later : Session}

theorem display_unmoved (session : Session) (display : Display)
    (transcript : display.transcript = session.display.transcript)
    (diagnostics : display.diagnostics = session.display.diagnostics)
    (programOutput : display.programOutput = session.display.programOutput) :
    session.Unmoved { session with display := display } := by
  refine ⟨?_, unread_same rfl rfl, rfl, rfl, diagnostics, programOutput, fun _ => .inl, rfl,
    fun _ => id, rfl⟩
  simp [Session.talk, transcript]

theorem ready_later (ready : session.Ready gdb) (conforms : later.Conforms gdb)
    (position : later.position = session.position) : later.Ready gdb :=
  ⟨conforms, drained_of_same ready.drained position⟩

theorem command_ready (ready : session.Ready gdb) (text : String) :
    ∃ later, (Turn.command text).perform.run session = .ok () later ∧ later.Ready gdb := by
  let cleared : Session := { session with display := session.display.clearReady }
  have unmoved : session.Unmoved cleared := display_unmoved session _ rfl rfl rfl
  obtain ⟨sent, later, ran, conforms, position⟩ :=
    Engine.enqueue_conforms (conforms_unmoved ready.conforms unmoved) .urgent
      (show (Command.typed text).isPlain = true from rfl)
  have submitted : (Engine.submit text).run session = .ok sent later := ran
  refine ⟨later, ?_, ready_later ready conforms position⟩
  rw [Turn.perform, Engine.run_discard, submitted]

theorem open_ready (ready : session.Ready gdb) {id : String} {view : View}
    (known : session.views.find id = .ok view) :
    ∃ later, (Turn.openView id).perform.run session = .ok () later ∧ later.Ready gdb := by
  let opened : Session := { session with display := (session.display.addBuffer id).clearReady }
  have unmoved : session.Unmoved opened := display_unmoved session _ rfl rfl rfl
  have found : opened.views.find id = .ok view := known
  obtain ⟨asked, later, ran, conforms, position⟩ :=
    Engine.refresh_conforms (conforms_unmoved ready.conforms unmoved) found
  have done : (Engine.openView id).run session = .ok asked later := by
    rw [Engine.openView, Engine.run_get_bind, EStateM.run_bind, known]
    exact ran
  refine ⟨later, ?_, ready_later ready conforms position⟩
  rw [Turn.perform, Engine.run_discard, done]

theorem open_unknown {id : String} (unknown : session.views.contains id = false) :
    (Turn.openView id).perform.run session = .error (.unknownView id) session := by
  have absent : session.views.get? id = none :=
    Option.isNone_iff_eq_none.mp (Option.isSome_eq_false_iff.mp unknown)
  have refused : (Engine.openView id).run session = .error (.unknownView id) session := by
    rw [Engine.openView, Engine.run_get_bind, EStateM.run_bind, Catalog.find, absent]
    rfl
  rw [Turn.perform, Engine.run_discard, refused]

theorem close_ready (ready : session.Ready gdb) (id : String) :
    ∃ later, (Turn.closeView id).perform.run session = .ok () later ∧ later.Ready gdb := by
  have unmoved := display_unmoved session (session.display.removeBuffer id) rfl rfl rfl
  exact ⟨_, rfl, ready_later ready (conforms_unmoved ready.conforms unmoved) rfl⟩

theorem quiet_ready (ready : session.Ready gdb) :
    ∃ later, Turn.quiet.perform.run session = .ok () later ∧ later.Ready gdb := by
  obtain ⟨shown, later, ran, conforms, drained⟩ := Engine.flush_conforms ready.conforms ready.drained
  refine ⟨later, ?_, conforms, drained⟩
  rw [Turn.perform, Engine.receive, Engine.run_discard, ran]

theorem output_ready (ready : session.Ready gdb) {bytes : Bytes}
    (allowed : gdb.allows session (.output bytes) = true) :
    ∃ later, (Turn.output bytes).perform.run session = .ok () later ∧ later.Ready gdb := by
  have printed : arrivedIn session.journal ++ bytes <+:
      gdb.printed (writtenIn session.journal).length := List.isPrefixOf_iff_prefix.mp allowed
  have written : (writtenIn session.journal).length = (sentIn session.journal).length := by
    obtain ⟨done, hears, -⟩ := ready.conforms
    rw [hears.sound.written, List.length_map]
  rw [written] at printed
  obtain ⟨later, ran, conforms⟩ := Engine.ingest_conforms ready.conforms printed
  exact ⟨later, ran, conforms, Engine.ingest_drained ready.conforms ready.drained ran⟩

/-- A turn succeeds and leaves the session in talk with gdb. Only a view that nobody knows is refused. -/
theorem turn_ready (ready : session.Ready gdb) {turn : Turn}
    (allowed : gdb.allows session turn = true) :
    (∃ later, turn.perform.run session = .ok () later ∧ later.Ready gdb) ∨
      ∃ view, turn = .openView view ∧ session.views.contains view = false ∧
        turn.perform.run session = .error (.unknownView view) session := by
  cases turn with
  | command text => exact .inl (command_ready ready text)
  | openView id =>
    cases known : session.views.contains id with
    | false => exact .inr ⟨id, rfl, known, open_unknown known⟩
    | true =>
      obtain ⟨view, found⟩ := Option.isSome_iff_exists.mp known
      have listed : session.views.find id = .ok view := by rw [Catalog.find, found]
      exact .inl (open_ready ready listed)
  | closeView id => exact .inl (close_ready ready id)
  | quiet => exact .inl (quiet_ready ready)
  | output bytes => exact .inl (output_ready ready allowed)

theorem take_ready (ready : session.Ready gdb) {turn : Turn}
    (allowed : gdb.allows session turn = true) : (session.take turn).Ready gdb := by
  unfold Session.take
  rcases turn_ready ready allowed with ⟨later, ran, ready⟩ | ⟨view, -, -, ran⟩
  · rw [ran]
    exact ready
  · rw [ran]
    exact ready

/-- By induction on the turns: each is possible when it comes. -/
theorem converse_ready {turns : List Turn} (ready : session.Ready gdb)
    (conversed : gdb.converse session turns = some later) : later.Ready gdb := by
  induction turns generalizing session with
  | nil =>
    cases conversed
    exact ready
  | cons turn rest ih =>
    unfold Gdb.converse at conversed
    split at conversed
    · next allowed => exact ih (take_ready ready allowed) conversed
    · cases conversed

end Turns

section Attributed

variable {gdb : Gdb} {session : Session}

-- What has been read of the script is what has arrived, up to the last complete line.
theorem arrived_told (ready : session.Ready gdb) {done : List (Bytes × Marker)}
    (hears : session.Hears gdb done) {count : Nat}
    (came : gdb.printed count <+: arrivedIn session.journal) : gdb.told count <+: done := by
  obtain ⟨text, read⟩ := hears.read
  obtain ⟨rest, whole⟩ := came
  have ahead := read.ahead []
  rw [List.append_nil, List.append_nil, Stream.sections_plain ready.drained.searched text,
    List.append_nil, ← whole, sections_printed] at ahead
  exact ⟨_, (Prod.mk.inj ahead).1⟩

-- What was heard last is the beginning of what the script says next.
theorem heard_begins {done : List (Bytes × Marker)} (hears : session.Hears gdb done) :
    (∀ text marker others, gdb.told session.talk.sent.length = done ++ (text, marker) :: others →
      ∃ more, session.talk.heard ++ more = Utf8.decode text) ∧
    (gdb.told session.talk.sent.length = done → session.talk.heard = "") := by
  obtain ⟨text, read⟩ := hears.read
  obtain ⟨more, whole⟩ := hears.arrived
  obtain ⟨calm, busy⟩ := script_ahead read whole
  have sent : session.talk.sent = sentIn session.journal := rfl
  rw [sent]
  cases found : Stream.firstMarker? (!session.midLine) (session.held ++ more) with
  | none =>
    obtain ⟨all, heard⟩ := calm found
    refine ⟨?_, fun _ => heard⟩
    intro part marker others next
    simp [all] at next
  | some cut =>
    obtain ⟨heard, later, told⟩ := busy cut found
    refine ⟨?_, ?_⟩
    · intro part marker others next
      have same := List.append_cancel_left (told.symm.trans next)
      obtain ⟨rfl, -⟩ := Prod.mk.inj (List.cons.inj same).1
      exact ⟨_, heard⟩
    · intro all
      simp [all] at told

theorem ready_attributes (ready : session.Ready gdb) : gdb.Attributes session := by
  obtain ⟨done, hears, stage⟩ := ready.conforms
  obtain ⟨ahead, calm⟩ := heard_begins hears
  obtain ⟨handed, shown⟩ := stage_promised stage ahead calm
  refine ⟨conforms_alive ready.conforms, hears.sound.silent, hears.sound.apart, hears.sound.written,
    handed, shown, ?_, ?_, ?_⟩
  · intro count came
    exact stage_delivered stage (arrived_told ready hears came)
  · intro all
    have came : gdb.printed (sentIn session.journal).length <+: arrivedIn session.journal :=
      ⟨[], by rw [List.append_nil, all]⟩
    have waits : session.prompting = true := stage_settled stage (arrived_told ready hears came)
    exact ⟨waits, List.append_eq_nil_iff.mp (hears.sound.rested waits)⟩
  · intro turn allowed
    rcases turn_ready ready allowed with ⟨later, ran, -⟩ | refused
    · exact .inl ⟨later, ran⟩
    · exact .inr refused

end Attributed

section Setup

/-- The commands that wait in the queue of a session that has just been set up. -/
def startup : List Command := preamble.map fun text => .mk text (some .discard) none

theorem run_preamble (process : Subprocess) (views : Catalog) :
    Engine.enqueuePreamble.run (Session.start process views) =
      .ok () { Session.start process views with
        urgent := startup
        journal := startup.map (.accepted .urgent) } := rfl

theorem lift_ok {result : Except Fault α} {client later : Client} {value : α}
    (done : (Control.lift result).run client = .ok value later) : result = .ok value := by
  cases result with
  | ok found =>
    cases done
    rfl
  | error fault => cases done

theorem run_on_session {client : Client} {id : String} {attachment : Attachment}
    (present : client.sessions.get? id = some attachment) (operation : Engine α) :
    (Control.onSession id operation).run client =
      match operation.run attachment.session with
      | .ok value later => .ok value (client.keep id attachment later)
      | .error fault later => .error fault (client.keep id attachment later) := by
  have found : (Control.find id).run client = .ok attachment client := by
    unfold Control.find
    rw [EStateM.run_bind]
    dsimp only [EStateM.run_get]
    rw [present]
    rfl
  unfold Control.onSession
  rw [EStateM.run_bind, found]
  dsimp only
  cases operation.run attachment.session <;> rfl

/-- A session that was attached has the commands of its setup in its queue, and has done nothing else. -/
theorem attached_session {client attached : Client} {program id : String} {args : List String}
    {attachment : Attachment} (started : (Control.attach program args).run client = .ok id attached)
    (kept : attached.sessions.get? id = some attachment) :
    ∃ (config : Config) (process : Subprocess) (views : Catalog), config.catalog = .ok views ∧
      attachment.session = { Session.start process views with urgent := startup } := by
  obtain ⟨name, named, -, launching⟩ := Engine.bind_ok started
  obtain ⟨process, spawned, -, looking⟩ := Engine.bind_ok launching
  obtain ⟨configured, _, -, listing⟩ := Engine.bind_ok looking
  obtain ⟨views, listed, known, inserting⟩ := Engine.bind_ok listing
  obtain ⟨_, inserted, entered, asking⟩ := Engine.bind_ok inserting
  obtain ⟨_, asked, enqueued, answered⟩ := Engine.bind_ok asking
  cases entered
  cases answered
  have present := Table.get?_insert_self listed.sessions id ⟨Session.start process views, program, args⟩
  rw [run_on_session present, run_preamble] at enqueued
  cases enqueued
  rw [Client.keep, Table.get?_insert_self] at kept
  cases kept
  exact ⟨_, process, views, lift_ok known, rfl⟩

/-- A view that is known by its name. -/
def View.IsStandard (view : View) : Prop := standardView? view.id = .ok view

def Catalog.Standard (catalog : Catalog) : Prop :=
  ∀ entry ∈ catalog.entries, standardView? entry.1 = .ok entry.2

theorem standard_view_own {id : String} {view : View} (known : standardView? id = .ok view) :
    view = .buffered id view.command := by
  unfold standardView? at known
  split at known
  · cases known
    rfl
  · cases known

theorem standard_view {id : String} {view : View} (known : standardView? id = .ok view) :
    view.IsStandard := by
  have named : view.id = id := congrArg View.id (standard_view_own known)
  rwa [View.IsStandard, named]

theorem view_standard {name : Json} {view : View} (known : Config.view name = .ok view) :
    view.IsStandard := by
  unfold Config.view at known
  split at known
  · exact standard_view known
  · split at known <;> cases known

theorem views_standard {names : List α} {make : α → Except Fault View} {views : List View}
    (each : ∀ name view, make name = .ok view → view.IsStandard) (made : names.mapM make = .ok views) :
    ∀ view ∈ views, view.IsStandard := by
  induction names generalizing views with
  | nil =>
    cases made
    simp
  | cons name rest ih =>
    rw [List.mapM_cons] at made
    cases first : make name with
    | error fault => rw [first] at made; cases made
    | ok view =>
      cases others : rest.mapM make with
      | error fault => rw [first, others] at made; cases made
      | ok later =>
        rw [first, others] at made
        cases made
        intro other member
        rcases List.mem_cons.mp member with rfl | member
        · exact each name _ first
        · exact ih others other member

theorem registered_standard {views : List View} (own : ∀ view ∈ views, view.IsStandard)
    {catalog later : Catalog} (standard : catalog.Standard)
    (added : views.foldlM Catalog.register catalog = .ok later) : later.Standard := by
  induction views generalizing catalog with
  | nil =>
    cases added
    exact standard
  | cons view rest ih =>
    rw [List.foldlM_cons] at added
    cases first : catalog.register view with
    | error fault => rw [first] at added; cases added
    | ok middle =>
      rw [first] at added
      refine ih (fun other member => own other (List.mem_cons_of_mem view member)) ?_ added
      intro entry member
      rw [register_entries first] at member
      rcases List.mem_append.mp member with old | new
      · exact standard entry old
      · rw [List.mem_singleton.mp new]
        exact own view List.mem_cons_self

theorem listed_standard {names : List α} {make : α → Except Fault View} {catalog : Catalog}
    (each : ∀ name view, make name = .ok view → view.IsStandard)
    (done : (do
      let views ← names.mapM make
      views.foldlM Catalog.register Table.empty) = .ok catalog) : catalog.Standard := by
  have blank : Catalog.Standard Table.empty := by
    intro entry member
    cases member
  cases made : names.mapM make with
  | error fault =>
    rw [made] at done
    cases done
  | ok views =>
    rw [made] at done
    exact registered_standard (views_standard each made) blank done

theorem catalog_standard {config : Config} {catalog : Catalog} (known : config.catalog = .ok catalog) :
    catalog.Standard := by
  unfold Config.catalog at known
  split at known
  · exact listed_standard (fun _ _ => standard_view) known
  · split at known
    · cases known
    · exact listed_standard (fun _ _ => view_standard) known

theorem catalog_buffered {config : Config} {catalog : Catalog} (known : config.catalog = .ok catalog) :
    catalog.Buffered :=
  fun entry member => standard_view_own (catalog_standard known entry member)

theorem startup_ready (gdb : Gdb) {process : Subprocess} {views : Catalog}
    (heard : process.pipeBroken = false) (buffered : views.Buffered) :
    Session.Ready gdb { Session.start process views with urgent := startup } := by
  let session : Session := { Session.start process views with urgent := startup }
  have plain : ∀ command ∈ session.commands, command.isPlain = true := by
    have queued : session.commands = startup := rfl
    rw [queued]
    decide
  have sound : session.Sound := ⟨heard, plain, buffered, rfl, rfl, rfl, by rintro ⟨⟩, rfl⟩
  have read : session.Read [] [] := ⟨rfl, fun _ => rfl, fun _ => rfl⟩
  have greeting : Stage gdb session.talk [] :=
    .greeting (List.nil_append _).symm (by simp [Gdb.greeting]) rfl rfl rfl rfl rfl
  have drained : session.Drained := drained_unended List.not_mem_nil
  exact ⟨⟨[], ⟨sound, List.nil_prefix, [], read⟩, greeting⟩, drained⟩

end Setup

end GdbControl
