import GdbControl.Proofs.Dialogue
import GdbControl.Proofs.Outstanding

/-!
How a session bears itself in its talk with gdb. Each operation does to the session what it does to the
talk; what has nothing to do with the talk leaves it unmoved. A marker line that the talk awaits is acted
upon without a fault.
-/

namespace GdbControl

def Event.command? : Event → Option Command
  | .sent _ command => some command
  | _ => none

def Event.line? : Event → Option String
  | .wrote line => some line
  | _ => none

/-- The commands that went out, in their order. -/
def sentIn (journal : List Event) : List Command := journal.filterMap Event.command?

/-- The lines that reached gdb. -/
def writtenIn (journal : List Event) : List String := journal.filterMap Event.line?

-- Where nothing goes out, no line is written.
theorem wire_silent {events : List Event} (journal : List Event)
    (silent : ∀ event ∈ events, event.command? = none ∧ event.line? = none) :
    sentIn (journal ++ events) = sentIn journal ∧ writtenIn (journal ++ events) = writtenIn journal := by
  have sent : sentIn events = [] :=
    List.filterMap_eq_nil_iff.mpr fun event member => (silent event member).1
  have written : writtenIn events = [] :=
    List.filterMap_eq_nil_iff.mpr fun event member => (silent event member).2
  constructor
  · exact (List.filterMap_append.trans (congrArg _ sent)).trans (List.append_nil _)
  · exact (List.filterMap_append.trans (congrArg _ written)).trans (List.append_nil _)

theorem wire_sent (session : Session) (tier : Option Tier) (command : Command) :
    sentIn (session.sendOut tier command).journal = sentIn session.journal ++ [command] ∧
      writtenIn (session.sendOut tier command).journal = writtenIn session.journal ++
        if session.process.pipeBroken then [] else [command.written] := by
  rw [Session.send_out_journal]
  unfold sentIn writtenIn Session.sending
  cases session.process.pipeBroken <;> simp [Event.command?, Event.line?, List.filterMap_cons]

def Session.talk (session : Session) : Talk where
  sink := session.sink
  flight := session.inFlight
  gathered := session.gathered
  waits := session.prompting
  transcript := session.display.transcript
  sent := sentIn session.journal
  completions := completionsIn session.journal
  heard := (readIn "" session.journal).2

/-- The handler of a command, if it has one, performs no operations. -/
def Command.isPlain : Command → Bool
  | .mk _ (some (.routine _ _ _)) _ => false
  | _ => true

/-- The handler takes its output, or makes it the text of a view, and does nothing else. -/
def Handler.isPassive : Handler → Bool
  | .discard | .refresh _ | .routine _ [] none => true
  | _ => false

def Command.isPassive (command : Command) : Bool := command.handler?.all Handler.isPassive

theorem plain_passive {command : Command} (plain : command.isPlain = true) :
    command.isPassive = true := by
  match command with
  | .mk _ none _ | .mk _ (some .discard) _ | .mk _ (some (.refresh _)) _ => rfl
  | .mk _ (some (.routine _ _ _)) _ => cases plain

/-- A session that meets with no fault. -/
structure Session.Sound (session : Session) : Prop where
  heard : session.process.pipeBroken = false
  plain : ∀ command ∈ session.commands, command.isPlain = true
  views : session.views.Buffered
  silent : session.display.diagnostics = []
  apart : session.display.programOutput = ""
  unasked : session.questioned = false
  /-- While gdb waits, no command does. -/
  rested : session.prompting = true → session.urgent ++ session.idle = []
  written : writtenIn session.journal = (sentIn session.journal).map Command.written

/-- What happens leaves the talk and all that was read as they are. Commands may be added that wait,
unless gdb waits. -/
structure Session.Unmoved (session later : Session) : Prop where
  talk : later.talk = session.talk
  unread : session.Unread later
  process : later.process = session.process
  views : later.views = session.views
  silent : later.display.diagnostics = session.display.diagnostics
  apart : later.display.programOutput = session.display.programOutput
  commands : ∀ command ∈ later.commands, command ∈ session.commands ∨ command.isPlain = true
  unasked : later.questioned = session.questioned
  rested : session.prompting = true → session.urgent ++ session.idle = [] →
    later.urgent ++ later.idle = []
  written : writtenIn later.journal = writtenIn session.journal

section Unmoved

variable {session middle later : Session}

theorem unmoved_refl (session : Session) : session.Unmoved session :=
  ⟨rfl, unread_same rfl rfl, rfl, rfl, rfl, rfl, fun _ => .inl, rfl, fun _ => id, rfl⟩

theorem unmoved_trans (first : session.Unmoved middle) (second : middle.Unmoved later) :
    session.Unmoved later := by
  refine ⟨second.talk.trans first.talk, unread_trans first.unread second.unread,
    second.process.trans first.process, second.views.trans first.views,
    second.silent.trans first.silent, second.apart.trans first.apart, fun command member => ?_,
    second.unasked.trans first.unasked, fun waits none => ?_, second.written.trans first.written⟩
  · rcases second.commands command member with known | plain
    · exact first.commands command known
    · exact .inr plain
  · have still : middle.prompting = true := (congrArg Talk.waits first.talk).trans waits
    exact second.rested still (first.rested waits none)

theorem sound_same (sound : session.Sound) (process : later.process = session.process)
    (views : later.views = session.views)
    (commands : ∀ command ∈ later.commands, command ∈ session.commands ∨ command.isPlain = true)
    (display : later.display.diagnostics = session.display.diagnostics ∧
      later.display.programOutput = session.display.programOutput)
    (rested : later.questioned = false ∧ (later.prompting = true → later.urgent ++ later.idle = []))
    (wire : sentIn later.journal = sentIn session.journal ∧
      writtenIn later.journal = writtenIn session.journal) : later.Sound := by
  constructor
  · rw [process]
    exact sound.heard
  · intro command member
    exact (commands command member).elim (sound.plain command) id
  · rw [views]
    exact sound.views
  · rw [display.1]
    exact sound.silent
  · rw [display.2]
    exact sound.apart
  · exact rested.1
  · exact rested.2
  · rw [wire.1, wire.2]
    exact sound.written

theorem sound_unmoved (sound : session.Sound) (unmoved : session.Unmoved later) : later.Sound := by
  have waits : later.prompting = session.prompting := congrArg Talk.waits unmoved.talk
  have rested : later.prompting = true → later.urgent ++ later.idle = [] := by
    rw [waits]
    intro waiting
    exact unmoved.rested waiting (sound.rested waiting)
  exact sound_same sound unmoved.process unmoved.views unmoved.commands
    ⟨unmoved.silent, unmoved.apart⟩ ⟨unmoved.unasked.trans sound.unasked, rested⟩
    ⟨congrArg Talk.sent unmoved.talk, unmoved.written⟩

-- A command waits in its queue.
theorem unmoved_queued (tier : Tier) {command : Command} (plain : command.isPlain = true)
    (busy : session.prompting = false) :
    session.Unmoved ((session.log (.accepted tier command)).push tier command) := by
  have told : ((session.log (.accepted tier command)).push tier command).journal =
      session.journal ++ [.accepted tier command] := by cases tier <;> rfl
  refine ⟨?_, unread_log ?_ told rfl, ?_, ?_, ?_, ?_, fun other member => ?_, ?_, fun waits => ?_, ?_⟩
  · simp only [Session.talk, told, sentIn, completionsIn, read_append, List.filterMap_append]
    cases tier <;>
      simp [Session.push, Session.withQueue, Session.log, Event.command?, Event.completion?, readIn]
  · cases tier <;> rfl
  · cases tier <;> rfl
  · cases tier <;> rfl
  · cases tier <;> rfl
  · cases tier <;> rfl
  · rcases push_commands member with known | rfl
    · exact .inl known
    · exact .inr plain
  · cases tier <;> rfl
  · cases busy.symm.trans waits
  · simp [told, writtenIn, Event.line?]

end Unmoved

section Effects

variable {session : Session}

theorem talk_hear (session : Session) (text : String) :
    (session.hear text).talk = session.talk.hear text := by
  by_cases silent : text = ""
  · simp [Session.hear, silent, Session.talk, Talk.hear]
  · cases sink : session.sink <;>
      simp [Session.hear, silent, sink, Session.talk, Talk.hear, Session.log, sentIn, completionsIn,
        read_append, readIn, Event.command?, Event.completion?, Display.appendTranscript,
        Display.appendProgramOutput]

theorem sound_hear (sound : session.Sound) (other : session.sink ≠ .program) (text : String) :
    (session.hear text).Sound := by
  by_cases silent : text = ""
  · rwa [Session.hear, if_pos silent]
  · obtain ⟨commands, views⟩ := hear_same session text
    have uttered : ∀ event ∈ [Event.emitted session.sink text],
        event.command? = none ∧ event.line? = none := by
      simp [Event.command?, Event.line?]
    have same : (session.hear text).process = session.process ∧
        (session.hear text).journal = session.journal ++ [.emitted session.sink text] := by
      rw [hear_spoken session silent]
      exact ⟨rfl, rfl⟩
    have display : (session.hear text).display.diagnostics = session.display.diagnostics ∧
        (session.hear text).display.programOutput = session.display.programOutput := by
      cases sink : session.sink
      case program => exact absurd sink other
      all_goals simp [Session.hear, silent, sink, Session.log, Display.appendTranscript]
    have rested : (session.hear text).questioned = false ∧ ((session.hear text).prompting = true →
        (session.hear text).urgent ++ (session.hear text).idle = []) := by
      rw [hear_spoken session silent]
      exact ⟨sound.unasked, sound.rested⟩
    exact sound_same sound same.1 views (fun command member => .inl (commands ▸ member)) display rested
      (same.2 ▸ wire_silent session.journal uttered)

theorem talk_annotated (session : Session) (marker : Marker) :
    (session.log (.annotated marker)).talk = session.talk.mark := by
  simp [Session.talk, Session.log, Talk.mark, sentIn, completionsIn, read_append, readIn,
    Event.command?, Event.completion?]

theorem sound_annotated (sound : session.Sound) (marker : Marker) :
    (session.log (.annotated marker)).Sound :=
  sound_same sound rfl rfl (fun _ => .inl) ⟨rfl, rfl⟩ ⟨sound.unasked, sound.rested⟩
    (wire_silent session.journal (by simp [Event.command?, Event.line?]))

theorem sound_entered (sound : session.Sound) (phase : Phase) : (session.enter phase).Sound :=
  sound_same sound rfl rfl (fun _ => .inl) ⟨rfl, rfl⟩ ⟨sound.unasked, sound.rested⟩ ⟨rfl, rfl⟩

theorem talk_send (session : Session) (tier : Option Tier) (command : Command) :
    (session.sendOut tier command).talk = session.talk.send command := by
  have sent := (wire_sent session tier command).1
  have quiet : completionsIn (session.sending tier command) = [] ∧
      ∀ text, readIn text (session.sending tier command) = ([], text) := by
    unfold Session.sending
    cases session.process.pipeBroken <;> exact ⟨rfl, fun _ => rfl⟩
  have completed := completions_append session.journal (session.sending tier command)
  have heard := read_append "" session.journal (session.sending tier command)
  rw [quiet.1, List.append_nil, ← Session.send_out_journal] at completed
  rw [quiet.2, List.append_nil, ← Session.send_out_journal] at heard
  unfold Session.talk
  rw [sent, completed, heard]
  simp [Session.send_out_eq, Talk.send]

theorem sound_send (sound : session.Sound) (tier : Option Tier) {command : Command}
    (plain : command.isPlain = true) : (session.sendOut tier command).Sound := by
  obtain ⟨sent, written⟩ := wire_sent session tier command
  refine ⟨by simp [sound.heard], fun other member => ?_, by simpa using sound.views, ?_, ?_,
    by simpa using sound.unasked, by simp, ?_⟩
  · simp only [Session.commands, Session.send_out_urgent, Session.send_out_idle,
      Session.send_out_in_flight, Option.toList_some, List.mem_append, List.mem_singleton] at member
    rcases member with queued | rfl
    · exact sound.plain other (List.mem_append_left _ (List.mem_append.mpr queued))
    · exact plain
  · simp [sound.silent]
  · simp [sound.apart]
  · rw [sent, written, sound.heard, sound.written]
    simp

end Effects

/-- All of gdb's output that arrived is from its script, and these are the sections that were read. -/
structure Session.Hears (gdb : Gdb) (session : Session) (done : List (Bytes × Marker)) : Prop where
  sound : session.Sound
  arrived : arrivedIn session.journal <+: gdb.printed (sentIn session.journal).length
  read : ∃ text, session.Read done text

/-- A session in talk with a gdb that keeps to the protocol. -/
def Session.Conforms (gdb : Gdb) (session : Session) : Prop :=
  ∃ done, session.Hears gdb done ∧ Stage gdb session.talk done

section Conforms

variable {gdb : Gdb} {session later : Session} {done : List (Bytes × Marker)}

theorem arrived_unread (unread : session.Unread later) :
    arrivedIn later.journal = arrivedIn session.journal := by
  obtain ⟨events, journal, plain⟩ := unread.events
  rw [journal, arrived_append, arrived_plain plain, List.append_nil]

theorem hears_later (hears : session.Hears gdb done) (sound : later.Sound)
    (unread : session.Unread later)
    (grown : (sentIn session.journal).length ≤ (sentIn later.journal).length) :
    later.Hears gdb done := by
  obtain ⟨text, read⟩ := hears.read
  refine ⟨sound, ?_, text, read_unread read unread⟩
  rw [arrived_unread unread]
  exact hears.arrived.trans (printed_grows gdb grown)

theorem conforms_unmoved (conforms : session.Conforms gdb) (unmoved : session.Unmoved later) :
    later.Conforms gdb := by
  obtain ⟨done, hears, stage⟩ := conforms
  have sent : sentIn later.journal = sentIn session.journal := congrArg Talk.sent unmoved.talk
  refine ⟨done, hears_later hears (sound_unmoved hears.sound unmoved) unmoved.unread ?_, ?_⟩
  · exact Nat.le_of_eq (congrArg List.length sent.symm)
  · rw [unmoved.talk]
    exact stage

theorem conforms_alive (conforms : session.Conforms gdb) : session.isClosed = false := by
  obtain ⟨done, hears, stage⟩ := conforms
  simpa [Session.isClosed, Session.talk] using (stage_sink stage).1

theorem conforms_sent (hears : session.Hears gdb done) (finished : Finished gdb session.talk done)
    (tier : Option Tier) {command : Command} (plain : command.isPlain = true) :
    (session.sendOut tier command).Conforms gdb := by
  refine ⟨done, hears_later hears (sound_send hears.sound tier plain) (unread_send_out _ _ _) ?_, ?_⟩
  · rw [(wire_sent session tier command).1, List.length_append]
    exact Nat.le_add_right _ _
  · rw [talk_send]
    exact stage_sent finished command

-- The command in flight may be forgotten once all has been answered.
theorem hears_released (hears : session.Hears gdb done) (finished : Finished gdb session.talk done)
    (awaiting : List String) (urgent idle : List Command)
    (fewer : ∀ command ∈ urgent ++ idle, command ∈ session.urgent ++ session.idle) :
    let later : Session := { session with
      questioned := false, inFlight := none, awaiting := awaiting, urgent := urgent, idle := idle }
    later.Hears gdb done ∧ Finished gdb later.talk done := by
  intro later
  have commands : ∀ command ∈ later.commands, command ∈ session.commands ∨ command.isPlain = true := by
    intro command member
    exact .inl (List.mem_append_left _ (fewer command (by simpa [later, Session.commands] using member)))
  have rested : later.prompting = true → later.urgent ++ later.idle = [] := by
    intro waits
    rw [List.eq_nil_iff_forall_not_mem]
    intro command member
    have queued : command ∈ session.urgent ++ session.idle := fewer command member
    rw [hears.sound.rested waits] at queued
    cases queued
  have sound : later.Sound :=
    sound_same hears.sound rfl rfl commands ⟨rfl, rfl⟩ ⟨rfl, rested⟩ ⟨rfl, rfl⟩
  exact ⟨hears_later hears sound (unread_same rfl rfl) (Nat.le_refl _),
    ⟨finished.read, finished.console, finished.completed, finished.shown, finished.heard⟩⟩

theorem conforms_idled (hears : session.Hears gdb done) (finished : Finished gdb session.talk done)
    (calm : session.inFlight = none) (rested : session.urgent ++ session.idle = []) :
    let idled := { session with prompting := true }.log .idled
    ({ idled with display := idled.display.markReady } : Session).Conforms gdb := by
  intro idled
  have told : ({ idled with display := idled.display.markReady } : Session).journal =
      session.journal ++ [.idled] := rfl
  have nothing : ∀ event ∈ [Event.idled], event.command? = none ∧ event.line? = none := by
    simp [Event.command?, Event.line?]
  have wire := wire_silent session.journal nothing
  have unread : session.Unread { idled with display := idled.display.markReady } :=
    unread_log rfl told rfl
  have sound : Session.Sound { idled with display := idled.display.markReady } :=
    sound_same hears.sound rfl rfl (fun _ => .inl) ⟨rfl, rfl⟩ ⟨hears.sound.unasked, fun _ => rested⟩ wire
  refine ⟨done, hears_later hears sound unread (Nat.le_of_eq (congrArg List.length wire.1.symm)), ?_⟩
  have talk : ({ idled with display := idled.display.markReady } : Session).talk = session.talk.rest := by
    simp [idled, Session.talk, Session.log, Talk.rest, wire.1, read_append, readIn, calm,
      completionsIn, Event.completion?, Display.markReady]
  rw [talk]
  exact stage_rest finished

theorem conforms_poll (hears : session.Hears gdb done) (finished : Finished gdb session.talk done) :
    session.poll.Conforms gdb := by
  have plain {command : Command} (member : command ∈ session.urgent ++ session.idle) :
      command.isPlain = true := hears.sound.plain command (List.mem_append_left _ member)
  unfold Session.poll
  rw [Session.release_eq]
  dsimp only
  split
  · next command rest high =>
    obtain ⟨hears, finished⟩ := hears_released hears finished _ rest session.idle
      fun other member => by
        rw [high]
        exact List.mem_cons_of_mem _ member
    exact conforms_sent hears finished _ (plain (by simp [high]))
  · next command rest high low =>
    obtain ⟨hears, finished⟩ := hears_released hears finished _ session.urgent rest
      fun other member => by
        rw [high] at member
        rw [high, low]
        exact List.mem_cons_of_mem _ member
    exact conforms_sent hears finished _ (plain (by simp [high, low]))
  · next high low =>
    obtain ⟨hears, finished⟩ := hears_released hears finished _ session.urgent session.idle
      fun _ => id
    exact conforms_idled hears finished rfl (by simp [high, low])

end Conforms

namespace Engine

section Remarks

variable {gdb : Gdb} {session : Session}

theorem run_discard (operation : Engine α) (session : Session) :
    (discard operation).run session =
      match operation.run session with
      | .ok _ later => .ok () later
      | .error fault later => .error fault later := by
  change (EStateM.map _ operation) session = _
  unfold EStateM.map
  simp only [EStateM.run]
  cases operation session <;> rfl

theorem noted_unmoved {later : Session} (noted : session.Noted later) : session.Unmoved later := by
  obtain ⟨running, location, frameAddress, exitStatus, lastSignal, rfl⟩ := noted
  exact ⟨rfl, unread_same rfl rfl, rfl, rfl, rfl, rfl, fun _ => .inl, rfl, fun _ => id, rfl⟩

theorem refresh_plain {id : String} {view : View} (buffered : session.views.Buffered)
    (known : session.views.find id = .ok view) : view.refreshCommand.isPlain = true := by
  have own : view = .buffered id view.command := buffered _ (find_mem known)
  rw [own]
  rfl

theorem await_unmoved (session : Session) (view : String) : session.Unmoved (session.await view) :=
  ⟨rfl, unread_same rfl rfl, rfl, rfl, rfl, rfl, fun _ => .inl, rfl, fun _ => id, rfl⟩

-- While a command is answered, what is enqueued waits.
theorem enqueue_busy (alive : session.isClosed = false) (tier : Tier) {command : Command}
    (busy : session.prompting = false) (plain : command.isPlain = true) :
    ∃ later, (enqueue tier command).run session = .ok false later ∧ session.Unmoved later := by
  have waits : session.mayWrite tier = false := by cases tier <;> simp [Session.mayWrite, busy]
  refine ⟨(session.log (.accepted tier command)).push tier command, ?_, unmoved_queued tier plain busy⟩
  rw [run_enqueue, alive, waits, Session.accept, waits]
  rfl

theorem refresh_busy (alive : session.isClosed = false) (busy : session.prompting = false)
    (buffered : session.views.Buffered) {id : String} {view : View}
    (known : session.views.find id = .ok view) :
    ∃ asked later, (requestRefresh id).run session = .ok asked later ∧ session.Unmoved later := by
  have still : (session.await id).isClosed = false := alive
  have waits : (session.await id).prompting = false := busy
  obtain ⟨later, done, unmoved⟩ := enqueue_busy still .idle waits (refresh_plain buffered known)
  rw [run_request_refresh, alive]
  simp only [Bool.false_eq_true, if_false, known]
  split
  · exact ⟨false, session, rfl, unmoved_refl session⟩
  · rw [done]
    exact ⟨true, later, rfl, unmoved_trans (await_unmoved session id) unmoved⟩

-- What each single request keeps is kept by a list of requests, of which none fails.
theorem refreshes_each {motive : Session → Prop}
    (each : ∀ {session : Session} {id : String} {view : View}, motive session →
      session.views.find id = .ok view →
      ∃ asked later, (requestRefresh id).run session = .ok asked later ∧ motive later)
    (ids : List String) (start : motive session) :
    ∃ asked later, (requestRefreshes ids).run session = .ok asked later ∧ motive later := by
  induction ids generalizing session with
  | nil => exact ⟨[], session, rfl, start⟩
  | cons id rest ih =>
    have others {middle : Session} (asked : Bool) (kept : motive middle) :
        ∃ answer later, (do
          let others ← requestRefreshes rest
          pure (if asked then id :: others else others)).run middle = .ok answer later ∧
            motive later := by
      obtain ⟨answer, later, done, kept'⟩ := ih kept
      refine ⟨if asked then id :: answer else answer, later, ?_, kept'⟩
      rw [EStateM.run_bind, done]
      rfl
    rw [requestRefreshes, run_get_bind]
    cases present : session.views.contains id with
    | false => exact others false start
    | true =>
      obtain ⟨view, found⟩ := Option.isSome_iff_exists.mp present
      have known : session.views.find id = .ok view := by
        unfold Catalog.find
        rw [found]
      obtain ⟨asked, middle, done, kept⟩ := each start known
      simp only [if_true, EStateM.run_bind, done]
      exact others asked kept

theorem refreshes_busy (alive : session.isClosed = false) (busy : session.prompting = false)
    (buffered : session.views.Buffered) (ids : List String) :
    ∃ asked later, (requestRefreshes ids).run session = .ok asked later ∧ session.Unmoved later := by
  refine refreshes_each (fun {middle id view} unmoved known => ?_) ids (unmoved_refl session)
  have still : middle.isClosed = false := by
    have same : middle.sink = session.sink := congrArg Talk.sink unmoved.talk
    rwa [Session.isClosed, same]
  have waits : middle.prompting = false := (congrArg Talk.waits unmoved.talk).trans busy
  obtain ⟨asked, later, done, unmoved'⟩ :=
    refresh_busy still waits (unmoved.views ▸ buffered) known
  exact ⟨asked, later, done, unmoved_trans unmoved unmoved'⟩

-- An annotation that announces no phase and asks no question only makes views stale, or is noted.
theorem remark_runs {marker : Marker} (alive : session.isClosed = false)
    (busy : session.prompting = false) (buffered : session.views.Buffered)
    (kind : marker.kind.phase? = none) (plain : marker.kind ≠ .question) (complete : Completion) :
    ∃ later, (react complete marker).run session = .ok () later ∧
      (session.log (.annotated marker)).Unmoved later := by
  let told := session.log (.annotated marker)
  have stale (ids : List String) :
      ∃ later, (discard (requestRefreshes ids) : Engine Unit).run told = .ok () later ∧
        told.Unmoved later := by
    have still : told.isClosed = false := alive
    obtain ⟨asked, later, done, unmoved⟩ := refreshes_busy still busy buffered ids
    exact ⟨later, by rw [run_discard, done], unmoved⟩
  have noted {next : Engine Unit} (notes : Notes next) :
      ∃ later, next.run told = .ok () later ∧ told.Unmoved later := by
    obtain ⟨later, done, noted⟩ := notes told
    exact ⟨later, done, noted_unmoved noted⟩
  unfold Marker.kind at kind plain
  simp only [react, EStateM.run_bind, run_require_open, alive, Bool.false_eq_true, if_false, run_record]
  generalize Annotation.ofTag marker.tag = annotation at kind plain ⊢
  cases annotation with
  | prePrompt | prompt | postPrompt | starting | exited | stopping | stopped => cases kind
  | question => exact absurd rfl plain
  | signalName => exact noted (notes_modify fun _ => ⟨_, _, _, _, _, rfl⟩)
  | source => exact noted (notes_location marker.args)
  | frameBegin => exact noted (notes_frame marker.args)
  | breakpointsInvalid => exact stale breakpointViews
  | framesInvalid => exact stale frameViews
  | other => exact ⟨told, rfl, unmoved_refl told⟩

end Remarks

section Reactions

variable {gdb : Gdb} {session : Session} {done : List (Bytes × Marker)}

theorem run_react_pre_prompt {marker : Marker} (alive : session.isClosed = false)
    (kind : marker.kind = .prePrompt) (complete : Completion) :
    (react complete marker).run session =
      (enterPrePrompt complete marker.tag).run (session.log (.annotated marker)) := by
  have tag : Annotation.ofTag marker.tag = .prePrompt := kind
  simp only [react, EStateM.run_bind, run_require_open, alive, Bool.false_eq_true, if_false,
    run_record, tag]

theorem run_react_prompt {marker : Marker} (alive : session.isClosed = false)
    (kind : marker.kind = .prompt) (complete : Completion) :
    (react complete marker).run session =
      (enterPrompt marker.tag).run (session.log (.annotated marker)) := by
  have tag : Annotation.ofTag marker.tag = .prompt := kind
  simp only [react, EStateM.run_bind, run_require_open, alive, Bool.false_eq_true, if_false,
    run_record, tag]

theorem run_react_post_prompt {marker : Marker} (alive : session.isClosed = false)
    (kind : marker.kind = .postPrompt) (complete : Completion) :
    (react complete marker).run session =
      (enter .postPrompt marker.tag).run (session.log (.annotated marker)) := by
  have tag : Annotation.ofTag marker.tag = .postPrompt := kind
  simp only [react, EStateM.run_bind, run_require_open, alive, Bool.false_eq_true, if_false,
    run_record, tag]

theorem conforms_entered (hears : session.Hears gdb done) {phase : Phase}
    (stage : Stage gdb (session.talk.enter phase) done) : (session.enter phase).Conforms gdb :=
  ⟨done, hears_later hears (sound_entered hears.sound phase) (unread_same rfl rfl) (Nat.le_refl _), stage⟩

theorem entered_runs {phase : Phase} (tag : String)
    (admitted : (session.sink.after? phase).isSome = true) :
    (enter phase tag).run session = .ok () (session.enter phase) := by
  rw [run_enter, if_pos admitted]

theorem complete_nothing (name output : String) :
    handle (.routine name [] none) output = pure () := rfl

-- The output is handed over. Its handler performs nothing that could fail.
theorem fulfilled_runs (tag : String) (gathering : session.sink = .gathering)
    (passive : ∀ command ∈ session.inFlight, command.isPassive = true) :
    (enterPrePrompt handle tag).run session = .ok () session.fulfil := by
  rw [run_pre_prompt_gathering _ tag gathering]
  unfold Session.fulfil
  cases flight : session.inFlight with
  | none => rfl
  | some command =>
    cases handled : command.handler? with
    | none => simp [handled]
    | some handler =>
      have own : handler.isPassive = true := by
        have own := passive command flight
        rwa [Command.isPassive, handled] at own
      simp only [Option.bind_some, handled, Option.map_some]
      match handler, own with
      | .discard, _ => rw [handle, complete_discard]; rfl
      | .refresh view, _ => rw [handle, complete_refresh]; rfl
      | .routine name [] none, _ => rw [complete_nothing]; rfl

theorem talk_fulfil {command : Command} (flight : session.inFlight = some command)
    (own : command.handler?.isSome = true) : session.fulfil.talk = session.talk.fulfil command := by
  obtain ⟨handler, handled⟩ := Option.isSome_iff_exists.mp own
  cases handler <;>
    simp [Session.fulfil, flight, handled, Session.finish, Session.log, Session.settle, Session.talk,
      Talk.fulfil, sentIn, completionsIn, read_append, readIn, Event.command?, Event.completion?,
      Display.setBuffer, Display.countRefresh, List.filterMap_cons]

theorem sound_fulfil (sound : session.Sound) : session.fulfil.Sound := by
  rcases session.fulfil_cases with ⟨-, events, told, same⟩ | ⟨command, view, -, -, same⟩ <;> rw [same]
  · refine sound_same sound rfl rfl (fun _ => .inl) ⟨rfl, rfl⟩ ⟨sound.unasked, sound.rested⟩
      (wire_silent session.journal ?_)
    rcases told with rfl | ⟨command, rfl⟩ <;> simp [Event.command?, Event.line?]
  · exact sound_same sound rfl rfl (fun _ => .inl) ⟨rfl, rfl⟩ ⟨sound.unasked, sound.rested⟩
      (wire_silent session.journal (by simp [Event.command?, Event.line?]))

theorem conforms_fulfilled {command : Command} (hears : session.Hears gdb done)
    (flight : session.inFlight = some command) (own : command.handler?.isSome = true)
    (stage : Stage gdb (session.talk.fulfil command) done) : session.fulfil.Conforms gdb := by
  have talk := talk_fulfil flight own
  have sent : sentIn session.fulfil.journal = sentIn session.journal := congrArg Talk.sent talk
  refine ⟨done, hears_later hears (sound_fulfil hears.sound) (unread_fulfil session)
    (Nat.le_of_eq (congrArg List.length sent.symm)), ?_⟩
  rw [talk]
  exact stage

theorem polled_runs (heard : session.process.pipeBroken = false) :
    answerPrompt.run session = .ok () session.poll := by
  rw [run_answer_prompt, Session.outcome, (poll_same session).1, heard]
  split <;> rfl

/-- A marker line that the talk awaits is acted upon without a fault, and the talk goes on. -/
theorem react_conforms {marker : Marker} (alive : session.isClosed = false)
    (hears : (session.log (.annotated marker)).Hears gdb done) (cue : Cue gdb session.talk marker done) :
    ∃ later, (react handle marker).run session = .ok () later ∧ later.Conforms gdb ∧
      later.position = session.position := by
  let told := session.log (.annotated marker)
  have talk : told.talk = session.talk.mark := talk_annotated session marker
  cases cue with
  | remark kind plain busy stage =>
    obtain ⟨later, done, unmoved⟩ := remark_runs alive busy hears.sound.views kind plain handle
    exact ⟨later, done, conforms_unmoved ⟨_, hears, talk ▸ stage⟩ unmoved, unmoved.unread.position⟩
  | begun kind admitted stage =>
    refine ⟨told.enter .postPrompt, ?_, conforms_entered hears (talk ▸ stage), rfl⟩
    rw [run_react_post_prompt alive kind]
    exact entered_runs marker.tag admitted
  | passed kind console stage =>
    have elsewhere : told.sink ≠ .gathering := by
      intro gathering
      cases console.symm.trans gathering
    have admitted : (told.sink.after? .prePrompt).isSome = true := by
      rw [show told.sink = .console from console]
      rfl
    refine ⟨told.enter .prePrompt, ?_, conforms_entered hears (talk ▸ stage), rfl⟩
    rw [run_react_pre_prompt alive kind, run_pre_prompt_elsewhere handle marker.tag elsewhere]
    exact entered_runs marker.tag admitted
  | @fulfilled command kind gathering flight own stage =>
    have flies : told.inFlight = some command := flight
    have passive (other : Command) (member : other ∈ told.inFlight) : other.isPassive = true :=
      plain_passive (hears.sound.plain other (List.mem_append_right _ (Option.mem_toList.mpr member)))
    refine ⟨told.fulfil, ?_, conforms_fulfilled hears flies own (talk ▸ stage), told.fulfil_position⟩
    rw [run_react_pre_prompt alive kind]
    exact fulfilled_runs marker.tag gathering passive
  | prompt kind admitted finished =>
    have entered : (enter .prompt marker.tag).run told = .ok () (told.enter .prompt) :=
      entered_runs marker.tag admitted
    have hears : (told.enter .prompt).Hears gdb done :=
      hears_later hears (sound_entered hears.sound .prompt) (unread_same rfl rfl) (Nat.le_refl _)
    have ends : Finished gdb (told.enter .prompt).talk done := by
      have same : (told.enter .prompt).talk = session.talk.mark.enter .prompt :=
        congrArg (Talk.enter · .prompt) talk
      rwa [same]
    refine ⟨(told.enter .prompt).poll, ?_, conforms_poll hears ends, Session.poll_position _⟩
    rw [run_react_prompt alive kind, run_enter_prompt, entered]
    exact polled_runs hears.sound.heard

end Reactions

end Engine

end GdbControl
