import GdbControl.Proofs.Waiting

/-!
What is written to gdb. Each write ends a line, and is one line unless the user gave a text with more
lines in it, which is passed on as it is. No other command has a newline: not those of the setup, not
those of the views, not those that tools make of numbers.
-/

namespace GdbControl

/-- A text that has no newline before its end. -/
def OneLine (text : String) : Prop := '\n' ∉ text.toList.dropLast

instance (text : String) : Decidable (OneLine text) :=
  inferInstanceAs (Decidable ('\n' ∉ text.toList.dropLast))

section Texts

theorem newline_encoded {c : Char} : Stream.newline ∈ String.utf8EncodeChar c ↔ c = '\n' := by
  constructor
  · intro member
    -- The bytes of a character that has several of them are all large.
    have large {n : Nat} (least : 128 ≤ n) (most : n < 256) : Stream.newline ≠ UInt8.ofNat n := by
      intro same
      have numbers := congrArg UInt8.toNat same
      simp only [Stream.newline, UInt8.toNat_ofNat', UInt8.toNat_ofNat] at numbers
      omega
    by_cases ascii : c.val.toNat ≤ 127
    · rw [String.utf8EncodeChar, if_pos ascii, List.mem_singleton] at member
      have numbers := congrArg UInt8.toNat member
      simp only [Stream.newline, UInt8.toNat_ofNat', UInt8.toNat_ofNat] at numbers
      have value : c.val.toNat = 10 := by omega
      exact Char.ext (UInt32.toNat_inj.mp value)
    · rw [String.utf8EncodeChar, if_neg ascii] at member
      split at member
      · simp (disch := omega) only [List.mem_cons, List.not_mem_nil, large, or_false] at member
      · split at member <;>
          simp (disch := omega) only [List.mem_cons, List.not_mem_nil, large, or_false] at member
  · rintro rfl
    decide

theorem bytes_of_text (text : String) :
    text.toUTF8.data.toList = text.toList.flatMap String.utf8EncodeChar := by
  have encoded : text.toUTF8 = text.toList.utf8Encode := String.utf8Encode_toList.symm
  rw [encoded, List.utf8Encode, List.data_toByteArray]

/-- A command is written with a newline at its end, and with those newlines that it has before. -/
theorem written_line (text : String) :
    ∃ front, (Command.typed text).written.toList = front ++ ['\n'] ∧
      (OneLine text → '\n' ∉ front) := by
  unfold Command.written Command.typed Command.text
  dsimp only
  split
  · next ended =>
    obtain ⟨front, shape⟩ := List.getLast?_eq_some_iff.mp ended
    refine ⟨front, shape, fun single => ?_⟩
    rwa [OneLine, shape, List.dropLast_concat] at single
  · next unended =>
    refine ⟨text.toList, by simp, fun single member => ?_⟩
    rcases List.eq_nil_or_concat text.toList with none | ⟨front, last, shape⟩
    · simp [none] at member
    · rw [List.concat_eq_append] at shape
      rw [OneLine, shape, List.dropLast_concat] at single
      rw [shape, List.mem_append, List.mem_singleton] at member
      rcases member with inside | rfl
      · exact single inside
      · exact unended (List.getLast?_eq_some_iff.mpr ⟨front, shape⟩)

/-- The bytes of a line: the newline at the end is the only one, if the text has none before it. -/
theorem line_bytes (text : String) :
    ∃ body, (Command.typed text).written.toUTF8.data.toList = body ++ [Stream.newline] ∧
      (OneLine text → Stream.newline ∉ body) := by
  obtain ⟨front, shape, single⟩ := written_line text
  refine ⟨front.flatMap String.utf8EncodeChar, ?_, fun plain member => ?_⟩
  · rw [bytes_of_text, shape, List.flatMap_append]
    rfl
  · obtain ⟨c, inside, encoded⟩ := List.mem_flatMap.mp member
    exact single plain (newline_encoded.mp encoded ▸ inside)

theorem one_line_of_plain {text : String} (plain : '\n' ∉ text.toList) : OneLine text :=
  fun member => plain ((List.dropLast_sublist text.toList).mem member)

theorem digits_plain (number : Nat) : '\n' ∉ (toString number).toList := by
  intro member
  have digit : Char.isDigit '\n' = true := by
    rw [Nat.toString_eq_ofList_toDigits, String.toList_ofList] at member
    exact Nat.isDigit_of_mem_toDigits (by decide) (by decide) member
  exact absurd digit (by decide)

theorem number_plain (number : Int) : '\n' ∉ (toString number).toList := by
  cases number with
  | ofNat number => exact digits_plain number
  | negSucc number =>
    change '\n' ∉ ("-" ++ toString (number + 1)).toList
    rw [String.toList_append, List.mem_append]
    rintro (sign | digits)
    · exact absurd sign (by decide)
    · exact digits_plain _ digits

end Texts

/-- The text that a tool has from its caller and gives to gdb. -/
def ToolCall.free? : ToolCall → Option String
  | .sendCommand _ command _ _ _ => some command
  | .setBreakpoint _ location condition temporary =>
    some (ToolCall.breakCommand location condition temporary)
  | _ => none

theorem line_own {call : ToolCall} {text : String} (line : call.line? = some text) :
    OneLine text ∨ call.free? = some text := by
  have counted (verb : String) (plain : '\n' ∉ verb.toList) (number : Int) :
      OneLine (verb ++ toString number) := by
    refine one_line_of_plain ?_
    rw [String.toList_append, List.mem_append]
    exact fun member => member.elim plain (number_plain number)
  cases call with
  | sendCommand | setBreakpoint => exact .inr line
  | run | continueExecution | finish =>
    cases line
    exact .inl (by decide)
  | step session count =>
    cases line
    exact .inl (counted "step " (by decide) _)
  | next session count =>
    cases line
    exact .inl (counted "next " (by decide) _)
  | removeBreakpoint session breakpoint =>
    cases line
    exact .inl (counted "delete " (by decide) _)
  | _ => cases line

def Event.isWrite : Event → Bool
  | .wrote _ => true
  | _ => false

/-- All commands that a session has in hand, all that it may fetch for its views, and all that it has
written are of fit texts. -/
structure Session.Speaks (fit : String → Prop) (session : Session) : Prop where
  commands : ∀ command ∈ session.commands, fit command.text
  views : ∀ view ∈ session.views.values, fit view.command
  written : ∀ line, .wrote line ∈ session.journal →
    ∃ text, fit text ∧ line = (Command.typed text).written

section Speaks

variable {fit : String → Prop} {session later : Session}

-- A session speaks on if it gets no command and no view from elsewhere, and writes nothing.
theorem speaks_kept (speaks : session.Speaks fit) {events : List Event}
    (commands : ∀ command ∈ later.commands, command ∈ session.commands ∨ fit command.text)
    (views : later.views = session.views) (told : later.journal = session.journal ++ events)
    (silent : ∀ event ∈ events, event.isWrite = false) : later.Speaks fit := by
  constructor
  · intro command member
    exact (commands command member).elim (speaks.commands command) id
  · rw [views]
    exact speaks.views
  · intro line member
    rw [told, List.mem_append] at member
    rcases member with earlier | new
    · exact speaks.written line earlier
    · cases silent _ new

theorem speaks_quiet (speaks : session.Speaks fit)
    (commands : ∀ command ∈ later.commands, command ∈ session.commands ∨ fit command.text)
    (views : later.views = session.views) (told : later.journal = session.journal) :
    later.Speaks fit :=
  speaks_kept speaks commands views (told.trans (List.append_nil _).symm) (by simp)

theorem speaks_same (speaks : session.Speaks fit) {events : List Event}
    (commands : later.commands = session.commands) (views : later.views = session.views)
    (told : later.journal = session.journal ++ events)
    (silent : ∀ event ∈ events, event.isWrite = false) : later.Speaks fit :=
  speaks_kept speaks (fun _ member => .inl (commands ▸ member)) views told silent

theorem speaks_log (speaks : session.Speaks fit) {event : Event} (silent : event.isWrite = false) :
    (session.log event).Speaks fit :=
  speaks_same speaks rfl rfl rfl (by simpa using silent)

theorem speaks_send_out (speaks : session.Speaks fit) (tier : Option Tier) {command : Command}
    (own : fit command.text) : (session.sendOut tier command).Speaks fit := by
  constructor
  · intro other member
    simp only [Session.commands, Session.send_out_urgent, Session.send_out_idle,
      Session.send_out_in_flight, Option.toList_some, List.mem_append, List.mem_singleton] at member
    rcases member with queued | rfl
    · exact speaks.commands other (List.mem_append_left _ (List.mem_append.mpr queued))
    · exact own
  · rw [Session.send_out_views]
    exact speaks.views
  · intro line member
    rw [Session.send_out_journal, List.mem_append] at member
    rcases member with earlier | sent
    · exact speaks.written line earlier
    · have same : line = command.written := by
        unfold Session.sending at sent
        split at sent
        · simp at sent
        · simpa using sent
      exact ⟨command.text, own, same⟩

theorem speaks_accept (speaks : session.Speaks fit) (tier : Tier) {command : Command}
    (own : fit command.text) : (session.accept tier command).Speaks fit := by
  have heard : (session.log (.accepted tier command)).Speaks fit := speaks_log speaks rfl
  unfold Session.accept
  split
  · exact speaks_send_out heard (some tier) own
  · refine speaks_quiet heard (fun other member => ?_) ?_ ?_
    · rcases push_commands member with known | rfl
      · exact .inl known
      · exact .inr own
    · cases tier <;> rfl
    · cases tier <;> rfl

-- A command that is taken out of its queue goes out.
theorem speaks_sent (speaks : session.Speaks fit) {rest : Session} (tier : Option Tier)
    {command : Command} (taken : command ∈ session.commands)
    (commands : ∀ other ∈ rest.commands, other ∈ session.commands)
    (views : rest.views = session.views) (told : rest.journal = session.journal) :
    (rest.sendOut tier command).Speaks fit := by
  have left : rest.Speaks fit :=
    speaks_quiet speaks (fun other member => .inl (commands other member)) views told
  exact speaks_send_out left tier (speaks.commands command taken)

theorem speaks_poll (speaks : session.Speaks fit) : session.poll.Speaks fit := by
  unfold Session.poll
  split
  · next command rest high =>
    refine speaks_sent speaks (some .urgent) (by simp [Session.commands, high]) ?_ (by simp) (by simp)
    intro other member
    simp only [Session.commands, high, Session.release_idle, Session.release_in_flight,
      List.mem_append, List.mem_cons] at member ⊢
    grind
  · next command rest high low =>
    refine speaks_sent speaks (some .idle) (by simp [Session.commands, low]) ?_ (by simp) (by simp)
    intro other member
    simp only [Session.commands, high, low, Session.release_urgent, Session.release_in_flight,
      List.mem_append, List.mem_cons] at member ⊢
    grind
  · next high low =>
    have told : ({ session with questioned := false }.release.log .idled).journal =
        session.journal ++ [.idled] := by
      simp [Session.log]
    refine speaks_kept speaks (fun other member => ?_) (by simp [Session.log]) told
      (by simp [Event.isWrite])
    simp [Session.commands, Session.log, high, low] at member

theorem speaks_ask (speaks : session.Speaks fit) : session.ask.Speaks fit := by
  unfold Session.ask
  split
  · next command rest high =>
    refine speaks_sent speaks (some .urgent) (by simp [Session.commands, high]) ?_ rfl rfl
    intro other member
    simp only [Session.commands, high, List.mem_append, List.mem_cons] at member ⊢
    grind
  · exact speaks_quiet speaks (fun _ => .inl) rfl rfl

theorem speaks_fulfil (speaks : session.Speaks fit) : session.fulfil.Speaks fit := by
  rcases session.fulfil_cases with ⟨-, events, told, same⟩ | ⟨command, view, -, -, same⟩ <;> rw [same]
  · refine speaks_same speaks rfl rfl rfl ?_
    rcases told with rfl | ⟨command, rfl⟩ <;> simp [Event.isWrite]
  · exact speaks_same speaks rfl rfl rfl (by simp [Event.isWrite])

theorem speaks_reaction (speaks : session.Speaks fit) {marker : Marker}
    (reaction : Reaction marker session later) : later.Speaks fit := by
  have logged : (session.log (.annotated marker)).Speaks fit := speaks_log speaks rfl
  have entered (phase : Phase) : ((session.log (.annotated marker)).enter phase).Speaks fit :=
    speaks_quiet logged (fun _ => .inl) rfl rfl
  cases reaction with
  | prompt => exact speaks_poll (entered .prompt)
  | question => exact speaks_ask logged
  | phase => exact entered _
  | fulfilled => exact speaks_fulfil logged
  | remark => exact logged

theorem speaks_hear (speaks : session.Speaks fit) (text : String) :
    (session.hear text).Speaks fit := by
  obtain ⟨display, gathered, events, same, told⟩ := session.hear_shape text
  rw [same]
  refine speaks_same speaks rfl rfl rfl fun event member => ?_
  rw [told event member]
  rfl

theorem speaks_pass (speaks : session.Speaks fit) (text : String) (held : Bytes) (midLine : Bool) :
    (session.pass text held midLine).Speaks fit := by
  have kept : (session.hold held midLine).Speaks fit :=
    speaks_quiet speaks (fun _ => .inl) rfl rfl
  exact speaks_hear kept text

theorem speaks_close (speaks : session.Speaks fit) : session.close.Speaks fit := by
  unfold Session.close
  split
  · exact speaks
  · refine speaks_quiet speaks (fun other member => ?_) rfl rfl
    simp [Session.commands] at member

theorem speaks_move (speaks : session.Speaks fit)
    (move : Move Operation.isReception session later) : later.Speaks fit := by
  cases move with
  | accept own => cases allowed_of_within own
  | @request id view _ known =>
    have awaited : (session.await id).Speaks fit :=
      speaks_quiet speaks (fun _ => .inl) rfl rfl
    exact speaks_accept awaited .idle (speaks.views view (List.mem_map_of_mem (find_mem known)))
  | arrive | complain => exact speaks_same speaks rfl rfl rfl (by simp [Event.isWrite])
  | cut _ _ _ reaction => exact speaks_reaction (speaks_pass speaks _ _ _) reaction
  | lines | flush => exact speaks_pass speaks _ _ _
  | note => exact speaks_quiet speaks (fun _ => .inl) rfl rfl
  | close => exact speaks_close speaks
  | send granted | registerHandled granted => cases allowed_of_within granted
  | react granted | hear granted | addBuffer granted | removeBuffer granted | register granted
  | setPipe granted | take granted | poll granted | ask granted | setSink granted
  | setPrompting granted => cases granted

theorem speaks_lapses (speaks : session.Speaks fit)
    (lapses : Lapses Operation.isReception session later) : later.Speaks fit := by
  induction lapses with
  | refl => exact speaks
  | tail _ lapse ih =>
    cases lapse with
    | move move => exact speaks_move ih move
    | skip => exact speaks_pass ih _ _ _
    | abort => exact speaks_close ih

theorem speaks_around (speaks : session.Speaks fit) (display : Display) (process : Subprocess) :
    Session.Speaks fit { session with display := display, process := process } :=
  speaks_quiet speaks (fun _ => .inl) rfl rfl

theorem speaks_forgetful (speaks : session.Speaks fit) : session.forgetful.Speaks fit :=
  ⟨speaks.commands, speaks.views, by simp [Session.forgetful]⟩

theorem speaks_open (speaks : session.Speaks fit) (alive : session.isClosed = false) (id : String) :
    ((Engine.openView id).after session).Speaks fit := by
  rw [Engine.after_open alive]
  cases known : session.views.find id with
  | error fault => exact speaks
  | ok view =>
    have opened : (session.opened id).unwoken.Speaks fit :=
      speaks_around speaks (session.opened id).unwoken.display session.process
    dsimp only
    split
    · exact opened
    · have awaited : ((session.opened id).unwoken.await id).Speaks fit :=
        speaks_quiet opened (fun _ => .inl) rfl rfl
      exact speaks_accept awaited .idle (speaks.views view (List.mem_map_of_mem (find_mem known)))

theorem act_speaks {given : String → Prop} (own : ∀ text, given text → fit text)
    (inside : session.Within Operation.isReception) (speaks : session.Speaks fit)
    (act : Act given session later) : later.Speaks fit := by
  cases act with
  | @submit command said alive =>
    rw [Engine.after_submit alive]
    exact speaks_accept (speaks_around speaks session.unwoken.display session.process) .urgent
      (own command said)
  | openView view alive => exact speaks_open speaks alive view
  | closeView view => exact speaks_around speaks (session.display.removeBuffer view) session.process
  | receive delivery =>
    by_cases exits : delivery = .exit
    · subst exits
      exact speaks_around (speaks_close speaks) session.close.display.markReady session.close.process
    · exact speaks_lapses speaks (Engine.received_lapses inside rfl rfl exits)
  | close => exact speaks_close speaks
  | process process => exact speaks_around speaks session.display process

theorem speaks_start (single : ∀ text, OneLine text → fit text) {config : Config}
    {views : Catalog} (known : config.catalog = .ok views) (process : Subprocess) :
    Session.Speaks fit { Session.start process views with urgent := startup } := by
  constructor
  · intro command member
    have own : ∀ command ∈ startup, OneLine command.text := by decide
    have queued : command ∈ startup := by simpa [Session.commands, Session.start] using member
    exact single _ (own command queued)
  · intro view member
    obtain ⟨entry, listed, rfl⟩ := List.mem_map.mp member
    have standard := catalog_standard known entry listed
    have plain : ∀ entry ∈ standardViews, OneLine entry.2 := by decide
    unfold standardView? at standard
    split at standard
    · next command found =>
      obtain ⟨front, back, shape, -⟩ := List.lookup_eq_some_iff.mp found
      have own := single command (plain (entry.1, command) (by simp [shape]))
      rwa [← Except.ok.inj standard]
    · cases standard
  · intro line member
    cases member

end Speaks

/-- All sessions speak fit texts, and whatever a session has written, also one that is gone. -/
structure Client.Speaks (fit : String → Prop) (client : Client) : Prop where
  sessions : ∀ id attachment, client.sessions.get? id = some attachment →
    attachment.session.Speaks fit
  written : ∀ id line, .did id (.wrote line) ∈ client.journal →
    ∃ text, fit text ∧ line = (Command.typed text).written

section Clients

variable {given fit : String → Prop} {client later : Client}

theorem written_muttered (mutters : client.Mutters later) {id line : String}
    (written : .did id (.wrote line) ∈ later.journal) : .did id (.wrote line) ∈ client.journal := by
  obtain ⟨activities, told, silent⟩ := mutters
  rw [told, List.mem_append] at written
  rcases written with earlier | new
  · exact earlier
  · cases silent _ new

theorem step_speaks (single : ∀ text, OneLine text → fit text)
    (own : ∀ text, given text → fit text) (sound : client.Sound) (speaks : client.Speaks fit)
    (step : client.Step given later) : later.Speaks fit := by
  let holds (session : Session) : Prop := session.Attentive ∧ session.Speaks fit
  have each : ∀ id attachment, client.sessions.get? id = some attachment →
      holds attachment.session :=
    fun id attachment present => ⟨sound.attentive id attachment present,
      speaks.sessions id attachment present⟩
  have acted : ∀ session later, holds session → Act given session later → holds later.forgetful :=
    fun session later held act => ⟨attentive_forgetful (act_attentive held.1 act),
      speaks_forgetful (act_speaks own held.1.inside held.2 act)⟩
  have new : ∀ (config : Config) (process : Subprocess) (views : Catalog),
      config.catalog = .ok views → holds { Session.start process views with urgent := startup } :=
    fun config process views known => ⟨attentive_start process (catalog_buffered known),
      speaks_start single known process⟩
  refine ⟨fun id attachment present => (step_each new acted each step id attachment present).2, ?_⟩
  intro id line written
  cases step with
  | aside _ _ told => exact speaks.written id line (written_muttered told written)
  | launch _ _ _ _ _ spawned told =>
    rw [told, List.mem_append] at written
    rcases written with earlier | queued
    · exact speaks.written id line (written_muttered spawned earlier)
    · simp at queued
  | @act _ attachment _ present act =>
    rw [Client.keep, List.mem_append] at written
    rcases written with earlier | added
    · exact speaks.written id line earlier
    · obtain ⟨event, told, same⟩ := List.mem_map.mp added
      cases same
      have held := each _ attachment present
      exact (act_speaks own held.1.inside held.2 act).written line told
  | forget => exact speaks.written id line written

theorem steps_speak (single : ∀ text, OneLine text → fit text)
    (own : ∀ text, given text → fit text) (sound : client.Sound) (speaks : client.Speaks fit)
    (steps : client.Steps given later) : later.Speaks fit := by
  induction steps with
  | refl => exact speaks
  | tail steps step ih => exact step_speaks single own (steps_sound sound steps) ih step

theorem speaks_mono {wide : String → Prop} (speaks : client.Speaks fit)
    (le : ∀ text, fit text → wide text) : client.Speaks wide := by
  have widen {line : String} (written : ∃ text, fit text ∧ line = (Command.typed text).written) :
      ∃ text, wide text ∧ line = (Command.typed text).written := by
    obtain ⟨text, own, same⟩ := written
    exact ⟨text, le text own, same⟩
  refine ⟨fun id attachment present => ?_, fun id line told => widen (speaks.written id line told)⟩
  have session := speaks.sessions id attachment present
  exact ⟨fun command member => le _ (session.commands command member),
    fun view member => le _ (session.views view member),
    fun line told => widen (session.written line told)⟩

end Clients

/-- A run of a client from its beginning, with the calls that were made in it. -/
inductive Client.Course (config : Config) : List ToolCall → Client → Prop where
  | start : Course config [] { config := config }
  | call {calls : List ToolCall} {client : Client} (course : Course config calls client)
    (call : ToolCall) : Course config (calls ++ [call]) ((Control.perform call).after client)
  | befall {calls : List ToolCall} {client later : Client} (course : Course config calls client)
    (befalls : client.Befalls later) : Course config calls later

/-- A text of one line, or one that some call has from its caller. -/
def Fit (calls : List ToolCall) (text : String) : Prop :=
  OneLine text ∨ ∃ call ∈ calls, call.free? = some text

section Courses

variable {config : Config} {calls : List ToolCall} {client later : Client}

theorem course_reaches (course : Client.Course config calls client) :
    Client.Reaches { config := config } client := by
  induction course with
  | start => exact .refl
  | call _ call ih => exact ih.tail (.call call)
  | befall _ befalls ih => exact ih.tail (befalls_next befalls)

theorem course_speaks (course : Client.Course config calls client) : client.Speaks (Fit calls) := by
  induction course with
  | start => exact ⟨by rintro id attachment ⟨⟩, by rintro id line ⟨⟩⟩
  | @call calls client course call ih =>
    have sound := reached_sound (course_reaches course)
    have wide : client.Speaks (Fit (calls ++ [call])) := by
      refine speaks_mono ih fun text fit => fit.imp_right ?_
      rintro ⟨other, member, free⟩
      exact ⟨other, List.mem_append_left _ member, free⟩
    have own (text : String) (line : call.line? = some text) : Fit (calls ++ [call]) text :=
      (line_own line).imp_right fun free => ⟨call, by simp, free⟩
    exact steps_speak (fun _ => .inl) own sound wide
      (Control.stepwise_perform call (fun _ => id) client)
  | befall course befalls ih =>
    have sound := reached_sound (course_reaches course)
    exact steps_speak (fun _ => .inl) (fun _ => False.elim) sound ih (befalls_steps befalls)

end Courses

/-- A line stands for one command, if no caller gave the command several lines. -/
def LineFor (calls : List ToolCall) (line : String) : Prop :=
  ∃ text body, line = (Command.typed text).written ∧
    line.toUTF8.data.toList = body ++ [Stream.newline] ∧
    (Stream.newline ∉ body ∨
      '\n' ∈ text.toList.dropLast ∧ ∃ call ∈ calls, call.free? = some text)

/-- Whatever the tools are called with and whatever gdb prints: each write to gdb is the text of a
command with a newline at its end. That newline is its only one, unless the text is one that a caller
gave and has a newline before its end. -/
theorem writes_are_lines {config : Config} {calls : List ToolCall} {client : Client}
    (course : Client.Course config calls client) {id line : String}
    (written : .did id (.wrote line) ∈ client.journal) : LineFor calls line := by
  obtain ⟨text, fit, same⟩ := (course_speaks course).written id line written
  obtain ⟨body, bytes, single⟩ := line_bytes text
  refine ⟨text, body, same, same ▸ bytes, ?_⟩
  by_cases plain : OneLine text
  · exact .inl (single plain)
  · exact .inr ⟨Decidable.not_not.mp plain, fit.resolve_left plain⟩

theorem written_did {id line : String} {journal : List Activity}
    (written : line ∈ writtenIn (eventsOf id journal)) : .did id (.wrote line) ∈ journal := by
  obtain ⟨event, told, wrote⟩ := List.mem_filterMap.mp written
  have same : event = .wrote line := by
    cases event <;> first | exact congrArg _ (Option.some.inj wrote) | cases wrote
  obtain ⟨activity, member, own⟩ := List.mem_filterMap.mp told
  cases activity with
  | did name other =>
    simp only [Option.ite_none_right_eq_some, Option.some.injEq] at own
    obtain ⟨rfl, rfl⟩ := own
    exact same ▸ member
  | _ => cases own

/-- The output with which gdb comes to its prompt when it has answered the commands of the setup. -/
def setupOutput : Bytes :=
  let marked (tag : String) : String := "\x1A\x1A" ++ tag ++ "\n"
  let around : String := marked "post-prompt" ++ marked "pre-prompt" ++ marked "prompt"
  (marked "prompt" ++ around ++ around ++ around).toUTF8.data.toList

/-- A client that has set up a session, and then gets one more call. -/
def calledOnce (call : ToolCall) : Client :=
  let begun : Client := { config := { gdbPath := .string "gdb" } }
  let started := (Control.perform (.startDebug (some "a.out") none none)).after begun
  let ready := (Control.deliver "session_1" [.output setupOutput]).after started
  (Control.perform call).after ready

theorem called_once_course (call : ToolCall) :
    Client.Course { gdbPath := .string "gdb" } [.startDebug (some "a.out") none none, call]
      (calledOnce call) :=
  .call (.befall (.call .start _) (.deliver _ _)) call

/-- A conditional breakpoint is set with one line. -/
theorem breakpoint_on_one_line :
    let last := ToolCall.setBreakpoint "session_1" "größe.c:3" (some "n > 1") false
    let line := "break größe.c:3 if n > 1\n"
    Activity.did "session_1" (.wrote line) ∈ (calledOnce last).journal ∧
    LineFor [.startDebug (some "a.out") none none, last] line := by
  intro last line
  have shown : line ∈ writtenIn (eventsOf "session_1" (calledOnce last).journal) := by
    decide +kernel
  have written := written_did shown
  exact ⟨written, writes_are_lines (called_once_course last) written⟩

/-- A command with a newline inside is written as it is, so that gdb reads two. -/
theorem two_lines_at_once :
    let call := ToolCall.sendCommand "session_1" "info frame\nnext" (some false) none {}
    let line := "info frame\nnext\n"
    Client.Course { gdbPath := .string "gdb" } [.startDebug (some "a.out") none none, call]
      (calledOnce call) ∧
    Activity.did "session_1" (.wrote line) ∈ (calledOnce call).journal ∧
    line.toUTF8.data.toList.count Stream.newline = 2 := by
  intro call line
  have shown : line ∈ writtenIn (eventsOf "session_1" (calledOnce call).journal) := by
    decide +kernel
  exact ⟨called_once_course call, written_did shown, by decide +kernel⟩

end GdbControl
