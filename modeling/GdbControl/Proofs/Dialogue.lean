import GdbControl.Proofs.Completion
import GdbControl.Proofs.Parsing
import GdbControl.Proofs.Script

/-!
The talk of a session with a gdb that keeps to the protocol, apart from all else that the session does.
How much of gdb's script has been read, and which commands went out, says where the talk stands: where
text goes, what was shown to the user, what was gathered, and which outputs were handed over. The next
marker line of the script is then the one that is awaited.
-/

namespace GdbControl

/-- What matters of a session to its talk with gdb. -/
structure Talk where
  sink : Sink
  flight : Option Command
  gathered : String
  waits : Bool
  transcript : String
  sent : List Command
  completions : List (Command × String)
  /-- The text that was passed on since the last annotation. -/
  heard : String

namespace Talk

def hear (talk : Talk) (text : String) : Talk :=
  { talk with
    transcript := if talk.sink = .console then talk.transcript ++ text else talk.transcript
    gathered := if talk.sink = .gathering then talk.gathered ++ text else talk.gathered
    heard := talk.heard ++ text }

/-- An annotation comes. -/
def mark (talk : Talk) : Talk := { talk with heard := "" }

def enter (talk : Talk) (phase : Phase) : Talk :=
  { talk with sink := (talk.sink.after? phase).getD .console }

def send (talk : Talk) (command : Command) : Talk :=
  { talk with
    sink := Session.openingSink command
    flight := some command
    gathered := if command.handler?.isSome then "" else talk.gathered
    waits := false
    sent := talk.sent ++ [command] }

/-- The output of a command is handed over. -/
def fulfil (talk : Talk) (command : Command) : Talk :=
  { talk with
    sink := .afterOutput
    completions := talk.completions ++ [(command, talk.gathered)] }

/-- No command is left to go out. -/
def rest (talk : Talk) : Talk := { talk with flight := none, waits := true }

end Talk

/-- All that went out has been answered, and the answers read. -/
structure Finished (gdb : Gdb) (talk : Talk) (done : List (Bytes × Marker)) : Prop where
  read : done = gdb.told talk.sent.length
  console : talk.sink = .console
  completed : talk.completions = gdb.completions talk.sent
  shown : talk.transcript = gdb.shown talk.sent
  heard : talk.heard = ""

/-- Where the talk stands when these sections of the script have been read. While a command is
answered, `front` are the commands before it and `part` are the sections of the answer so far. -/
inductive Stage (gdb : Gdb) (talk : Talk) : List (Bytes × Marker) → Prop where
  | greeting {part rest : List (Bytes × Marker)} (script : gdb.greeting = part ++ rest)
    (left : rest ≠ []) (busy : talk.waits = false) (console : talk.sink = .console)
    (unsent : talk.sent = []) (completed : talk.completions = [])
    (shown : talk.transcript = Stream.textOf part ++ talk.heard) : Stage gdb talk part
  | idle (waits : talk.waits = true) (console : talk.sink = .console)
    (completed : talk.completions = gdb.completions talk.sent)
    (shown : talk.transcript = gdb.shown talk.sent ++ talk.heard) :
    Stage gdb talk (gdb.told talk.sent.length)
  /-- A command of the user is answered, and all of the answer is shown. -/
  | user {front : List Command} {command : Command} {part rest : List (Bytes × Marker)}
    (script : (gdb.response front.length).sections = part ++ rest) (left : rest ≠ [])
    (sent : talk.sent = front ++ [command]) (typed : command.handler?.isSome = false)
    (busy : talk.waits = false) (console : talk.sink = .console)
    (completed : talk.completions = gdb.completions front)
    (shown : talk.transcript = gdb.shown front ++ (Stream.textOf part ++ talk.heard)) :
    Stage gdb talk (gdb.told front.length ++ part)
  /-- A command of the session's own went out. -/
  | asked {front : List Command} {command : Command} (sent : talk.sent = front ++ [command])
    (own : command.handler?.isSome = true) (flight : talk.flight = some command)
    (busy : talk.waits = false) (waiting : talk.sink = .beforeOutput) (blank : talk.gathered = "")
    (completed : talk.completions = gdb.completions front)
    (shown : talk.transcript = gdb.shown front) : Stage gdb talk (gdb.told front.length ++ [])
  | answered {front : List Command} {command : Command} {part rest : List (Bytes × Marker)}
    (script : (gdb.response front.length).remarks = part ++ rest)
    (sent : talk.sent = front ++ [command]) (own : command.handler?.isSome = true)
    (flight : talk.flight = some command) (busy : talk.waits = false)
    (gathering : talk.sink = .gathering)
    (gathered : talk.gathered = Stream.textOf part ++ talk.heard)
    (completed : talk.completions = gdb.completions front)
    (shown : talk.transcript = gdb.shown front) :
    Stage gdb talk (gdb.told front.length ++ ([], postPromptMarker) :: part)
  | ended {front : List Command} {command : Command} (sent : talk.sent = front ++ [command])
    (own : command.handler?.isSome = true) (busy : talk.waits = false)
    (after : talk.sink = .afterOutput) (completed : talk.completions = gdb.completions talk.sent)
    (shown : talk.transcript = gdb.shown front) :
    Stage gdb talk (gdb.told front.length ++ ([], postPromptMarker) ::
      ((gdb.response front.length).remarks ++ [((gdb.response front.length).rest, prePromptMarker)]))

/-- What the next marker line does to the talk, after which these sections have been read. -/
inductive Cue (gdb : Gdb) (talk : Talk) (marker : Marker) (done : List (Bytes × Marker)) : Prop where
  | remark (kind : marker.kind.phase? = none) (plain : marker.kind ≠ .question)
    (busy : talk.waits = false) (stage : Stage gdb talk.mark done)
  | begun (kind : marker.kind = .postPrompt) (admitted : (talk.sink.after? .postPrompt).isSome = true)
    (stage : Stage gdb (talk.mark.enter .postPrompt) done)
  | passed (kind : marker.kind = .prePrompt) (console : talk.sink = .console)
    (stage : Stage gdb (talk.mark.enter .prePrompt) done)
  | fulfilled {command : Command} (kind : marker.kind = .prePrompt) (gathering : talk.sink = .gathering)
    (flight : talk.flight = some command) (own : command.handler?.isSome = true)
    (stage : Stage gdb (talk.mark.fulfil command) done)
  | prompt (kind : marker.kind = .prompt) (admitted : (talk.sink.after? .prompt).isSome = true)
    (finished : Finished gdb (talk.mark.enter .prompt) done)

section Stages

variable {gdb : Gdb} {talk : Talk} {done part others : List (Bytes × Marker)} {text : Bytes}
  {marker : Marker}

-- The session is open, and no output is taken for that of the program.
theorem stage_sink (stage : Stage gdb talk done) : talk.sink ≠ .closed ∧ talk.sink ≠ .program := by
  cases stage <;> simp_all

theorem stage_hear (stage : Stage gdb talk done) (text : String) : Stage gdb (talk.hear text) done := by
  cases stage with
  | greeting script left busy console unsent completed shown =>
    refine .greeting script left busy console unsent completed ?_
    simp [Talk.hear, console, shown, String.append_assoc]
  | idle waits console completed shown =>
    refine .idle waits console completed ?_
    simp [Talk.hear, console, shown, String.append_assoc]
  | user script left sent typed busy console completed shown =>
    refine .user script left sent typed busy console completed ?_
    simp [Talk.hear, console, shown, String.append_assoc]
  | asked sent own flight busy waiting blank completed shown =>
    refine .asked sent own flight busy waiting ?_ completed ?_ <;>
      simp [Talk.hear, waiting, blank, shown]
  | answered script sent own flight busy gathering gathered completed shown =>
    refine .answered script sent own flight busy gathering ?_ completed ?_
    · simp [Talk.hear, gathering, gathered, String.append_assoc]
    · simp [Talk.hear, gathering, shown]
  | ended sent own busy after completed shown =>
    refine .ended sent own busy after completed ?_
    simp [Talk.hear, after, shown]

theorem stage_sent (finished : Finished gdb talk done) (command : Command) :
    Stage gdb (talk.send command) done := by
  obtain ⟨rfl, console, completed, shown, heard⟩ := finished
  rw [← List.append_nil (gdb.told talk.sent.length)]
  cases own : command.handler?.isSome with
  | true =>
    exact .asked rfl own rfl rfl (by simp [Talk.send, Session.openingSink, own])
      (by simp [Talk.send, own]) completed shown
  | false =>
    refine .user (List.nil_append _).symm (by simp [Response.sections]) rfl own rfl ?_ completed ?_
    · simp [Talk.send, Session.openingSink, own]
    · simp [Talk.send, shown, heard, Stream.textOf]

theorem stage_rest (finished : Finished gdb talk done) : Stage gdb talk.rest done := by
  obtain ⟨rfl, console, completed, shown, heard⟩ := finished
  exact .idle rfl console completed (by simp [Talk.rest, shown, heard])

-- The sections of a response in their order.
theorem sections_next {response : Response}
    (script : response.sections = part ++ (text, marker) :: others) :
    (part = [] ∧ marker = postPromptMarker ∧ text = [] ∧ others ≠ []) ∨
    (∃ front back, part = ([], postPromptMarker) :: front ∧
      response.remarks = front ++ (text, marker) :: back ∧ others ≠ []) ∨
    (part = ([], postPromptMarker) :: response.remarks ∧ marker = prePromptMarker ∧
      text = response.rest ∧ others ≠ []) ∨
    (part = ([], postPromptMarker) :: (response.remarks ++ [(response.rest, prePromptMarker)]) ∧
      marker = promptMarker ∧ others = []) := by
  unfold Response.sections at script
  cases part with
  | nil =>
    simp only [List.nil_append, List.cons.injEq, Prod.mk.injEq] at script
    obtain ⟨⟨rfl, rfl⟩, rfl⟩ := script
    exact .inl ⟨rfl, rfl, rfl, by simp⟩
  | cons first front =>
    simp only [List.cons_append, List.cons.injEq] at script
    obtain ⟨rfl, script⟩ := script
    refine .inr ?_
    rcases List.append_eq_append_iff.mp script with ⟨more, same, tail⟩ | ⟨more, same, tail⟩
    -- The remarks have all been read, and perhaps more.
    · rcases more with - | ⟨second, - | ⟨third, more⟩⟩
      · simp only [List.nil_append, List.cons.injEq, Prod.mk.injEq, List.append_nil] at same tail
        obtain ⟨⟨rfl, rfl⟩, rfl⟩ := tail
        exact .inr (.inl ⟨by rw [same], rfl, rfl, by simp⟩)
      · simp only [List.cons_append, List.nil_append, List.cons.injEq, Prod.mk.injEq] at tail
        obtain ⟨rfl, ⟨rfl, rfl⟩, rfl⟩ := tail
        exact .inr (.inr ⟨by rw [same], rfl, rfl⟩)
      · simp at tail
    -- The next section is one of the remarks, if there is one left.
    · rcases more with - | ⟨second, more⟩
      · simp only [List.nil_append, List.cons.injEq, Prod.mk.injEq, List.append_nil] at same tail
        obtain ⟨⟨rfl, rfl⟩, rfl⟩ := tail
        exact .inr (.inl ⟨by rw [same], rfl, rfl, by simp⟩)
      · simp only [List.cons_append, List.cons.injEq] at tail
        obtain ⟨rfl, rfl⟩ := tail
        exact .inl ⟨front, more, rfl, same, by simp⟩

-- The greeting is read as it is told.
theorem greeting_cue (busy : talk.waits = false) (console : talk.sink = .console)
    (unsent : talk.sent = [])
    (completed : talk.completions = []) (shown : talk.transcript = Stream.textOf part ++ talk.heard)
    (next : gdb.told talk.sent.length = part ++ (text, marker) :: others)
    (heard : talk.heard = Utf8.decode text) : Cue gdb talk marker (part ++ [(text, marker)]) := by
  obtain ⟨prePrompt, prompt, -⟩ := marker_kinds
  have whole : gdb.greeting = part ++ (text, marker) :: others := by
    simpa [unsent, Gdb.told] using next
  have told : talk.transcript = Stream.textOf (part ++ [(text, marker)]) := by
    rw [shown, heard, Stream.text_of_append]
    simp [Stream.textOf]
  cases others with
  | nil =>
    have last : marker = promptMarker := by
      have same := congrArg List.getLast? whole
      simp only [Gdb.greeting, List.getLast?_append, List.getLast?_singleton] at same
      have tail : Stream.unlines gdb.prompt = text ∧ promptMarker = marker := by simpa using same
      exact tail.2.symm
    subst last
    refine .prompt prompt (by rw [console]; rfl) ⟨?_, ?_, ?_, ?_, rfl⟩
    · simp [Talk.enter, Talk.mark, unsent, Gdb.told, whole]
    · simp [Talk.enter, Talk.mark, console, Sink.after?]
    · simp [Talk.enter, Talk.mark, unsent, completed, Gdb.completions]
    · simp only [Talk.enter, Talk.mark, unsent, ← greeting_text, told, whole]
  | cons second others =>
    have first : marker = prePromptMarker := by
      cases part with
      | nil =>
        simp only [Gdb.greeting, List.nil_append, List.cons.injEq, Prod.mk.injEq] at whole
        exact whole.1.2.symm
      | cons front back =>
        have sizes := congrArg List.length whole
        simp only [Gdb.greeting, List.length_append, List.length_cons, List.length_nil] at sizes
        omega
    subst first
    have script : gdb.greeting = (part ++ [(text, prePromptMarker)]) ++ second :: others := by
      simp [whole]
    refine .passed prePrompt console (.greeting script (by simp) busy ?_ unsent completed ?_)
    · simp [Talk.enter, Talk.mark, console, Sink.after?]
    · simp [Talk.enter, Talk.mark, told]

-- While a command is answered, the script goes on with the answer.
theorem answer_next {front : List Command} {command : Command} (sent : talk.sent = front ++ [command])
    (next : gdb.told talk.sent.length = (gdb.told front.length ++ part) ++ (text, marker) :: others) :
    (gdb.response front.length).sections = part ++ (text, marker) :: others := by
  rw [sent, List.length_append, List.length_singleton, told_succ, List.append_assoc] at next
  exact List.append_cancel_left next

-- The user sees all of the answer.
theorem user_cue {front : List Command} {command : Command} (sent : talk.sent = front ++ [command])
    (typed : command.handler?.isSome = false) (busy : talk.waits = false)
    (console : talk.sink = .console) (completed : talk.completions = gdb.completions front)
    (shown : talk.transcript = gdb.shown front ++ (Stream.textOf part ++ talk.heard))
    (script : (gdb.response front.length).sections = part ++ (text, marker) :: others)
    (heard : talk.heard = Utf8.decode text) :
    Cue gdb talk marker ((gdb.told front.length ++ part) ++ [(text, marker)]) := by
  obtain ⟨prePrompt, prompt, postPrompt⟩ := marker_kinds
  have whole : (gdb.response front.length).sections = (part ++ [(text, marker)]) ++ others := by
    simp [script]
  have told : talk.transcript = gdb.shown front ++ Stream.textOf (part ++ [(text, marker)]) := by
    rw [shown, heard, Stream.text_of_append]
    simp [Stream.textOf]
  have goes_on (left : others ≠ []) {later : Talk} (same : later = { talk with heard := "" }) :
      Stage gdb later ((gdb.told front.length ++ part) ++ [(text, marker)]) := by
    subst same
    rw [List.append_assoc]
    exact .user whole left sent typed busy console completed (by simpa using told)
  have still (phase : Phase) (same : Sink.after? phase .console = some .console) :
      talk.mark.enter phase = { talk with heard := "" } := by
    simp [Talk.enter, Talk.mark, console, same]
  rcases sections_next script with ⟨-, rfl, -, left⟩ | ⟨outs, more, -, remark, left⟩ |
    ⟨-, rfl, -, left⟩ | ⟨-, rfl, rfl⟩
  · exact .begun postPrompt (by rw [console]; rfl) (goes_on left (still _ rfl))
  · have member : (text, marker) ∈ (gdb.response front.length).remarks := by simp [remark]
    obtain ⟨kind, plain⟩ := remark_tame _ member
    exact .remark kind plain busy (goes_on left rfl)
  · exact .passed prePrompt console (goes_on left (still _ rfl))
  · rw [List.append_nil] at whole
    refine .prompt prompt (by rw [console]; rfl) ?_
    rw [still _ rfl]
    refine ⟨?_, console, ?_, ?_, rfl⟩
    · simp only [sent, List.length_append, List.length_singleton, told_succ, whole, List.append_assoc]
    · simp [sent, completions_snoc, typed, completed]
    · simp only [sent, shown_snoc, typed, whole, told]
      rfl

-- The session's own command gets the output between the beginning and the end of the answer.
theorem own_cue {front : List Command} {command : Command} {rest : List (Bytes × Marker)}
    (left : (gdb.response front.length).remarks = part ++ rest)
    (sent : talk.sent = front ++ [command]) (own : command.handler?.isSome = true)
    (flight : talk.flight = some command) (busy : talk.waits = false)
    (gathering : talk.sink = .gathering) (gathered : talk.gathered = Stream.textOf part ++ talk.heard)
    (completed : talk.completions = gdb.completions front) (shown : talk.transcript = gdb.shown front)
    (script : (gdb.response front.length).sections =
      (([], postPromptMarker) :: part) ++ (text, marker) :: others)
    (heard : talk.heard = Utf8.decode text) :
    Cue gdb talk marker
      ((gdb.told front.length ++ ([], postPromptMarker) :: part) ++ [(text, marker)]) := by
  obtain ⟨prePrompt, prompt, postPrompt⟩ := marker_kinds
  rw [List.append_assoc, List.cons_append]
  rcases sections_next script with ⟨empty, -, -, -⟩ | ⟨outs, more, same, remark, -⟩ |
    ⟨same, rfl, rfl, -⟩ | ⟨same, -, -⟩
  · cases empty
  · obtain rfl := (List.cons.inj same).2
    have member : (text, marker) ∈ (gdb.response front.length).remarks := by simp [remark]
    obtain ⟨kind, plain⟩ := remark_tame _ member
    have script : (gdb.response front.length).remarks = (part ++ [(text, marker)]) ++ more := by
      simp [remark]
    refine .remark kind plain busy (.answered script sent own flight busy gathering ?_ completed shown)
    simp [Talk.mark, gathered, heard, Stream.text_of_append, Stream.textOf]
  · obtain rfl := (List.cons.inj same).2
    have output : talk.gathered = (gdb.response front.length).text := by
      rw [gathered, heard, response_text]
    refine .fulfilled prePrompt gathering flight own (.ended sent own busy rfl ?_ shown)
    simp [Talk.fulfil, Talk.mark, sent, completions_snoc, own, completed, output]
  · have sizes := congrArg List.length left
    have more := congrArg List.length same
    simp only [List.length_append, List.length_cons, List.length_nil] at sizes more
    omega

/-- The marker line that comes next in the script is the one that the talk awaits. -/
theorem stage_cue (stage : Stage gdb talk done)
    (next : gdb.told talk.sent.length = done ++ (text, marker) :: others)
    (heard : talk.heard = Utf8.decode text) : Cue gdb talk marker (done ++ [(text, marker)]) := by
  obtain ⟨prePrompt, prompt, postPrompt⟩ := marker_kinds
  cases stage with
  | greeting _ _ busy console unsent completed shown =>
    exact greeting_cue busy console unsent completed shown next heard
  | idle => simp at next
  | user _ _ sent typed busy console completed shown =>
    exact user_cue sent typed busy console completed shown (answer_next sent next) heard
  | @asked front command sent own flight busy waiting blank completed shown =>
    have script := answer_next sent next
    rcases sections_next script with ⟨-, rfl, rfl, -⟩ | ⟨outs, more, same, -⟩ | ⟨same, -⟩ | ⟨same, -⟩
    · refine .begun postPrompt (by rw [waiting]; rfl) ?_
      rw [List.append_nil]
      refine .answered (List.nil_append _).symm sent own flight busy ?_ ?_ completed shown
      · simp [Talk.enter, Talk.mark, waiting, Sink.after?]
      · simp [Talk.enter, Talk.mark, blank, Stream.textOf]
    · cases same
    · cases same
    · cases same
  | answered left sent own flight busy gathering gathered completed shown =>
    exact own_cue left sent own flight busy gathering gathered completed shown
      (answer_next sent next) heard
  | @ended front command sent own busy after completed shown =>
    have script := answer_next sent next
    rcases sections_next script with ⟨same, -⟩ | ⟨outs, more, same, remark, -⟩ | ⟨same, -⟩ | ⟨-, rfl, rfl⟩
    · cases same
    · have sizes := congrArg List.length remark
      have more := congrArg List.length same
      simp only [List.length_append, List.length_cons, List.length_nil] at sizes more
      omega
    · have sizes := congrArg List.length same
      simp only [List.length_append, List.length_cons, List.length_nil] at sizes
      omega
    · refine .prompt prompt (by rw [after]; rfl) ⟨next.symm, ?_, completed, ?_, rfl⟩
      · simp [Talk.enter, Talk.mark, after, Sink.after?]
      · simp [Talk.enter, Talk.mark, sent, shown_snoc, own, shown]

-- Gdb waits, or some command is answered, and all answers before it have had their effect.
theorem stage_read (stage : Stage gdb talk done) {count : Nat} (begins : gdb.told count <+: done) :
    (talk.waits = true ∧ talk.completions = gdb.completions talk.sent ∧
      ∃ more, talk.transcript = gdb.shown talk.sent ++ more) ∨
    ∃ front command, talk.sent = front ++ [command] ∧ count ≤ front.length ∧
      gdb.completions front <+: talk.completions ∧
      ∃ more, talk.transcript = gdb.shown front ++ more := by
  have plain (commands : List Command) :
      gdb.shown commands = gdb.shown commands ++ "" := (String.append_empty).symm
  cases stage with
  | @greeting part rest script left =>
    have sizes := ((told_grows gdb (Nat.zero_le count)).trans begins).length_le
    have whole := congrArg List.length script
    have present := List.length_pos_iff.mpr left
    simp only [Gdb.told, List.range_zero, List.flatMap_nil, List.append_nil,
      List.length_append] at sizes whole
    omega
  | idle waits _ completed shown => exact .inl ⟨waits, completed, _, shown⟩
  | user script left sent _ _ _ completed shown =>
    have le := told_within gdb begins script left
    exact .inr ⟨_, _, sent, le, completed ▸ List.prefix_rfl, _, shown⟩
  | asked sent _ _ _ _ _ completed shown =>
    have le := told_within gdb begins (List.nil_append _).symm (by simp [Response.sections])
    exact .inr ⟨_, _, sent, le, completed ▸ List.prefix_rfl, _, shown.trans (plain _)⟩
  | @answered front _ part rest script sent _ _ _ _ _ completed shown =>
    have whole : (gdb.response front.length).sections = (([], postPromptMarker) :: part) ++ (rest ++
        [((gdb.response front.length).rest, prePromptMarker),
          (Stream.unlines (gdb.response front.length).prompt, promptMarker)]) := by
      simp [Response.sections, script]
    have le := told_within gdb begins whole (by simp)
    exact .inr ⟨_, _, sent, le, completed ▸ List.prefix_rfl, _, shown.trans (plain _)⟩
  | @ended front _ sent _ _ _ completed shown =>
    have whole : (gdb.response front.length).sections = (([], postPromptMarker) ::
        ((gdb.response front.length).remarks ++ [((gdb.response front.length).rest, prePromptMarker)])) ++
          [(Stream.unlines (gdb.response front.length).prompt, promptMarker)] := by
      simp [Response.sections]
    have le := told_within gdb begins whole (by simp)
    have earlier := completions_take gdb front.length talk.sent
    rw [← completed, sent, List.take_left] at earlier
    exact .inr ⟨_, _, sent, le, earlier, _, shown.trans (plain _)⟩

/-- What has been read has had its effect: outputs are handed over, and shown. -/
theorem stage_delivered (stage : Stage gdb talk done) {count : Nat} (begins : gdb.told count <+: done) :
    gdb.completions (talk.sent.take count) <+: talk.completions ∧
      ∃ more, talk.transcript = gdb.shown (talk.sent.take count) ++ more := by
  rcases stage_read stage begins with ⟨-, completed, more, shown⟩ |
    ⟨front, command, sent, le, completed, more, shown⟩
  · obtain ⟨earlier, same⟩ := shown_take gdb count talk.sent
    rw [completed]
    exact ⟨completions_take gdb count talk.sent, earlier ++ more,
      by rw [shown, same, String.append_assoc]⟩
  · rw [sent, List.take_append_of_le_length le]
    obtain ⟨earlier, same⟩ := shown_take gdb count front
    exact ⟨(completions_take gdb count front).trans completed, earlier ++ more,
      by rw [shown, same, String.append_assoc]⟩

/-- When all answers have been read, gdb waits. -/
theorem stage_settled (stage : Stage gdb talk done) (begins : gdb.told talk.sent.length <+: done) :
    talk.waits = true := by
  rcases stage_read stage begins with ⟨waits, -⟩ | ⟨front, command, sent, le, -⟩
  · exact waits
  · rw [sent, List.length_append, List.length_singleton] at le
    omega

/-- Nothing is handed over or shown that is not due: it is what gdb prints for the commands that went
out. What was heard last is the beginning of what the script says next. -/
theorem stage_promised (stage : Stage gdb talk done)
    (ahead : ∀ text marker others, gdb.told talk.sent.length = done ++ (text, marker) :: others →
      ∃ more, talk.heard ++ more = Utf8.decode text)
    (calm : gdb.told talk.sent.length = done → talk.heard = "") :
    talk.completions <+: gdb.completions talk.sent ∧
      ∃ more, gdb.shown talk.sent = talk.transcript ++ more := by
  have beginning (part : List (Bytes × Marker)) {rest : List (Bytes × Marker)} (left : rest ≠ [])
      (script : gdb.told talk.sent.length = done ++ rest) :
      ∃ more, Stream.textOf (part ++ rest) = Stream.textOf part ++ talk.heard ++ more := by
    obtain ⟨⟨text, marker⟩, others, rfl⟩ := List.exists_cons_of_ne_nil left
    obtain ⟨more, same⟩ := ahead text marker others script
    exact ⟨more ++ Stream.textOf others,
      by simp only [Stream.text_of_append, Stream.textOf, ← same, String.append_assoc]⟩
  have hidden {front : List Command} {command : Command} (sent : talk.sent = front ++ [command])
      (own : command.handler?.isSome = true) (completed : talk.completions <+: gdb.completions talk.sent)
      (shown : talk.transcript = gdb.shown front) :
      talk.completions <+: gdb.completions talk.sent ∧
        ∃ more, gdb.shown talk.sent = talk.transcript ++ more := by
    refine ⟨completed, "", ?_⟩
    rw [sent, shown_snoc, own, if_pos rfl, shown, String.append_empty]
  have unfinished {front : List Command} {command : Command} (sent : talk.sent = front ++ [command])
      (completed : talk.completions = gdb.completions front) :
      talk.completions <+: gdb.completions talk.sent := by
    rw [sent, completions_snoc, completed]
    exact List.prefix_append _ _
  cases stage with
  | greeting script left _ _ unsent completed shown =>
    obtain ⟨more, same⟩ := beginning _ left (by simpa [unsent, Gdb.told] using script)
    refine ⟨by rw [completed]; exact List.nil_prefix, more, ?_⟩
    rw [unsent, ← greeting_text, script, same, shown]
  | idle _ _ completed shown =>
    exact ⟨completed ▸ List.prefix_rfl, "", by rw [shown, calm rfl, String.append_empty, String.append_empty]⟩
  | @user front command part rest script left sent typed _ _ completed shown =>
    have whole : gdb.told talk.sent.length = (gdb.told front.length ++ part) ++ rest := by
      rw [sent, List.length_append, List.length_singleton, told_succ, script, List.append_assoc]
    obtain ⟨more, same⟩ := beginning part left whole
    refine ⟨unfinished sent completed, more, ?_⟩
    rw [sent, shown_snoc, typed, script, same, shown]
    simp [String.append_assoc]
  | asked sent own _ _ _ _ completed shown =>
    exact hidden sent own (unfinished sent completed) shown
  | answered _ sent own _ _ _ _ completed shown =>
    exact hidden sent own (unfinished sent completed) shown
  | ended sent own _ _ completed shown =>
    exact hidden sent own (completed ▸ List.prefix_rfl) shown

end Stages

end GdbControl
