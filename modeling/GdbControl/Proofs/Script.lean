import GdbControl.Proofs.Moves
import GdbControl.Proofs.Sections
import GdbControl.Proofs.Utf8
import Mathlib.Data.List.Induction

/-!
A gdb that keeps to the protocol. It greets its user and comes to its prompt; then it prints, for each
line that is written to it, the beginning of an answer, the output, and its prompt again, and nothing
else. The output may tell of anything but prompts, questions, and the program starting or stopping.
What such a gdb prints falls into sections that are known beforehand.
-/

namespace GdbControl

namespace Stream

/-- Complete lines, one after another. -/
def unlines (lines : List Bytes) : Bytes := lines.flatMap (· ++ [newline])

/-- The sections of complete lines that follow some text, and the text after the last marker line. -/
def cuts (text : Bytes) : List Bytes → List (Bytes × Marker) × Bytes
  | [] => ([], text)
  | line :: rest =>
    match markerOf? line with
    | some marker =>
      let others := cuts [] rest
      ((text, marker) :: others.1, others.2)
    | none => cuts (text ++ line ++ [newline]) rest

/-- The text of sections, without their marker lines. -/
def textOf : List (Bytes × Marker) → String
  | [] => ""
  | part :: rest => Utf8.decode part.1 ++ textOf rest

section Lines

variable {lines : List Bytes}

theorem unlines_append (front back : List Bytes) :
    unlines (front ++ back) = unlines front ++ unlines back := List.flatMap_append

theorem unlines_cons (line : Bytes) (rest : List Bytes) :
    unlines (line :: rest) = line ++ newline :: unlines rest := by
  simp [unlines]

theorem sections_unlines (single : ∀ line ∈ lines, newline ∉ line) (text rest : Bytes) :
    sectionsOf true text (unlines lines ++ rest) =
      ((cuts text lines).1 ++ (sectionsOf true (cuts text lines).2 rest).1,
        (sectionsOf true (cuts text lines).2 rest).2) := by
  induction lines generalizing text with
  | nil => rfl
  | cons line others ih =>
    have later := ih fun other member => single other (List.mem_cons_of_mem line member)
    rw [unlines_cons, List.append_assoc, List.cons_append,
      sections_line true text _ (single line List.mem_cons_self)]
    cases written : markerOf? line with
    | none => simp [cuts, written, later]
    | some marker => simp [cuts, written, later]

theorem cuts_append (text : Bytes) (front back : List Bytes) :
    cuts text (front ++ back) =
      ((cuts text front).1 ++ (cuts (cuts text front).2 back).1, (cuts (cuts text front).2 back).2) := by
  induction front generalizing text with
  | nil => rfl
  | cons line rest ih => cases written : markerOf? line <;> simp [cuts, written, ih]

theorem cuts_plain (plain : ∀ line ∈ lines, markerOf? line = none) (text : Bytes) :
    cuts text lines = ([], text ++ unlines lines) := by
  induction lines generalizing text with
  | nil => simp [cuts, unlines]
  | cons line rest ih =>
    have later := ih fun other member => plain other (List.mem_cons_of_mem line member)
    rw [cuts, plain line List.mem_cons_self]
    simp [later, unlines_cons]

theorem cuts_markers (text : Bytes) {part : Bytes × Marker} (member : part ∈ (cuts text lines).1) :
    ∃ line ∈ lines, markerOf? line = some part.2 := by
  induction lines generalizing text with
  | nil => cases member
  | cons line rest ih =>
    cases written : markerOf? line with
    | none =>
      rw [cuts, written] at member
      obtain ⟨other, inside, same⟩ := ih _ member
      exact ⟨other, List.mem_cons_of_mem line inside, same⟩
    | some marker =>
      rw [cuts, written] at member
      rcases List.mem_cons.mp member with rfl | later
      · exact ⟨line, List.mem_cons_self, written⟩
      · obtain ⟨other, inside, same⟩ := ih _ later
        exact ⟨other, List.mem_cons_of_mem line inside, same⟩

theorem text_of_append (front back : List (Bytes × Marker)) :
    textOf (front ++ back) = textOf front ++ textOf back := by
  induction front with
  | nil => simp [textOf]
  | cons part rest ih => simp [textOf, ih, String.append_assoc]

-- No character lies across the end of a complete line.
theorem decode_unlines (lines : List Bytes) (rest : Bytes) :
    Utf8.decode (unlines lines ++ rest) = Utf8.decode (unlines lines) ++ Utf8.decode rest := by
  have ascii : newline < 0x80 := by decide
  have ended (rest : Bytes) :
      Utf8.decode (newline :: rest) = Utf8.decode [newline] ++ Utf8.decode rest := by
    simp [Utf8.decode, Utf8.characters, Utf8.run, Utf8.step_ascii [] ascii, String.ofList_append,
      Utf8.broken]
  induction lines with
  | nil => simp [unlines, Utf8.decode, Utf8.characters, Utf8.run, Utf8.broken]
  | cons line others ih =>
    rw [unlines_cons, List.append_assoc, List.cons_append, Utf8.decode_cut_ascii _ _ ascii,
      Utf8.decode_cut_ascii _ _ ascii, ended (unlines others ++ rest), ended (unlines others), ih]
    simp only [String.append_assoc]

/-- Lines that are no markers. -/
def plainLines (lines : List Bytes) : List Bytes := lines.filter (markerOf? · |>.isNone)

-- By induction on the lines; `before` are plain lines that came since the last marker.
theorem text_cuts (before lines : List Bytes) :
    textOf (cuts (unlines before) lines).1 ++ Utf8.decode (cuts (unlines before) lines).2 =
      Utf8.decode (unlines (before ++ plainLines lines)) := by
  induction lines generalizing before with
  | nil => simp [cuts, textOf, plainLines]
  | cons line rest ih =>
    cases written : markerOf? line with
    | none =>
      have longer : unlines before ++ line ++ [newline] = unlines (before ++ [line]) := by
        simp [unlines]
      have kept : plainLines (line :: rest) = line :: plainLines rest := by
        simp [plainLines, written]
      rw [cuts, written, kept]
      dsimp only
      rw [longer, ih]
      simp
    | some marker =>
      have dropped : plainLines (line :: rest) = plainLines rest := by simp [plainLines, written]
      have later : textOf (cuts [] rest).1 ++ Utf8.decode (cuts [] rest).2 =
          Utf8.decode (unlines (plainLines rest)) := ih []
      rw [cuts, written, dropped, unlines_append, decode_unlines, ← later]
      simp [textOf, String.append_assoc]

end Lines

end Stream

/-- The line that announces something by a tag alone. -/
def announcing (tag : String) : Bytes := Stream.sub :: Stream.sub :: tag.toUTF8.data.toList

def prePromptMarker : Marker := ⟨"pre-prompt", none⟩

def promptMarker : Marker := ⟨"prompt", none⟩

def postPromptMarker : Marker := ⟨"post-prompt", none⟩

/-- What gdb prints for one line that is written to it: the lines of the output, which may be
annotations but say nothing of prompts, questions, and the program starting or stopping, and the lines
of the prompt. -/
structure Response where
  output : List Bytes
  prompt : List Bytes
  single : ∀ line ∈ output ++ prompt, Stream.newline ∉ line
  tame : ∀ line ∈ output, ∀ marker, Stream.markerOf? line = some marker →
    marker.kind.phase? = none ∧ marker.kind ≠ .question
  plain : ∀ line ∈ prompt, Stream.markerOf? line = none

/-- A gdb that keeps to the protocol: its greeting, its first prompt, and its response to each line
that is written to it, counted from the first. -/
structure Gdb where
  banner : List Bytes
  prompt : List Bytes
  single : ∀ line ∈ banner ++ prompt, Stream.newline ∉ line
  plain : ∀ line ∈ banner ++ prompt, Stream.markerOf? line = none
  response : Nat → Response

namespace Response

def lines (response : Response) : List Bytes :=
  announcing "post-prompt" :: (response.output ++
    announcing "pre-prompt" :: (response.prompt ++ [announcing "prompt"]))

/-- The output without its marker lines. -/
def text (response : Response) : String :=
  Utf8.decode (Stream.unlines (Stream.plainLines response.output))

def promptText (response : Response) : String := Utf8.decode (Stream.unlines response.prompt)

/-- The sections of the output that end in markers. -/
def remarks (response : Response) : List (Bytes × Marker) := (Stream.cuts [] response.output).1

/-- The output after its last marker. -/
def rest (response : Response) : Bytes := (Stream.cuts [] response.output).2

def sections (response : Response) : List (Bytes × Marker) :=
  ([], postPromptMarker) :: (response.remarks ++
    [(response.rest, prePromptMarker), (Stream.unlines response.prompt, promptMarker)])

end Response

namespace Gdb

def greetingLines (gdb : Gdb) : List Bytes :=
  gdb.banner ++ announcing "pre-prompt" :: (gdb.prompt ++ [announcing "prompt"])

def greeting (gdb : Gdb) : List (Bytes × Marker) :=
  [(Stream.unlines gdb.banner, prePromptMarker), (Stream.unlines gdb.prompt, promptMarker)]

/-- All that gdb prints until it has responded to so many lines. -/
def printed (gdb : Gdb) (count : Nat) : Bytes :=
  Stream.unlines (gdb.greetingLines ++ (List.range count).flatMap fun index => (gdb.response index).lines)

/-- The sections of all that gdb prints until then. -/
def told (gdb : Gdb) (count : Nat) : List (Bytes × Marker) :=
  gdb.greeting ++ (List.range count).flatMap fun index => (gdb.response index).sections

/-- The outputs of the session's own commands among those that went out, each with its command. -/
def completions (gdb : Gdb) (commands : List Command) : List (Command × String) :=
  commands.zipIdx.filterMap fun (command, index) =>
    if command.handler?.isSome then some (command, (gdb.response index).text) else none

/-- What the user gets to see: the greeting, and the outputs of commands of theirs, each with the
prompt after it. -/
def shown (gdb : Gdb) (commands : List Command) : String :=
  commands.zipIdx.foldl
    (fun shown (command, index) =>
      if command.handler?.isSome then shown
      else shown ++ ((gdb.response index).text ++ (gdb.response index).promptText))
    (Utf8.decode (Stream.unlines gdb.banner) ++ Utf8.decode (Stream.unlines gdb.prompt))

end Gdb

theorem announced :
    Stream.markerOf? (announcing "pre-prompt") = some prePromptMarker ∧
      Stream.markerOf? (announcing "prompt") = some promptMarker ∧
      Stream.markerOf? (announcing "post-prompt") = some postPromptMarker := by
  decide +kernel

theorem announcement_single :
    Stream.newline ∉ announcing "pre-prompt" ∧ Stream.newline ∉ announcing "prompt" ∧
      Stream.newline ∉ announcing "post-prompt" := by
  decide +kernel

theorem marker_kinds : prePromptMarker.kind = .prePrompt ∧ promptMarker.kind = .prompt ∧
    postPromptMarker.kind = .postPrompt := by
  decide +kernel

section Responses

variable (response : Response)

theorem response_single : ∀ line ∈ response.lines, Stream.newline ∉ line := by
  obtain ⟨prePrompt, prompt, postPrompt⟩ := announcement_single
  intro line member
  simp only [Response.lines, List.mem_cons, List.mem_append, List.not_mem_nil, or_false] at member
  rcases member with rfl | output | rfl | shown | rfl
  · exact postPrompt
  · exact response.single line (List.mem_append_left _ output)
  · exact prePrompt
  · exact response.single line (List.mem_append_right _ shown)
  · exact prompt

theorem response_cuts : Stream.cuts [] response.lines = (response.sections, []) := by
  obtain ⟨prePrompt, prompt, postPrompt⟩ := announced
  simp [Response.lines, Response.sections, Response.remarks, Response.rest, Stream.cuts,
    Stream.cuts_append, Stream.cuts_plain response.plain, prePrompt, prompt, postPrompt]

theorem remark_tame {part : Bytes × Marker} (member : part ∈ response.remarks) :
    part.2.kind.phase? = none ∧ part.2.kind ≠ .question := by
  obtain ⟨line, inside, written⟩ := Stream.cuts_markers [] member
  exact response.tame line inside part.2 written

theorem response_text :
    Stream.textOf response.remarks ++ Utf8.decode response.rest = response.text :=
  Stream.text_cuts [] response.output

theorem sections_text :
    Stream.textOf response.sections = response.text ++ response.promptText := by
  simp [Response.sections, Stream.textOf, Stream.text_of_append, ← response_text,
    Response.promptText, Utf8.decode, Utf8.characters, Utf8.run, Utf8.broken, String.append_assoc]

end Responses

section Printed

variable (gdb : Gdb)

theorem greeting_cuts : Stream.cuts [] gdb.greetingLines = (gdb.greeting, []) := by
  obtain ⟨prePrompt, prompt, -⟩ := announced
  have banner : ∀ line ∈ gdb.banner, Stream.markerOf? line = none :=
    fun line member => gdb.plain line (List.mem_append_left _ member)
  have shown : ∀ line ∈ gdb.prompt, Stream.markerOf? line = none :=
    fun line member => gdb.plain line (List.mem_append_right _ member)
  simp [Gdb.greetingLines, Gdb.greeting, Stream.cuts, Stream.cuts_append, Stream.cuts_plain banner,
    Stream.cuts_plain shown, prePrompt, prompt]

theorem greeting_single : ∀ line ∈ gdb.greetingLines, Stream.newline ∉ line := by
  obtain ⟨prePrompt, prompt, -⟩ := announcement_single
  intro line member
  simp only [Gdb.greetingLines, List.mem_cons, List.mem_append, List.not_mem_nil, or_false] at member
  rcases member with banner | rfl | shown | rfl
  · exact gdb.single line (List.mem_append_left _ banner)
  · exact prePrompt
  · exact gdb.single line (List.mem_append_right _ shown)
  · exact prompt

theorem printed_zero : gdb.printed 0 = Stream.unlines gdb.greetingLines := by
  simp [Gdb.printed]

theorem printed_succ (count : Nat) :
    gdb.printed (count + 1) = gdb.printed count ++ Stream.unlines (gdb.response count).lines := by
  simp [Gdb.printed, List.range_succ, Stream.unlines_append]

theorem told_succ (count : Nat) :
    gdb.told (count + 1) = gdb.told count ++ (gdb.response count).sections := by
  simp [Gdb.told, List.range_succ]

theorem printed_grows {less more : Nat} (le : less ≤ more) : gdb.printed less <+: gdb.printed more := by
  induction le with
  | refl => exact List.prefix_rfl
  | step _ ih =>
    rw [printed_succ]
    exact ih.trans (List.prefix_append _ _)

theorem told_grows {less more : Nat} (le : less ≤ more) : gdb.told less <+: gdb.told more := by
  induction le with
  | refl => exact List.prefix_rfl
  | step _ ih =>
    rw [told_succ]
    exact ih.trans (List.prefix_append _ _)

-- A response that has not been read to its end is not among those that have.
theorem told_within {count reading : Nat} {part rest : List (Bytes × Marker)}
    (begins : gdb.told count <+: gdb.told reading ++ part)
    (script : (gdb.response reading).sections = part ++ rest) (left : rest ≠ []) :
    count ≤ reading := by
  rcases Nat.lt_or_ge reading count with more | le
  · have whole := (told_grows gdb more).trans begins
    rw [told_succ, List.prefix_append_right_inj, script] at whole
    have sizes := whole.length_le
    have present := List.length_pos_iff.mpr left
    rw [List.length_append] at sizes
    omega
  · exact le

-- By induction on the responses: each begins where the last marker line has ended.
theorem sections_printed (count : Nat) (rest : Bytes) :
    Stream.sectionsOf true [] (gdb.printed count ++ rest) =
      (gdb.told count ++ (Stream.sectionsOf true [] rest).1, (Stream.sectionsOf true [] rest).2) := by
  induction count generalizing rest with
  | zero =>
    rw [printed_zero, Stream.sections_unlines (greeting_single gdb), greeting_cuts]
    simp [Gdb.told]
  | succ count ih =>
    rw [printed_succ, List.append_assoc, ih, Stream.sections_unlines (response_single _),
      response_cuts, told_succ, List.append_assoc]

theorem completions_snoc (commands : List Command) (command : Command) :
    gdb.completions (commands ++ [command]) = gdb.completions commands ++
      if command.handler?.isSome then [(command, (gdb.response commands.length).text)] else [] := by
  unfold Gdb.completions
  rw [List.zipIdx_append, List.filterMap_append]
  cases own : command.handler?.isSome <;> simp [own]

theorem shown_snoc (commands : List Command) (command : Command) :
    gdb.shown (commands ++ [command]) =
      if command.handler?.isSome then gdb.shown commands
      else gdb.shown commands ++ Stream.textOf (gdb.response commands.length).sections := by
  rw [sections_text]
  unfold Gdb.shown
  rw [List.zipIdx_append, List.foldl_append]
  simp

theorem greeting_text : Stream.textOf gdb.greeting = gdb.shown [] := by
  simp [Gdb.greeting, Stream.textOf, Gdb.shown]

theorem completions_take (count : Nat) (commands : List Command) :
    gdb.completions (commands.take count) <+: gdb.completions commands := by
  have whole : gdb.completions (commands.take count) <+:
      gdb.completions (commands.take count ++ commands.drop count) := by
    unfold Gdb.completions
    rw [List.zipIdx_append, List.filterMap_append]
    exact List.prefix_append _ _
  rwa [List.take_append_drop] at whole

theorem shown_append (front back : List Command) :
    ∃ more, gdb.shown (front ++ back) = gdb.shown front ++ more := by
  induction back using List.reverseRecOn with
  | nil => exact ⟨"", by simp⟩
  | append_singleton back command ih =>
    obtain ⟨more, same⟩ := ih
    rw [← List.append_assoc, shown_snoc]
    split
    · exact ⟨more, same⟩
    · exact ⟨more ++ _, by rw [same, String.append_assoc]⟩

theorem shown_take (count : Nat) (commands : List Command) :
    ∃ more, gdb.shown commands = gdb.shown (commands.take count) ++ more := by
  have whole := shown_append gdb (commands.take count) (commands.drop count)
  rwa [List.take_append_drop] at whole

end Printed

end GdbControl
