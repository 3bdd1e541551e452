import GdbControl.Proofs.Waking
import Mathlib.Data.List.Induction

/-!
Reading a text page by page while it grows. What a session shows of gdb and of the program is only
ever added to, so a reader who goes on where the last page ended gets the text as it is, without a gap
and without a repetition.
-/

namespace GdbControl

/-- The texts that a session only ever adds to. -/
inductive Column where
  | transcript
  | programOutput

namespace Column

def text : Column → Display → String
  | .transcript => Display.transcript
  | .programOutput => Display.programOutput

/-- The call by which a page of the text is read. -/
def call : Column → String → Window → ToolCall
  | .transcript => .readTranscript
  | .programOutput => .readInferiorOutput

end Column

/-- A later display shows all that an earlier one did. -/
def Display.Grows (display later : Display) : Prop :=
  ∀ column : Column, ∃ more, column.text later = column.text display ++ more

section Growth

variable {allowed : Operation → Bool} {given : String → Prop} {session later : Session}

theorem grows_same {display later : Display} (transcript : later.transcript = display.transcript)
    (programOutput : later.programOutput = display.programOutput) : display.Grows later := by
  intro column
  refine ⟨"", ?_⟩
  rw [String.append_empty]
  cases column
  · exact transcript
  · exact programOutput

theorem grows_refl (display : Display) : display.Grows display := grows_same rfl rfl

theorem grows_of_eq {display later : Display} (same : later = display) : display.Grows later :=
  same ▸ grows_refl display

theorem grows_trans {display middle later : Display} (first : display.Grows middle)
    (second : middle.Grows later) : display.Grows later := by
  intro column
  obtain ⟨some, same⟩ := first column
  obtain ⟨more, same'⟩ := second column
  exact ⟨some ++ more, by rw [same', same, String.append_assoc]⟩

theorem grows_hear (session : Session) (text : String) :
    session.display.Grows (session.hear text).display := by
  unfold Session.hear
  split
  · exact grows_refl _
  · cases session.sink with
    | console =>
      intro column
      cases column
      · exact ⟨text, rfl⟩
      · exact ⟨"", (String.append_empty).symm⟩
    | program =>
      intro column
      cases column
      · exact ⟨"", (String.append_empty).symm⟩
      · exact ⟨text, rfl⟩
    | gathering | beforeOutput | afterOutput | closed => exact grows_refl _

theorem grows_pass (session : Session) (text : String) (held : Bytes) (midLine : Bool) :
    session.display.Grows (session.pass text held midLine).display :=
  grows_hear (session.hold held midLine) text

theorem grows_accept (session : Session) (tier : Tier) (command : Command) :
    session.display.Grows (session.accept tier command).display :=
  grows_of_eq (accept_display session tier command)

theorem grows_poll (session : Session) : session.display.Grows session.poll.display := by
  unfold Session.poll
  split
  · exact grows_of_eq (by simp)
  · exact grows_of_eq (by simp)
  · exact grows_same (by simp [Session.log, Display.markReady])
      (by simp [Session.log, Display.markReady])

theorem grows_ask (session : Session) : session.display.Grows session.ask.display := by
  unfold Session.ask
  split
  · exact grows_of_eq (by simp)
  · exact grows_refl _

theorem grows_reaction {marker : Marker} (reaction : Reaction marker session later) :
    session.display.Grows later.display := by
  cases reaction with
  | prompt => exact grows_poll ((session.log (.annotated marker)).enter .prompt)
  | question => exact grows_ask (session.log (.annotated marker))
  | fulfilled =>
    rcases (session.log (.annotated marker)).fulfil_cases with
      ⟨-, events, -, same⟩ | ⟨command, view, -, -, same⟩ <;> rw [same] <;> exact grows_same rfl rfl
  | phase | remark => exact grows_same rfl rfl

theorem grows_move (move : Move allowed session later) : session.display.Grows later.display := by
  cases move with
  | accept => exact grows_accept _ _ _
  | @request id => exact grows_accept (session.await id) _ _
  | react _ _ reaction => exact grows_reaction reaction
  | cut _ _ _ reaction => exact grows_trans (grows_pass _ _ _ _) (grows_reaction reaction)
  | lines | flush => exact grows_pass _ _ _ _
  | hear => exact grows_hear _ _
  | close => exact grows_of_eq (close_display session)
  | send => exact grows_of_eq (session.send_out_display _ _)
  | @take tier => cases tier <;> exact grows_refl _
  | poll => exact grows_poll session
  | ask => exact grows_ask session
  | arrive | note | complain | addBuffer | removeBuffer | register | registerHandled | setPipe
  | setSink | setPrompting => exact grows_same rfl rfl

theorem grows_lapses (lapses : Lapses allowed session later) :
    session.display.Grows later.display := by
  induction lapses with
  | refl => exact grows_refl _
  | tail _ lapse ih =>
    refine grows_trans ih ?_
    cases lapse with
    | move move => exact grows_move move
    | skip => exact grows_pass _ _ _ _
    | abort => exact grows_of_eq (close_display _)

theorem grows_open (alive : session.isClosed = false) (view : String) :
    session.display.Grows ((Engine.openView view).after session).display := by
  rw [Engine.after_open alive]
  split
  · exact grows_refl _
  · next found =>
    have opened : session.display.Grows (session.opened view).unwoken.display := grows_same rfl rfl
    dsimp only
    split
    · exact opened
    · exact grows_trans opened (grows_accept ((session.opened view).unwoken.await view) _ _)

theorem grows_receive (session : Session) (delivery : Delivery) :
    session.display.Grows ((Engine.receive delivery).after session).display := by
  by_cases exits : delivery = .exit
  · subst exits
    have closed : session.display.Grows session.close.display := grows_of_eq (close_display session)
    exact grows_trans closed (grows_same rfl rfl)
  · exact grows_lapses (Engine.received_lapses (within_all session) rfl rfl exits)

theorem grows_act (act : Act given session later) : session.display.Grows later.display := by
  cases act with
  | submit _ alive =>
    rw [Engine.after_submit alive]
    have cleared : session.display.Grows session.unwoken.display := grows_same rfl rfl
    exact grows_trans cleared (grows_accept session.unwoken _ _)
  | openView view alive => exact grows_open alive view
  | receive delivery => exact grows_receive session delivery
  | close => exact grows_of_eq (close_display session)
  | closeView | process => exact grows_same rfl rfl

end Growth

/-- The session of a name, if it is there, shows a text that begins like this. If that says anything,
the name was given away. -/
structure Client.Shows (id : String) (column : Column) (text : String) (client : Client) : Prop where
  given : text ≠ "" → ∃ number ≤ client.attempts, id = sessionName number
  begins : ∀ attachment, client.sessions.get? id = some attachment →
    ∃ more, column.text attachment.session.display = text ++ more

section Shows

variable {given : String → Prop} {client later : Client} {id text : String} {column : Column}

theorem shows_nothing (client : Client) : client.Shows id column "" :=
  ⟨fun some => absurd rfl some, fun _ _ => ⟨_, String.empty_append.symm⟩⟩

-- A name is not given away again, so no other session takes the place of the one that was read.
theorem step_shows (shows : client.Shows id column text) (step : client.Step given later) :
    later.Shows id column text := by
  by_cases nothing : text = ""
  · rw [nothing]
    exact shows_nothing later
  obtain ⟨number, bound, named⟩ := shows.given nothing
  cases step with
  | aside same attempts =>
    exact ⟨fun _ => ⟨number, Nat.le_trans bound attempts, named⟩, by rw [same]; exact shows.begins⟩
  | launch _ _ attempts _ others =>
    have old : id ≠ sessionName (client.attempts + 1) := by
      intro same
      have := session_name_injective (named.symm.trans same)
      omega
    refine ⟨fun _ => ⟨number, by omega, named⟩, ?_⟩
    rw [others id old]
    exact shows.begins
  | @act other attachment session present act =>
    refine ⟨fun _ => ⟨number, bound, named⟩, fun found kept => ?_⟩
    rw [kept_get] at kept
    split at kept
    · next same =>
      subst same
      cases kept
      obtain ⟨some, begins⟩ := shows.begins attachment present
      obtain ⟨more, grown⟩ := grows_act act column
      exact ⟨some ++ more, grown.trans (by rw [begins, String.append_assoc])⟩
    · exact shows.begins found kept
  | forget =>
    exact ⟨fun _ => ⟨number, bound, named⟩, fun found kept => shows.begins found (erased_get kept)⟩

theorem reaches_shows (shows : client.Shows id column text) (run : client.Reaches later) :
    later.Shows id column text := by
  have steps := reaches_steps run
  clear run
  induction steps with
  | refl => exact shows
  | tail _ step ih => exact step_shows ih step

end Shows

/-- A page that was read: the limit that was given, and the whole text as it was then. -/
structure Glance where
  limit : Option Int
  shown : String
  page : Page

/-- A page that goes on in a text where others ended. -/
structure Glance.Continues (before : String) (glance : Glance) : Prop where
  whole : ∃ more, glance.shown = before ++ glance.page.content ++ more
  limited : ∀ count, glance.limit = some count → (glance.page.content.length : Int) ≤ count
  ended : glance.page.hasMore = false → before ++ glance.page.content = glance.shown
  full : glance.page.hasMore = true → glance.page.content ≠ "" ∧
    glance.limit = some (glance.page.content.length : Int) ∧
    (before ++ glance.page.content).length < glance.shown.length

/-- All that was read. -/
def taken (glances : List Glance) : String :=
  glances.foldl (fun text glance => text ++ glance.page.content) ""

/-- Somebody reads a text of a session from its beginning, and each time goes on where the last page
ended. Anything may happen in between. -/
inductive Client.Pages (column : Column) (id : String) (begun : Client) :
    List Glance → Client → Prop where
  | start : Pages column id begun [] begun
  | turn {glances : List Glance} {middle now later : Client} {limit offset : Option Int}
    {attachment : Attachment} {page : Page} (earlier : Pages column id begun glances middle)
    (meanwhile : middle.Reaches now) (fair : ∀ count, limit = some count → 1 ≤ count)
    (onward : offset.getD 0 = (taken glances).length)
    (present : now.sessions.get? id = some attachment)
    (read : (Control.perform (column.call id ⟨limit, offset⟩)).run now = .ok (.textPage page) later) :
    Pages column id begun (glances ++ [⟨limit, column.text attachment.session.display, page⟩]) later

section Pages

variable {column : Column} {id : String} {begun now : Client} {glances : List Glance}

theorem taken_snoc (glances : List Glance) (glance : Glance) :
    taken (glances ++ [glance]) = taken glances ++ glance.page.content := by
  simp [taken]

theorem run_call {attachment : Attachment} (present : now.sessions.get? id = some attachment)
    (window : Window) :
    (Control.perform (column.call id window)).run now =
      .ok (.textPage (Page.of (column.text attachment.session.display) window.limit window.offset))
        now := by
  have ran (text : Display → String) : (Control.readPage id text window).run now =
      .ok (.textPage (Page.of (text attachment.session.display) window.limit window.offset)) now := by
    unfold Control.readPage Control.answering
    rw [Engine.run_catch, EStateM.run_bind, Control.run_require, present]
    rfl
  cases column <;> exact ran _

theorem bound_from_start (size : Nat) {bound : Int} (nonnegative : 0 ≤ bound) :
    boundIndex size bound = min bound.toNat size := by
  rw [boundIndex, if_neg (Int.not_lt.mpr nonnegative)]

/-- How much a limit lets through of a text. -/
def span (limit : Option Int) (text : String) : Nat := limit.elim text.length Int.toNat

/-- The page that begins in a text where the last one ended. -/
theorem page_onward {text before rest : String} (whole : text = before ++ rest)
    {limit offset : Option Int} (onward : offset.getD 0 = before.length)
    (fair : ∀ count, limit = some count → 1 ≤ count) :
    (Page.of text limit offset).content = String.ofList (rest.toList.take (span limit rest)) ∧
      (Page.of text limit offset).hasMore = decide (span limit rest < rest.length) := by
  have chars : text.toList = before.toList ++ rest.toList := by rw [whole, String.toList_append]
  have size : text.toList.length = before.length + rest.length := by
    rw [chars, List.length_append, String.length_toList, String.length_toList]
  have low : boundIndex text.toList.length before.length = before.length := by
    rw [bound_from_start _ (by omega)]
    omega
  have dropped : text.toList.drop before.length = rest.toList := by
    rw [chars, ← String.length_toList, List.drop_left]
  cases limit with
  | none =>
    simp only [Page.of, onward, stretch, Option.elim_some, Option.elim_none, low, dropped, span]
    rw [size, Nat.add_sub_cancel_left]
    exact ⟨rfl, (decide_eq_false (Nat.lt_irrefl _)).symm⟩
  | some count =>
    have least := fair count rfl
    have high : boundIndex text.toList.length (before.length + count) - before.length =
        min count.toNat rest.length := by
      rw [bound_from_start _ (by omega), size]
      omega
    simp only [Page.of, onward, stretch, Option.elim_some, low, dropped, high, span]
    constructor
    · rw [← String.length_toList, ← List.take_take, List.take_length]
    · rw [size]
      refine decide_eq_decide.mpr ?_
      omega

theorem continues_of_page {text before rest : String} (whole : text = before ++ rest)
    {limit offset : Option Int} (onward : offset.getD 0 = before.length)
    (fair : ∀ count, limit = some count → 1 ≤ count) :
    Glance.Continues before ⟨limit, text, Page.of text limit offset⟩ := by
  obtain ⟨content, more⟩ := page_onward whole onward fair
  let left := String.ofList (rest.toList.drop (span limit rest))
  have parts : rest = (Page.of text limit offset).content ++ left := by
    rw [content, ← String.ofList_append, List.take_append_drop, String.ofList_toList]
  have size : (Page.of text limit offset).content.length = min (span limit rest) rest.length := by
    rw [content, String.length_ofList, List.length_take, String.length_toList]
  have total : text.length = before.length + rest.length := by rw [whole, String.length_append]
  constructor
  · exact ⟨left, by rw [String.append_assoc, ← parts, whole]⟩
  · rintro count rfl
    have least := fair count rfl
    simp only [span, Option.elim_some] at size
    dsimp only
    omega
  · intro said
    rw [more, decide_eq_false_iff_not, Nat.not_lt, ← String.length_toList] at said
    rw [content, List.take_of_length_le said, String.ofList_toList, whole]
  · intro said
    rw [more, decide_eq_true_eq] at said
    cases limit with
    | none => exact absurd said (Nat.lt_irrefl _)
    | some count =>
      have least := fair count rfl
      simp only [span, Option.elim_some] at size said
      dsimp only
      refine ⟨fun empty => ?_, ?_, ?_⟩
      · rw [empty, String.length_empty] at size
        omega
      · congr 1
        omega
      · rw [String.length_append]
        omega

/-- Every page goes on where the ones before it ended. -/
def Reads (glances : List Glance) : Prop :=
  ∀ front glance back, glances = front ++ glance :: back → glance.Continues (taken front)

theorem reads_snoc {glance : Glance} (reads : Reads glances)
    (continues : glance.Continues (taken glances)) : Reads (glances ++ [glance]) := by
  intro front found back same
  rcases List.eq_nil_or_concat back with rfl | ⟨others, last, rfl⟩
  · obtain ⟨rfl, only⟩ := List.append_inj' same rfl
    cases only
    exact continues
  · rw [List.concat_eq_append, ← List.cons_append, ← List.append_assoc] at same
    obtain ⟨earlier, -⟩ := List.append_inj' same rfl
    exact reads front found others earlier

theorem pages_read {config : Config} (run : Client.Reaches { config := config } begun)
    (pages : begun.Pages column id glances now) :
    Client.Reaches { config := config } now ∧ now.Shows id column (taken glances) ∧
      Reads glances := by
  induction pages with
  | start =>
    refine ⟨run, shows_nothing begun, fun front glance back same => ?_⟩
    cases front <;> cases same
  | @turn glances middle now later limit offset attachment page _ meanwhile fair onward present read ih =>
    obtain ⟨reached, shows, reads⟩ := ih
    have reached' := reached.trans meanwhile
    obtain ⟨rest, whole⟩ := (reaches_shows shows meanwhile).begins attachment present
    rw [run_call present] at read
    cases read
    have continues := continues_of_page whole onward fair
    refine ⟨reached', ⟨fun _ => (reached_sound reached').named id attachment present, ?_⟩,
      reads_snoc reads continues⟩
    intro found kept
    cases present.symm.trans kept
    rw [taken_snoc]
    exact continues.whole

/-- Pages that are read with the same limit, and of which none is the last, are all full. -/
theorem full_pages {text : String} {count : Nat} (reads : Reads glances)
    (unended : ∀ glance ∈ glances, glance.shown = text ∧ glance.limit = some (count : Int) ∧
      glance.page.hasMore = true) :
    (taken glances).length = glances.length * count ∧
      (glances ≠ [] → (taken glances).length < text.length) := by
  induction glances using List.reverseRecOn with
  | nil => exact ⟨by simp [taken], fun some => absurd rfl some⟩
  | append_singleton front glance ih =>
    have earlier : Reads front := fun first found back same =>
      reads first found (back ++ [glance]) (by simp [same])
    obtain ⟨size, -⟩ := ih earlier fun other member => unended other (List.mem_append_left _ member)
    obtain ⟨rfl, limit, more⟩ := unended glance (by simp)
    obtain ⟨-, limit', less⟩ := (reads front glance [] rfl).full more
    have counted : glance.page.content.length = count := by
      have same := Option.some.inj (limit'.symm.trans limit)
      omega
    rw [taken_snoc]
    refine ⟨?_, fun _ => less⟩
    rw [String.length_append, size, counted, List.length_append, List.length_singleton, Nat.succ_mul]

/-- Pages of a text of a session have been read one after another, and nothing of it is lost or comes
twice. -/
structure Client.ReadsOn (now : Client) (column : Column) (id : String) (glances : List Glance) :
    Prop where
  /-- What was read is how the text begins, then and ever after. -/
  begins : ∀ later attachment, now.Reaches later → later.sessions.get? id = some attachment →
    ∃ more, column.text attachment.session.display = taken glances ++ more
  each : ∀ front glance back, glances = front ++ glance :: back →
    (∀ count, glance.limit = some count → (glance.page.content.length : Int) ≤ count) ∧
    (glance.page.hasMore = false → taken (front ++ [glance]) = glance.shown) ∧
    (glance.page.hasMore = true → glance.page.content ≠ "")
  /-- Of a text that does not change a page is the last after at most one call for each full page of it
  and one for what remains, or after the one that finds it empty. -/
  few : ∀ (text : String) (count : Nat), 1 ≤ count →
    (∀ glance ∈ glances, glance.shown = text ∧ glance.limit = some (count : Int) ∧
      glance.page.hasMore = true) →
    glances.length < max 1 ((text.length + count - 1) / count)
  answered : ∀ window attachment, now.sessions.get? id = some attachment →
    ∃ page, (Control.perform (column.call id window)).run now = .ok (.textPage page) now

/-- Whoever reads a text of a session page by page, with limits that are none or at least one, and
goes on each time where the last page ended, whatever happens in between: what was read is how the text
begins, then and ever after. No page is longer than its limit. If a page is the last, all of the text
was read; if not, it says something. So of a text that does not change a page is the last after at
most one call for each full page of it and one for what remains, or after the one that finds it empty.
And as long as the session is there, a page is read. -/
theorem pages_lose_and_repeat_nothing {config : Config}
    (run : Client.Reaches { config := config } begun) (pages : begun.Pages column id glances now) :
    now.ReadsOn column id glances := by
  obtain ⟨-, shows, reads⟩ := pages_read run pages
  refine ⟨?_, ?_, ?_, ?_⟩
  · intro later attachment rest present
    exact (reaches_shows shows rest).begins attachment present
  · intro front glance back same
    have continues := reads front glance back same
    rw [taken_snoc]
    exact ⟨continues.limited, continues.ended, fun more => (continues.full more).1⟩
  · intro text count least unended
    obtain ⟨size, less⟩ := full_pages reads unended
    by_cases none_ : glances = []
    · rw [none_]
      exact Nat.lt_of_lt_of_le Nat.zero_lt_one (Nat.le_max_left _ _)
    · refine Nat.lt_of_lt_of_le ?_ (Nat.le_max_right _ _)
      rw [Nat.lt_iff_add_one_le, Nat.le_div_iff_mul_le least, Nat.succ_mul, ← size]
      have := less none_
      omega
  · intro window attachment present
    exact ⟨_, run_call present window⟩

/-- A transcript that grows between its two pages. -/
theorem pages_of_growing_transcript :
    ∃ (now : Client) (glances : List Glance),
      Client.Reaches { config := { gdbPath := .string "gdb" } }
        { config := { gdbPath := .string "gdb" } } ∧
      Client.Pages .transcript "session_1" { config := { gdbPath := .string "gdb" } } glances now ∧
      glances.map (fun glance => (glance.limit, glance.page.content, glance.page.hasMore)) =
        [(some 3, "hel", true), (none, "lo\nworld", false)] ∧
      now.ReadsOn .transcript "session_1" glances := by
  let first : Client := { config := { gdbPath := .string "gdb" } }
  let started := (Control.perform (.startDebug (some "a.out") none none)).after first
  let early := (Control.deliver "session_1" [.output "hello\n".toUTF8.data.toList]).after started
  let late := (Control.deliver "session_1" [.output "world\n".toUTF8.data.toList]).after early
  have shown : (early.sessions.get? "session_1").map (·.session.display.transcript) =
      some "hello" := by
    decide +kernel
  have shown' : (late.sessions.get? "session_1").map (·.session.display.transcript) =
      some "hello\nworld" := by
    decide +kernel
  obtain ⟨attachment, present, text⟩ := Option.map_eq_some_iff.mp shown
  obtain ⟨attachment', present', text'⟩ := Option.map_eq_some_iff.mp shown'
  have run : Client.Reaches first early := .tail (.single (.call _)) (.deliver _ _)
  have one : Client.Pages .transcript "session_1" first
      [⟨some 3, attachment.session.display.transcript,
        Page.of attachment.session.display.transcript (some 3) none⟩] early :=
    .turn .start run (by rintro count ⟨⟩; decide) rfl present (run_call present _)
  have two : Client.Pages .transcript "session_1" first
      [⟨some 3, attachment.session.display.transcript,
          Page.of attachment.session.display.transcript (some 3) none⟩,
        ⟨none, attachment'.session.display.transcript,
          Page.of attachment'.session.display.transcript none (some 3)⟩] late :=
    .turn one (.single (.deliver _ _)) (by rintro count ⟨⟩) (by rw [text]; decide) present'
      (run_call present' _)
  refine ⟨late, _, .refl, two, ?_, pages_lose_and_repeat_nothing .refl two⟩
  simp only [List.map_cons, List.map_nil, text, text']
  decide

end Pages

end GdbControl
