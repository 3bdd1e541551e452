import GdbControl.Proofs.Shifts
import Mathlib.Data.List.Induction

/-!
gdb reads one line at each prompt and each question, so no command may go out before the next of
them. Commands go out from several places; what they have in common is that gdb is taken to wait for a
line only after it came to a prompt or asked a question, and that no line has gone out since.
-/

namespace GdbControl

/-- gdb comes to its prompt, or asks a question. -/
def Event.isPrompt (event : Event) : Bool := event.prompt?.isSome

/-- Whether gdb waits for a line after an event; `waits` says whether it did before. -/
def Event.waitsAfter (waits : Bool) : Event → Bool
  | .sent _ _ => false
  | event => waits || event.isPrompt

/-- Whether gdb waits for a line, for all that the record tells. -/
def waitsIn (journal : List Event) : Bool := journal.foldl Event.waitsAfter false

/-- Each command goes out to a gdb that waits for a line. -/
abbrev Paced : List Event → Prop :=
  Lawful fun before event => event.isSent = true → waitsIn before = true

section Record

variable {journal events : List Event}

theorem waits_snoc (journal : List Event) (event : Event) :
    waitsIn (journal ++ [event]) = event.waitsAfter (waitsIn journal) := by
  simp [waitsIn]

theorem waits_unsent {event : Event} (unsent : event.isSent = false) (waits : Bool) :
    event.waitsAfter waits = (waits || event.isPrompt) := by
  cases event with
  | sent => cases unsent
  | _ => rfl

theorem waits_kept (waits : waitsIn journal = true) (unsent : ∀ event ∈ events, event.isSent = false) :
    waitsIn (journal ++ events) = true := by
  induction events generalizing journal with
  | nil => simpa using waits
  | cons event rest ih =>
    have first : waitsIn (journal ++ [event]) = true := by
      rw [waits_snoc, waits_unsent (unsent event List.mem_cons_self), waits, Bool.true_or]
    have whole := ih first fun other member => unsent other (List.mem_cons_of_mem event member)
    simpa using whole

-- If gdb waits now, it did so before, or came to a prompt since.
theorem waits_since (waits : waitsIn (journal ++ events) = true) :
    waitsIn journal = true ∨ ∃ event ∈ events, event.isPrompt = true := by
  induction events generalizing journal with
  | nil => exact .inl (by simpa using waits)
  | cons event rest ih =>
    have parts : waitsIn ((journal ++ [event]) ++ rest) = true := by simpa using waits
    rcases ih parts with now | ⟨other, member, prompt⟩
    · cases sent : event.isSent with
      | true =>
        cases event <;> simp [Event.isSent] at sent
        simp [waits_snoc, Event.waitsAfter] at now
      | false =>
        rw [waits_snoc, waits_unsent sent, Bool.or_eq_true] at now
        rcases now with before | prompt
        · exact .inl before
        · exact .inr ⟨event, List.mem_cons_self, prompt⟩
    · exact .inr ⟨other, List.mem_cons_of_mem event member, prompt⟩

/-- A record in which commands are paced has a prompt for each of them, and one more if gdb waits. By
induction from the end of the record. -/
theorem sent_le_prompts (paced : Paced journal) :
    journal.countP Event.isSent + (waitsIn journal).toNat ≤ journal.countP Event.isPrompt := by
  induction journal using List.reverseRecOn with
  | nil => simp [waitsIn]
  | append_singleton journal event ih =>
    have earlier := ih fun before other begins =>
      paced before other (begins.trans (List.prefix_append journal [event]))
    rw [waits_snoc, List.countP_append, List.countP_append, List.countP_singleton,
      List.countP_singleton]
    cases sent : event.isSent with
    | true =>
      have waits : waitsIn journal = true := paced journal event List.prefix_rfl sent
      cases event <;> simp [Event.isSent] at sent
      simp only [waits, Bool.toNat_true] at earlier
      simp only [Event.waitsAfter, Bool.toNat_false]
      split <;> omega
    | false =>
      rw [waits_unsent sent]
      cases waits : waitsIn journal <;> cases prompt : event.isPrompt <;>
        simp only [waits, Bool.toNat_true, Bool.toNat_false, Bool.or_true, Bool.or_false,
          Bool.false_eq_true, if_true, if_false] at earlier ⊢ <;>
        omega

end Record

/-- The invariant of the pace. -/
structure Session.Measured (session : Session) : Prop where
  paced : Paced session.journal
  waits : session.prompting = true → waitsIn session.journal = true

section Measured

variable {session later : Session}

-- Nothing goes out, and gdb is not taken to wait if it was not before.
theorem measured_kept (measured : session.Measured) {events : List Event}
    (told : later.journal = session.journal ++ events)
    (unsent : ∀ event ∈ events, event.isSent = false)
    (prompting : later.prompting = true → session.prompting = true) : later.Measured := by
  constructor
  · rw [told]
    refine lawful_append measured.paced fun event member before sent => ?_
    cases (unsent event member).symm.trans sent
  · intro waits
    rw [told]
    exact waits_kept (measured.waits (prompting waits)) unsent

theorem measured_sent (paced : Paced session.journal) (waits : waitsIn session.journal = true)
    (tier : Tier) (command : Command) : (session.sendOut (some tier) command).Measured := by
  refine ⟨?_, by simp⟩
  have sent : Paced (session.journal ++ [.sent (some tier) command]) :=
    lawful_snoc paced fun _ => waits
  have shape : (session.sendOut (some tier) command).journal =
      (session.journal ++ [.sent (some tier) command]) ++
        (if session.process.pipeBroken then [] else [.wrote command.written]) := by
    simp [Session.sending]
  rw [shape]
  refine lawful_append sent fun event member before posed => ?_
  split at member
  · cases member
  · rw [List.mem_singleton.mp member] at posed
    cases posed

theorem measured_annotated (measured : session.Measured) (marker : Marker) :
    (session.log (.annotated marker)).Measured := by
  refine measured_kept measured rfl ?_ id
  intro event member
  rw [List.mem_singleton.mp member]
  rfl

theorem measured_poll (paced : Paced session.journal) (waits : waitsIn session.journal = true) :
    session.poll.Measured := by
  unfold Session.poll
  split
  · exact measured_sent (by simpa using paced) (by simpa using waits) _ _
  · exact measured_sent (by simpa using paced) (by simpa using waits) _ _
  · have told : Paced (session.journal ++ [.idled]) := lawful_snoc paced (by rintro ⟨⟩)
    have still : waitsIn (session.journal ++ [.idled]) = true := waits_kept waits (by simp [Event.isSent])
    exact ⟨by simpa [Session.log] using told, fun _ => by simpa [Session.log] using still⟩

theorem measured_ask (paced : Paced session.journal) (waits : waitsIn session.journal = true) :
    session.ask.Measured := by
  unfold Session.ask
  dsimp only
  split
  · refine measured_sent ?_ ?_ _ _
    exacts [paced, waits]
  · exact ⟨paced, fun _ => waits⟩

theorem measured_fulfilled (measured : session.Measured) : session.fulfil.Measured := by
  rcases session.fulfil_cases with ⟨-, events, told, same⟩ | ⟨command, view, -, -, same⟩ <;> rw [same]
  · refine measured_kept measured rfl ?_ id
    rcases told with rfl | ⟨command, rfl⟩ <;> simp [Event.isSent]
  · exact measured_kept measured rfl (by simp [Event.isSent]) id

theorem measured_reaction (measured : session.Measured) {marker : Marker}
    (reaction : Reaction marker session later) : later.Measured := by
  have told := measured_annotated measured marker
  have posed (prompt : (Event.annotated marker).isPrompt = true) :
      waitsIn (session.log (.annotated marker)).journal = true := by
    rw [Session.log, waits_snoc, waits_unsent rfl, prompt, Bool.or_true]
  cases reaction with
  | prompt kind => exact measured_poll told.paced (posed (by simp [Event.isPrompt, Event.prompt?, kind]))
  | question kind => exact measured_ask told.paced (posed (by simp [Event.isPrompt, Event.prompt?, kind]))
  | phase => exact ⟨told.paced, told.waits⟩
  | fulfilled => exact measured_fulfilled told
  | remark => exact told

theorem measured_shift (measured : session.Measured) (shift : Shift session later) :
    later.Measured := by
  have accepted {tier : Tier} {command : Command} :
      (session.log (.accepted tier command)).Measured :=
    measured_kept measured rfl (by simp [Event.isSent]) id
  cases shift with
  | @aside _ events same told asides =>
    refine measured_kept measured told (fun event member => ?_) (same.prompting ▸ id)
    have aside := asides event member
    cases event <;> first | rfl | cases aside
  | hear spoken =>
    rw [hear_spoken session spoken]
    exact measured_kept measured rfl (by simp [Event.isSent]) id
  | @queue tier command =>
    cases tier <;> exact ⟨accepted.paced, accepted.waits⟩
  | @overtake tier command _ ready =>
    have prompting : session.prompting = true := by
      cases tier with
      | urgent => exact ready
      | idle => simp_all [Session.mayWrite]
    exact measured_sent accepted.paced (accepted.waits prompting) tier command
  | react _ reaction => exact measured_reaction measured reaction
  | close =>
    unfold Session.close
    split
    · exact measured
    · exact ⟨measured.paced, by simp⟩

theorem measured_start (process : Subprocess) (views : Catalog) :
    (Session.start process views).Measured := ⟨lawful_nil, by rintro ⟨⟩⟩

end Measured

/-- A command has gone out for a prompt or a question of its own, each time. -/
structure Session.KeepsPace (session : Session) : Prop where
  first : ∀ before tier command, before ++ [.sent tier command] <+: session.journal →
    ∃ event ∈ before, event.isPrompt = true
  between : ∀ before tier command between tier' command',
    (before ++ [.sent tier command] ++ between) ++ [.sent tier' command'] <+: session.journal →
      ∃ event ∈ between, event.isPrompt = true
  always : ∀ moment, moment <+: session.journal →
    moment.countP Event.isSent + (waitsIn moment).toNat ≤ moment.countP Event.isPrompt
  now : session.journal.countP Event.isSent + session.prompting.toNat ≤
    session.journal.countP Event.isPrompt

/-- Whatever a session is asked for and whatever gdb writes, and also into a broken pipe: a prompt or a
question comes before the first command that goes out and between any two of them; so at every moment
there have been at least as many of those as commands, and one more if gdb is taken to wait for a
line. -/
theorem one_command_per_prompt {process : Subprocess} {views : Catalog} {session : Session}
    (inside : views.Within Operation.isRegular)
    (run : (Session.start process views).Reaches Operation.isRegular session) :
    session.KeepsPace := by
  have measured : session.Measured := kept_shifts measured_shift (measured_start process views)
    (shifts_reaches (Session.start_within process inside) run)
  refine ⟨fun before tier command begins => ?_, fun before tier command between tier' command' begins => ?_,
    fun moment begins => ?_, ?_⟩
  · have waits : waitsIn ([] ++ before) = true := measured.paced before _ begins rfl
    rcases waits_since waits with now | prompt
    · cases now
    · exact prompt
  · have waits := measured.paced _ _ begins rfl
    rcases waits_since waits with now | prompt
    · simp [waits_snoc, Event.waitsAfter] at now
    · exact prompt
  · exact sent_le_prompts fun before event inner => measured.paced before event (inner.trans begins)
  · have whole := sent_le_prompts measured.paced
    cases prompting : session.prompting with
    | false => simp only [Bool.toNat_false]; omega
    | true => rwa [measured.waits prompting] at whole

/-- A question lets an urgent command out into a broken pipe while an earlier one is in flight, and an
idle command waits on. -/
theorem question_lets_one_out :
    ∃ session : Session,
      (Session.start ⟨1, none, [], true, false, false⟩ Table.empty).Reaches Operation.isRegular
        session ∧
      session.journal.countP Event.isSent = 2 ∧ session.idle = [.typed "third"] ∧
      session.KeepsPace := by
  have inside : Catalog.Within Operation.isRegular Table.empty := by
    intro view member
    cases member
  have run : (Session.start ⟨1, none, [], true, false, false⟩ Table.empty).Reaches
      Operation.isRegular
      ((((((Session.start ⟨1, none, [], true, false, false⟩ Table.empty).after
        (.enqueue .urgent (.typed "first"))).after (.react ⟨"prompt", none⟩)).after
          (.react ⟨"query", none⟩)).after (.enqueue .idle (.typed "third"))).after
            (.enqueue .urgent (.typed "second"))) :=
    .tail (.tail (.tail (.tail (.single ⟨_, rfl, rfl⟩) ⟨_, rfl, rfl⟩) ⟨_, rfl, rfl⟩) ⟨_, rfl, rfl⟩)
      ⟨_, rfl, rfl⟩
  exact ⟨_, run, rfl, rfl, one_command_per_prompt inside run⟩

end GdbControl
