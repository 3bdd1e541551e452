import GdbControl.Proofs.Held
import GdbControl.Proofs.Order

/-!
Regular operations, seen from the exchange of commands and output alone. Little of what a session does
matters to it: text reaches the sink, a command waits in its queue or goes out past it, an annotation
is acted upon, the session is closed. All else leaves the exchange as it was. An invariant of the
exchange has these few cases to be proved in, and then holds of every run.
-/

namespace GdbControl

def Event.isSent : Event → Bool
  | .sent _ _ => true
  | _ => false

/-- An event that says nothing about commands, annotations and where text went. -/
def Event.isAside : Event → Bool
  | .arrived _ | .reported _ => true
  | _ => false

/-- Each event of a record obeys a law about what was recorded before it. -/
def Lawful (law : List Event → Event → Prop) (journal : List Event) : Prop :=
  ∀ before event, before ++ [event] <+: journal → law before event

-- An event of two records, one after the other, is an event of the first or of the second.
theorem split_append {first second front back : List Event} {event : Event}
    (split : first ++ second = front ++ event :: back) :
    (∃ inner, first = front ++ event :: inner) ∨
      ∃ inner, front = first ++ inner ∧ second = inner ++ event :: back := by
  rcases List.append_eq_append_iff.mp split with ⟨inner, same, rest⟩ | ⟨inner, same, rest⟩
  · exact .inr ⟨inner, same, rest⟩
  · cases inner with
    | nil => exact .inr ⟨[], by simpa using same.symm, rest.symm⟩
    | cons other inner =>
      cases rest
      exact .inl ⟨inner, same⟩

section Lawful

variable {law : List Event → Event → Prop} {journal events : List Event}

theorem lawful_nil : Lawful law [] := by
  intro before event begins
  have empty := List.prefix_nil.mp begins
  simp at empty

theorem lawful_snoc {event : Event} (earlier : Lawful law journal) (last : law journal event) :
    Lawful law (journal ++ [event]) := by
  intro before other begins
  rcases List.prefix_concat_iff.mp begins with whole | inner
  · obtain ⟨rfl, same⟩ := List.append_inj' whole rfl
    obtain rfl := List.singleton_inj.mp same
    exact last
  · exact earlier before other inner

-- Events of which the law asks nothing may always follow.
theorem lawful_append (earlier : Lawful law journal)
    (free : ∀ event ∈ events, ∀ before, law before event) : Lawful law (journal ++ events) := by
  induction events generalizing journal with
  | nil => simpa using earlier
  | cons event rest ih =>
    have first := lawful_snoc earlier (free event List.mem_cons_self journal)
    have whole := ih first fun other member => free other (List.mem_cons_of_mem event member)
    simpa using whole

end Lawful

/-- The later session stands in the same place of the exchange. -/
structure Session.SameExchange (session later : Session) : Prop where
  sink : later.sink = session.sink
  inFlight : later.inFlight = session.inFlight
  completed : later.completed = session.completed
  gathered : later.gathered = session.gathered
  prompting : later.prompting = session.prompting
  questioned : later.questioned = session.questioned
  urgent : later.urgent = session.urgent
  idle : later.idle = session.idle

/-- What a regular operation does to the exchange of commands and output, one change at a time. -/
inductive Shift (session : Session) : Session → Prop where
  | aside {later : Session} {events : List Event} (same : session.SameExchange later)
    (told : later.journal = session.journal ++ events)
    (asides : ∀ event ∈ events, event.isAside = true) : Shift session later
  | hear {text : String} (spoken : text ≠ "") : Shift session (session.hear text)
  | queue {tier : Tier} {command : Command} (alive : session.isClosed = false)
    (busy : session.mayWrite tier = false) :
    Shift session ((session.log (.accepted tier command)).push tier command)
  /-- gdb waits for a line, so the command goes out past its queue. -/
  | overtake {tier : Tier} {command : Command} (alive : session.isClosed = false)
    (ready : session.mayWrite tier = true) :
    Shift session ((session.log (.accepted tier command)).sendOut (some tier) command)
  | react {marker : Marker} {later : Session} (alive : session.isClosed = false)
    (reaction : Reaction marker session later) : Shift session later
  | close : Shift session session.close

abbrev Shifts : Session → Session → Prop := Relation.ReflTransGen Shift

section Shifts

variable {allowed : Operation → Bool} {session later : Session}

theorem hear_spoken (session : Session) {text : String} (spoken : text ≠ "") :
    session.hear text = { session with
      display := (session.hear text).display
      gathered := if session.sink = .gathering then session.gathered ++ text else session.gathered
      journal := session.journal ++ [.emitted session.sink text] } := by
  cases sink : session.sink <;> simp [Session.hear, Session.log, spoken, sink]

theorem aside_same (same : session.SameExchange later) (told : later.journal = session.journal) :
    Shift session later := by
  have nothing : later.journal = session.journal ++ [] := by rw [told, List.append_nil]
  exact .aside same nothing (by simp)

theorem aside_log (event : Event) (same : session.SameExchange later)
    (told : later.journal = session.journal ++ [event]) (aside : event.isAside = true) :
    Shift session later := by
  refine .aside same told fun other member => ?_
  rwa [List.mem_singleton.mp member]

theorem shifts_hear (session : Session) (text : String) : Shifts session (session.hear text) := by
  by_cases silent : text = ""
  · rw [Session.hear, if_pos silent]
  · exact .single (.hear silent)

theorem shifts_pass (session : Session) (text : String) (held : Bytes) (midLine : Bool) :
    Shifts session (session.pass text held midLine) := by
  have kept : Shift session (session.hold held midLine) :=
    aside_same ⟨rfl, rfl, rfl, rfl, rfl, rfl, rfl, rfl⟩ rfl
  exact .head kept (shifts_hear _ text)

theorem shift_accept (alive : session.isClosed = false) (tier : Tier) (command : Command) :
    Shift session (session.accept tier command) := by
  unfold Session.accept
  split
  · next ready => exact .overtake alive ready
  · next busy => exact .queue alive (by simpa using busy)

theorem shifts_move (regular : ∀ operation, allowed operation = true → operation.isRegular = true)
    (move : Move allowed session later) : Shifts session later := by
  have never {operation : Operation} (granted : allowed operation = true)
      (raw : operation.isRegular = false) : Shifts session later :=
    absurd ((regular operation granted).symm.trans raw) (by decide)
  have passed := shifts_pass session
  cases move with
  | accept _ alive => exact .single (shift_accept alive _ _)
  | @request id view alive =>
    have awaited : Shift session (session.await id) :=
      aside_same ⟨rfl, rfl, rfl, rfl, rfl, rfl, rfl, rfl⟩ rfl
    have still : (session.await id).isClosed = false := alive
    exact .head awaited (.single (shift_accept still _ _))
  | react _ alive reaction => exact .single (.react alive reaction)
  | @arrive _ bytes =>
    exact .single (aside_log (.arrived bytes) ⟨rfl, rfl, rfl, rfl, rfl, rfl, rfl, rfl⟩ rfl rfl)
  | @cut _ cut _ _ alive _ reaction =>
    have still : (session.pass (Utf8.decode cut.before) cut.after false).isClosed = false :=
      (hear_closed (session.hold cut.after false) _).trans alive
    exact (passed _ _ _).tail (.react still reaction)
  | lines | flush => exact passed _ _ _
  | complain message =>
    exact .single (aside_log (.reported message) ⟨rfl, rfl, rfl, rfl, rfl, rfl, rfl, rfl⟩ rfl rfl)
  | hear => exact shifts_hear session _
  | close => exact .single .close
  | send granted => exact never (allowed_of_within granted) rfl
  | take granted | poll granted | ask granted | setSink granted | setPrompting granted =>
    exact never granted rfl
  | note | addBuffer | removeBuffer | register | registerHandled | setPipe =>
    exact .single (aside_same ⟨rfl, rfl, rfl, rfl, rfl, rfl, rfl, rfl⟩ rfl)

theorem shifts_lapses (regular : ∀ operation, allowed operation = true → operation.isRegular = true)
    (lapses : Lapses allowed session later) : Shifts session later := by
  induction lapses with
  | refl => exact .refl
  | tail _ lapse ih =>
    cases lapse with
    | move move => exact ih.trans (shifts_move regular move)
    | skip => exact ih.trans (shifts_pass _ _ _ _)
    | abort => exact ih.tail .close

/-- Whatever a session is asked for by regular operations, and whichever of them fail. -/
theorem shifts_reaches (inside : session.Within Operation.isRegular)
    (run : session.Reaches Operation.isRegular later) : Shifts session later :=
  shifts_lapses (fun _ => id) (Session.lapses_reaches inside run)

-- What every change keeps is kept by every run.
theorem kept_shifts {kept : Session → Prop}
    (step : ∀ {session later : Session}, kept session → Shift session later → kept later)
    (first : kept session) (shifts : Shifts session later) : kept later := by
  induction shifts with
  | refl => exact first
  | tail _ shift ih => exact step ih shift

end Shifts

end GdbControl
