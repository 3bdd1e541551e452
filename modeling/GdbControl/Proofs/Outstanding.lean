import GdbControl.Proofs.Order

/-!
The views that await a refresh are those for which a command is outstanding: it waits among the idle
commands, or it is in flight and its output is not complete. A view is added when its refresh is
asked for, and freed when its text has come, when the command is given up, or when the session is
closed. No view is freed twice or stays blocked, because its command is never outstanding twice.
-/

namespace GdbControl

/-- A command that a caller made for itself: it is for no view, and its output is no view's text. -/
def Command.isOwn : Command → Bool
  | .mk _ (some (.refresh _)) _ => false
  | .mk _ _ view => view.isNone

/-- A command names a view exactly when its output is the text of that view. -/
def Command.Matched (command : Command) : Prop :=
  ∀ view, command.view? = some view ↔ command.handler? = some (.refresh view)

/-- Regular operations with which a caller enqueues commands of its own only, and registers views
that are kept in buffers. -/
def Operation.isOwn : Operation → Bool
  | .enqueue _ command => command.isOwn
  | .registerHandled _ _ _ _ => false
  | operation => operation.isRegular

/-- All views are kept in buffers of their own names. -/
def Catalog.Buffered (catalog : Catalog) : Prop :=
  ∀ entry ∈ catalog.entries, entry.2 = .buffered entry.1 entry.2.command

namespace Session

/-- The view that the command in flight is for, while its output is not complete. -/
def underway (session : Session) : List String :=
  if session.completed then [] else (session.inFlight.bind Command.view?).toList

/-- The commands that are still to give their output. -/
def outstanding (session : Session) : List Command :=
  session.idle ++ if session.completed then [] else session.inFlight.toList

/-- The invariant of the views that await a refresh. Only a command whose output is not complete
can be about to give it. -/
structure Accounted (session : Session) : Prop where
  distinct : session.awaiting.Nodup
  same : session.awaiting.Perm (session.idle.filterMap Command.view? ++ session.underway)
  urgent : ∀ command ∈ session.urgent, command.view? = none
  matched : ∀ command ∈ session.commands, command.Matched
  unfinished : session.sink = .beforeOutput ∨ session.sink = .gathering → session.completed = false
  views : session.views.Buffered

end Session

section Freed

variable {session later : Session}

theorem own_view {command : Command} (own : command.isOwn = true) : command.view? = none := by
  match command with
  | .mk _ (some (.refresh _)) _ => cases own
  | .mk _ none _ | .mk _ (some .discard) _ | .mk _ (some (.routine _ _ _)) _ =>
    exact Option.isNone_iff_eq_none.mp own

theorem own_matched {command : Command} (own : command.isOwn = true) : command.Matched := by
  intro view
  match command with
  | .mk _ (some (.refresh _)) _ => cases own
  | .mk _ none _ | .mk _ (some .discard) _ | .mk _ (some (.routine _ _ _)) _ =>
    have absent := own_view own
    simp [absent, Command.handler?]

theorem outstanding_views (session : Session) :
    session.outstanding.filterMap Command.view? =
      session.idle.filterMap Command.view? ++ session.underway := by
  unfold Session.outstanding Session.underway
  rw [List.filterMap_append]
  cases session.completed with
  | true => rfl
  | false =>
    cases session.inFlight with
    | none => rfl
    | some command => cases view : command.view? <;> simp [view]

-- A view that is outstanding once is freed, and no other.
theorem freed_perm {awaiting rest : List String} {view : String} (distinct : awaiting.Nodup)
    (same : awaiting.Perm (rest ++ [view])) : (awaiting.filter (· != view)).Perm rest := by
  have once : (rest ++ [view]).Nodup := same.nodup_iff.mp distinct
  have others : rest.filter (· != view) = rest := by
    refine List.filter_eq_self.mpr fun other member => ?_
    have differs := (List.nodup_append.mp once).2.2 other member view (by simp)
    simpa using differs
  have filtered := same.filter (· != view)
  simpa [List.filter_append, others] using filtered

theorem release_awaiting {rest : List String} (distinct : session.awaiting.Nodup)
    (same : session.awaiting.Perm (rest ++ session.underway)) :
    session.release.awaiting.Nodup ∧ session.release.awaiting.Perm rest := by
  unfold Session.underway at same
  unfold Session.release
  cases flight : session.inFlight.bind Command.view? with
  | none =>
    have alone : session.awaiting.Perm rest := by
      cases done : session.completed <;> simpa [flight, done] using same
    exact ⟨distinct, alone⟩
  | some view =>
    cases done : session.completed with
    | true => exact ⟨distinct, by simpa [done] using same⟩
    | false =>
      have held : session.awaiting.Perm (rest ++ [view]) := by simpa [flight, done] using same
      exact ⟨distinct.filter _, freed_perm distinct held⟩

theorem accounted_sent {tier : Option Tier} {command : Command}
    (distinct : session.awaiting.Nodup)
    (same : session.awaiting.Perm
      (session.idle.filterMap Command.view? ++ command.view?.toList ++ session.underway))
    (urgent : ∀ command ∈ session.urgent, command.view? = none)
    (matched : ∀ other ∈ session.commands, other.Matched) (own : command.Matched)
    (views : session.views.Buffered) : (session.sendOut tier command).Accounted := by
  have released := release_awaiting distinct same
  refine ⟨by simpa using released.1, ?_, by simpa using urgent, ?_, by simp, by simpa using views⟩
  · simpa [Session.underway] using released.2
  · intro other member
    simp only [Session.commands, Session.send_out_urgent, Session.send_out_idle,
      Session.send_out_in_flight, Option.toList_some, List.mem_append,
      List.mem_singleton] at member matched
    rcases member with queued | rfl
    · exact matched other (.inl queued)
    · exact own

-- A move that leaves the commands and the waiting views alone.
theorem accounted_kept (accounted : session.Accounted)
    (awaiting : later.awaiting = session.awaiting) (urgent : later.urgent = session.urgent)
    (idle : later.idle = session.idle) (flight : later.inFlight = session.inFlight)
    (completed : later.completed = session.completed)
    (unfinished : later.sink = .beforeOutput ∨ later.sink = .gathering →
      session.sink = .beforeOutput ∨ session.sink = .gathering)
    (views : later.views.Buffered) : later.Accounted := by
  constructor
  · rw [awaiting]
    exact accounted.distinct
  · rw [awaiting, idle, Session.underway, flight, completed]
    exact accounted.same
  · rw [urgent]
    exact accounted.urgent
  · rw [Session.commands, urgent, idle, flight]
    exact accounted.matched
  · intro opened
    rw [completed]
    exact accounted.unfinished (unfinished opened)
  · exact views

end Freed

section Moves

variable {session later : Session}

theorem accounted_accepted_own (accounted : session.Accounted) (tier : Tier) {command : Command}
    (own : command.isOwn = true) : (session.accept tier command).Accounted := by
  have absent := own_view own
  unfold Session.accept
  split
  · refine accounted_sent accounted.distinct ?_ accounted.urgent accounted.matched
      (own_matched own) accounted.views
    simp only [absent, Option.toList_none, List.append_nil]
    exact accounted.same
  · have matched : ∀ other ∈ ((session.log (.accepted tier command)).push tier command).commands,
        other.Matched := by
      intro other member
      rcases push_commands member with known | rfl
      · exact accounted.matched other known
      · exact own_matched own
    cases tier with
    | urgent =>
      refine ⟨accounted.distinct, accounted.same, ?_, matched, accounted.unfinished,
        accounted.views⟩
      intro other member
      rcases List.mem_append.mp member with known | new
      · exact accounted.urgent other known
      · rw [List.mem_singleton.mp new]
        exact absent
    | idle =>
      refine ⟨accounted.distinct, ?_, accounted.urgent, matched, accounted.unfinished,
        accounted.views⟩
      have nothing : (session.idle ++ [command]).filterMap Command.view? =
          session.idle.filterMap Command.view? := by
        simp [absent]
      have same := accounted.same
      rw [← nothing] at same
      exact same

theorem refresh_named {id : String} {view : View} (buffered : session.views.Buffered)
    (known : session.views.find id = .ok view) :
    view.refreshCommand.view? = some id ∧ view.refreshCommand.Matched := by
  have own : view = .buffered id view.command := buffered _ (find_mem known)
  rw [own]
  constructor
  · rfl
  · intro other
    simp [View.refreshCommand, View.buffered, Command.view?, Command.handler?]

theorem awaited_once (accounted : session.Accounted) {id : String}
    (settled : session.isAwaiting id = false) :
    (session.awaiting ++ [id]).Nodup ∧ (session.awaiting ++ [id]).Perm
      (session.idle.filterMap Command.view? ++ [id] ++ session.underway) := by
  have absent : id ∉ session.awaiting := by
    intro present
    simp [Session.isAwaiting, present] at settled
  constructor
  · apply List.nodup_append.mpr
    refine ⟨accounted.distinct, by simp, ?_⟩
    intro other present new inNew same
    rw [List.mem_singleton.mp inNew] at same
    exact absent (same ▸ present)
  · apply (accounted.same.append_right [id]).trans
    rw [List.append_assoc, List.append_assoc]
    exact List.perm_append_comm.append_left _

-- The refresh of a view that waits for none becomes outstanding, in its queue or past it.
theorem accounted_requested (accounted : session.Accounted) {id : String} {view : View}
    (known : session.views.find id = .ok view) (settled : session.isAwaiting id = false) :
    ((session.await id).accept .idle view.refreshCommand).Accounted := by
  obtain ⟨named, matched⟩ := refresh_named accounted.views known
  obtain ⟨distinct, added⟩ := awaited_once accounted settled
  unfold Session.accept
  split
  · refine accounted_sent distinct ?_ accounted.urgent accounted.matched matched accounted.views
    rw [named]
    exact added
  · refine ⟨distinct, ?_, accounted.urgent, ?_, accounted.unfinished, accounted.views⟩
    · have queued : (session.idle ++ [view.refreshCommand]).filterMap Command.view? =
          session.idle.filterMap Command.view? ++ [id] := by
        simp [named]
      rw [← queued] at added
      exact added
    · intro other member
      rcases push_commands member with present | rfl
      · exact accounted.matched other present
      · exact matched

theorem accounted_released (accounted : session.Accounted) : session.release.Accounted := by
  have released := release_awaiting accounted.distinct accounted.same
  refine ⟨released.1, ?_, by simpa using accounted.urgent, ?_, by simpa using accounted.unfinished,
    by simpa using accounted.views⟩
  · simpa [Session.underway] using released.2
  · intro command member
    apply accounted.matched command
    simp only [Session.commands, Session.release_urgent, Session.release_idle,
      Session.release_in_flight, Option.toList_none, List.append_nil, List.mem_append] at member ⊢
    exact .inl member

theorem accounted_urgent_sent (accounted : session.Accounted) {command : Command}
    {rest : List Command} (first : session.urgent = command :: rest) :
    ({ session with urgent := rest }.sendOut (some .urgent) command).Accounted := by
  have absent : command.view? = none := accounted.urgent command (by simp [first])
  have known : command ∈ session.commands := by simp [Session.commands, first]
  refine accounted_sent accounted.distinct ?_ ?_ ?_ (accounted.matched command known)
    accounted.views
  · simp only [absent, Option.toList_none, List.append_nil]
    exact accounted.same
  · intro other member
    exact accounted.urgent other (first ▸ List.mem_cons_of_mem command member)
  · intro other member
    apply accounted.matched other
    simp only [Session.commands, first, List.mem_append, List.mem_cons] at member ⊢
    grind

theorem accounted_idle_sent (accounted : session.Accounted) {command : Command}
    {rest : List Command} (first : session.idle = command :: rest) :
    ({ session with idle := rest }.sendOut (some .idle) command).Accounted := by
  have known : command ∈ session.commands := by simp [Session.commands, first]
  refine accounted_sent accounted.distinct ?_ accounted.urgent ?_ (accounted.matched command known)
    accounted.views
  · apply accounted.same.trans
    have parts : session.idle.filterMap Command.view? =
        command.view?.toList ++ rest.filterMap Command.view? := by
      rw [first]
      cases view : command.view? <;> simp [view]
    rw [parts]
    exact List.perm_append_comm.append_right _
  · intro other member
    apply accounted.matched other
    simp only [Session.commands, first, List.mem_append, List.mem_cons] at member ⊢
    grind

theorem accounted_poll (accounted : session.Accounted) : session.poll.Accounted := by
  have plain : ({ session with questioned := false } : Session).Accounted :=
    accounted_kept accounted rfl rfl rfl rfl rfl id accounted.views
  have ready := accounted_released plain
  unfold Session.poll
  split
  · next command rest high => exact accounted_urgent_sent ready (by simpa using high)
  · next command rest high low => exact accounted_idle_sent ready (by simpa using low)
  · exact accounted_kept ready rfl rfl rfl rfl rfl id ready.views

theorem accounted_ask (accounted : session.Accounted) : session.ask.Accounted := by
  have asked : ({ session with questioned := true } : Session).Accounted :=
    accounted_kept accounted rfl rfl rfl rfl rfl id accounted.views
  unfold Session.ask
  split
  · next command rest high => exact accounted_urgent_sent asked high
  · exact accounted_kept asked rfl rfl rfl rfl rfl id asked.views

-- A sink that may gather output was there when a command went out.
theorem after_unfinished (phase : Phase) (sink : Sink) :
    (sink.after? phase).getD .console = .beforeOutput ∨
      (sink.after? phase).getD .console = .gathering →
        sink = .beforeOutput ∨ sink = .gathering := by
  cases phase <;> cases sink <;> decide

theorem accounted_fulfilled (accounted : session.Accounted) (gathering : session.sink = .gathering) :
    session.fulfil.Accounted := by
  have unfinished := accounted.unfinished (.inr gathering)
  have held := accounted.same
  unfold Session.underway at held
  simp only [unfinished, Bool.false_eq_true, if_false] at held
  -- The command in flight is for a view exactly if it is the view that gets its output.
  rcases session.fulfil_cases with ⟨other, events, -, same⟩ | ⟨command, view, flight, handled, same⟩ <;>
    rw [same]
  · have nothing : session.inFlight.bind Command.view? = none := by
      cases flight : session.inFlight with
      | none => rfl
      | some command =>
        have matched := accounted.matched command (by simp [Session.commands, flight])
        cases view : command.view? with
        | none => exact view
        | some view' => exact absurd ((matched view').mp view) (other command flight view')
    refine ⟨accounted.distinct, ?_, accounted.urgent, accounted.matched, by simp, accounted.views⟩
    simpa [Session.underway, nothing] using held
  · have matched := accounted.matched command (by simp [Session.commands, flight])
    have named : command.view? = some view := (matched view).mpr handled
    refine ⟨accounted.distinct.filter _, ?_, accounted.urgent, accounted.matched, by simp,
      accounted.views⟩
    have freed := freed_perm accounted.distinct (by simpa [flight, named] using held)
    simpa [Session.underway] using freed

theorem accounted_reaction (accounted : session.Accounted) {marker : Marker}
    (reaction : Reaction marker session later) : later.Accounted := by
  have heard : (session.log (.annotated marker)).Accounted :=
    accounted_kept accounted rfl rfl rfl rfl rfl id accounted.views
  have entered (phase : Phase) : ((session.log (.annotated marker)).enter phase).Accounted :=
    accounted_kept heard rfl rfl rfl rfl rfl (after_unfinished phase session.sink) heard.views
  cases reaction with
  | prompt => exact accounted_poll (entered .prompt)
  | question => exact accounted_ask heard
  | @phase phase => exact entered phase
  | fulfilled _ gathering => exact accounted_fulfilled heard gathering
  | remark => exact heard

theorem accounted_heard (accounted : session.Accounted) (text : String) :
    (session.hear text).Accounted := by
  obtain ⟨display, gathered, events, same, -⟩ := session.hear_shape text
  rw [same]
  exact accounted_kept accounted rfl rfl rfl rfl rfl id accounted.views

theorem accounted_passed (accounted : session.Accounted) (text : String) (held : Bytes)
    (midLine : Bool) : (session.pass text held midLine).Accounted := by
  have kept : (session.hold held midLine).Accounted :=
    accounted_kept accounted rfl rfl rfl rfl rfl id accounted.views
  exact accounted_heard kept text

theorem accounted_closed (accounted : session.Accounted) : session.close.Accounted := by
  unfold Session.close
  split
  · exact accounted
  · exact ⟨List.nodup_nil, by simp [Session.underway], by simp, by simp [Session.commands], by simp,
      accounted.views⟩

theorem buffered_registered {catalog views : Catalog} {id command : String}
    (buffered : catalog.Buffered) (added : catalog.register (.buffered id command) = .ok views) :
    views.Buffered := by
  intro entry member
  rw [register_entries added] at member
  rcases List.mem_append.mp member with known | new
  · exact buffered entry known
  · rw [List.mem_singleton.mp new]
    rfl

theorem accounted_move (accounted : session.Accounted)
    (move : Move Operation.isOwn session later) : later.Accounted := by
  have never {operation : Operation} (granted : operation.isOwn = true)
      (raw : operation.isOwn = false) : later.Accounted :=
    absurd (granted.symm.trans raw) (by decide)
  cases move with
  | accept own =>
    exact accounted_accepted_own accounted _ (allowed_of_within own)
  | request _ known settled => exact accounted_requested accounted known settled
  | react _ _ reaction => exact accounted_reaction accounted reaction
  | cut _ _ _ reaction => exact accounted_reaction (accounted_passed accounted _ _ _) reaction
  | hear => exact accounted_heard accounted _
  | lines | flush => exact accounted_passed accounted _ _ _
  | close => exact accounted_closed accounted
  | register _ added =>
    exact accounted_kept accounted rfl rfl rfl rfl rfl id (buffered_registered accounted.views added)
  | registerHandled granted => exact never (allowed_of_within granted) rfl
  | send granted => exact never (allowed_of_within granted) rfl
  | take granted | poll granted | ask granted | setSink granted | setPrompting granted =>
    exact never granted rfl
  | arrive | note | complain | addBuffer | removeBuffer | setPipe =>
    exact accounted_kept accounted rfl rfl rfl rfl rfl id accounted.views

theorem accounted_lapses (accounted : session.Accounted)
    (lapses : Lapses Operation.isOwn session later) : later.Accounted := by
  induction lapses with
  | refl => exact accounted
  | tail _ lapse ih =>
    cases lapse with
    | move move => exact accounted_move ih move
    | skip => exact accounted_passed ih _ _ _
    | abort => exact accounted_closed ih

theorem accounted_start (process : Subprocess) {views : Catalog} (made : views.Buffered) :
    (Session.start process views).Accounted :=
  ⟨List.nodup_nil, .nil, by rintro _ ⟨⟩, by rintro _ ⟨⟩, fun _ => rfl, made⟩

end Moves

theorem own_regular (operation : Operation) (own : operation.isOwn = true) :
    operation.isRegular = true := by
  cases operation <;> first | rfl | cases own

theorem buffered_within {allowed : Operation → Bool} {views : Catalog} (made : views.Buffered) :
    views.Within allowed := by
  intro view member
  obtain ⟨entry, known, rfl⟩ := List.mem_map.mp member
  rw [made entry known]
  rfl

/-- The views that await a refresh are those for which a command is outstanding. -/
structure Session.AwaitsOutstanding (session : Session) : Prop where
  same : ∀ view, view ∈ session.awaiting ↔
    ∃ command ∈ session.outstanding, command.view? = some view
  once : (session.outstanding.filterMap Command.view?).Nodup
  idle : session.prompting = true → session.questioned = false → session.awaiting = []

/-- In every state that a session comes to: a view awaits its refresh exactly when a command for it
is outstanding, of which there is never more than one; and when gdb is idle at its prompt, no view
awaits anything. -/
theorem awaiting_iff_outstanding {process : Subprocess} {views : Catalog} {session : Session}
    (made : views.Buffered)
    (run : (Session.start process views).Reaches Operation.isOwn session) :
    session.AwaitsOutstanding := by
  have lapses := Session.lapses_reaches (Session.start_within process (buffered_within made)) run
  have accounted := accounted_lapses (accounted_start process made) lapses
  have orderly := orderly_lapses own_regular (orderly_start process views) lapses
  have same : session.awaiting.Perm (session.outstanding.filterMap Command.view?) := by
    rw [outstanding_views]
    exact accounted.same
  refine ⟨fun view => ?_, same.nodup_iff.mp accounted.distinct, fun prompting plain => ?_⟩
  · rw [same.mem_iff, List.mem_filterMap]
  · obtain ⟨idle, flight, -⟩ := orderly.idle prompting plain
    have nothing : session.outstanding = [] := by simp [Session.outstanding, idle, flight]
    rw [nothing] at same
    exact same.eq_nil

/-- A view whose refresh was asked for and has gone out. -/
theorem awaiting_in_flight :
    ∃ (views : Catalog) (session : Session), views.Buffered ∧
      (Session.start ⟨1, none, [], false, false, false⟩ views).Reaches Operation.isOwn session ∧
      session.awaiting = ["stack"] ∧ session.AwaitsOutstanding := by
  let views : Catalog := Table.empty.insert "stack" (.buffered "stack" "backtrace")
  have made : views.Buffered := by
    intro entry member
    obtain rfl := List.mem_singleton.mp member
    rfl
  have run : (Session.start ⟨1, none, [], false, false, false⟩ views).Reaches Operation.isOwn
      ((((Session.start ⟨1, none, [], false, false, false⟩ views).after
        (.addBuffer "stack")).after (.requestRefresh "stack")).after (.react ⟨"prompt", none⟩)) :=
    .tail (.tail (.single ⟨_, rfl, rfl⟩) ⟨_, rfl, rfl⟩) ⟨_, rfl, rfl⟩
  exact ⟨views, _, made, run, rfl, awaiting_iff_outstanding made run⟩

end GdbControl
