import GdbControl.Proofs.Waking

/-!
Calls keep to their session. A relation between clients that outlasts whatever is done to one session
outlasts every call on that session, every delivery to it and all reading from it. With one client on
both sides of the relation this says what a call leaves alone; with two clients that agree on the
session it says that the call cannot tell them apart.
-/

namespace GdbControl

/-- The session that an activity is about, if it is about one. -/
def Activity.session? : Activity → Option String
  | .spawned _ _ _ => none
  | .did session _ | .askedToQuit session _ | .waitedForEnd session _ _ | .terminated session
  | .killed session | .awaitedPrompt session _ | .polled session _ | .stopFailed session _
  | .joined session _ => some session

/-- The time after which a wait for a prompt is given up. -/
def Activity.limit? : Activity → Option (Option Int)
  | .awaitedPrompt _ limit => some limit
  | _ => none

/-- The session that a call is about, if it is about one. -/
def ToolCall.session? : ToolCall → Option String
  | .startDebug _ _ _ | .listSessions => none
  | .stopDebug session | .sendCommand session _ _ _ _ | .run session _
  | .continueExecution session _ | .step session _ | .next session _ | .finish session
  | .setBreakpoint session _ _ _ | .removeBreakpoint session _ | .listBreakpoints session
  | .openView session _ | .closeView session _ | .getView session _ _ | .listViews session
  | .readTranscript session _ | .readInferiorOutput session _ | .sessionDiagnostics session =>
    some session

/-- The limit with which a call waits for the prompt, if it is a call that may wait. -/
def ToolCall.limit? : ToolCall → Option (Option Int)
  | .sendCommand _ _ _ limit _ => some (limit.getD (some ToolCall.stepLimit))
  | .run _ _ | .continueExecution _ _ => some (some ToolCall.runLimit)
  | .step _ _ | .next _ _ | .listBreakpoints _ => some (some ToolCall.stepLimit)
  | .finish _ => some (some ToolCall.finishLimit)
  | .setBreakpoint _ _ _ _ | .removeBreakpoint _ _ => some none
  | _ => none

namespace Control

/-- Two runs of one operation that come out alike, in clients that are related. -/
inductive Parallel (related : Client → Client → Prop) :
    EStateM.Result Fault Client α → EStateM.Result Fault Client α → Prop where
  | ok (value : α) {left right : Client} (relation : related left right) :
    Parallel related (.ok value left) (.ok value right)
  | error (fault : Fault) {left right : Client} (relation : related left right) :
    Parallel related (.error fault left) (.error fault right)

/-- An operation that cannot tell clients apart that are related, and leaves them related. -/
def Keeps (related : Client → Client → Prop) (operation : Control α) : Prop :=
  ∀ ⦃left right : Client⦄, related left right →
    Parallel related (operation.run left) (operation.run right)

section Keeps

variable {related : Client → Client → Prop}

theorem keeps_pure (value : α) : Keeps related (pure value) := fun _ _ relation => .ok value relation

theorem keeps_throw (fault : Fault) : Keeps (α := α) related (throw fault) :=
  fun _ _ relation => .error fault relation

theorem keeps_lift (result : Except Fault α) : Keeps related (lift result) := by
  cases result with
  | ok value => exact keeps_pure value
  | error fault => exact keeps_throw fault

theorem keeps_modify {change : Client → Client}
    (kept : ∀ {left right : Client}, related left right → related (change left) (change right)) :
    Keeps related (modify change : Control Unit) :=
  fun _ _ relation => .ok () (kept relation)

theorem keeps_bind {operation : Control α} {next : α → Control β} (first : Keeps related operation)
    (rest : ∀ value, Keeps related (next value)) : Keeps related (operation >>= next) := by
  intro left right relation
  have came := first relation
  rw [EStateM.run_bind, EStateM.run_bind]
  generalize operation.run left = whole at came ⊢
  generalize operation.run right = other at came ⊢
  cases came with
  | ok value relation => exact rest value relation
  | error fault relation => exact .error fault relation

theorem keeps_map {operation : Control α} (f : α → β) (first : Keeps related operation) :
    Keeps related (f <$> operation) :=
  keeps_bind first fun value => keeps_pure (f value)

-- What is done next may depend on the client, as long as related clients do the same.
theorem keeps_get {next : Client → Control α}
    (same : ∀ {left right : Client}, related left right → next left = next right)
    (rest : ∀ client, Keeps related (next client)) : Keeps related (get >>= next) := by
  intro left right relation
  have last := rest right relation
  rw [EStateM.run_bind, EStateM.run_bind]
  dsimp only [EStateM.run_get]
  rwa [same relation]

theorem keeps_catch {operation : Control α} {handler : Fault → Control α}
    (first : Keeps related operation) (rest : ∀ fault, Keeps related (handler fault)) :
    Keeps related (tryCatch operation handler) := by
  intro left right relation
  have came := first relation
  rw [Engine.run_catch, Engine.run_catch]
  generalize operation.run left = whole at came ⊢
  generalize operation.run right = other at came ⊢
  cases came with
  | ok value relation => exact .ok value relation
  | error fault relation => exact rest fault relation

theorem keeps_forM {operation : β → Control Unit} {items : List β}
    (each : ∀ item, Keeps related (operation item)) : Keeps related (items.forM operation) := by
  induction items with
  | nil => exact keeps_pure ()
  | cons item rest ih => exact keeps_bind (each item) fun _ => ih

theorem keeps_answering {operation : Control Reply} (kept : Keeps related operation) :
    Keeps related (answering operation) := by
  refine keeps_catch kept fun fault => ?_
  split
  · exact keeps_pure _
  · exact keeps_throw _

/-- On one client on both sides, what an operation keeps holds after it. -/
theorem keeps_after {holds : Client → Prop} {operation : Control α} {client : Client}
    (kept : Keeps (fun left right => left = right ∧ holds left) operation) (held : holds client) :
    holds (operation.after client) := by
  have came := kept ⟨rfl, held⟩
  unfold after
  generalize operation.run client = result at came
  cases came with
  | ok value relation => exact relation.2
  | error fault relation => exact relation.2

end Keeps

end Control

/-- A relation that outlasts whatever is done to one session, as long as nobody waits for its prompt
with a limit that is not fit. -/
structure Client.Bond (id : String) (fit : Option Int → Prop)
    (related : Client → Client → Prop) : Prop where
  found : ∀ {left right}, related left right → left.sessions.get? id = right.sessions.get? id
  arriving : ∀ {left right}, related left right → left.arriving = right.arriving
  logged : ∀ {left right} {activity : Activity}, activity.session? = some id →
    (∀ limit, activity.limit? = some limit → fit limit) → related left right →
      related (left.log activity) (right.log activity)
  kept : ∀ {left right attachment} {session : Session}, related left right →
    related (left.keep id attachment session) (right.keep id attachment session)
  heard : ∀ {left right}, related left right →
    related { left with arriving := [] } { right with arriving := [] }
  forgotten : ∀ {left right}, related left right →
    related (left.forget id) (right.forget id)

namespace Control

section Bound

variable {id : String} {fit : Option Int → Prop} {related : Client → Client → Prop}

theorem keeps_record (bond : Client.Bond id fit related) {activity : Activity}
    (own : activity.session? = some id) (patient : ∀ limit, activity.limit? = some limit → fit limit) :
    Keeps related (record activity) :=
  keeps_modify (bond.logged own patient)

-- What is recorded is mostly no wait for the prompt.
theorem keeps_note (bond : Client.Bond id fit related) {activity : Activity}
    (own : activity.session? = some id) (aside : activity.limit? = none) :
    Keeps related (record activity) :=
  keeps_record bond own fun _ same => by cases aside.symm.trans same

theorem keeps_find (bond : Client.Bond id fit related) : Keeps related (find id) := by
  intro left right relation
  rw [run_find, run_find, bond.found relation]
  cases right.sessions.get? id with
  | none => exact .error _ relation
  | some attachment => exact .ok attachment relation

theorem keeps_require (bond : Client.Bond id fit related) (alive : Bool) :
    Keeps related (require id alive) := by
  refine keeps_bind (keeps_find bond) fun attachment => ?_
  cases barred : alive && attachment.session.isClosed with
  | true => exact keeps_throw _
  | false => exact keeps_pure _

theorem keeps_on_session (bond : Client.Bond id fit related) (operation : Engine α) :
    Keeps related (onSession id operation) := by
  refine keeps_bind (keeps_find bond) fun attachment => ?_
  cases operation.run attachment.session with
  | ok value session => exact keeps_bind (keeps_modify bond.kept) fun _ => keeps_pure value
  | error fault session => exact keeps_bind (keeps_modify bond.kept) fun _ => keeps_throw fault

theorem keeps_deliver (bond : Client.Bond id fit related) (deliveries : List Delivery) :
    Keeps related (deliver id deliveries) :=
  keeps_bind (keeps_find bond) fun _ => keeps_forM fun _ => keeps_on_session bond _

theorem keeps_await (bond : Client.Bond id fit related) {limit : Option Int} (patient : fit limit) :
    Keeps related (awaitPrompt id limit) := by
  refine keeps_bind (keeps_record bond rfl fun _ same => Option.some.inj same ▸ patient) fun _ => ?_
  refine keeps_get (fun relation => by rw [bond.arriving relation]) fun client => ?_
  exact keeps_bind (keeps_modify bond.heard) fun _ =>
    keeps_bind (keeps_deliver bond client.arriving) fun _ =>
      keeps_bind (keeps_find bond) fun _ => keeps_pure _

theorem keeps_command (bond : Client.Bond id fit related) (command : String) (wait : Bool)
    {limit : Option Int} (patient : fit limit) : Keeps related (runCommand id command wait limit) := by
  refine keeps_bind (keeps_require bond true) fun attachment =>
    keeps_bind (keeps_on_session bond _) fun sent => ?_
  split
  · exact keeps_pure _
  · exact keeps_bind (keeps_await bond patient) fun ready =>
      keeps_bind (keeps_find bond) fun _ => keeps_pure _

theorem keeps_open (bond : Client.Bond id fit related) (view : String) :
    Keeps related (openView id view) :=
  keeps_bind (keeps_require bond true) fun _ => keeps_on_session bond _

theorem keeps_close_view (bond : Client.Bond id fit related) (view : String) :
    Keeps related (closeView id view) :=
  keeps_bind (keeps_require bond false) fun _ =>
    keeps_bind (keeps_on_session bond _) fun _ => keeps_pure _

theorem keeps_view_text (bond : Client.Bond id fit related) (view : String) :
    Keeps related (viewText id view) :=
  keeps_bind (keeps_require bond false) fun _ => keeps_pure _

theorem keeps_await_end (bond : Client.Bond id fit related) : Keeps related (awaitEnd id) :=
  keeps_bind (keeps_find bond) fun _ => keeps_bind (keeps_on_session bond _) fun _ =>
    keeps_bind (keeps_note bond rfl rfl) fun _ => keeps_pure _

theorem keeps_end_process (bond : Client.Bond id fit related) : Keeps related (endProcess id) := by
  have asked : Keeps related (askToQuit id) := by
    refine keeps_bind (keeps_find bond) fun _ =>
      keeps_bind (keeps_note bond rfl rfl) fun _ => ?_
    split
    · exact keeps_await_end bond
    · exact keeps_pure _
  have terminated : Keeps related (terminate id) := by
    refine keeps_bind (keeps_note bond rfl rfl) fun _ =>
      keeps_bind (keeps_find bond) fun _ => ?_
    split
    · exact keeps_pure _
    · exact keeps_await_end bond
  have killed : Keeps related (kill id) := by
    refine keeps_bind (keeps_note bond rfl rfl) fun _ =>
      keeps_bind (keeps_find bond) fun _ => ?_
    split
    · exact keeps_throw _
    · exact keeps_pure _
  refine keeps_bind (keeps_find bond) fun _ => ?_
  split
  · refine keeps_bind asked fun heard => ?_
    split
    · refine keeps_bind terminated fun ended => ?_
      split
      · exact killed
      · exact keeps_pure _
    · exact keeps_pure _
  · exact keeps_pure _

theorem listed_alike (bond : Client.Bond id fit related) {left right : Client}
    (relation : related left right) : left.sessions.contains id = right.sessions.contains id := by
  rw [Table.contains, Table.contains, bond.found relation]

theorem keeps_stop (bond : Client.Bond id fit related) : Keeps related (stop id) := by
  refine keeps_get (fun relation => by rw [listed_alike bond relation]) fun client => ?_
  split
  · have wound : Keeps related (windUp id) :=
      keeps_bind (keeps_on_session bond _) fun _ => keeps_end_process bond
    exact keeps_bind wound fun _ => keeps_modify bond.forgotten
  · exact keeps_pure _

theorem keeps_stop_debug (bond : Client.Bond id fit related) : Keeps related (stopDebug id) := by
  refine keeps_get (fun relation => by rw [listed_alike bond relation]) fun client => ?_
  split
  · exact keeps_bind (keeps_bind (keeps_catch (keeps_stop bond) fun _ => keeps_note bond rfl rfl)
      fun _ => keeps_note bond rfl rfl) fun _ => keeps_pure _
  · exact keeps_pure _

theorem keeps_pump (bond : Client.Bond id fit related) (readings : List Reading) :
    Keeps related (pump id readings) := by
  induction readings with
  | nil => exact keeps_pure ()
  | cons reading rest ih =>
    have alive : Keeps related (isAlive id) := keeps_bind (keeps_find bond) fun _ => keeps_pure _
    have closing (next : Control Unit) (last : Keeps related next) :
        Keeps related (do
          if reading.closedBefore then onSession id (modify Session.close)
          next) := by
      split
      · exact keeps_bind (keeps_on_session bond _) fun _ => last
      · exact last
    unfold pump
    refine keeps_bind alive fun open_ => ?_
    split
    case isFalse => exact keeps_pure ()
    cases outcome : reading.outcome with
    | quiet =>
      rw [if_pos rfl]
      refine keeps_bind (keeps_note bond rfl rfl) fun _ => closing _ ?_
      refine keeps_bind alive fun stillOpen => ?_
      split
      · exact keeps_bind (keeps_on_session bond _) fun _ => ih
      · exact ih
    | bytes available =>
      refine closing _ ?_
      cases available with
      | nil => exact keeps_pure ()
      | cons first others => exact keeps_bind (keeps_on_session bond _) fun _ => ih
    | failed reason => exact closing _ (keeps_throw _)

theorem keeps_read_all (bond : Client.Bond id fit related) (script : List Reading) :
    Keeps related (readAll id script) :=
  keeps_bind (keeps_catch (keeps_pump bond _) fun _ => keeps_pure _) fun _ =>
    keeps_on_session bond _

theorem keeps_paged (bond : Client.Bond id fit related) (command : String) (wait : Bool)
    {limit : Option Int} (patient : fit limit) (window : Window) :
    Keeps related (sendPaged id command wait limit window) := by
  refine keeps_answering (keeps_bind (keeps_command bond command wait patient) fun result => ?_)
  split <;> exact keeps_pure _

theorem keeps_list_breakpoints (bond : Client.Bond id fit related)
    (patient : fit (some ToolCall.stepLimit)) : Keeps related (listBreakpoints id) := by
  have read : Keeps related (do
      let text ← viewText id ToolCall.breakpointView
      pure (Reply.breakpoints (text.getD "")
        ((← find id).session.isAwaiting ToolCall.breakpointView))) :=
    keeps_bind (keeps_view_text bond _) fun _ => keeps_bind (keeps_find bond) fun _ => keeps_pure _
  refine keeps_answering (keeps_bind (keeps_require bond true) fun attachment => ?_)
  dsimp only
  split
  · exact keeps_bind (keeps_open bond _) fun _ => keeps_bind (keeps_await bond patient) fun _ => read
  · exact read

theorem keeps_show_view (bond : Client.Bond id fit related) (view : String) (window : Window) :
    Keeps related (showView id view window) := by
  refine keeps_answering (keeps_bind (keeps_view_text bond view) fun text => ?_)
  split
  · exact keeps_pure _
  · exact keeps_bind (keeps_require bond false) fun _ => keeps_pure _

/-- Every call on a session keeps to that session, and waits no longer than its limit. -/
theorem keeps_perform (bond : Client.Bond id fit related) {call : ToolCall}
    (own : call.session? = some id) (patient : ∀ limit, call.limit? = some limit → fit limit) :
    Keeps related (perform call) := by
  have shown {next : Attachment → Reply} :
      Keeps related (answering do pure (next (← require id false))) :=
    keeps_answering (keeps_bind (keeps_require bond false) fun _ => keeps_pure _)
  cases call with
  | startDebug | listSessions => cases own
  | stopDebug => cases own; exact keeps_stop_debug bond
  | sendCommand | run | continueExecution | step | next | finish =>
    cases own
    exact keeps_paged bond _ _ (patient _ rfl) _
  | setBreakpoint | removeBreakpoint =>
    cases own
    exact keeps_answering (keeps_bind (keeps_command bond _ _ (patient _ rfl)) fun _ =>
      keeps_pure _)
  | listBreakpoints => cases own; exact keeps_list_breakpoints bond (patient _ rfl)
  | openView =>
    cases own
    exact keeps_answering (keeps_bind (keeps_open bond _) fun _ => keeps_pure _)
  | closeView =>
    cases own
    refine keeps_answering (keeps_bind (keeps_close_view bond _) fun closed => ?_)
    split <;> exact keeps_pure _
  | getView => cases own; exact keeps_show_view bond _ _
  | listViews | readTranscript | readInferiorOutput | sessionDiagnostics => cases own; exact shown

end Bound

end Control

/-- The client has worked on one session and left all others alone. No wait for the prompt had a
limit that is not fit. -/
structure Client.Minds (id : String) (fit : Option Int → Prop) (client later : Client) : Prop where
  config : later.config = client.config
  attempts : later.attempts = client.attempts
  others : ∀ other, other ≠ id → later.sessions.get? other = client.sessions.get? other
  told : ∃ activities, later.journal = client.journal ++ activities ∧
    ∀ activity ∈ activities, activity.session? = some id ∧
      ∀ limit, activity.limit? = some limit → fit limit

section Minds

variable {id : String} {fit : Option Int → Prop} {client later : Client}

theorem minds_refl (id : String) (fit : Option Int → Prop) (client : Client) :
    client.Minds id fit client :=
  ⟨rfl, rfl, fun _ _ => rfl, [], (List.append_nil _).symm, by simp⟩

theorem minds_told (minds : client.Minds id fit later) {further : Client}
    (config : further.config = later.config) (attempts : further.attempts = later.attempts)
    (others : ∀ other, other ≠ id → further.sessions.get? other = later.sessions.get? other)
    {more : List Activity} (told : further.journal = later.journal ++ more)
    (own : ∀ activity ∈ more, activity.session? = some id ∧
      ∀ limit, activity.limit? = some limit → fit limit) : client.Minds id fit further := by
  obtain ⟨activities, before, owned⟩ := minds.told
  refine ⟨config.trans minds.config, attempts.trans minds.attempts,
    fun other differs => (others other differs).trans (minds.others other differs),
    activities ++ more, by rw [told, before, List.append_assoc], fun activity member => ?_⟩
  exact (List.mem_append.mp member).elim (owned activity) (own activity)

/-- On one client, what is done to a session alone minds no other. -/
theorem minds_bond (id : String) (fit : Option Int → Prop) (client : Client) :
    Client.Bond id fit fun left right => left = right ∧ client.Minds id fit left where
  found := by rintro left _ ⟨rfl, -⟩; rfl
  arriving := by rintro left _ ⟨rfl, -⟩; rfl
  logged := by
    rintro left _ activity own patient ⟨rfl, minds⟩
    exact ⟨rfl, minds_told minds rfl rfl (fun _ _ => rfl) rfl (by simpa using ⟨own, patient⟩)⟩
  kept := by
    rintro left _ attachment session ⟨rfl, minds⟩
    refine ⟨rfl, minds_told minds rfl rfl (fun other differs => ?_) rfl ?_⟩
    · exact (kept_get other).trans (if_neg differs)
    · intro activity member
      obtain ⟨event, -, rfl⟩ := List.mem_map.mp member
      exact ⟨rfl, by rintro _ ⟨⟩⟩
  heard := by
    rintro left _ ⟨rfl, minds⟩
    exact ⟨rfl, minds_told minds rfl rfl (fun _ _ => rfl) (List.append_nil _).symm (by simp)⟩
  forgotten := by
    rintro left _ ⟨rfl, minds⟩
    exact ⟨rfl, minds_told minds rfl rfl (fun _ differs => Table.get?_erase_of_ne _ differs)
      (List.append_nil _).symm (by simp)⟩

theorem minds_after {operation : Control α}
    (kept : Control.Keeps (fun left right => left = right ∧ client.Minds id fit left) operation) :
    client.Minds id fit (operation.after client) :=
  Control.keeps_after kept (minds_refl id fit client)

end Minds

end GdbControl
