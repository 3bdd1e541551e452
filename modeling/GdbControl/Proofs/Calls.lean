import GdbControl.Proofs.Runs

/-!
What a session is given by those who use it: the reads of gdb's output, and the commands for its
queues, directly or for a view that falls due. This is told from the operations and from what the
handlers are made of, which are called when the output of their commands is complete; the record of
the session is not asked. The main result is that the record holds just these calls, in order.
-/

namespace GdbControl

/-- A function of a session is called that takes in output or a command. -/
inductive Call where
  | ingest (bytes : Bytes)
  | enqueue (tier : Tier) (command : Command)

def Call.enqueues? (tier : Tier) : Call → Option Command
  | .enqueue other command => if other = tier then some command else none
  | .ingest _ => none

def Call.fed : Call → Bytes
  | .ingest bytes => bytes
  | .enqueue _ _ => []

/-- The commands that a queue is given, in the order of the calls. -/
def enqueuedIn (tier : Tier) (calls : List Call) : List Command :=
  calls.filterMap (Call.enqueues? tier)

/-- All output that is fed, in the order of the calls. -/
def fedIn (calls : List Call) : Bytes := calls.flatMap Call.fed

/-- The call that an event records. -/
def Event.call? : Event → Option Call
  | .arrived bytes => some (.ingest bytes)
  | .accepted tier command => some (.enqueue tier command)
  | _ => none

def callsIn (events : List Event) : List Call := events.filterMap Event.call?

/-- The command that is enqueued for a view which is asked to be refreshed: the view is known and
looked at, and none is outstanding. -/
def Session.due? (session : Session) (id : String) : Option Command :=
  if session.isClosed || session.isAwaiting id then none
  else ((session.views.get? id).filter session.demands).map View.refreshCommand

namespace Engine

/-- What becomes of the output of commands, with the calls that are made on the way. -/
structure Completing where
  complete : Completion
  calls : Handler → String → Session → List Call

/-- The calls of steps that are taken one after another. A step that fails is the last. -/
def callsAlong (step : β → Engine α) (calls : β → Session → List Call) :
    List β → Session → List Call
  | [], _ => []
  | item :: rest, session =>
    calls item session ++
      match (step item).run session with
      | .ok _ later => callsAlong step calls rest later
      | .error _ _ => []

def enqueueCalls (tier : Tier) (command : Command) (session : Session) : List Call :=
  if session.isClosed then [] else [.enqueue tier command]

def refreshCalls (id : String) (session : Session) : List Call :=
  ((session.due? id).map (Call.enqueue .idle)).toList

/-- Asks for a refresh of a view that may not be registered. -/
def refreshKnown (id : String) : Engine Bool := do
  if (← get).views.contains id then requestRefresh id else pure false

def refreshesCalls : List String → Session → List Call := callsAlong refreshKnown refreshCalls

section Completing

variable (completing : Completing)

/-- The calls of the handler whose command is in flight, if its output is complete. -/
def fulfilledCalls (session : Session) : List Call :=
  if session.sink = .gathering then
    match session.inFlight.bind fun command => command.handler?.map (command, ·) with
    | none => []
    | some (command, handler) =>
      completing.calls handler session.gathered
        (({ session with sink := .afterOutput, completed := true } : Session).log
          (.completed command session.gathered))
  else []

def reactCalls (marker : Marker) (session : Session) : List Call :=
  if session.isClosed then []
  else
    let told := session.log (.annotated marker)
    match marker.kind with
    | .prePrompt => fulfilledCalls completing told
    | .breakpointsInvalid => refreshesCalls breakpointViews told
    | .framesInvalid => refreshesCalls frameViews told
    | _ => []

/-- The calls that the marker lines of the held output bring about. -/
def drainCalls (session : Session) : List Call :=
  match Stream.firstMarker? (!session.midLine) session.held with
  | none => []
  | some cut =>
    reactCalls completing cut.marker (session.pass (Utf8.decode cut.before) cut.after false) ++
      match (acceptCut completing.complete cut).run session with
      | .error _ _ => []
      | .ok _ later =>
        if later.held.length < session.held.length then drainCalls later else []
termination_by session.held.length

def ingestCalls (bytes : Bytes) (session : Session) : List Call :=
  if session.isClosed then [] else .ingest bytes :: drainCalls completing (session.arrive bytes)

def performCalls : Operation → Session → List Call
  | .ingest pieces => callsAlong (ingest completing.complete) (ingestCalls completing) pieces
  | .enqueue tier command => enqueueCalls tier command
  | .react marker => reactCalls completing marker
  | .requestRefresh view => refreshCalls view
  | .requestRefreshes views => refreshesCalls views
  | _ => fun _ => []

end Completing

/-- The calls of a handler that is given the output of its command. -/
def handlerCalls : Nat → Handler → String → Session → List Call
  | depth + 1, .routine _ body _, _ =>
    callsAlong (fun operation => discard (perform (complete depth) operation))
      (performCalls ⟨complete depth, handlerCalls depth⟩) body
  | _, _, _ => fun _ => []

/-- What becomes of the output of every command of a session, with the calls of its handler. -/
def handling : Completing := ⟨handle, handlerCalls maxNesting⟩

end Engine

namespace Session

/-- The calls of an operation, those of all handlers included that are called on the way. -/
def callsOf (session : Session) (operation : Operation) : List Call :=
  Engine.performCalls Engine.handling operation session

/-- The session after operations, of which any may fail. -/
def afterAll (session : Session) (operations : List Operation) : Session :=
  operations.foldl after session

/-- The calls of operations, of which any may fail. -/
def calls (session : Session) : List Operation → List Call
  | [] => []
  | operation :: rest => session.callsOf operation ++ (session.after operation).calls rest

end Session

section Calls

variable {session later : Session}

theorem calls_append (front back : List Event) :
    callsIn (front ++ back) = callsIn front ++ callsIn back :=
  List.filterMap_append

theorem calls_log (session : Session) (event : Event) :
    callsIn (session.log event).journal = callsIn session.journal ++ event.call?.toList := by
  rw [Session.log, calls_append]
  cases told : event.call? <;> simp [callsIn, told]

theorem calls_send_out (session : Session) (tier : Option Tier) (command : Command) :
    callsIn (session.sendOut tier command).journal = callsIn session.journal := by
  have silent : callsIn (session.sending tier command) = [] := by
    unfold Session.sending
    split <;> rfl
  rw [Session.send_out_journal, calls_append, silent, List.append_nil]

theorem calls_hear (session : Session) (text : String) :
    callsIn (session.hear text).journal = callsIn session.journal := by
  obtain ⟨display, gathered, events, same, told⟩ := session.hear_shape text
  have silent : callsIn events = [] := by
    refine List.filterMap_eq_nil_iff.mpr fun event member => ?_
    rw [told event member]
    rfl
  rw [same, calls_append, silent, List.append_nil]

theorem calls_pass (session : Session) (text : String) (held : Bytes) (midLine : Bool) :
    callsIn (session.pass text held midLine).journal = callsIn session.journal :=
  calls_hear _ _

theorem calls_accept (session : Session) (tier : Tier) (command : Command) :
    callsIn (session.accept tier command).journal =
      callsIn session.journal ++ [.enqueue tier command] := by
  unfold Session.accept
  dsimp only
  split
  · exact (calls_send_out _ _ _).trans (calls_log session (.accepted tier command))
  · have same : ((session.log (.accepted tier command)).push tier command).journal =
        (session.log (.accepted tier command)).journal := by
      cases tier <;> rfl
    rw [same]
    exact calls_log session (.accepted tier command)

theorem calls_poll (session : Session) :
    callsIn session.poll.journal = callsIn session.journal := by
  unfold Session.poll
  have ready : ({ session with questioned := false } : Session).release.journal = session.journal :=
    Session.release_journal _
  split
  · exact (calls_send_out _ _ _).trans (congrArg callsIn ready)
  · exact (calls_send_out _ _ _).trans (congrArg callsIn ready)
  · exact (calls_log _ .idled).trans ((List.append_nil _).trans (congrArg callsIn ready))

theorem calls_ask (session : Session) :
    callsIn session.ask.journal = callsIn session.journal := by
  unfold Session.ask
  split
  · exact calls_send_out _ _ _
  · rfl

theorem calls_close (session : Session) :
    callsIn session.close.journal = callsIn session.journal := by
  unfold Session.close
  split <;> rfl

theorem calls_noted (noted : session.Noted later) :
    callsIn later.journal = callsIn session.journal := by
  obtain ⟨_, _, _, _, _, rfl⟩ := noted
  rfl

end Calls

namespace Engine

/-- The record of an operation grows by these calls. -/
def Makes (operation : Engine α) (calls : Session → List Call) : Prop :=
  ∀ session, callsIn (operation.after session).journal = callsIn session.journal ++ calls session

section Makes

variable {operation : Engine α} {calls : Session → List Call}

theorem makes_silent (silent : ∀ session : Session,
    callsIn (operation.after session).journal = callsIn session.journal) :
    Makes operation fun _ => [] :=
  fun session => (silent session).trans (List.append_nil _).symm

theorem makes_pure (value : α) : Makes (pure value : Engine α) fun _ => [] :=
  makes_silent fun _ => rfl

theorem makes_modify {change : Session → Session}
    (silent : ∀ session, callsIn (change session).journal = callsIn session.journal) :
    Makes (modify change : Engine Unit) fun _ => [] :=
  makes_silent silent

/-- The calls of two operations in sequence. The second is reached only if the first succeeds. -/
theorem makes_bind {next : α → Engine β} {later : α → Session → List Call}
    (first : Makes operation calls) (second : ∀ value, Makes (next value) (later value)) :
    Makes (operation >>= next) fun session =>
      calls session ++
        match operation.run session with
        | .ok value middle => later value middle
        | .error _ _ => [] := by
  intro session
  have begun := first session
  rw [after] at begun
  rw [after_bind]
  dsimp only
  cases done : operation.run session with
  | ok value middle =>
    rw [done] at begun
    have reached : callsIn middle.journal = callsIn session.journal ++ calls session := begun
    dsimp only
    rw [second value middle, reached, List.append_assoc]
  | error fault middle =>
    rw [done] at begun
    dsimp only
    rw [List.append_nil]
    exact begun

/-- What follows an operation makes no calls. -/
theorem makes_then {next : α → Engine β} (first : Makes operation calls)
    (second : ∀ value, Makes (next value) fun _ => []) : Makes (operation >>= next) calls := by
  intro session
  rw [makes_bind first second session]
  dsimp only
  cases operation.run session <;> exact congrArg _ (List.append_nil _)

theorem makes_map (f : α → β) (first : Makes operation calls) : Makes (f <$> operation) calls :=
  makes_then first fun value => makes_pure (f value)

theorem makes_for {step : β → Engine Unit} {calls : β → Session → List Call}
    (each : ∀ item, Makes (step item) (calls item)) (items : List β) :
    Makes (items.forM step) (callsAlong step calls items) := by
  induction items with
  | nil => exact makes_pure ()
  | cons item rest ih => exact makes_bind (each item) fun _ => ih

end Makes

theorem makes_enqueue (tier : Tier) (command : Command) :
    Makes (enqueue tier command) (enqueueCalls tier command) := by
  intro session
  rw [after_enqueue, enqueueCalls]
  split
  · exact (List.append_nil _).symm
  · exact calls_accept session tier command

theorem makes_refresh (id : String) : Makes (requestRefresh id) (refreshCalls id) := by
  intro session
  rw [after, run_request_refresh, refreshCalls, Session.due?]
  cases closed : session.isClosed with
  | true => simp [stateOf]
  | false =>
    have asked := makes_enqueue .idle
    unfold Catalog.find
    cases known : session.views.get? id with
    | none => simp [stateOf]
    | some view =>
      cases awaiting : session.isAwaiting id <;> cases wanted : session.demands view <;>
        simp only [Bool.false_eq_true, Bool.not_false, Bool.not_true, Bool.or_false, Bool.or_true,
          if_true, if_false, Option.filter, wanted]
      case false.true =>
        have made := asked view.refreshCommand (session.await id)
        have alive : (session.await id).isClosed = false := closed
        rw [enqueueCalls, alive, if_neg Bool.false_ne_true, after] at made
        cases done : (enqueue .idle view.refreshCommand).run (session.await id) <;>
          rw [done] at made <;> exact made
      all_goals exact (List.append_nil _).symm

theorem makes_refresh_known (id : String) : Makes (refreshKnown id) (refreshCalls id) := by
  intro session
  rw [refreshKnown, after_bind]
  dsimp only [EStateM.run_get]
  split
  · exact makes_refresh id session
  · next unknown =>
    have absent : session.views.get? id = none := by
      simpa [Table.contains] using unknown
    simp [after, stateOf, refreshCalls, Session.due?, absent]

theorem makes_refreshes (ids : List String) : Makes (requestRefreshes ids) (refreshesCalls ids) := by
  induction ids with
  | nil => exact makes_pure []
  | cons id rest ih =>
    let others (asked : Bool) : Engine (List String) := do
      let others ← requestRefreshes rest
      pure (if asked then id :: others else others)
    have parts : requestRefreshes (id :: rest) = refreshKnown id >>= others := by
      simp only [requestRefreshes, refreshKnown, others, bind_assoc]
      refine congrArg (get >>= ·) (funext fun session => ?_)
      split <;> rfl
    rw [parts]
    exact makes_bind (makes_refresh_known id) fun _ => makes_then ih fun _ => makes_pure _

/-- What becomes of outputs makes the calls that are told of it. -/
def Completing.Exact (completing : Completing) : Prop :=
  ∀ handler output, Makes (completing.complete handler output) (completing.calls handler output)

section Exact

variable {completing : Completing}

theorem makes_enter (phase : Phase) (tag : String) : Makes (enter phase tag) fun _ => [] :=
  makes_silent fun session => by
    rw [after_enter]
    rfl

theorem makes_note {operation : Engine Unit} (notes : Notes operation) :
    Makes operation fun _ => [] :=
  makes_silent fun session => by
    obtain ⟨later, done, noted⟩ := notes session
    rw [after, done]
    exact calls_noted noted

theorem makes_pre_prompt (exact_ : completing.Exact) (tag : String) :
    Makes (enterPrePrompt completing.complete tag) (fulfilledCalls completing) := by
  intro session
  unfold fulfilledCalls
  by_cases gathering : session.sink = .gathering
  · rw [after, run_pre_prompt_gathering completing.complete tag gathering, if_pos gathering]
    dsimp only
    cases session.inFlight.bind fun command => command.handler?.map (command, ·) with
    | none => exact (List.append_nil _).symm
    | some flight =>
      refine (exact_ flight.2 session.gathered _).trans ?_
      rw [calls_log]
      exact congrArg (· ++ _) (List.append_nil _)
  · rw [after_pre_prompt completing.complete tag gathering, if_neg gathering, List.append_nil]
    rfl

/-- The calls of a reaction depend on what is annotated, and on the session that heard it. -/
theorem makes_react (exact_ : completing.Exact) (marker : Marker) :
    Makes (react completing.complete marker) (reactCalls completing marker) := by
  intro session
  unfold reactCalls
  have told : callsIn (session.log (.annotated marker)).journal = callsIn session.journal :=
    (calls_log session (.annotated marker)).trans (List.append_nil _)
  cases closed : session.isClosed with
  | true => simp [after, run_react_closed _ _ closed, stateOf]
  | false =>
    have noted {operation : Engine Unit} (notes : Notes operation) :=
      makes_note notes (session.log (.annotated marker))
    have phased {phase : Phase} {operation : Engine Unit} (notes : Notes operation) :=
      makes_then (makes_enter phase marker.tag) (fun _ => makes_note notes)
        (session.log (.annotated marker))
    have asked (ids : List String) :=
      makes_map (fun _ => ()) (makes_refreshes ids) (session.log (.annotated marker))
    rw [if_neg Bool.false_ne_true, ← told]
    simp only [after, react, EStateM.run_bind, run_require_open, closed, Bool.false_eq_true,
      if_false, run_record, Marker.kind]
    cases kind : Annotation.ofTag marker.tag with
    | prePrompt => exact makes_pre_prompt exact_ marker.tag _
    | prompt =>
      have prompted := after_enter_prompt marker.tag (session.log (.annotated marker))
      rw [after] at prompted
      exact (congrArg (callsIn ·.journal) prompted).trans
        ((calls_poll _).trans (List.append_nil _).symm)
    | postPrompt | stopping => exact makes_enter _ marker.tag _
    | question =>
      have asked := after_answer_question (session.log (.annotated marker))
      rw [after] at asked
      exact (congrArg (callsIn ·.journal) asked).trans
        ((calls_ask _).trans (List.append_nil _).symm)
    | starting | exited | stopped => exact phased (notes_modify fun _ => ⟨_, _, _, _, _, rfl⟩)
    | signalName => exact noted (notes_modify fun _ => ⟨_, _, _, _, _, rfl⟩)
    | source => exact noted (notes_location marker.args)
    | frameBegin => exact noted (notes_frame marker.args)
    | breakpointsInvalid => exact asked breakpointViews
    | framesInvalid => exact asked frameViews
    | other => exact noted notes_nothing

theorem makes_react_or_report (exact_ : completing.Exact) (marker : Marker) :
    Makes (reactOrReport completing.complete marker) (reactCalls completing marker) := by
  intro session
  have made := makes_react exact_ marker session
  rw [after] at made ⊢
  rw [run_react_or_report]
  cases done : (react completing.complete marker).run session with
  | ok value later =>
    rw [done] at made
    exact made
  | error fault later =>
    rw [done] at made
    unfold reported
    dsimp only
    split
    · exact (calls_log _ (.reported fault.message)).trans ((List.append_nil _).trans made)
    · exact made

theorem makes_cut (exact_ : completing.Exact) (cut : Stream.Cut) :
    Makes (acceptCut completing.complete cut) fun session =>
      reactCalls completing cut.marker (session.pass (Utf8.decode cut.before) cut.after false) := by
  intro session
  rw [after, run_accept_cut, ← calls_pass session (Utf8.decode cut.before) cut.after false]
  exact makes_react_or_report exact_ cut.marker _

theorem makes_lines : Makes emitLines fun _ => [] :=
  makes_silent fun session => by
    rw [after, run_emit_lines]
    cases Stream.lastLine? session.held with
    | none => rfl
    | some parts => exact calls_pass _ _ _ _

/-- By induction on the held output: less is held after each marker line, or none is left. -/
theorem makes_drain (exact_ : completing.Exact) (session : Session) :
    callsIn (stateOf (drain completing.complete session)).journal =
      callsIn session.journal ++ drainCalls completing session := by
  induction size : session.held.length using Nat.strongRecOn generalizing session with
  | _ size ih =>
    subst size
    rw [drain_eq, drainCalls]
    cases found : Stream.firstMarker? (!session.midLine) session.held with
    | none => exact makes_lines session
    | some cut =>
      have made := makes_cut exact_ cut session
      rw [after] at made
      dsimp only
      cases done : (acceptCut completing.complete cut).run session with
      | error fault later =>
        rw [done] at made
        dsimp only
        rw [List.append_nil]
        exact made
      | ok value later =>
        rw [done] at made
        have reached : callsIn later.journal = _ := made
        dsimp only
        split
        · next less => rw [ih later.held.length less later rfl, reached, List.append_assoc]
        · rw [List.append_nil, ← reached]
          exact (makes_lines later).trans (List.append_nil _)

theorem makes_ingest (exact_ : completing.Exact) (bytes : Bytes) :
    Makes (ingest completing.complete bytes) (ingestCalls completing bytes) := by
  intro session
  unfold ingestCalls
  rw [after, run_ingest]
  cases session.isClosed with
  | true => exact (List.append_nil _).symm
  | false =>
    have arrived : callsIn (session.arrive bytes).journal =
        callsIn session.journal ++ [.ingest bytes] :=
      calls_log session (.arrived bytes)
    have made := makes_drain exact_ (session.arrive bytes)
    rw [arrived, List.append_assoc] at made
    simp only [Bool.false_eq_true, if_false]
    cases done : drain completing.complete (session.arrive bytes) with
    | ok value later =>
      rw [done] at made
      exact made
    | error fault later =>
      rw [done] at made
      dsimp only [stateOf]
      split
      · exact (calls_close later).trans made
      · exact made

theorem makes_flush : Makes flush fun _ => [] :=
  makes_silent fun session => by
    rw [after, run_flush]
    split
    · rfl
    · split
      · rfl
      · split
        · rfl
        · exact calls_pass _ _ _ _

theorem makes_register (view : View) : Makes (registerView view) fun _ => [] :=
  makes_silent fun session => by
    simp only [registerView, after_bind, EStateM.run_get]
    cases session.views.register view <;> rfl

theorem makes_perform (exact_ : completing.Exact) (operation : Operation) :
    Makes (perform completing.complete operation) (performCalls completing operation) := by
  have silent {first : Engine Unit}
      (same : ∀ session : Session, callsIn (first.after session).journal = callsIn session.journal) :
      Makes (do first; pure Answer.nothing) fun _ => [] :=
    makes_then (makes_silent same) fun _ => makes_pure _
  have modified {change : Session → Session}
      (same : ∀ session, callsIn (change session).journal = callsIn session.journal) :
      Makes (do modify change; pure Answer.nothing) fun _ => [] :=
    makes_then (makes_modify same) fun _ => makes_pure _
  cases operation with
  | ingest pieces => exact makes_then (makes_for (makes_ingest exact_) pieces) fun _ => makes_pure _
  | flush => exact makes_map _ makes_flush
  | enqueue tier command => exact makes_map _ (makes_enqueue tier command)
  | send command =>
    refine silent fun session => ?_
    have sent : (send none command).after session = session.sendOut none command := by
      rw [after, run_send, Session.outcome]
      cases (session.sendOut none command).process.pipeBroken <;> rfl
    rw [sent]
    exact calls_send_out _ _ _
  | answerPrompt =>
    refine silent fun session => ?_
    rw [after_answer_prompt]
    exact calls_poll session
  | answerQuestion =>
    refine silent fun session => ?_
    rw [after_answer_question]
    exact calls_ask session
  | takeFirst tier =>
    refine makes_then (makes_silent fun session => ?_) fun _ => makes_pure _
    rw [after, run_take_first]
    cases session.queue tier <;> cases tier <;> rfl
  | react marker => exact makes_then (makes_react exact_ marker) fun _ => makes_pure _
  | emit text =>
    refine silent fun session => ?_
    rw [after, run_emit]
    exact calls_hear _ _
  | requestRefresh view => exact makes_map _ (makes_refresh view)
  | requestRefreshes views => exact makes_map _ (makes_refreshes views)
  | addBuffer view | removeBuffer view | setSink sink | setPrompting prompting | setPipe broken =>
    exact modified fun _ => rfl
  | register view command => exact makes_then (makes_register _) fun _ => makes_pure _
  | registerHandled view command demanded handler =>
    exact makes_then (makes_register _) fun _ => makes_pure _
  | requireOpen =>
    refine silent fun session => ?_
    rw [after, run_require_open]
    cases session.isClosed <;> rfl
  | close => exact modified calls_close

/-- By induction on the depth: a routine performs its operations with one level less. -/
theorem handler_calls_exact (depth : Nat) : Completing.Exact ⟨complete depth, handlerCalls depth⟩ := by
  have plain (view output : String) : Makes (finishRefresh view output) fun _ => [] :=
    makes_silent fun session => by
      rw [after, run_finish_refresh]
      exact (calls_log _ (.refreshed view)).trans
        ((List.append_nil _).trans ((calls_log _ (.replaced view output)).trans (List.append_nil _)))
  induction depth with
  | zero =>
    rintro (_ | view | ⟨name, body, fault⟩) output
    · exact makes_pure ()
    · exact plain view output
    · exact makes_silent fun _ => rfl
  | succ depth ih =>
    rintro (_ | view | ⟨name, body, fault⟩) output
    · exact makes_pure ()
    · exact plain view output
    · refine makes_then (makes_for (fun operation => ?_) body) fun _ => ?_
      · exact makes_map _ (makes_perform ih operation)
      · cases fault with
        | none => exact makes_pure ()
        | some fault => exact makes_silent fun _ => rfl

end Exact

end Engine

section Runs

variable {session later : Session}

theorem calls_after (session : Session) (operation : Operation) :
    callsIn (session.after operation).journal =
      callsIn session.journal ++ session.callsOf operation :=
  Engine.makes_perform (Engine.handler_calls_exact Engine.maxNesting) operation session

/-- The record of a session holds the calls of its operations, those of its handlers included, and no
others. -/
theorem calls_recorded (session : Session) (operations : List Operation) :
    callsIn (session.afterAll operations).journal =
      callsIn session.journal ++ session.calls operations := by
  induction operations generalizing session with
  | nil => exact (List.append_nil _).symm
  | cons operation rest ih =>
    have first := calls_after session operation
    have others := ih (session.after operation)
    rw [first, List.append_assoc] at others
    exact others

theorem after_of_perform_all {operations : List Operation}
    (run : session.performAll operations = some later) : session.afterAll operations = later := by
  induction operations generalizing session with
  | nil => exact Option.some.inj run
  | cons operation rest ih =>
    unfold Session.performAll at run
    split at run
    · next answer middle done =>
      have step : session.after operation = middle := congrArg Engine.stateOf done
      exact (congrArg (Session.afterAll · rest) step).trans (ih run)
    · cases run

theorem reaches_after_all {allowed : Operation → Bool} {operations : List Operation}
    (own : ∀ operation ∈ operations, operation.within allowed = true) (session : Session) :
    session.Reaches allowed (session.afterAll operations) := by
  induction operations generalizing session with
  | nil => exact .refl
  | cons operation rest ih =>
    have first := own operation List.mem_cons_self
    have others := ih (fun next member => own next (List.mem_cons_of_mem operation member))
      (session.after operation)
    exact .head ⟨operation, first, rfl⟩ others

end Runs

end GdbControl
