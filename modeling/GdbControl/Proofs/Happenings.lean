import GdbControl.Proofs.Feeding
import GdbControl.Proofs.Recovery

/-!
What happens to the views of a session. They are opened and closed by those who look at them, and
their refreshes are asked for and completed while gdb's output comes in. A history of such happenings
says what every buffer holds: nothing, unless the view has been opened and not closed since, and else
the last text that was completed since it was opened anew. It also says which views may await a
refresh: a completed refresh frees its view, whether or not the view is still open.
-/

namespace GdbControl

/-- Something that happens to a view. -/
inductive Happening where
  | opened (view : String)
  | closed (view : String)
  /-- A refresh is asked for. -/
  | asked (view : String)
  /-- A refresh is completed, and this is the text that gdb gave. -/
  | refreshed (view text : String)
deriving DecidableEq

/-- The view that gets the output. -/
def Handler.view? : Handler → Option String
  | .refresh view => some view
  | .discard | .routine _ _ _ => none

def Event.happening? : Event → Option Happening
  | .accepted _ command => command.view?.map .asked
  | .completed command output => (command.handler?.bind Handler.view?).map (.refreshed · output)
  | _ => none

def happeningsIn (events : List Event) : List Happening := events.filterMap Event.happening?

/-- The text that a view is given. -/
def Event.replaced? : Event → Option (String × String)
  | .replaced view text => some (view, text)
  | _ => none

def replacedIn (events : List Event) : List (String × String) := events.filterMap Event.replaced?

/-- The view that is told to be refreshed. -/
def Event.refreshed? : Event → Option String
  | .refreshed view => some view
  | _ => none

def refreshedIn (events : List Event) : List String := events.filterMap Event.refreshed?

/-- The text that came for a view. -/
def Happening.given? : Happening → Option (String × String)
  | .refreshed view text => some (view, text)
  | _ => none

def givenIn (history : List Happening) : List (String × String) :=
  history.filterMap Happening.given?

/-- An event that is about no view. -/
def Event.isQuiet (event : Event) : Bool :=
  event.happening?.isNone && event.replaced?.isNone && event.refreshed?.isNone

/-- What a session shows of its views: the texts, and how often each was refreshed. -/
def Display.viewed (display : Display) : Table String × Table Nat :=
  (display.buffers, display.refreshCounts)

def Display.refreshCount (display : Display) (view : String) : Nat :=
  (display.refreshCounts.get? view).getD 0

/-- A view has been opened, and not closed since. -/
def OpenAfter (history : List Happening) (view : String) : Prop :=
  ∃ before after, history = before ++ .opened view :: after ∧ .closed view ∉ after

/-- The texts of a view, in the order in which its refreshes were completed. -/
def textsIn (history : List Happening) (view : String) : List String :=
  history.filterMap fun
    | .refreshed other text => if other = view then some text else none
    | _ => none

/-- What the buffer of a view holds after a history, if there is one. -/
inductive Holds (history : List Happening) (view : String) : Option String → Prop where
  | nothing (shut : ¬ OpenAfter history view) : Holds history view none
  /-- The last text that was completed since the view was opened while it was not open. -/
  | text {before after : List Happening} (split : history = before ++ .opened view :: after)
    (anew : ¬ OpenAfter before view) (kept : .closed view ∉ after) :
    Holds history view (some ((textsIn after view).getLast?.getD ""))

namespace Happening

/-- What becomes of the buffer of a view. -/
def onBuffer (view : String) (content : Option String) : Happening → Option String
  | .opened other => if other = view then some (content.getD "") else content
  | .closed other => if other = view then none else content
  | .refreshed other text => if other = view then content.map fun _ => text else content
  | .asked _ => content

/-- Whether a view awaits a refresh. -/
def onWait (view : String) (waits : Bool) : Happening → Bool
  | .asked other => waits || other == view
  | .refreshed other _ => waits && other != view
  | .opened _ | .closed _ => waits

end Happening

/-- A session has become the later one while these things happened to its views. -/
structure Session.Lives (session : Session) (history : List Happening) (later : Session) : Prop where
  shown : ∀ view, later.display.buffers.get? view =
    history.foldl (Happening.onBuffer view) (session.display.buffers.get? view)
  awaited : ∀ view, later.isAwaiting view = true →
    history.foldl (Happening.onWait view) (session.isAwaiting view) = true

/-- The texts that came while a session became the later one, and no others, were each put in place
once, announced and counted. -/
structure Session.Renders (session : Session) (events : List Event) (later : Session) : Prop where
  replaced : replacedIn events = givenIn (happeningsIn events)
  refreshed : refreshedIn events = (givenIn (happeningsIn events)).map Prod.fst
  counted : ∀ view, later.display.refreshCount view =
    session.display.refreshCount view + (refreshedIn events).count view

/-- A session has become the later one. The caller first had some views opened or closed, and what
happened to them from then on is on record. -/
structure Session.Undergoes (session : Session) (toggles : List Happening) (later : Session) :
    Prop where
  views : later.views = session.views
  lived : ∃ events, later.journal = session.journal ++ events ∧
    session.Lives (toggles ++ happeningsIn events) later ∧ session.Renders events later

section Buffers

variable (buffers : Table String) (view other : String)

theorem modified_get (text : String) :
    (buffers.modify view fun _ => text).get? other =
      (Happening.refreshed view text).onBuffer other (buffers.get? other) := by
  unfold Table.modify
  by_cases same : view = other
  · subst same
    rw [Happening.onBuffer, if_pos rfl]
    cases present : buffers.get? view with
    | none => exact present
    | some held => exact Table.get?_insert_self _ _ _
  · rw [Happening.onBuffer, if_neg same]
    cases buffers.get? view with
    | none => rfl
    | some held => exact Table.get?_insert_of_ne _ _ (Ne.symm same)

theorem counted_get (display : Display) (text : String) :
    ((display.setBuffer view text).countRefresh view).refreshCount other =
      display.refreshCount other + [view].count other := by
  by_cases same : view = other
  · subst same
    simp [Display.refreshCount, Display.countRefresh, Display.setBuffer, Table.get?_insert_self]
  · simp [Display.refreshCount, Display.countRefresh, Display.setBuffer, same,
      Table.get?_insert_of_ne _ _ (Ne.symm same)]

theorem opened_get :
    (buffers.insertIfNew view "").get? other =
      (Happening.opened view).onBuffer other (buffers.get? other) := by
  unfold Table.insertIfNew Table.contains
  by_cases same : view = other
  · subst same
    rw [Happening.onBuffer, if_pos rfl]
    cases present : buffers.get? view with
    | none => exact Table.get?_insert_self _ _ _
    | some held => exact present
  · rw [Happening.onBuffer, if_neg same]
    split
    · rfl
    · exact Table.get?_insert_of_ne _ _ (Ne.symm same)

theorem removed_get :
    (buffers.erase view).get? other =
      (Happening.closed view).onBuffer other (buffers.get? other) := by
  by_cases same : view = other
  · subst same
    rw [Happening.onBuffer, if_pos rfl]
    exact Table.get?_erase_self _ _
  · rw [Happening.onBuffer, if_neg same]
    exact Table.get?_erase_of_ne _ (Ne.symm same)

end Buffers

section History

variable {history : List Happening} {view : String}

theorem texts_snoc (history : List Happening) (last : Happening) (view : String) :
    textsIn (history ++ [last]) view = textsIn history view ++ textsIn [last] view :=
  List.filterMap_append

theorem open_snoc (history : List Happening) (last : Happening) (view : String) :
    OpenAfter (history ++ [last]) view ↔
      last = .opened view ∨ last ≠ .closed view ∧ OpenAfter history view := by
  constructor
  · rintro ⟨before, after, split, kept⟩
    rcases List.eq_nil_or_concat after with rfl | ⟨middle, final, rfl⟩
    · exact .inl (List.cons.inj (List.append_inj' split rfl).2).1
    · rw [List.concat_eq_append, ← List.cons_append, ← List.append_assoc] at split
      obtain ⟨front, same⟩ := List.append_inj' split rfl
      cases same
      refine .inr ⟨fun closed => kept (by simp [closed]), before, middle, front, fun closed => kept ?_⟩
      simp [closed]
  · rintro (rfl | ⟨other, before, after, rfl, kept⟩)
    · exact ⟨history, [], rfl, by simp⟩
    · exact ⟨before, after ++ [last], by simp, by simp [kept, Ne.symm other]⟩

-- What is said of a buffer goes on to hold after what has nothing to do with it.
theorem holds_aside {content : Option String} (holds : Holds history view content) {last : Happening}
    (other : last ≠ .opened view) (stays : last ≠ .closed view) (none : textsIn [last] view = []) :
    Holds (history ++ [last]) view content := by
  cases holds with
  | nothing shut =>
    refine .nothing fun opened => ?_
    exact ((open_snoc history last view).mp opened).elim other fun both => shut both.2
  | @text before after split anew kept =>
    have same : textsIn (after ++ [last]) view = textsIn after view := by
      rw [texts_snoc, none, List.append_nil]
    rw [← same]
    exact .text (by simp [split]) anew (by simp [kept, Ne.symm stays])

theorem holds_opened {content : Option String} (holds : Holds history view content) :
    Holds (history ++ [.opened view]) view (some (content.getD "")) := by
  cases holds with
  | nothing shut => exact @Holds.text _ _ history [] rfl shut (by simp)
  | @text before after split anew kept =>
    have same : textsIn (after ++ [.opened view]) view = textsIn after view := by
      rw [texts_snoc]
      exact List.append_nil _
    rw [Option.getD_some, ← same]
    exact .text (by simp [split]) anew (by simp [kept])

theorem holds_closed (history : List Happening) (view : String) :
    Holds (history ++ [.closed view]) view none :=
  .nothing fun opened => by simpa using (open_snoc history _ view).mp opened

theorem holds_refreshed {content : Option String} (holds : Holds history view content)
    (text : String) : Holds (history ++ [.refreshed view text]) view (content.map fun _ => text) := by
  cases holds with
  | nothing shut =>
    refine .nothing fun opened => ?_
    rcases (open_snoc history _ view).mp opened with same | both
    · cases same
    · exact shut both.2
  | @text before after split anew kept =>
    have last : (textsIn (after ++ [.refreshed view text]) view).getLast?.getD "" = text := by
      rw [texts_snoc]
      simp [textsIn]
    rw [Option.map_some]
    nth_rewrite 2 [← last]
    exact .text (by simp [split]) anew (by simp [kept])

theorem holds_snoc {content : Option String} (holds : Holds history view content)
    (last : Happening) : Holds (history ++ [last]) view (last.onBuffer view content) := by
  cases last with
  | asked about => exact holds_aside holds (by simp) (by simp) rfl
  | opened about =>
    by_cases same : about = view
    · subst same
      rw [Happening.onBuffer, if_pos rfl]
      exact holds_opened holds
    · rw [Happening.onBuffer, if_neg same]
      exact holds_aside holds (by simpa using same) (by simp) rfl
  | closed about =>
    by_cases same : about = view
    · subst same
      rw [Happening.onBuffer, if_pos rfl]
      exact holds_closed history about
    · rw [Happening.onBuffer, if_neg same]
      exact holds_aside holds (by simp) (by simpa using same) rfl
  | refreshed about text =>
    by_cases same : about = view
    · subst same
      rw [Happening.onBuffer, if_pos rfl]
      exact holds_refreshed holds text
    · rw [Happening.onBuffer, if_neg same]
      exact holds_aside holds (by simp) (by simp) (by simp [textsIn, same])

/-- By induction on the history, from its end. -/
theorem holds_buffer (history : List Happening) (view : String) :
    Holds history view (history.foldl (Happening.onBuffer view) none) := by
  induction history using List.reverseRecOn with
  | nil => exact .nothing fun ⟨before, after, split, _⟩ => by simp at split
  | append_singleton history last ih =>
    rw [List.foldl_append, List.foldl_cons, List.foldl_nil]
    exact holds_snoc ih last

theorem open_of_holds {content : Option String} (holds : Holds history view content) :
    content.isSome = true ↔ OpenAfter history view := by
  cases holds with
  | nothing shut => simpa using shut
  | text split anew kept => simpa using ⟨_, _, split, kept⟩

-- A refresh that is completed while its view is not open might as well not have come.
theorem buffer_unopened {before : List Happening} (shut : ¬ OpenAfter before view) (text : String)
    (after : List Happening) (other : String) :
    (before ++ .refreshed view text :: after).foldl (Happening.onBuffer other) none =
      (before ++ after).foldl (Happening.onBuffer other) none := by
  have holds := holds_buffer before other
  simp only [List.foldl_append, List.foldl_cons]
  generalize before.foldl (Happening.onBuffer other) none = content at holds ⊢
  by_cases same : view = other
  · subst same
    cases content with
    | none => rw [Happening.onBuffer, if_pos rfl, Option.map_none]
    | some held => exact absurd ((open_of_holds holds).mp rfl) shut
  · rw [Happening.onBuffer, if_neg same]

-- Whoever awaits a refresh after some happenings would do so if he had awaited one before.
theorem wait_mono {first second : Bool} (le : first = true → second = true)
    (waits : history.foldl (Happening.onWait view) first = true) :
    history.foldl (Happening.onWait view) second = true := by
  induction history generalizing first second with
  | nil => exact le waits
  | cons happening rest ih =>
    refine ih (fun now => ?_) waits
    cases happening with
    | opened | closed => exact le now
    | asked about =>
      simp only [Happening.onWait, Bool.or_eq_true] at now ⊢
      exact now.imp_left le
    | refreshed about text =>
      simp only [Happening.onWait, Bool.and_eq_true] at now ⊢
      exact now.imp_left le

-- A completed refresh frees the view until another one is asked for.
theorem wait_freed {before after : List Happening} {text : String}
    (unasked : .asked view ∉ after) :
    (before ++ .refreshed view text :: after).foldl (Happening.onWait view) false = false := by
  rw [List.foldl_append, List.foldl_cons]
  have freed (waits : Bool) : Happening.onWait view waits (.refreshed view text) = false := by
    simp [Happening.onWait]
  rw [freed]
  induction after with
  | nil => rfl
  | cons happening rest ih =>
    have still : Happening.onWait view false happening = false := by
      cases happening with
      | asked about =>
        have other : about ≠ view := fun same => unasked (by simp [same])
        simpa [Happening.onWait] using other
      | _ => simp [Happening.onWait]
    rw [List.foldl_cons, still]
    exact ih fun member => unasked (List.mem_cons_of_mem happening member)

end History

section Undergone

variable {session middle later : Session} {toggles : List Happening} {events : List Event}

theorem lives_trans {first second : List Happening} (before : session.Lives first middle)
    (after : middle.Lives second later) : session.Lives (first ++ second) later := by
  constructor
  · intro view
    rw [List.foldl_append, ← before.shown, after.shown]
  · intro view waits
    rw [List.foldl_append]
    exact wait_mono (before.awaited view) (after.awaited view waits)

theorem given_append (front back : List Happening) :
    givenIn (front ++ back) = givenIn front ++ givenIn back :=
  List.filterMap_append

theorem happenings_append (front back : List Event) :
    happeningsIn (front ++ back) = happeningsIn front ++ happeningsIn back :=
  List.filterMap_append

theorem renders_trans {more : List Event} (first : session.Renders events middle)
    (rest : middle.Renders more later) : session.Renders (events ++ more) later := by
  have refreshed : refreshedIn (events ++ more) = refreshedIn events ++ refreshedIn more :=
    List.filterMap_append
  constructor
  · rw [replacedIn, List.filterMap_append, happenings_append, given_append]
    exact congrArg₂ _ first.replaced rest.replaced
  · rw [refreshed, happenings_append, given_append, List.map_append, first.refreshed, rest.refreshed]
  · intro view
    rw [rest.counted, first.counted, refreshed, List.count_append, Nat.add_assoc]

theorem undergoes_trans (first : session.Undergoes toggles middle)
    (rest : middle.Undergoes [] later) : session.Undergoes toggles later := by
  obtain ⟨events, told, lived, rendered⟩ := first.lived
  obtain ⟨more, further, living, rendering⟩ := rest.lived
  refine ⟨rest.views.trans first.views, events ++ more, by rw [further, told, List.append_assoc], ?_,
    renders_trans rendered rendering⟩
  rw [happenings_append, ← List.append_assoc]
  exact lives_trans lived living

theorem lives_quiet (display : later.display.buffers = session.display.buffers)
    (awaiting : ∀ view ∈ later.awaiting, view ∈ session.awaiting) : session.Lives [] later := by
  refine ⟨fun view => by rw [display]; rfl, fun view waits => ?_⟩
  simp only [Session.isAwaiting, List.contains_iff_mem] at waits
  simpa [Session.isAwaiting] using awaiting view waits

theorem lives_refl (session : Session) : session.Lives [] session := lives_quiet rfl fun _ => id

-- While no text comes, nothing is put in place.
theorem renders_still (counts : later.display.refreshCounts = session.display.refreshCounts)
    (given : givenIn (happeningsIn events) = []) (replaced : replacedIn events = [])
    (refreshed : refreshedIn events = []) : session.Renders events later := by
  refine ⟨by rw [replaced, given], by rw [refreshed, given]; rfl, fun view => ?_⟩
  rw [Display.refreshCount, counts, refreshed]
  rfl

theorem quiet_single {event : Event} (quiet : event.isQuiet = true) :
    ∀ other ∈ [event], other.isQuiet = true := by
  intro other member
  rwa [List.mem_singleton.mp member]

theorem quiet_nothing (quiet : ∀ event ∈ events, event.isQuiet = true) :
    happeningsIn events = [] ∧ replacedIn events = [] ∧ refreshedIn events = [] := by
  have silent (event : Event) (member : event ∈ events) :
      event.happening? = none ∧ event.replaced? = none ∧ event.refreshed? = none := by
    simpa [Event.isQuiet, and_assoc] using quiet event member
  exact ⟨List.filterMap_eq_nil_iff.mpr fun event member => (silent event member).1,
    List.filterMap_eq_nil_iff.mpr fun event member => (silent event member).2.1,
    List.filterMap_eq_nil_iff.mpr fun event member => (silent event member).2.2⟩

-- Only a text that comes and a caller change what a view shows; a request alone makes it wait.
theorem undergoes_quiet (views : later.views = session.views)
    (display : later.display.viewed = session.display.viewed)
    (told : later.journal = session.journal ++ events)
    (quiet : ∀ event ∈ events, event.isQuiet = true)
    (awaiting : ∀ view ∈ later.awaiting, view ∈ session.awaiting) :
    session.Undergoes [] later := by
  obtain ⟨nothing, replaced, refreshed⟩ := quiet_nothing quiet
  have silent : givenIn (happeningsIn events) = [] := by
    rw [nothing]
    rfl
  refine ⟨views, events, told, ?_,
    renders_still (congrArg Prod.snd display) silent replaced refreshed⟩
  rw [nothing]
  exact lives_quiet (congrArg Prod.fst display) awaiting

theorem undergoes_aside (views : later.views = session.views)
    (display : later.display.viewed = session.display.viewed)
    (told : later.journal = session.journal)
    (awaiting : ∀ view ∈ later.awaiting, view ∈ session.awaiting) : session.Undergoes [] later := by
  have nothing : later.journal = session.journal ++ [] := by rw [told, List.append_nil]
  exact undergoes_quiet views display nothing (by simp) awaiting

theorem undergoes_refl (session : Session) : session.Undergoes [] session :=
  undergoes_aside rfl rfl rfl fun _ => id

theorem undergoes_log (session : Session) (event : Event) (quiet : event.isQuiet = true) :
    session.Undergoes [] (session.log event) :=
  undergoes_quiet rfl rfl rfl (quiet_single quiet) fun _ => id

theorem undergoes_hear (session : Session) (text : String) :
    session.Undergoes [] (session.hear text) := by
  unfold Session.hear
  split
  · exact undergoes_refl session
  · have told := undergoes_log session (.emitted session.sink text) rfl
    dsimp only
    split <;> first | exact told | exact undergoes_trans told (undergoes_aside rfl rfl rfl fun _ => id)

theorem undergoes_pass (session : Session) (text : String) (held : Bytes) (midLine : Bool) :
    session.Undergoes [] (session.pass text held midLine) := by
  have kept : session.Undergoes [] (session.hold held midLine) :=
    undergoes_aside rfl rfl rfl fun _ => id
  exact undergoes_trans kept (undergoes_hear _ text)

theorem close_awaiting (session : Session) :
    ∀ view ∈ session.close.awaiting, view ∈ session.awaiting := by
  unfold Session.close
  split
  · exact fun _ => id
  · simp

theorem undergoes_close (session : Session) : session.Undergoes [] session.close := by
  have views : session.close.views = session.views := by
    unfold Session.close
    split <;> rfl
  exact undergoes_aside views (by rw [close_display]) (close_journal session)
    (close_awaiting session)

-- A command that goes out can only free the view of the one before it.
theorem undergoes_sent {waiting : Session} {tier : Option Tier} {command : Command}
    (views : waiting.views = session.views) (display : waiting.display = session.display)
    (told : waiting.journal = session.journal)
    (awaiting : ∀ view ∈ waiting.awaiting, view ∈ session.awaiting) :
    session.Undergoes [] (waiting.sendOut tier command) := by
  have quiet : ∀ event ∈ waiting.sending tier command, event.isQuiet = true := by
    unfold Session.sending
    split <;> simp [Event.isQuiet, Event.happening?, Event.replaced?, Event.refreshed?]
  refine undergoes_quiet (by simpa using views) (by simp [display]) (by simp [told]) quiet ?_
  intro view member
  rw [Session.send_out_awaiting] at member
  exact awaiting view (release_member member).1

theorem undergoes_placed (session : Session) (tier : Tier) (command : Command) :
    (session.log (.accepted tier command)).Undergoes [] (session.accept tier command) := by
  unfold Session.accept
  split
  · exact undergoes_sent rfl rfl rfl fun _ => id
  · cases tier <;> exact undergoes_aside rfl rfl rfl fun _ => id

theorem undergoes_accept (session : Session) (tier : Tier) {command : Command}
    (plain : command.view? = none) : session.Undergoes [] (session.accept tier command) :=
  undergoes_trans (undergoes_log session (.accepted tier command)
      (by simp [Event.isQuiet, Event.happening?, Event.replaced?, Event.refreshed?, plain]))
    (undergoes_placed session tier command)

-- A view begins to wait when its refresh is asked for.
theorem undergoes_request (session : Session) (id command : String) :
    session.Undergoes []
      ((session.await id).accept .idle (View.buffered id command).refreshCommand) := by
  let asked : Event := .accepted .idle (View.buffered id command).refreshCommand
  refine undergoes_trans ?_ (undergoes_placed (session.await id) .idle _)
  refine ⟨rfl, [asked], rfl, ⟨fun view => rfl, fun view waits => ?_⟩, renders_still rfl rfl rfl rfl⟩
  have either : view ∈ session.awaiting ∨ view = id := by
    simpa [Session.isAwaiting, Session.await, Session.log] using waits
  have waiting : session.isAwaiting view = true ∨ id = view :=
    either.imp (by simp [Session.isAwaiting]) Eq.symm
  simpa [happeningsIn, asked, Event.happening?, View.refreshCommand, View.buffered, Command.view?,
    Happening.onWait] using waiting

theorem undergoes_poll (session : Session) : session.Undergoes [] session.poll := by
  have freed : ∀ view ∈ ({ session with questioned := false } : Session).release.awaiting,
      view ∈ session.awaiting := fun view member => (release_member member).1
  unfold Session.poll
  split
  · exact undergoes_sent (by simp) (by simp) (by simp) freed
  · exact undergoes_sent (by simp) (by simp) (by simp) freed
  · have told : ∀ event ∈ [Event.idled], event.isQuiet = true := quiet_single rfl
    exact undergoes_quiet (by simp [Session.log])
      (by simp [Session.log, Display.markReady, Display.viewed]) (by simp [Session.log]) told
      (by simpa [Session.log] using freed)

theorem undergoes_ask (session : Session) : session.Undergoes [] session.ask := by
  unfold Session.ask
  split
  · exact undergoes_sent rfl rfl rfl fun _ => id
  · exact undergoes_aside rfl rfl rfl fun _ => id

theorem undergoes_enter (session : Session) (phase : Phase) :
    session.Undergoes [] (session.enter phase) :=
  undergoes_aside rfl rfl rfl fun _ => id

-- The text reaches its buffer if that is open, and its view waits no longer in any case.
theorem undergoes_fulfil (session : Session) : session.Undergoes [] session.fulfil := by
  let done : Session := { session with sink := .afterOutput, completed := true }
  have ended : session.Undergoes [] done := undergoes_aside rfl rfl rfl fun _ => id
  unfold Session.fulfil
  split
  · exact ended
  · next command flight =>
    split
    · exact ended
    · next handler handled =>
      let completed : Event := .completed command session.gathered
      dsimp only
      split
      · next view =>
        have happened : happeningsIn
            [completed, .replaced view session.gathered, .refreshed view] =
              [.refreshed view session.gathered] := by
          simp [happeningsIn, completed, Event.happening?, handled, Handler.view?]
        refine ⟨rfl, [completed, .replaced view session.gathered, .refreshed view], ?_, ?_, ?_⟩
        · simp [Session.finish, Session.settle, Session.log, completed]
        · rw [happened]
          refine ⟨fun other => ?_, fun other waits => ?_⟩
          · exact modified_get session.display.buffers view other _
          · have still : other ∈ session.awaiting ∧ other ≠ view := by
              simpa [Session.finish, Session.settle, Session.log, Session.isAwaiting] using waits
            simp [Happening.onWait, Session.isAwaiting, still.1, Ne.symm still.2]
        · exact ⟨by rw [happened]; rfl, by rw [happened]; rfl,
            fun other => counted_get view other session.display session.gathered⟩
      · next plain =>
        have quiet : handler.view? = none := by
          cases handler with
          | refresh view => exact absurd rfl (plain view)
          | discard | routine => rfl
        have told := undergoes_log done completed (by simp [completed, Event.isQuiet,
          Event.happening?, Event.replaced?, Event.refreshed?, handled, quiet])
        exact undergoes_trans ended told

theorem undergoes_reaction {marker : Marker} (reaction : Reaction marker session later) :
    session.Undergoes [] later := by
  have noted := undergoes_log session (.annotated marker) rfl
  cases reaction with
  | prompt =>
    exact undergoes_trans noted (undergoes_trans (undergoes_enter _ .prompt) (undergoes_poll _))
  | question => exact undergoes_trans noted (undergoes_ask _)
  | phase => exact undergoes_trans noted (undergoes_enter _ _)
  | fulfilled => exact undergoes_trans noted (undergoes_fulfil _)
  | remark => exact noted

theorem undergoes_move (buffered : session.views.Buffered)
    (move : Move Operation.isReception session later) : session.Undergoes [] later := by
  cases move with
  | accept own => cases allowed_of_within own
  | @request id view _ known =>
    have named : view = .buffered id view.command := buffered _ (find_mem known)
    rw [named]
    exact undergoes_request session id view.command
  | arrive => exact undergoes_quiet rfl rfl rfl (quiet_single rfl) fun _ => id
  | cut _ _ _ reaction =>
    exact undergoes_trans (undergoes_pass _ _ _ _) (undergoes_reaction reaction)
  | lines | flush => exact undergoes_pass _ _ _ _
  | note => exact undergoes_aside rfl rfl rfl fun _ => id
  | complain => exact undergoes_quiet rfl rfl rfl (quiet_single rfl) fun _ => id
  | close => exact undergoes_close session
  | send granted | registerHandled granted => cases allowed_of_within granted
  | react granted | hear granted | addBuffer granted | removeBuffer granted | register granted
  | setPipe granted | take granted | poll granted | ask granted | setSink granted
  | setPrompting granted => cases granted

theorem undergoes_lapses (buffered : session.views.Buffered)
    (lapses : Lapses Operation.isReception session later) : session.Undergoes [] later := by
  induction lapses with
  | refl => exact undergoes_refl session
  | @tail middle last _ lapse ih =>
    refine undergoes_trans ih ?_
    cases lapse with
    | move move => exact undergoes_move (ih.views ▸ buffered) move
    | skip => exact undergoes_pass _ _ _ _
    | abort => exact undergoes_close _

end Undergone

section Calls

variable {session : Session}

theorem undergoes_submit (alive : session.isClosed = false) (command : String) :
    session.Undergoes [] ((Engine.submit command).after session) := by
  rw [Engine.after_submit alive]
  have unwoken : session.Undergoes [] session.unwoken := undergoes_aside rfl rfl rfl fun _ => id
  exact undergoes_trans unwoken (undergoes_accept _ .urgent rfl)

theorem undergoes_receive (attentive : session.Attentive) (delivery : Delivery) :
    session.Undergoes [] ((Engine.receive delivery).after session) := by
  by_cases exits : delivery = .exit
  · subst exits
    exact undergoes_trans (undergoes_close session) (undergoes_aside rfl rfl rfl fun _ => id)
  · exact undergoes_lapses attentive.accounted.views
      (Engine.received_lapses attentive.inside rfl rfl exits)

-- Opening a view gives it a buffer, if it has none, before its refresh is asked for.
theorem undergoes_open (buffered : session.views.Buffered) (alive : session.isClosed = false)
    {id : String} {view : View} (known : session.views.find id = .ok view) :
    session.Undergoes [.opened id] ((Engine.openView id).after session) := by
  have named : view = .buffered id view.command := buffered _ (find_mem known)
  have opened : session.Undergoes [.opened id] (session.opened id).unwoken :=
    ⟨rfl, [], (List.append_nil _).symm, ⟨fun other => opened_get session.display.buffers id other,
      fun _ waits => waits⟩, renders_still rfl rfl rfl rfl⟩
  rw [Engine.after_open alive, known]
  dsimp only
  split
  · exact opened
  · refine undergoes_trans opened ?_
    rw [named]
    exact undergoes_request _ id view.command

theorem undergoes_closed (session : Session) (view : String) :
    session.Undergoes [.closed view]
      { session with display := session.display.removeBuffer view } := by
  refine ⟨rfl, [], (List.append_nil _).symm, ⟨fun other => ?_, fun _ waits => waits⟩,
    renders_still rfl rfl rfl rfl⟩
  exact removed_get session.display.buffers view other

end Calls

end GdbControl
