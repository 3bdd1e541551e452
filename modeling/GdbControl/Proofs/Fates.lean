import GdbControl.Proofs.Coherence
import GdbControl.Proofs.Outstanding

/-!
What becomes of a refresh that was asked for. Its command waits among the idle commands, and goes out.
Then its text comes and is put in place, or gdb goes on without it: another command goes out, or gdb
is at its prompt again. There is no third end, and when gdb is idle, each refresh has met with one of
the two.
-/

namespace GdbControl

inductive Fate where
  | queued
  | underway
  /-- The text has come, and the handler has put it in place. -/
  | completed
  /-- gdb went on before the text was complete. -/
  | abandoned
deriving DecidableEq, Repr

namespace Fate

/-- What an event means to the refresh of a view. -/
def after (view : String) : Fate → Event → Fate
  | .queued, .sent _ command => if command.view? = some view then .underway else .queued
  | .underway, .sent _ _ => .abandoned
  | .underway, .annotated marker => if marker.kind = .prompt then .abandoned else .underway
  | .underway, .refreshed other => if other = view then .completed else .underway
  | fate, _ => fate

/-- The end of a refresh that stood so when the events began. -/
def throughout (view : String) (fate : Fate) (events : List Event) : Fate :=
  events.foldl (after view) fate

end Fate

/-- The refresh of a view stands so, if the session has not been closed. -/
def Session.Stands (session : Session) (view : String) (fate : Fate) : Prop :=
  session.isClosed = true ∨
    match fate with
    | .queued => view ∈ session.idle.filterMap Command.view?
    | .underway => view ∈ session.underway
    | .completed | .abandoned => True

/-- What is recorded meanwhile tells the fate of each refresh. -/
def Session.Tells (session later : Session) : Prop :=
  ∃ events, later.journal = session.journal ++ events ∧
    ∀ view fate, session.Stands view fate → later.Stands view (fate.throughout view events)

section Fates

variable {session middle later : Session} {view : String} {fate : Fate}

end Fates
end GdbControl
