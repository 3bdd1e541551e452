import GdbControl.Proofs.Fates
import GdbControl.Proofs.Passive
import Mathlib.Data.List.Nodup

/-!
What gdb declares stale is fetched anew. Of the views that an annotation concerns, those are asked for
that somebody looks at and whose refresh is not outstanding. The commands for them are queued in the
order of the list, but when gdb is idle the first goes out at once. So each view that is looked at has
one refresh on its way, and gdb is not idle again before that one has met its end.
-/

namespace GdbControl

/-- Where the refresh of a view stands that is outstanding. -/
def Session.fate (session : Session) (view : String) : Fate :=
  if session.underway.contains view then .underway else .queued

section Renewal

variable {session : Session}

theorem found_buffered (buffered : session.views.Buffered) {id : String} {view : View}
    (found : session.views.get? id = some view) :
    session.views.find id = .ok view ∧ view = .buffered id view.command := by
  have known : session.views.find id = .ok view := by
    unfold Catalog.find
    rw [found]
  exact ⟨known, buffered _ (find_mem known)⟩

theorem run_request (alive : session.isClosed = false) (heard : session.process.pipeBroken = false)
    (buffered : session.views.Buffered) {id : String} {view : View}
    (found : session.views.get? id = some view) :
    view.id = id ∧ (Engine.requestRefresh id).run session =
      if session.display.isOpen id && !session.isAwaiting id then
        .ok true ((session.await id).accept .idle view.refreshCommand)
      else .ok false session := by
  obtain ⟨known, own⟩ := found_buffered buffered found
  have demanded : session.demands view = session.display.isOpen id := by
    rw [own]
    rfl
  refine ⟨congrArg View.id own, ?_⟩
  have still : (session.await id).isClosed = false := alive
  have works : ((session.await id).accept .idle view.refreshCommand).process.pipeBroken = false := by
    rw [accept_process]
    exact heard
  rw [Engine.run_request_refresh, alive, known]
  simp only [Bool.false_eq_true, if_false, demanded, Engine.run_enqueue, still,
    Engine.outcome_heard works]
  cases session.display.isOpen id <;> cases session.isAwaiting id <;> try rfl
  cases (session.await id).mayWrite .idle <;> rfl

end Renewal

section Renewed

variable {session later : Session}

end Renewed

/-- The invariants of a session whose callers give commands of their own only. -/
structure Session.Steady (session : Session) : Prop where
  orderly : session.Orderly
  accounted : session.Accounted
  coherent : session.Coherent
  inside : session.Within Operation.isOwn

section Steady

variable {session later : Session}

end Steady

end GdbControl
