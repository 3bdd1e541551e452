import GdbControl.Proofs.Bearing
import GdbControl.Proofs.Held

/-!
Sessions whose handlers do nothing but take their output. No annotation can fail in one of these,
unless the sink refuses it, and every operation that gdb's output brings about leaves such a session as
tame as it was.
-/

namespace GdbControl

/-- An open session whose gdb reads its input and whose handlers, those of its views too, are
passive. -/
structure Session.Tame (session : Session) : Prop where
  alive : session.isClosed = false
  heard : session.process.pipeBroken = false
  commands : ∀ command ∈ session.commands, command.isPassive = true
  views : ∀ view ∈ session.views.values, view.handler.isPassive = true

/-- The sinks in which an annotation may come, for the tags that may not come in all. -/
def admittingSinks : List (String × List Sink) :=
  [("pre-prompt", [.console, .gathering]), ("prompt", [.console, .afterOutput]),
   ("post-prompt", [.console, .beforeOutput]), ("starting", [.console]),
   ("exited", [.console, .program]), ("signalled", [.console, .program]),
   ("signal", [.console, .program]), ("breakpoint", [.console, .program]),
   ("watchpoint", [.console, .program]), ("stopped", [.console, .program])]

def Marker.isRefused (marker : Marker) (sink : Sink) : Bool :=
  (admittingSinks.lookup marker.tag).any fun sinks => !sinks.contains sink

section Spared

variable {session middle later : Session}

end Spared

section Refusal

end Refusal

namespace Engine

section Tame

variable {session : Session}

theorem outcome_heard (heard : session.process.pipeBroken = false) (value : α) :
    session.outcome value = .ok value session := by
  simp [Session.outcome, heard]

variable {marker : Marker}

end Tame

end Engine
end GdbControl
