import GdbControl.Session.Queue

/-!
Views are refreshed by idle commands. A view has at most one refresh outstanding; asking for it
again before that one is complete does nothing.
-/

namespace GdbControl

def View.refreshCommand (view : View) : Command := .mk view.command (some view.handler) (some view.id)

namespace Engine

/-- Asks for a refresh of a view that is looked at and has none outstanding. Says whether one was
asked for. -/
def requestRefresh (id : String) : Engine Bool := do
  requireOpen
  let session ← get
  let view ← lift (session.views.find id)
  if session.isAwaiting id || !session.demands view then pure false
  else
    set (session.await id)
    let _ ← enqueue .idle view.refreshCommand
    pure true

/-- Asks for a refresh of those views that are registered, in the given order, and lists the ones
for which one was asked for. -/
def requestRefreshes : List String → Engine (List String)
  | [] => pure []
  | id :: rest => do
    let asked ← if (← get).views.contains id then requestRefresh id else pure false
    let others ← requestRefreshes rest
    pure (if asked then id :: others else others)

/-- Ends the refresh of a view with the text that was fetched. -/
def finishRefresh (view text : String) : Engine Unit := do
  modify (·.settle view)
  record (.replaced view text)
  onDisplay (·.setBuffer view text)
  record (.refreshed view)
  onDisplay (·.countRefresh view)

end Engine
end GdbControl
