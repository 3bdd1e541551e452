import GdbControl.Session.Operation

/-!
What handlers may do. A handler is data, so a condition on operations can be asked of all that a
handler will ever perform: of its routine, of the handlers of the commands that the routine enqueues,
and so on. A session is within such a condition if all of its commands and views are.
-/

namespace GdbControl

mutual

def Handler.within (allowed : Operation → Bool) : Handler → Bool
  | .discard => true
  | .refresh _ => true
  | .routine _ body _ => Operation.allWithin allowed body

def Command.within (allowed : Operation → Bool) : Command → Bool
  | .mk _ none _ => true
  | .mk _ (some handler) _ => handler.within allowed

/-- Whether an operation is allowed, and all that the handlers it brings along will perform. -/
def Operation.within (allowed : Operation → Bool) : Operation → Bool
  | .enqueue tier command => allowed (.enqueue tier command) && command.within allowed
  | .send command => allowed (.send command) && command.within allowed
  | .registerHandled view command demanded handler =>
    allowed (.registerHandled view command demanded handler) && handler.within allowed
  | operation => allowed operation

def Operation.allWithin (allowed : Operation → Bool) : List Operation → Bool
  | [] => true
  | operation :: rest => operation.within allowed && Operation.allWithin allowed rest

end

section Within

variable {allowed : Operation → Bool}

theorem allowed_of_within {operation : Operation} (inside : operation.within allowed = true) :
    allowed operation = true := by
  cases operation <;> simp_all [Operation.within]

theorem command_of_enqueue {tier : Tier} {command : Command}
    (inside : (Operation.enqueue tier command).within allowed = true) :
    command.within allowed = true := by
  simp_all [Operation.within]

theorem command_of_send {command : Command}
    (inside : (Operation.send command).within allowed = true) : command.within allowed = true := by
  simp_all [Operation.within]

theorem handler_of_register {view command : String} {demanded : Bool} {handler : Handler}
    (inside : (Operation.registerHandled view command demanded handler).within allowed = true) :
    handler.within allowed = true := by
  simp_all [Operation.within]

theorem handler_of_command {command : Command} {handler : Handler}
    (inside : command.within allowed = true) (handled : command.handler? = some handler) :
    handler.within allowed = true := by
  cases command with
  | mk text given view =>
    cases handled
    simpa [Command.within] using inside

theorem mem_of_all_within {body : List Operation} {operation : Operation}
    (inside : Operation.allWithin allowed body = true) (member : operation ∈ body) :
    operation.within allowed = true := by
  induction body with
  | nil => cases member
  | cons first rest ih =>
    simp only [Operation.allWithin, Bool.and_eq_true] at inside
    rcases List.mem_cons.mp member with rfl | later
    · exact inside.1
    · exact ih inside.2 later

end Within

section Mono

variable {small large : Operation → Bool}

mutual

theorem handler_mono (le : ∀ operation, small operation = true → large operation = true) :
    ∀ handler : Handler, handler.within small = true → handler.within large = true
  | .discard, _ => rfl
  | .refresh _, _ => rfl
  | .routine _ body _, own => all_mono le body own

theorem command_mono (le : ∀ operation, small operation = true → large operation = true) :
    ∀ command : Command, command.within small = true → command.within large = true
  | .mk _ none _, _ => rfl
  | .mk _ (some handler) _, own => handler_mono le handler own

theorem operation_mono (le : ∀ operation, small operation = true → large operation = true)
    (operation : Operation) (own : operation.within small = true) :
    operation.within large = true := by
  have granted := le operation (allowed_of_within own)
  cases operation with
  | enqueue tier command =>
    have inner := command_mono le command (command_of_enqueue own)
    simp [Operation.within, granted, inner]
  | send command =>
    have inner := command_mono le command (command_of_send own)
    simp [Operation.within, granted, inner]
  | registerHandled view command demanded handler =>
    have inner := handler_mono le handler (handler_of_register own)
    simp [Operation.within, granted, inner]
  | _ => exact granted

theorem all_mono (le : ∀ operation, small operation = true → large operation = true) :
    ∀ body : List Operation,
      Operation.allWithin small body = true → Operation.allWithin large body = true
  | [], _ => rfl
  | operation :: rest, own => by
    simp only [Operation.allWithin, Bool.and_eq_true] at own ⊢
    exact ⟨operation_mono le operation own.1, all_mono le rest own.2⟩

end

end Mono

section Everything

/-! Nothing is asked of handlers if everything is allowed. -/

mutual

theorem handler_within_all : ∀ handler : Handler, handler.within (fun _ => true) = true
  | .discard => rfl
  | .refresh _ => rfl
  | .routine _ body _ => all_within_all body

theorem command_within_all : ∀ command : Command, command.within (fun _ => true) = true
  | .mk _ none _ => rfl
  | .mk _ (some handler) _ => handler_within_all handler

theorem operation_within_all (operation : Operation) : operation.within (fun _ => true) = true := by
  cases operation with
  | enqueue tier command => exact command_within_all command
  | send command => exact command_within_all command
  | registerHandled view command demanded handler => exact handler_within_all handler
  | _ => rfl

theorem all_within_all : ∀ body : List Operation, Operation.allWithin (fun _ => true) body = true
  | [] => rfl
  | operation :: rest => by
    simp only [Operation.allWithin, Bool.and_eq_true]
    exact ⟨operation_within_all operation, all_within_all rest⟩

end

end Everything

/-- All commands that a session has in hand. -/
def Session.commands (session : Session) : List Command :=
  session.urgent ++ session.idle ++ session.inFlight.toList

def Catalog.Within (allowed : Operation → Bool) (catalog : Catalog) : Prop :=
  ∀ view ∈ catalog.values, view.handler.within allowed = true

/-- The handlers that a session may come to call perform only what is allowed. -/
structure Session.Within (allowed : Operation → Bool) (session : Session) : Prop where
  commands : ∀ command ∈ session.commands, command.within allowed = true
  views : session.views.Within allowed

theorem within_all (session : Session) : session.Within fun _ => true :=
  ⟨fun command _ => command_within_all command, fun view _ => handler_within_all view.handler⟩

/-- What is allowed may be widened. -/
theorem within_mono {small large : Operation → Bool}
    (le : ∀ operation, small operation = true → large operation = true) {session : Session}
    (inside : session.Within small) : session.Within large :=
  ⟨fun command member => command_mono le command (inside.commands command member),
    fun view member => handler_mono le view.handler (inside.views view member)⟩

end GdbControl
