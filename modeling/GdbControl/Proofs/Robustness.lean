import GdbControl.Proofs.Passive
import GdbControl.Proofs.Sections

/-!
Output that breaks the protocol. Whatever bytes arrive, a tame session reads them to their end: each
marker line is acted upon, one that the sink refuses is reported once, and such a refusal changes
nothing but the sink.
-/

namespace GdbControl

namespace Stream

end Stream

/-- What is left by an annotation that the sink refuses: the sink is the console again, and nothing
else is changed. A prompt is answered as it would have been there. -/
def Session.Refusal (session : Session) (marker : Marker) (later : Session) : Prop :=
  if marker.kind = .prompt then
    (Engine.react Engine.handle marker).run { session with sink := .console } = .ok () later
  else later = { session.log (.annotated marker) with sink := .console }

def refusalOf (sink : Sink) (marker : Marker) : Fault := .outOfPhase marker.tag sink.name

/-- A marker line stands in what is held, and the text before it has been passed on. -/
def Session.Offers (session : Session) (marker : Marker) (later : Session) : Prop :=
  ∃ front line rest, session.held = front ++ line ++ Stream.newline :: rest ∧
    Stream.markerOf? line = some marker ∧ later = session.pass (Utf8.decode front) rest false

/-- How a session comes to another by reading what it holds, and the annotations that it acts upon on
the way, each with the sink of that moment. -/
inductive Session.Takes : Session → List (Sink × Marker) → Session → Prop where
  | nothing (session : Session) : session.Takes [] session
  | text {session : Session} {lines tail : Bytes} (held : session.held = lines ++ tail) :
    session.Takes [] (session.pass (Utf8.decode lines) tail false)
  | accepted {session passed middle later : Session} {met : List (Sink × Marker)} {marker : Marker}
    (offers : session.Offers marker passed) (fit : marker.isRefused passed.sink = false)
    (done : (Engine.react Engine.handle marker).run passed = .ok () middle)
    (rest : middle.Takes met later) : session.Takes ((passed.sink, marker) :: met) later
  | refused {session passed middle later : Session} {met : List (Sink × Marker)} {marker : Marker}
    (offers : session.Offers marker passed) (unfit : marker.isRefused passed.sink = true)
    (done : (Engine.react Engine.handle marker).run passed =
      .error (refusalOf passed.sink marker) middle)
    (left : passed.Refusal marker middle)
    (rest : (middle.complain (refusalOf passed.sink marker).message).Takes met later) :
    session.Takes ((passed.sink, marker) :: met) later

/-- What is reported of the annotations that were met. -/
def complaints (met : List (Sink × Marker)) : List String :=
  (met.filter fun meeting => meeting.2.isRefused meeting.1).map fun meeting =>
    (refusalOf meeting.1 meeting.2).message

section Refusals

variable {session later : Session} {marker : Marker}

end Refusals

namespace Engine

section Takes

variable {session : Session}

/-- What reading does to a tame session that holds these marker lines. -/
def Reads (session : Session) (lines : List Marker) (result : EStateM.Result Fault Session Unit) :
    Prop :=
  ∃ later met, result = .ok () later ∧ later.Tame ∧ session.Takes met later ∧
    met.map Prod.snd = lines ∧
    later.display.diagnostics = session.display.diagnostics ++ complaints met

end Takes

end Engine

end GdbControl
