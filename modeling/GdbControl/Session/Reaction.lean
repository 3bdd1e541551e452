import GdbControl.Session.Refresh

/-!
The effect of annotations. Those that announce a phase move the sink; one that comes in a phase
where the sink cannot accept it resets the sink to the console, so that no later output is lost.
-/

namespace GdbControl

/-- Where plain text goes after a phase was announced, or nothing if the phase cannot come there. -/
def Sink.after? : Phase → Sink → Option Sink
  | .starting, .console => some .program
  | .stopping, .console => some .console
  | .stopping, .program => some .console
  | .prePrompt, .console => some .console
  | .prePrompt, .gathering => some .afterOutput
  | .postPrompt, .console => some .console
  | .postPrompt, .beforeOutput => some .gathering
  | .prompt, .console => some .console
  | .prompt, .afterOutput => some .console
  | _, _ => none

namespace Engine

/-- Moves the sink as the phase demands. The fault names the annotation that announced it. -/
def enter (phase : Phase) (tag : String) : Engine Unit := do
  let session ← get
  match session.sink.after? phase with
  | some sink => set { session with sink := sink }
  | none =>
    set { session with sink := .console }
    throw (.outOfPhase tag session.sink.name)

/-- The output of the command in flight is complete: its handler gets what was gathered. -/
def enterPrePrompt (complete : Completion) (tag : String) : Engine Unit := do
  let gathering := (← get).sink = .gathering
  enter .prePrompt tag
  if gathering then
    modify fun session => { session with completed := true }
    let session ← get
    match session.inFlight with
    | none => pure ()
    | some command =>
      match command.handler? with
      | none => pure ()
      | some handler =>
        record (.completed command session.gathered)
        complete handler session.gathered

/-- gdb is at its prompt, whether or not the phase was right. -/
def enterPrompt (tag : String) : Engine Unit :=
  try enter .prompt tag
  finally answerPrompt

/-- The arguments of an annotation, where it has any. -/
def given (args : Option String) : Option String := args.filter (· != "")

def noteExit (args : Option String) : Engine Unit :=
  modify fun session => { session with
    running := false
    exitStatus := (given args).bind Integer.parse? }

/-- A position that cannot be read is ignored. -/
def noteLocation (args : Option String) : Engine Unit := do
  match (given args).bind SourceLocation.parse? with
  | none => pure ()
  | some location => modify fun session => { session with location := some location }

/-- The second field of a frame is its address. -/
def noteFrame (args : Option String) : Engine Unit := do
  match args.map fields with
  | some (_ :: address :: _) => modify fun session => { session with frameAddress := some address }
  | _ => pure ()

def react (complete : Completion) (marker : Marker) : Engine Unit := do
  requireOpen
  record (.annotated marker)
  match Annotation.ofTag marker.tag with
  | .prePrompt => enterPrePrompt complete marker.tag
  | .prompt => enterPrompt marker.tag
  | .postPrompt => enter .postPrompt marker.tag
  | .question => answerQuestion
  | .starting =>
    enter .starting marker.tag
    modify fun session => { session with running := true }
  | .exited =>
    enter .stopping marker.tag
    noteExit marker.args
  | .stopping => enter .stopping marker.tag
  | .stopped =>
    enter .stopping marker.tag
    modify fun session => { session with running := false }
  | .signalName => modify fun session => { session with lastSignal := given marker.args }
  | .source => noteLocation marker.args
  | .frameBegin => noteFrame marker.args
  | .breakpointsInvalid => discard (requestRefreshes breakpointViews)
  | .framesInvalid => discard (requestRefreshes frameViews)
  | .other => pure ()

end Engine
end GdbControl
