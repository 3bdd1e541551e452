import GdbControl.Stream

/-!
What the annotations of gdb mean to a session. Tags without a meaning here are ignored, so a newer
gdb may add its own.
-/

namespace GdbControl

/-- Where gdb stands in the exchange of commands and output. Each phase is announced by an
annotation. -/
inductive Phase where
  | starting
  | stopping
  | prePrompt
  | prompt
  | postPrompt
deriving DecidableEq, Repr

inductive Annotation where
  /-- The prompt is about to be printed, so the output of a command is complete. -/
  | prePrompt
  | prompt
  /-- A line has been read at the prompt, so the output of a command begins. -/
  | postPrompt
  /-- A question that only the user may answer. -/
  | question
  | starting
  | exited
  /-- The program stopped for the reason that the tag names. -/
  | stopping
  | stopped
  | signalName
  | source
  | frameBegin
  | breakpointsInvalid
  | framesInvalid
  | other
deriving DecidableEq, Repr

/-- The tags that have a meaning. -/
def Annotation.tags : List (String × Annotation) :=
  [("pre-prompt", .prePrompt), ("prompt", .prompt), ("post-prompt", .postPrompt),
   ("commands", .question), ("overload-choice", .question), ("query", .question),
   ("prompt-for-continue", .question),
   ("starting", .starting), ("exited", .exited), ("signalled", .stopping), ("signal", .stopping),
   ("breakpoint", .stopping), ("watchpoint", .stopping), ("stopped", .stopped),
   ("signal-name", .signalName), ("source", .source), ("frame-begin", .frameBegin),
   ("breakpoints-invalid", .breakpointsInvalid), ("frames-invalid", .framesInvalid)]

def Annotation.ofTag (tag : String) : Annotation := (tags.lookup tag).getD .other

end GdbControl
