import GdbControl.Fault
import GdbControl.Stream

/-!
Commands, what becomes of their output, and the operations of a session. A completion handler is a
value, not code: it discards the output, puts it into the buffer of a view, or performs a list of
operations on the session.

The text of a command is a sequence of Unicode scalar values, so each command has an encoding in UTF-8
and can be written. A text with one half of a surrogate pair alone, which could not be encoded, is no
command.
-/

namespace GdbControl

/-- Where plain text goes. -/
inductive Sink where
  /-- The transcript that the user sees. -/
  | console
  /-- The output of the program that is being debugged. -/
  | program
  /-- Nowhere: a command of the session has been sent and gdb has not yet begun to answer it. -/
  | beforeOutput
  /-- The private text of the session's command in flight. -/
  | gathering
  /-- Nowhere: the command's output is complete and the prompt is being printed. -/
  | afterOutput
  /-- Nowhere, for ever. -/
  | closed
deriving DecidableEq, Repr, Inhabited

def Sink.name : Sink → String
  | .console => "user"
  | .program => "inferior"
  | .beforeOutput => "pre-emacs"
  | .gathering => "emacs"
  | .afterOutput => "post-emacs"
  | .closed => "torn-down"

/-- The queues of commands. Idle commands wait for all urgent ones. -/
inductive Tier where
  | urgent
  | idle
deriving DecidableEq, Repr

def Tier.name : Tier → String
  | .urgent => "input"
  | .idle => "idle"

mutual

/-- What is done with the output of a command once it is complete. -/
inductive Handler where
  | discard
  /-- The output becomes the text of a view. -/
  | refresh (view : String)
  /-- A list of operations, and a fault with which it ends if one is given. -/
  | routine (name : String) (body : List Operation) (fault : Option Fault)

/-- A line for gdb. Without a handler it comes from the user, whose transcript gets its output. A
command that refreshes a view names it, so that the view is freed if gdb never completes it. -/
inductive Command where
  | mk (text : String) (handler : Option Handler) (view : Option String)

inductive Operation where
  /-- Output arrives, in these pieces. -/
  | ingest (pieces : List Bytes)
  | flush
  | enqueue (tier : Tier) (command : Command)
  | send (command : Command)
  | answerPrompt
  | answerQuestion
  /-- A command is taken out of its queue and not sent. -/
  | takeFirst (tier : Tier)
  /-- An annotation is acted upon that did not come from the stream. -/
  | react (marker : Marker)
  /-- Plain text reaches the sink that did not come from the stream. -/
  | emit (text : String)
  | requestRefresh (view : String)
  | requestRefreshes (views : List String)
  | addBuffer (view : String)
  | removeBuffer (view : String)
  | register (view command : String)
  /-- A view whose demand is fixed and whose output goes to a handler of its own. -/
  | registerHandled (view command : String) (demanded : Bool) (handler : Handler)
  /-- The sink is moved without regard to the phase. -/
  | setSink (sink : Sink)
  /-- gdb is taken to wait for a line, or not to. -/
  | setPrompting (prompting : Bool)
  /-- gdb ceases to read its input, or reads it again. -/
  | setPipe (broken : Bool)
  | requireOpen
  | close

end

instance : Inhabited Handler := ⟨.discard⟩

instance : Inhabited Command := ⟨.mk "" none none⟩

instance : Inhabited Operation := ⟨.flush⟩

namespace Command

def text : Command → String
  | .mk text _ _ => text

def handler? : Command → Option Handler
  | .mk _ handler _ => handler

def view? : Command → Option String
  | .mk _ _ view => view

def typed (text : String) : Command := .mk text none none

/-- What is written to gdb: the command ends its line. -/
def written (command : Command) : String :=
  if command.text.toList.getLast? = some '\n' then command.text else command.text ++ "\n"

end Command
end GdbControl
