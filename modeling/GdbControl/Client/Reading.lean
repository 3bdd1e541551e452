import GdbControl.Client.Basic

/-!
The loop that reads gdb's output into a session until the output ends, cannot be read, or the
session is closed.
-/

namespace GdbControl

inductive ReadOutcome where
  | quiet
  /-- Bytes that can be read. No bytes mean that the output has ended. -/
  | bytes (available : Bytes)
  | failed (reason : String)
deriving DecidableEq, Repr

/-- An attempt to read, and whether somebody else closes the session just before it is over. -/
structure Reading where
  outcome : ReadOutcome
  closedBefore : Bool
deriving DecidableEq, Repr

namespace Reading

def readSize : Nat := 4096

/-- How long output is waited for before gdb counts as quiet. -/
def interval : Nat := 100

def chunks (bytes : Bytes) : List Bytes :=
  if bytes.length ≤ readSize then [bytes]
  else bytes.take readSize :: chunks (bytes.drop readSize)
termination_by bytes.length
decreasing_by
  simp only [List.length_drop, readSize] at *
  omega

theorem flatten_chunks (bytes : Bytes) : (chunks bytes).flatten = bytes := by
  fun_induction chunks bytes with
  | case1 bytes small => simp
  | case2 bytes large ih => simp [ih]

/-- An attempt divided into single reads. The session is closed before the first of them, if at
all. -/
def divided (reading : Reading) : List Reading :=
  match reading.outcome with
  | .bytes available =>
    (chunks available).mapIdx fun index chunk =>
      ⟨.bytes chunk, index == 0 && reading.closedBefore⟩
  | _ => [reading]

end Reading

namespace Control

def isAlive (id : String) : Control Bool := do
  pure (!(← find id).session.isClosed)

/-- Reads into a session, attempt after attempt. -/
def pump (id : String) : List Reading → Control Unit
  | [] => pure ()
  | reading :: rest => do
    if ← isAlive id then
      if reading.outcome = .quiet then record (.polled id Reading.interval)
      if reading.closedBefore then onSession id (modify Session.close)
      match reading.outcome with
      | .quiet =>
        if ← isAlive id then onSession id (discard Engine.flush)
        pump id rest
      | .bytes [] => pure ()
      | .bytes available =>
        onSession id (Engine.ingest Engine.handle available)
        pump id rest
      | .failed reason => throw (.system reason)

/-- Reads until there is no more to read. However that comes, the session is closed and nobody need
wait for its prompt any more. -/
def readAll (id : String) (script : List Reading) : Control Unit := do
  tryCatch (pump id (script.flatMap Reading.divided)) fun _ => pure ()
  onSession id (Engine.receive .exit)

end Control
end GdbControl
