/-!
A gdb process as its owner meets it: what each call made on it answers.
-/

namespace GdbControl

/-- How waiting for the end of a process comes out. -/
inductive WaitOutcome where
  | ended
  | timedOut
  | failed
deriving DecidableEq, Repr

structure Subprocess where
  pid : Int
  /-- The exit status, once the process is known to have ended. -/
  exitCode : Option Int := none
  /-- The outcomes of the next waits. When they are used up the process ends when waited for. -/
  waits : List WaitOutcome := []
  /-- Whether the process no longer reads its input. -/
  pipeBroken : Bool := false
  terminateFails : Bool := false
  killFails : Bool := false
deriving DecidableEq, Repr

/-- The outcome of the next wait, and the process after it. -/
def Subprocess.wait (process : Subprocess) : WaitOutcome × Subprocess :=
  match process.waits with
  | [] => (.ended, process)
  | outcome :: rest => (outcome, { process with waits := rest })

end GdbControl
