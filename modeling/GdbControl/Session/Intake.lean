import GdbControl.Session.Reaction

/-!
Output arrives in reads of any size, so a marker line may lie across several of them. Complete lines
are passed on and marker lines acted upon in the order of the stream. The last newline and what
follows it are held until more output shows whether it begins a marker.
-/

namespace GdbControl.Engine

/-- Acts upon an annotation from the stream. One that comes out of phase is reported, and reading
goes on. -/
def reactOrReport (complete : Completion) (marker : Marker) : Engine Unit :=
  tryCatch (react complete marker) fun fault =>
    match fault with
    | .outOfPhase _ _ => report fault.message
    | _ => throw fault

/-- Takes the text before a marker line and the line itself out of what is held. -/
def acceptCut (complete : Completion) (cut : Stream.Cut) : Engine Unit := do
  modify fun session => { session with held := cut.after, midLine := false }
  emit (Utf8.decode cut.before)
  reactOrReport complete cut.marker

/-- Passes on the complete lines of what is held, in which no marker line is left. -/
def emitLines : Engine Unit := do
  let session ← get
  match Stream.lastLine? session.held with
  | none => pure ()
  | some (lines, tail) =>
    set { session with held := tail, midLine := false }
    emit (Utf8.decode lines)

/-- Acts upon all marker lines of what is held, then passes on the complete lines after them. A
handler that is called on the way may itself take in output. Then it has left no marker line behind,
and only then can more be held than before. -/
def drain (complete : Completion) (session : Session) : EStateM.Result Fault Session Unit :=
  match Stream.firstMarker? (!session.midLine) session.held with
  | none => emitLines.run session
  | some cut =>
    match (acceptCut complete cut).run session with
    | .error fault later => .error fault later
    | .ok _ later =>
      if later.held.length < session.held.length then drain complete later
      else emitLines.run later
termination_by session.held.length

/-- Takes in a read of gdb's output. A queue that is empty against all expectation closes the
session. -/
def ingest (complete : Completion) (bytes : Bytes) : Engine Unit := do
  requireOpen
  record (.arrived bytes)
  modify fun session => { session with held := session.held ++ bytes }
  tryCatch (drain complete) fun fault => do
    if fault matches .queueEmpty _ then modify Session.close
    throw fault

/-- Passes on an unfinished line that cannot begin a marker any more, such as a question of the
program. The bytes of an unfinished character stay. Says whether anything was passed on. -/
def flush : Engine Bool := do
  requireOpen
  let session ← get
  let afterNewline := session.held.head? = some Stream.newline
  let line := if afterNewline then session.held.drop 1 else session.held
  let lineStart := afterNewline || !session.midLine
  if line.isEmpty || (lineStart && Stream.mayBeginMarker line) then pure false
  else
    let (text, rest) := Utf8.decodeOpen session.held
    if text == "" then pure false
    else
      set { session with held := rest, midLine := true }
      emit text
      pure true

end GdbControl.Engine
