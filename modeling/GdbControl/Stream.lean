import GdbControl.Text.Cut
import GdbControl.Text.Utf8

/-!
gdb's output is a stream of bytes in which whole lines of a certain form are annotations:

    SUB SUB tag [space arguments] newline

A tag is not empty and holds no blank. Everything else is plain text. This module says what a marker
line is, where the first one of a stretch of bytes stands, and where its last line begins.
-/

namespace GdbControl

structure Marker where
  tag : String
  args : Option String
deriving DecidableEq, Repr

namespace Stream

def newline : UInt8 := 0x0A

def space : UInt8 := 0x20

/-- Two of these begin a marker line. -/
def sub : UInt8 := 0x1A

/-- The bytes before the first newline and those after it. -/
def line? : Bytes → Option (Bytes × Bytes)
  | [] => none
  | byte :: rest =>
    if byte = newline then some ([], rest)
    else (line? rest).map fun (line, after) => (byte :: line, after)

/-- The marker whose tag and arguments are these bytes, in a line already without its beginning
and its end. -/
def ofBody? (body : Bytes) : Option Marker :=
  match body.takeWhile (· != space) with
  | [] => none
  | tag =>
    let args := match body.dropWhile (· != space) with
      | [] => none
      | _ :: args => some (Utf8.decode args)
    some ⟨Utf8.decode tag, args⟩

/-- The marker line with which bytes begin, and the bytes after it. -/
def marker? : Bytes → Option (Marker × Bytes)
  | first :: second :: rest =>
    if first = sub && second = sub then
      (line? rest).bind fun (body, after) => (ofBody? body).map (·, after)
    else none
  | _ => none

/-- Bytes divided at a marker line. -/
structure Cut where
  before : Bytes
  marker : Marker
  after : Bytes
deriving Repr

/-- The first marker line. A line begins after each newline; `lineStart` says whether one begins at
the first byte as well. -/
def firstMarker? (lineStart : Bool) : Bytes → Option Cut
  | [] => none
  | byte :: rest =>
    match if lineStart then marker? (byte :: rest) else none with
    | some (marker, after) => some ⟨[], marker, after⟩
    | none =>
      (firstMarker? (byte = newline) rest).map fun cut => { cut with before := byte :: cut.before }

/-- The complete lines but for the last newline, and that newline with the unfinished line after
it. -/
def lastLine? (bytes : Bytes) : Option (Bytes × Bytes) :=
  (cutLast? newline bytes).map fun (lines, tail) => (lines, newline :: tail)

/-- Whether bytes at the start of a line may still turn out to begin a marker: what is there of
their first two bytes is made of SUB. -/
def mayBeginMarker (line : Bytes) : Bool := (line.take 2).all (· == sub)

-- A marker may lack arguments, or have empty ones; it may not lack a tag.
example : ofBody? [0x61] = some ⟨Utf8.decode [0x61], none⟩ := rfl
example : ofBody? [0x61, 0x20] = some ⟨Utf8.decode [0x61], some (Utf8.decode [])⟩ := rfl
example : ofBody? [0x20, 0x61] = none := rfl

theorem length_line? {bytes line after : Bytes} (found : line? bytes = some (line, after)) :
    bytes.length = line.length + after.length + 1 := by
  induction bytes generalizing line with
  | nil => simp [line?] at found
  | cons byte rest ih =>
    by_cases ends : byte = newline
    · simp only [line?, ends, if_true, Option.some.injEq, Prod.mk.injEq] at found
      obtain ⟨rfl, rfl⟩ := found
      simp
    · simp only [line?, ends, if_false, Option.map_eq_some_iff, Prod.mk.injEq] at found
      obtain ⟨⟨tail, rest'⟩, hit, rfl, rfl⟩ := found
      simp only [List.length_cons, ih hit]
      omega

theorem length_marker? {bytes after : Bytes} {marker : Marker}
    (found : marker? bytes = some (marker, after)) : after.length < bytes.length := by
  unfold marker? at found
  split at found
  · next first second rest =>
    split at found
    · simp only [Option.bind_eq_some_iff, Option.map_eq_some_iff, Prod.mk.injEq] at found
      obtain ⟨⟨body, tail⟩, hit, _, _, _, rfl⟩ := found
      have size := length_line? hit
      simp only [List.length_cons]
      omega
    · simp at found
  · simp at found

/-- A marker line takes up bytes, so less remains after it. -/
theorem length_firstMarker? {lineStart : Bool} {bytes : Bytes} {cut : Cut}
    (found : firstMarker? lineStart bytes = some cut) : cut.after.length < bytes.length := by
  induction bytes generalizing lineStart cut with
  | nil => simp [firstMarker?] at found
  | cons byte rest ih =>
    rw [firstMarker?] at found
    split at found
    · next marker after hit =>
      cases found
      split at hit
      · exact length_marker? hit
      · simp at hit
    · simp only [Option.map_eq_some_iff] at found
      obtain ⟨inner, hit, rfl⟩ := found
      have size := ih hit
      simp only [List.length_cons]
      omega

end Stream
end GdbControl
