/-!
UTF-8 read one byte at a time. The reader's whole memory is the bytes of a character that has begun
and is not complete, so text may be cut anywhere and read on later. Bytes that cannot be part of a
character are read as U+FFFD, once for each longest run that could still have become one. The first
two bytes of a surrogate count as two such runs, yet they too are held until something follows them.
-/

namespace GdbControl

/-- Output as it comes from a process. -/
abbrev Bytes := List UInt8

namespace Utf8

/-- The bytes that may come next in a character, and how many must come after that one. -/
structure Continuation where
  low : UInt8
  high : UInt8
  owed : Nat
deriving DecidableEq, Repr

def Continuation.admits (next : Continuation) (byte : UInt8) : Bool :=
  next.low ≤ byte && byte ≤ next.high

/-- What may follow a byte that opens a character of several bytes. The narrower ranges keep out
overlong forms and values beyond U+10FFFF. -/
def afterLead? (lead : UInt8) : Option Continuation :=
  if lead < 0xC2 then none
  else if lead ≤ 0xDF then some ⟨0x80, 0xBF, 0⟩
  else if lead = 0xE0 then some ⟨0xA0, 0xBF, 1⟩
  else if lead ≤ 0xEF then some ⟨0x80, 0xBF, 1⟩
  else if lead = 0xF0 then some ⟨0x90, 0xBF, 2⟩
  else if lead ≤ 0xF3 then some ⟨0x80, 0xBF, 2⟩
  else if lead = 0xF4 then some ⟨0x80, 0x8F, 2⟩
  else none

/-- Whether bytes begin the form of a surrogate, which is no character. They are held like the bytes
of a character, but none completes them. -/
def isSurrogateStart : Bytes → Bool
  | [lead, second] => lead == 0xED && 0xA0 ≤ second
  | _ => false

/-- What may follow the bytes of a character that has begun. -/
def next? (held : Bytes) : Option Continuation :=
  if isSurrogateStart held then none
  else
    match held with
    | [lead] => afterLead? lead
    | [lead, _] => some ⟨0x80, 0xBF, if lead < 0xF0 then 0 else 1⟩
    | [_, _, _] => some ⟨0x80, 0xBF, 0⟩
    | _ => none

/-- The character that the bytes of a complete sequence stand for. -/
def character : Bytes → Char
  | [a] => Char.ofNat a.toNat
  | [a, b] => Char.ofNat (a.toNat % 32 * 64 + b.toNat % 64)
  | [a, b, c] => Char.ofNat ((a.toNat % 16 * 64 + b.toNat % 64) * 64 + c.toNat % 64)
  | [a, b, c, d] =>
    Char.ofNat (((a.toNat % 8 * 64 + b.toNat % 64) * 64 + c.toNat % 64) * 64 + d.toNat % 64)
  | _ => '\uFFFD'

/-- Reads a byte that does not continue a character: the text it yields and the bytes then held. -/
def start (byte : UInt8) : List Char × Bytes :=
  if byte < 0x80 then ([character [byte]], [])
  else if (afterLead? byte).isSome then ([], [byte])
  else (['\uFFFD'], [])

/-- What held bytes amount to when no character comes of them. -/
def broken (held : Bytes) : List Char :=
  if held.isEmpty then [] else if isSurrogateStart held then ['\uFFFD', '\uFFFD'] else ['\uFFFD']

/-- Reads one byte after the held bytes of an unfinished character. -/
def step (held : Bytes) (byte : UInt8) : List Char × Bytes :=
  match (next? held).filter (·.admits byte) with
  | some next =>
    if next.owed = 0 then ([character (held ++ [byte])], []) else ([], held ++ [byte])
  | none => (broken held ++ (start byte).1, (start byte).2)

/-- Reads bytes one after another: the text they yield and the bytes held at the end. -/
def run (held : Bytes) : Bytes → List Char × Bytes
  | [] => ([], held)
  | byte :: rest =>
    let now := step held byte
    let later := run now.2 rest
    (now.1 ++ later.1, later.2)

def characters (bytes : Bytes) : List Char :=
  let read := run [] bytes
  read.1 ++ broken read.2

def decode (bytes : Bytes) : String := String.ofList (characters bytes)

/-- The text of bytes that may end inside a character, and the bytes of that character. -/
def decodeOpen (bytes : Bytes) : String × Bytes :=
  let read := run [] bytes
  (String.ofList read.1, read.2)

-- An overlong form, a value beyond the last character, a cut character.
example : characters [0xC0, 0x80] = ['\uFFFD', '\uFFFD'] := by decide
example : characters [0xF4, 0x90] = ['\uFFFD', '\uFFFD'] := by decide
example : characters [0x41, 0xE2, 0x82] = ['A', '\uFFFD'] := by decide
example : characters [0xE2, 0x82, 0xAC] = ['€'] := by decide

-- A surrogate is held only as long as nothing follows.
example : run [] [0xED, 0xA0] = ([], [0xED, 0xA0]) := by decide
example : run [] [0xED, 0xA0, 0x80] = (['\uFFFD', '\uFFFD', '\uFFFD'], []) := by decide

theorem run_append (held left right : Bytes) :
    run held (left ++ right) =
      ((run held left).1 ++ (run (run held left).2 right).1, (run (run held left).2 right).2) := by
  induction left generalizing held with
  | nil => simp [run]
  | cons byte rest ih => simp [run, ih, List.append_assoc]

end Utf8
end GdbControl
