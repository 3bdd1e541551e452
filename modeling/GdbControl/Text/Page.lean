/-!
A page is a stretch of a text, counted in characters. A negative bound counts from the end of the
text, and bounds beyond either end stop there.
-/

namespace GdbControl

/-- The index that a bound stands for in a text of `size` characters. -/
def boundIndex (size : Nat) (bound : Int) : Nat :=
  if bound < 0 then (bound + size).toNat else min bound.toNat size

/-- The characters from one bound up to another. -/
def stretch (chars : List Char) (from? to? : Option Int) : List Char :=
  let low := from?.elim 0 (boundIndex chars.length)
  let high := to?.elim chars.length (boundIndex chars.length)
  (chars.drop low).take (high - low)

example : stretch ['a', 'b', 'c'] (some (-2)) none = ['b', 'c'] := by decide
example : stretch ['a', 'b', 'c'] (some 1) (some (-1)) = ['b'] := by decide
example : stretch ['a', 'b', 'c'] (some 2) (some 1) = [] := by decide

structure Page where
  content : String
  total : Nat
  offset : Int
  limit : Option Int
  hasMore : Bool
deriving DecidableEq, Repr

/-- The page of at most `limit` characters that starts at `offset`. Without a limit it goes on to
the end of the text. -/
def Page.of (text : String) (limit offset : Option Int) : Page :=
  let chars := text.toList
  let first := offset.getD 0
  match limit with
  | none => ⟨String.ofList (stretch chars (some first) none), chars.length, first, none, false⟩
  | some count =>
    let last := first + count
    ⟨String.ofList (stretch chars (some first) (some last)), chars.length, first, some count,
      decide (last < chars.length)⟩

end GdbControl
