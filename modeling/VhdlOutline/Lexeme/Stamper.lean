import VhdlOutline.Lexeme.Tokens
import VhdlOutline.Source.Mark
import VhdlOutline.Text.Lookahead

/-!
# Stamping characters

A stamper delivers the characters of a source text one by one, each with its category and the mark of
its place. It counts in machine words and stops where a count overflows, which is one character
earlier than the character that would need the count: the place after a character is computed with
the character.

* `Stamper.next?` delivers the next character.
* `Stamper.end?` is the mark after all that was delivered.
* `Stamper.characters?` drives a stamper through its text.
-/

namespace VhdlOutline

/-- A character with its category and its place. -/
structure Stamped where
  char : Char
  category : Category
  mark : Mark
  isCategory : category = .ofChar char
  deriving DecidableEq

namespace Stamped

/-- The character `c` at the place `m`. -/
def of (c : Char) (m : Mark) : Stamped := ⟨c, .ofChar c, m, rfl⟩

/-- What a number consists of: digits and underscores. -/
def isFigure (x : Stamped) : Bool := x.category = .digit || x.char = '_'

/-- What a word consists of after its first letter: letters, digits and underscores. -/
def isWordPart (x : Stamped) : Bool :=
  x.category = .letter || x.category = .digit || x.char = '_'

end Stamped

/-- A stamper on its way through a source text. -/
structure Stamper where
  /-- The text that follows. -/
  rest : List Char
  /-- The place of the carriage return just passed, or else of the next character. -/
  mark : Mark
  /-- Whether the character just passed was a carriage return. -/
  afterReturn : Bool
  deriving DecidableEq

namespace Stamper

/-- The stamper at the start of a source text. -/
def ofSource (source : String) : Stamper := ⟨source.toList, .start, false⟩

/-- The mark of the next character, `c`. A line feed belongs to the line of the carriage return
before it. -/
def stamp? (s : Stamper) (c : Char) : Option Mark :=
  if s.afterReturn then
    if c = '\n' then s.mark.advance? '\r' else s.mark.advanceLine?
  else some s.mark

/-- Deliver the next character, if there is one. -/
def next? (s : Stamper) : Option (Option Stamped × Stamper) :=
  match s.rest with
  | [] => some (none, s)
  | c :: rest => do
    let mark ← s.stamp? c
    if c = '\r' then return (some (.of c mark), ⟨rest, mark, true⟩)
    else
      let next ← mark.advance? c
      return (some (.of c mark), ⟨rest, next, false⟩)

/-- The mark after all that was delivered, if nothing follows. -/
def end? (s : Stamper) : Option Mark :=
  if s.afterReturn then s.mark.advanceLine? else some s.mark

instance : Text.Supply Stamper Stamped where
  pull? := next?

/-- All characters that follow, each with the position after it, and the position in the end. -/
def characters? (s : Stamper) : Option (List Character × Position) := do
  let (x, s) ← s.next?
  let after ← s.end?
  match x with
  | none => return ([], after.position)
  | some x =>
    let (xs, last) ← s |>.characters?
    return (⟨x.char, x.category, x.mark.position, after.position⟩ :: xs, last)
partial_fixpoint

end Stamper

end VhdlOutline
