import VhdlOutline.Source.Position

/-!
# Moving over a source text

A line ends with a line feed, with a carriage return, or with both in this order. Whether a carriage
return ends its line is known only with the character after it, so a cursor remembers that it just
passed one.

* `Cursor.stamp` is the position of the character that comes next.
* `Cursor.advance` passes over that character.
* `Cursor.endPosition` is the position after all that was passed.
-/

namespace VhdlOutline

/-- A place between two characters of a source text. -/
structure Cursor where
  /-- The position of the carriage return just passed, or else of the next character. -/
  position : Position
  /-- Whether the character just passed was a carriage return. -/
  afterReturn : Bool
  deriving DecidableEq

namespace Cursor

/-- The place before the first character. -/
def start : Cursor := ⟨.start, false⟩

/-- The position of the next character, `c`. A line feed belongs to the line of the carriage return
before it. -/
def stamp (k : Cursor) (c : Char) : Position :=
  if k.afterReturn then
    if c = '\n' then k.position.advance '\r' else k.position.advanceLine
  else k.position

/-- The place after the next character, `c`. -/
def advance (k : Cursor) (c : Char) : Cursor :=
  if c = '\r' then ⟨k.stamp c, true⟩ else ⟨(k.stamp c).advance c, false⟩

/-- The place after the text `cs`. -/
def advanceAll (k : Cursor) (cs : List Char) : Cursor :=
  cs.foldl advance k

/-- The position of the last character of the text `c :: cs`. -/
def stampLast (k : Cursor) (c : Char) : List Char → Position
  | [] => k.stamp c
  | d :: cs => (k.advance c).stampLast d cs

/-- The position after all that was passed, if nothing follows. -/
def endPosition (k : Cursor) : Position :=
  if k.afterReturn then k.position.advanceLine else k.position

@[simp] theorem advanceAll_nil (k : Cursor) : k.advanceAll [] = k := rfl

@[simp] theorem advanceAll_cons (k : Cursor) (c : Char) (cs : List Char) :
    k.advanceAll (c :: cs) = (k.advance c).advanceAll cs := rfl

theorem advanceAll_append (k : Cursor) (cs ds : List Char) :
    k.advanceAll (cs ++ ds) = (k.advanceAll cs).advanceAll ds :=
  List.foldl_append

end Cursor

end VhdlOutline
