/-!
# Positions and spans

Where a character stands in a source text, and which stretch of it a token or block covers.

* `Position` has a line and a column, counted from one, and an offset in bytes, counted from zero.
  A negative offset marks a position that belongs to no character, such as that of a token made
  by hand.
* `Span` is given by the positions of its first and last character.
-/

namespace VhdlOutline

/-- The place of a character in a source text. -/
structure Position where
  line : Nat
  column : Nat
  offset : Int
  deriving DecidableEq

namespace Position

/-- The place of the first character of a text. -/
def start : Position := ⟨1, 1, 0⟩

/-- The place of a token that belongs to no source text. -/
def unknown : Position := ⟨0, 0, -1⟩

/-- Whether the position belongs to a character of a source text. -/
def isKnown (p : Position) : Bool := 0 ≤ p.offset

/-- The position after the character `c`, which stands at `p`. -/
def advance (p : Position) (c : Char) : Position :=
  if c = '\n' then ⟨p.line + 1, 1, p.offset + c.utf8Size⟩
  else ⟨p.line, p.column + 1, p.offset + c.utf8Size⟩

/-- The position after a carriage return at `p` that ends its line alone. -/
def advanceLine (p : Position) : Position := ⟨p.line + 1, 1, p.offset + 1⟩

/-- The order of positions: by line, then by column, then by offset. -/
def isBefore (p q : Position) : Bool :=
  p.line < q.line ||
    (p.line == q.line && (p.column < q.column || (p.column == q.column && p.offset < q.offset)))

/-- Line and column, as in `3:7`. -/
def text (p : Position) : String :=
  if p.isKnown then s!"{p.line}:{p.column}" else "<unknown>"

/-- Line, column and offset, as in `3:7@40`. -/
def fullText (p : Position) : String :=
  if p.isKnown then s!"{p.line}:{p.column}@{p.offset}" else "<unknown>"

end Position

/-- A stretch of source text. -/
structure Span where
  /-- The position of the first character. -/
  first : Position
  /-- The position of the last character. -/
  last : Position
  deriving DecidableEq

namespace Span

/-- The span of a single character. -/
def ofPosition (p : Position) : Span := ⟨p, p⟩

/-- The span that reaches from the earlier beginning to the later end. -/
def expand (s t : Span) : Span :=
  ⟨if t.first.isBefore s.first then t.first else s.first,
    if s.last.isBefore t.last then t.last else s.last⟩

/-- Both ends, as in `1:1-1:4`, or the only position. -/
def text (s : Span) : String :=
  if s.first = s.last then s.first.text else s!"{s.first.text}-{s.last.text}"

/-- Both ends with their offsets. -/
def fullText (s : Span) : String :=
  s!"Span \x7b begin: {s.first.fullText}, end: {s.last.fullText} \x7d"

end Span

end VhdlOutline
