import VhdlOutline.Source.Position
import VhdlOutline.Word

/-!
# Positions in machine words

On the way over a source text, lines and columns are counted in 32 bits and bytes in 64 bits.

* `Mark` is a position that is counted so; `Mark.position` is the position it stands for.
* `Mark.advance?` and `Mark.advanceLine?` pass over a character, unless a count overflows.
-/

namespace VhdlOutline

/-- The place of a character in a source text, in machine words. -/
structure Mark where
  line : UInt32
  column : UInt32
  offset : Int64
  deriving DecidableEq

namespace Mark

/-- The place of the first character of a text. -/
def start : Mark := ⟨1, 1, 0⟩

/-- The position that is meant. -/
def position (m : Mark) : Position := ⟨m.line.toNat, m.column.toNat, m.offset.toInt⟩

/-- The mark after the character `c`, which stands at `m`. -/
def advance? (m : Mark) (c : Char) : Option Mark := do
  let offset ← Word.add64? m.offset c.utf8Size
  if c = '\n' then
    let line ← Word.succ32? m.line
    return ⟨line, 1, offset⟩
  else
    let column ← Word.succ32? m.column
    return ⟨m.line, column, offset⟩

/-- The mark after a carriage return at `m` that ends its line alone. -/
def advanceLine? (m : Mark) : Option Mark := do
  let line ← Word.succ32? m.line
  let offset ← Word.add64? m.offset 1
  return ⟨line, 1, offset⟩

end Mark

end VhdlOutline
