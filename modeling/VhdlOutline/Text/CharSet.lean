/-!
# Sets of characters

A property of characters that holds on many scattered ranges is kept as an inversion list: the
ascending code points at which membership changes. The tables of this folder are such lists for
the characters beyond ASCII; each predicate decides the ASCII characters by itself.
-/

namespace VhdlOutline.Text

/-- A set of characters. The first bound starts a range of members, the second ends it, the third
starts the next range, and so on. -/
structure CharSet where
  bounds : List Nat

namespace CharSet

/-- Membership of a code point: an odd number of bounds lies at or below it. -/
def containsCode (s : CharSet) (n : Nat) : Bool :=
  s.bounds.countP (· ≤ n) % 2 == 1

/-- Membership of a character. -/
def contains (s : CharSet) (c : Char) : Bool :=
  s.containsCode c.toNat

end CharSet

end VhdlOutline.Text
