import VhdlOutline.Word

/-!
# Looking ahead in a sequence

A buffer in front of a supply of elements that lets a reader look at elements before taking them, and
put elements back. Looking past the end leaves end marks in the buffer, so the buffer holds optional
elements.

* `Supply` is where elements come from: a list, or a computation that may stop without an answer.
* `Lookahead.next?` takes the next element.
* `Lookahead.peek?` looks at an element further ahead, by an offset in a machine word.
* `Lookahead.undo` puts an element back.
* `Lookahead.toList` is the sequence a reader still sees in front of a list.
-/

namespace VhdlOutline.Text

/-- What delivers elements of `α`, one with each call. -/
class Supply (ι : Type) (α : outParam Type) where
  /-- The next element, or none at the end, and the supply after the call. There is no answer if the
  computation of the element stops. -/
  pull? : ι → Option (Option α × ι)

instance {α : Type} : Supply (List α) α where
  pull? xs := some (xs.head?, xs.tail)

/-- A supply with a buffer in front of it. -/
structure Lookahead (ι α : Type) where
  /-- What was read from the supply, or put back; `none` marks its end. -/
  buffer : List (Option α)
  /-- What was not read from the supply yet. -/
  unread : ι
  deriving DecidableEq

namespace Lookahead

variable {ι α : Type}

/-- A buffer that has read nothing. -/
def ofSupply (i : ι) : Lookahead ι α := ⟨[], i⟩

/-- Put an element back in front of all others. -/
def undo (l : Lookahead ι α) (a : α) : Lookahead ι α :=
  ⟨some a :: l.buffer, l.unread⟩

section

variable [Supply ι α]

/-- Take the next element. An end mark in the buffer counts as the end and is used up. -/
def next? (l : Lookahead ι α) : Option (Option α × Lookahead ι α) :=
  match l.buffer with
  | x :: buffer => some (x, ⟨buffer, l.unread⟩)
  | [] => do
    let (x, unread) ← Supply.pull? l.unread
    return (x, ⟨[], unread⟩)

/-- Read `n` more elements into the buffer, or end marks once there are none. -/
def fill? (l : Lookahead ι α) : Nat → Option (Lookahead ι α)
  | 0 => some l
  | n + 1 => do
    let (x, unread) ← Supply.pull? l.unread
    fill? ⟨l.buffer ++ [x], unread⟩ n

/-- Look at the element `n` places ahead. The buffer has to hold `n + 1` elements or end marks for
that. There is no answer if the machine word for their number overflows, if an element cannot be read,
or if the buffer ends before the element. -/
def peek? (l : Lookahead ι α) (n : UInt64) : Option (Option α × Lookahead ι α) := do
  let count ← Word.succ64? n
  let filled ← l.fill? (count.toNat - l.buffer.length)
  let x ← filled.buffer[n.toNat]?
  return (x, filled)

end

/-! ## What a reader sees -/

/-- The elements that are still to come. -/
def toList (l : Lookahead (List α) α) : List α :=
  l.buffer.filterMap id ++ l.unread

@[simp] theorem toList_ofSupply (xs : List α) : (ofSupply xs).toList = xs := rfl

@[simp] theorem toList_undo (l : Lookahead (List α) α) (a : α) :
    (l.undo a).toList = a :: l.toList := rfl

end Lookahead

end VhdlOutline.Text
