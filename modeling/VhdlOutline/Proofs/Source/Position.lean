import VhdlOutline.Source.Cursor

/-!
# Where the characters of a text stand

`Position.ofIndex` says directly, without a walk over the text, where its `i`-th character stands:
the lines are counted by the characters that end them, the columns by those since the last of these,
and the offset is the size of the text before.

A cursor knows with a delay of one character whether a carriage return ended its line. `Cursor.At`
says what it holds meanwhile, and that the positions it gives are those of `Position.ofIndex`.
-/

namespace VhdlOutline

/-- Whether the character at index `j` completes the end of a line: a line feed does, and a carriage
return does unless a line feed follows. -/
def endsLine (cs : List Char) (j : Nat) : Bool :=
  cs[j]? == some '\n' || (cs[j]? == some '\r' && cs[j + 1]? != some '\n')

namespace Position

/-- Where the character at index `i` of a text stands. The position after the text is that at the
index of its length. -/
def ofIndex (cs : List Char) (i : Nat) : Position where
  line := 1 + (List.range i).countP (endsLine cs)
  column := 1 + ((List.range i).reverse.takeWhile fun j => !endsLine cs j).length
  offset := (String.ofList (cs.take i)).utf8ByteSize

variable {cs : List Char} {i : Nat} {c : Char}

theorem ofIndex_line_le (cs : List Char) (i : Nat) : (ofIndex cs i).line ≤ i + 1 := by
  have := List.countP_le_length (p := endsLine cs) (l := List.range i)
  simp only [ofIndex, List.length_range] at this ⊢
  omega

theorem ofIndex_column_le (cs : List Char) (i : Nat) : (ofIndex cs i).column ≤ i + 1 := by
  have := (List.takeWhile_sublist (l := (List.range i).reverse)
    fun j => !endsLine cs j).length_le
  simp only [ofIndex, List.length_reverse, List.length_range] at this ⊢
  omega

theorem ofIndex_succ_offset (h : cs[i]? = some c) :
    (ofIndex cs (i + 1)).offset = (ofIndex cs i).offset + c.utf8Size := by
  simp only [ofIndex, List.take_add_one, h, Option.toList_some, String.ofList_append,
    String.utf8ByteSize_append]
  simp

/-- The character after one that ends a line begins the next line. -/
theorem ofIndex_succ_of_endsLine (h : cs[i]? = some c) (he : endsLine cs i = true) :
    ofIndex cs (i + 1) =
      ⟨(ofIndex cs i).line + 1, 1, (ofIndex cs i).offset + c.utf8Size⟩ := by
  rw [← ofIndex_succ_offset h]
  simp [ofIndex, List.range_succ, he, Nat.add_assoc]

/-- The character after any other stands right beside it. -/
theorem ofIndex_succ_of_not_endsLine (h : cs[i]? = some c) (he : endsLine cs i = false) :
    ofIndex cs (i + 1) =
      ⟨(ofIndex cs i).line, (ofIndex cs i).column + 1, (ofIndex cs i).offset + c.utf8Size⟩ := by
  rw [← ofIndex_succ_offset h]
  simp [ofIndex, List.range_succ, he, Nat.add_comm]

theorem ofIndex_advance (h : cs[i]? = some c) (hc : c ≠ '\r') :
    (ofIndex cs i).advance c = ofIndex cs (i + 1) := by
  by_cases hn : c = '\n'
  · rw [ofIndex_succ_of_endsLine h (by simp [endsLine, h, hn]), advance, if_pos hn]
  · rw [ofIndex_succ_of_not_endsLine h (by simp [endsLine, h, hn, hc]), advance, if_neg hn]

theorem ofIndex_advance_return (h : cs[i]? = some '\r') (hn : cs[i + 1]? = some '\n') :
    (ofIndex cs i).advance '\r' = ofIndex cs (i + 1) := by
  rw [ofIndex_succ_of_not_endsLine h (by simp [endsLine, h, hn]), advance, if_neg (by decide)]

theorem ofIndex_advanceLine (h : cs[i]? = some '\r') (hn : cs[i + 1]? ≠ some '\n') :
    (ofIndex cs i).advanceLine = ofIndex cs (i + 1) := by
  rw [ofIndex_succ_of_endsLine h (by simp [endsLine, h, hn])]
  rfl

end Position

namespace Cursor

/-- The cursor stands before the character at index `i` of the text. -/
inductive At (cs : List Char) : Nat → Cursor → Prop
  | plain {i : Nat} (h : ∀ j, i = j + 1 → cs[j]? ≠ some '\r') : At cs i ⟨.ofIndex cs i, false⟩
  | afterReturn {j : Nat} (h : cs[j]? = some '\r') : At cs (j + 1) ⟨.ofIndex cs j, true⟩

namespace At

variable {cs ds : List Char} {i : Nat} {k : Cursor} {c : Char}

theorem start (cs : List Char) : At cs 0 Cursor.start := plain (by simp)

/-- A cursor gives the character after it its position. -/
theorem stamp (h : At cs i k) (hc : cs[i]? = some c) : k.stamp c = .ofIndex cs i := by
  cases h with
  | plain => rfl
  | afterReturn hr =>
    simp only [Cursor.stamp, if_true]
    split
    · rename_i hn
      exact Position.ofIndex_advance_return hr (hn ▸ hc)
    · rename_i hn
      exact Position.ofIndex_advanceLine hr (by simpa [hc] using hn)

theorem advance (h : At cs i k) (hc : cs[i]? = some c) : At cs (i + 1) (k.advance c) := by
  rw [Cursor.advance, h.stamp hc]
  split
  · rename_i hr
    exact afterReturn (hr ▸ hc)
  · rename_i hr
    rw [Position.ofIndex_advance hc hr]
    refine plain fun j hj => ?_
    obtain rfl : i = j := by omega
    simpa [hc] using hr

/-- The position after what was passed is that of the next character, but for a line feed that
follows a carriage return. -/
theorem endPosition (h : At cs i k)
    (hr : ∀ j, i = j + 1 → cs[j]? = some '\r' → cs[i]? ≠ some '\n') :
    k.endPosition = .ofIndex cs i := by
  cases h with
  | plain => rfl
  | afterReturn hj => exact Position.ofIndex_advanceLine hj (hr _ rfl hj)

theorem getElem?_of_prefix_drop (h : c :: ds <+: cs.drop i) :
    cs[i]? = some c ∧ ds <+: cs.drop (i + 1) := by
  obtain ⟨rest, hrest⟩ := h
  refine ⟨?_, rest, ?_⟩
  · rw [← List.head?_drop, ← hrest]
    rfl
  · rw [← List.tail_drop, ← hrest]
    rfl

theorem advanceAll (h : At cs i k) (hd : ds <+: cs.drop i) :
    At cs (i + ds.length) (k.advanceAll ds) := by
  induction ds generalizing i k with
  | nil => exact h
  | cons c ds ih =>
    obtain ⟨hc, hds⟩ := getElem?_of_prefix_drop hd
    have := ih (h.advance hc) hds
    rwa [Nat.add_right_comm] at this

/-- The position of the last character of a piece of the text. -/
theorem stampLast (h : At cs i k) (hd : c :: ds <+: cs.drop i) :
    k.stampLast c ds = .ofIndex cs (i + ds.length) := by
  induction ds generalizing i k c with
  | nil => exact h.stamp (getElem?_of_prefix_drop hd).1
  | cons d ds ih =>
    obtain ⟨hc, hds⟩ := getElem?_of_prefix_drop hd
    have := ih (h.advance hc) hds
    rwa [Nat.add_right_comm] at this

end At

end Cursor

end VhdlOutline
