import VhdlOutline.Proofs.Source.Position
import VhdlOutline.Proofs.Text.Lines

/-!
# The line of a character

The line that a character of a source text belongs to reaches from the last line end before it to
the next carriage return or line feed: `lineAt`. Its position counts the columns in this line
(`Position.ofIndex_column`).

A text is also split into lines at its line feeds alone, by `Text.lines`. This finds the same line
as long as no carriage return ends a line alone, before the character or right after its line
(`getElem?_lines_of_not_lone`); if the first one that does ends the line of the character, what it
finds goes on behind that line (`return_mem_of_lone`).
-/

namespace VhdlOutline

variable {cs : List Char} {i j : Nat} {c : Char}

/-- The index of the first character of the line that the character at index `i` belongs to. -/
def lineStart (cs : List Char) : Nat → Nat
  | 0 => 0
  | i + 1 => if endsLine cs i then i + 1 else lineStart cs i

/-- The line that the character at index `i` belongs to, without what ends it. -/
def lineAt (cs : List Char) (i : Nat) : List Char :=
  (cs.drop (lineStart cs i)).takeWhile fun c => c != '\n' && c != '\r'

/-- The index of the character that ends this line, or the length of the text. -/
def lineEnd (cs : List Char) (i : Nat) : Nat := lineStart cs i + (lineAt cs i).length

/-- Whether a carriage return at index `j` ends its line without a line feed. -/
def isLoneReturn (cs : List Char) (j : Nat) : Bool :=
  cs[j]? == some '\r' && cs[j + 1]? != some '\n'

theorem endsLine_eq (cs : List Char) (j : Nat) :
    endsLine cs j = (cs[j]? == some '\n' || isLoneReturn cs j) := rfl

/-! ## Where a line starts -/

theorem lineStart_le (cs : List Char) (i : Nat) : lineStart cs i ≤ i := by
  induction i with
  | zero => exact Nat.le_refl 0
  | succ i ih =>
    rw [lineStart]
    split
    · exact Nat.le_refl _
    · exact Nat.le_succ_of_le ih

/-- A line starts with the text or right after the end of another line. -/
theorem lineStart_cases (cs : List Char) (i : Nat) :
    lineStart cs i = 0 ∨ ∃ j < i, lineStart cs i = j + 1 ∧ endsLine cs j = true := by
  induction i with
  | zero => exact .inl rfl
  | succ i ih =>
    rw [lineStart]
    split
    · exact .inr ⟨i, Nat.lt_succ_self i, rfl, ‹_›⟩
    · exact ih.imp_right fun ⟨j, hj, h⟩ => ⟨j, Nat.lt_succ_of_lt hj, h⟩

/-- No line ends between the start of a line and its characters. -/
theorem not_endsLine_of_lineStart_le (hj : lineStart cs i ≤ j) (hi : j < i) :
    endsLine cs j = false := by
  induction i with
  | zero => omega
  | succ i ih =>
    rw [lineStart] at hj
    split at hj
    · omega
    · rcases Nat.lt_succ_iff_lt_or_eq.1 hi with hlt | rfl
      · exact ih hj hlt
      · exact Bool.eq_false_iff.2 ‹_›

/-- Columns are counted from the start of the line. -/
theorem Position.ofIndex_column (cs : List Char) (i : Nat) :
    (ofIndex cs i).column = i - lineStart cs i + 1 := by
  induction i with
  | zero => rfl
  | succ i ih =>
    have hle := lineStart_le cs i
    simp only [ofIndex, List.range_succ, List.reverse_append, List.reverse_singleton,
      List.singleton_append, lineStart] at ih ⊢
    cases h : endsLine cs i with
    | true => simp [h]
    | false =>
      simp only [h, Bool.not_false, List.takeWhile_cons_of_pos, List.length_cons,
        Bool.false_eq_true, if_false]
      omega

/-- The characters of a line before one that is no line feed are no part of a line end. -/
theorem not_return_of_lineStart_le (hj : lineStart cs i ≤ j) (hi : j < i) {d : Char}
    (hd : cs[j]? = some d) (hn : cs[i]? ≠ some '\n') : d ≠ '\n' ∧ d ≠ '\r' := by
  have hend := not_endsLine_of_lineStart_le hj hi
  rw [endsLine, hd] at hend
  refine ⟨fun h => by simp [h] at hend, fun h => ?_⟩
  -- The carriage return would end the line, by itself or by the line feed after it.
  have hnext : cs[j + 1]? = some '\n' := by simpa [h] using hend
  rcases Nat.lt_or_ge (j + 1) i with hlt | hge
  · have := @not_endsLine_of_lineStart_le cs i (j + 1) (by omega) hlt
    simp [endsLine, hnext] at this
  · obtain rfl : i = j + 1 := by omega
    exact hn hnext

/-- A text, parted at one of its characters. -/
theorem take_append_cons_drop (hc : cs[i]? = some c) : cs.take i ++ c :: cs.drop (i + 1) = cs := by
  obtain ⟨hi, rfl⟩ := List.getElem?_eq_some_iff.1 hc
  rw [← List.drop_eq_getElem_cons hi, List.take_append_drop]

/-- A character that is no part of a line end stands in its line, at its column. -/
theorem getElem?_lineAt (hc : cs[i]? = some c) (hn : c ≠ '\n') (hr : c ≠ '\r') :
    (lineAt cs i)[i - lineStart cs i]? = some c := by
  have hle := lineStart_le cs i
  have hlength : (cs.take i).length = i :=
    List.length_take_of_le (Nat.le_of_lt (List.getElem?_eq_some_iff.1 hc).1)
  have hdrop : cs.drop (lineStart cs i) =
      (cs.take i).drop (lineStart cs i) ++ c :: cs.drop (i + 1) := by
    rw [← List.drop_append_of_le_length (by omega), take_append_cons_drop hc]
  have hbefore : ∀ d ∈ (cs.take i).drop (lineStart cs i), (d != '\n' && d != '\r') = true := by
    intro d hd
    obtain ⟨k, hk⟩ := List.mem_iff_getElem?.1 hd
    rw [List.getElem?_drop] at hk
    have hlt := (List.getElem?_eq_some_iff.1 hk).1
    rw [hlength] at hlt
    rw [List.getElem?_take_of_lt hlt] at hk
    have := not_return_of_lineStart_le (Nat.le_add_right _ k) hlt hk (by simpa [hc] using hn)
    simpa using this
  rw [lineAt, hdrop, List.takeWhile_append_of_pos hbefore,
    List.takeWhile_cons_of_pos (by simp [hn, hr]), List.getElem?_append_right (by simp [hlength])]
  simp [hlength]

/-! ## Where a line ends -/

theorem lineFeed_notMem_lineAt (cs : List Char) (i : Nat) : '\n' ∉ lineAt cs i :=
  fun h => by simpa using List.mem_takeWhile_imp h

theorem return_notMem_lineAt (cs : List Char) (i : Nat) : '\r' ∉ lineAt cs i :=
  fun h => by simpa using List.mem_takeWhile_imp h

/-- What is left of a text where a line of it ends. -/
theorem drop_lineEnd (cs : List Char) (i : Nat) :
    cs.drop (lineEnd cs i) =
      (cs.drop (lineStart cs i)).dropWhile fun c => c != '\n' && c != '\r' := by
  have hsplit := List.takeWhile_append_dropWhile (p := fun c => c != '\n' && c != '\r')
    (l := cs.drop (lineStart cs i))
  rw [lineEnd, ← List.drop_drop]
  conv => lhs; rw [← hsplit]
  exact List.drop_left

/-- A line and what comes from its end on. -/
theorem lineAt_append (cs : List Char) (i : Nat) :
    lineAt cs i ++ cs.drop (lineEnd cs i) = cs.drop (lineStart cs i) := by
  rw [drop_lineEnd]
  exact List.takeWhile_append_dropWhile

/-- A line goes on to the end of the text, a line feed or a carriage return. -/
theorem getElem?_lineEnd (cs : List Char) (i : Nat) :
    cs[lineEnd cs i]? = none ∨ cs[lineEnd cs i]? = some '\n' ∨ cs[lineEnd cs i]? = some '\r' := by
  have hhead := List.head?_dropWhile_not (fun c => c != '\n' && c != '\r')
    (cs.drop (lineStart cs i))
  rw [← drop_lineEnd, List.head?_drop] at hhead
  cases h : cs[lineEnd cs i]? with
  | none => exact .inl rfl
  | some c =>
    rw [h] at hhead
    simp only [Bool.and_eq_false_iff, bne_eq_false_iff_eq] at hhead
    exact .inr (hhead.imp (congrArg some) (congrArg some))

/-! ## Lines at line feeds alone -/

/-- The lines before a character are the lines before its own line. -/
theorem countP_endsLine_lineStart (cs : List Char) (i : Nat) :
    (List.range i).countP (endsLine cs) = (List.range (lineStart cs i)).countP (endsLine cs) := by
  induction i with
  | zero => rfl
  | succ i ih =>
    rw [lineStart]
    cases h : endsLine cs i with
    | true => rfl
    | false => simp [List.range_succ, h, ih]

/-- Where no carriage return ends a line alone, there are as many lines as line feeds. -/
theorem countP_endsLine_eq_count (hno : ∀ j < i, isLoneReturn cs j = false) :
    (List.range i).countP (endsLine cs) = (cs.take i).count '\n' := by
  induction i with
  | zero => simp
  | succ i ih =>
    have hi := hno i (Nat.lt_succ_self i)
    rw [List.range_succ, List.countP_append, List.take_add_one, List.count_append,
      ih fun j hj => hno j (Nat.lt_succ_of_lt hj)]
    cases h : cs[i]? <;> simp [endsLine_eq, hi, h, List.countP_cons, List.count_cons]

/-- The line at index `line - 1` of those told by line feeds alone starts where the line of the
character does, if no carriage return ends a line alone before. -/
theorem getElem?_lines (hno : ∀ j < i, isLoneReturn cs j = false) :
    (Text.linesFrom [] cs)[(Position.ofIndex cs i).line - 1]? =
      (Text.linesFrom [] (cs.drop (lineStart cs i))).head? := by
  have hstart := lineStart_le cs i
  have hline : (Position.ofIndex cs i).line - 1 = (cs.take (lineStart cs i)).count '\n' := by
    rw [← countP_endsLine_eq_count fun j hj => hno j (Nat.lt_of_lt_of_le hj hstart),
      ← countP_endsLine_lineStart]
    exact Nat.add_sub_cancel_left 1 _
  have hpre : cs.take (lineStart cs i) = [] ∨
      (cs.take (lineStart cs i)).getLast? = some '\n' := by
    rcases lineStart_cases cs i with hzero | ⟨j, hj, hs, hend⟩
    · exact .inl (by rw [hzero, List.take_zero])
    · refine .inr ?_
      have hfeed : cs[j]? = some '\n' := by simpa [endsLine_eq, hno j hj] using hend
      simp [hs, List.getLast?_take, hfeed]
  have hget := @Text.getElem?_linesFrom (cs.drop (lineStart cs i)) _ hpre
  rwa [List.take_append_drop, ← hline] at hget

/-- The two ways to tell lines agree on the line of a character, if no carriage return alone ends a
line before it, or its own. -/
theorem getElem?_lines_of_not_lone (hi : i < cs.length) (hno : ∀ j < i, isLoneReturn cs j = false)
    (hend : isLoneReturn cs (lineEnd cs i) = false) :
    (Text.linesFrom [] cs)[(Position.ofIndex cs i).line - 1]? = some (lineAt cs i) := by
  have hn := lineFeed_notMem_lineAt cs i
  rw [getElem?_lines hno]
  have hsplit := lineAt_append cs i
  rw [List.drop_eq_getElem?_toList_append] at hsplit
  rcases getElem?_lineEnd cs i with h | h | h
  · have hdrop : cs.drop (lineEnd cs i + 1) = [] :=
      List.drop_eq_nil_of_le (Nat.le_succ_of_le (List.getElem?_eq_none_iff.1 h))
    have hne : cs.drop (lineStart cs i) ≠ [] := by
      have := lineStart_le cs i
      simp
      omega
    rw [h, hdrop, Option.toList_none, List.append_nil, List.append_nil] at hsplit
    rw [← hsplit] at hne ⊢
    rw [Text.linesFrom_last hn hne, List.head?_cons]
  · rw [← hsplit, h]
    exact Text.head?_linesFrom_lineFeed hn (return_notMem_lineAt cs i)
  · have hfeed : cs[lineEnd cs i + 1]? = some '\n' := by simpa [isLoneReturn, h] using hend
    rw [List.drop_eq_getElem?_toList_append, hfeed] at hsplit
    rw [← hsplit, h]
    exact Text.head?_linesFrom_return_lineFeed hn

/-- If a carriage return alone ends the line of a character, and it is the first one to do so, what
line feeds tell goes on behind that line. -/
theorem return_mem_of_lone (hno : ∀ j < i, isLoneReturn cs j = false)
    (hend : isLoneReturn cs (lineEnd cs i) = true) {l : List Char}
    (hl : (Text.linesFrom [] cs)[(Position.ofIndex cs i).line - 1]? = some l) : '\r' ∈ l := by
  rw [getElem?_lines hno] at hl
  obtain ⟨hreturn, hnext⟩ : cs[lineEnd cs i]? = some '\r' ∧ cs[lineEnd cs i + 1]? ≠ some '\n' := by
    simpa [isLoneReturn] using hend
  have hsplit := lineAt_append cs i
  rw [List.drop_eq_getElem?_toList_append, hreturn] at hsplit
  rw [← hsplit] at hl
  have hhead : (cs.drop (lineEnd cs i + 1)).head? ≠ some '\n' := by rwa [List.head?_drop]
  exact Text.return_mem_linesFrom (lineFeed_notMem_lineAt cs i) hhead hl

end VhdlOutline
