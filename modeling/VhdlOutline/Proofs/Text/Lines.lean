import Mathlib.Data.List.TakeWhile
import VhdlOutline.Text.Lines

/-!
# Lines and line feeds

The lines of a text, told by its line feeds. As many lines come before a place right after a line
feed as there are line feeds before it (`getElem?_linesFrom`), and the line that starts there goes
on to the next line feed, without the carriage return that may stand before that. A carriage return
at any other place stays in its line (`return_mem_linesFrom`).
-/

namespace VhdlOutline.Text

variable {line body rest pre : List Char} {c : Char}

/-! ## Carriage returns at the end of a line -/

@[simp] theorem dropReturn_concat_return (line : List Char) :
    dropReturn (line ++ ['\r']) = line := by
  simp [dropReturn]

theorem dropReturn_of_notMem (h : '\r' ∉ line) : dropReturn line = line := by
  unfold dropReturn
  split
  · rename_i hlast
    exact absurd (List.mem_of_getLast? hlast) h
  · rfl

theorem mem_of_mem_dropReturn (h : c ∈ dropReturn line) : c ∈ line := by
  unfold dropReturn at h
  split at h
  · exact List.dropLast_subset _ h
  · exact h

/-- Only the last character of a line may be dropped. -/
theorem mem_dropReturn_of_ne_nil (hrest : rest ≠ []) : c ∈ dropReturn (body ++ c :: rest) := by
  unfold dropReturn
  split
  · rw [List.dropLast_append_of_ne_nil (by simp), List.dropLast_cons_of_ne_nil hrest]
    simp
  · simp

/-! ## Line feeds -/

/-- The first `c` parts a text in one way only. -/
theorem append_cons_inj {c : Char} {xs xs' ys ys' : List Char} (hx : c ∉ xs) (hx' : c ∉ xs')
    (h : xs ++ c :: ys = xs' ++ c :: ys') : xs = xs' ∧ ys = ys' := by
  rcases List.append_eq_append_iff.1 h with ⟨zs, rfl, hz⟩ | ⟨zs, rfl, hz⟩ <;> cases zs with
  | nil => simpa [eq_comm] using hz
  | cons z zs =>
    obtain ⟨rfl, -⟩ := List.cons.inj hz
    simp_all

theorem linesFrom_append (h : '\n' ∉ body) :
    linesFrom line (body ++ rest) = linesFrom (body.reverse ++ line) rest := by
  induction body generalizing line with
  | nil => rfl
  | cons c body ih =>
    rw [List.mem_cons, not_or] at h
    rw [List.cons_append, linesFrom, if_neg (Ne.symm h.1), ih h.2]
    simp

/-- A line ends at the next line feed. -/
theorem linesFrom_lineFeed (h : '\n' ∉ body) :
    linesFrom [] (body ++ '\n' :: rest) = dropReturn body :: linesFrom [] rest := by
  rw [linesFrom_append h, linesFrom, if_pos rfl]
  simp

/-- What no line feed ends is the last line. -/
theorem linesFrom_last (h : '\n' ∉ body) (hne : body ≠ []) : linesFrom [] body = [body] := by
  have := @linesFrom_append [] body [] h
  simpa [linesFrom, hne] using this

theorem drop_linesFrom (line pre rest : List Char) :
    (linesFrom line (pre ++ '\n' :: rest)).drop (pre.count '\n' + 1) = linesFrom [] rest := by
  induction pre generalizing line with
  | nil => simp [linesFrom]
  | cons c pre ih =>
    rw [List.cons_append, linesFrom]
    by_cases hc : c = '\n'
    · rw [if_pos hc, hc, List.count_cons_self, List.drop_succ_cons, ih]
    · rw [if_neg hc, List.count_cons_of_ne hc, ih]

/-- The line that starts right after a line feed comes after as many lines as there are line feeds
up to there. -/
theorem getElem?_linesFrom (h : pre = [] ∨ pre.getLast? = some '\n') :
    (linesFrom [] (pre ++ rest))[pre.count '\n']? = (linesFrom [] rest).head? := by
  rcases h with rfl | h
  · simp [List.head?_eq_getElem?]
  · obtain ⟨pre, rfl⟩ := List.getLast?_eq_some_iff.1 h
    rw [List.append_assoc, List.singleton_append, List.count_append, ← List.head?_drop]
    exact congrArg List.head? (drop_linesFrom [] pre rest)

theorem lineFeed_notMem_of_mem_linesFrom {cs l : List Char} (hline : '\n' ∉ line)
    (h : l ∈ linesFrom line cs) : '\n' ∉ l := by
  induction cs generalizing line with
  | nil =>
    rw [linesFrom] at h
    split at h
    · cases h
    · rw [List.mem_singleton.1 h]
      simpa using hline
  | cons c cs ih =>
    rw [linesFrom] at h
    split at h
    · rcases List.mem_cons.1 h with rfl | h
      · exact fun hm => hline (by simpa using mem_of_mem_dropReturn hm)
      · exact ih List.not_mem_nil h
    · rename_i hc
      exact ih (by simp [Ne.symm hc, hline]) h

/-- No line has a line feed in it. -/
theorem lineFeed_notMem_of_mem_lines {s : String} {l : List Char} (h : l ∈ lines s) : '\n' ∉ l :=
  lineFeed_notMem_of_mem_linesFrom List.not_mem_nil h

/-! ## The first line -/

/-- A text that goes on to a line end has the part before as its first line. -/
theorem head?_linesFrom_lineFeed (hn : '\n' ∉ body) (hr : '\r' ∉ body) :
    (linesFrom [] (body ++ '\n' :: rest)).head? = some body := by
  rw [linesFrom_lineFeed hn, List.head?_cons, dropReturn_of_notMem hr]

theorem head?_linesFrom_return_lineFeed (hn : '\n' ∉ body) :
    (linesFrom [] (body ++ '\r' :: '\n' :: rest)).head? = some body := by
  have hn' : '\n' ∉ body ++ ['\r'] := by simpa using hn
  have := @linesFrom_lineFeed _ rest hn'
  rw [List.append_assoc, List.singleton_append] at this
  rw [this, List.head?_cons, dropReturn_concat_return]

/-- A carriage return without a line feed does not end the first line. -/
theorem return_mem_linesFrom (hn : '\n' ∉ body) (hrest : rest.head? ≠ some '\n')
    {l : List Char} (h : l ∈ (linesFrom [] (body ++ '\r' :: rest)).head?) : '\r' ∈ l := by
  have hsplit := List.takeWhile_append_dropWhile (p := (· != '\n')) (l := rest)
  have htake : '\n' ∉ body ++ '\r' :: rest.takeWhile (· != '\n') := by
    simp only [List.mem_append, List.mem_cons, not_or]
    exact ⟨hn, by decide, fun hm => by simpa using List.mem_takeWhile_imp hm⟩
  cases hdrop : rest.dropWhile (· != '\n') with
  | nil =>
    rw [hdrop, List.append_nil] at hsplit
    rw [hsplit] at htake
    rw [linesFrom_last htake (by simp)] at h
    cases h
    simp
  | cons c more =>
    obtain rfl : c = '\n' := by
      have := List.head?_dropWhile_not (· != '\n') rest
      simpa [hdrop] using this
    have hne : rest.takeWhile (· != '\n') ≠ [] := by
      intro hnil
      rw [hnil, List.nil_append] at hsplit
      exact hrest (by rw [← hsplit, hdrop]; rfl)
    rw [← hsplit, hdrop, ← List.cons_append, ← List.append_assoc, linesFrom_lineFeed htake] at h
    cases h
    exact mem_dropReturn_of_ne_nil hne

end VhdlOutline.Text
