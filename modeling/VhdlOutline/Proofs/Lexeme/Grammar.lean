import Mathlib.Data.List.Basic
import VhdlOutline.Proofs.Lexeme.Persistence

/-!
# The lexical grammar

What numerals, exponents, delimited texts and the bodies of comments are, said of the texts alone,
and that the scanners find them: each scanner of a piece takes a text of the right form, and nothing
else.

* `IsNumeral`, `IsExponent`, `IsBased`: the pieces of numbers.
* `IsClosed`: a text in which a delimiter closes within the line.
* `delimited?_eq_some_iff`, `commentBody?_eq_some_iff`: delimited text and comments.
* `afterNumber_digits`, `afterNumber_point`, `afterNumber_base`, `afterNumber_exponent`: what comes
  after the first digits of a number decides how it goes on.
-/

namespace VhdlOutline

/-! ## Characters -/

theorem Category.ofChar_eq_special_iff {c : Char} : ofChar c = .special ↔ c ∈ specials := by
  constructor
  · intro h
    unfold ofChar at h
    grind
  · exact fun h => if_pos h

theorem isLineEnd_iff {c : Char} : isLineEnd c = true ↔ c = '\n' ∨ c = '\r' := by
  constructor
  · intro h
    simp only [isLineEnd, Category.ofChar] at h
    grind
  · rintro (rfl | rfl) <;> decide

/-- What holds of all characters up to a code can be checked code by code. -/
theorem char_of_toNat_lt {P : Char → Prop} {n : Nat} (h : ∀ k < n, P (Char.ofNat k)) {c : Char}
    (hc : c.toNat < n) : P c := by
  have := h c.toNat hc
  rwa [Char.ofNat_toNat] at this

/-- The digits are the ASCII digits. -/
theorem isDigit_eq (c : Char) : isDigit c = c.isDigit := by
  cases hc : c.isDigit with
  | true =>
    -- No other category takes a digit away.
    have hlt : c.toNat < 58 := by
      simp only [Char.isDigit, Bool.and_eq_true, decide_eq_true_eq] at hc
      exact Nat.lt_succ_of_le hc.2
    exact char_of_toNat_lt (P := fun c => c.isDigit = true → isDigit c = true) (by decide) hlt hc
  | false =>
    simp only [isDigit, Category.ofChar, hc]
    grind

theorem isFigure_iff {c : Char} : isFigure c = true ↔ c.isDigit = true ∨ c = '_' := by
  simp [isFigure, isDigit_eq]

theorem isFigure_of_isLetter {c : Char} (h : isLetter c = true) : isFigure c = false := by
  have hne : c ≠ '_' := by
    rintro rfl
    exact absurd h (by decide)
  simp only [isLetter, decide_eq_true_eq] at h
  simp [isFigure, isDigit, h, hne]

namespace Lexeme

/-! ## Runs of characters -/

/-- The run that a text starts with, where it ends. -/
theorem takeWhile_append_of_head? {p : Char → Bool} {run rest : List Char}
    (hrun : ∀ c ∈ run, p c = true) (hrest : ∀ c ∈ rest.head?, p c = false) :
    (run ++ rest).takeWhile p = run ∧ (run ++ rest).dropWhile p = rest := by
  rw [List.takeWhile_append_of_pos hrun, List.dropWhile_append_of_pos hrun]
  cases rest with
  | nil => simp
  | cons c rest => simp [hrest c rfl]

/-- The longest run is as long as any. -/
theorem length_le_takeWhile {p : Char → Bool} {run : List Char} (hrun : ∀ c ∈ run, p c = true)
    (rest : List Char) : run.length ≤ ((run ++ rest).takeWhile p).length := by
  simp [List.takeWhile_append_of_pos hrun]

theorem of_mem_takeWhile {p : Char → Bool} {cs : List Char} :
    ∀ c ∈ cs.takeWhile p, p c = true := fun c hc => by
  simpa using List.all_eq_true.1 (List.all_takeWhile (l := cs) (p := p)) c hc

theorem head?_dropWhile {p : Char → Bool} {cs : List Char} :
    ∀ c ∈ (cs.dropWhile p).head?, p c = false := fun c hc => by
  have := List.head?_dropWhile_not p cs
  rw [Option.mem_def.1 hc] at this
  exact this

/-! ## Delimited text -/

/-- The text with every mark `q` doubled. -/
def doubled (q : Char) (cs : List Char) : List Char :=
  cs.flatMap fun c => if c = q then [q, q] else [c]

/-- The text is within a line. -/
def InLine (cs : List Char) : Prop := ∀ c ∈ cs, c ≠ '\n' ∧ c ≠ '\r'

/-- A text that goes on behind an opening mark `q` has a closing one in its line: read from the left
with doubled marks taken together, it has a mark of its own there. -/
def IsClosed (q : Char) (cs : List Char) : Prop :=
  ∃ inner rest, cs = doubled q inner ++ q :: rest ∧ InLine inner ∧ rest.head? ≠ some q

section Delimited

variable {q : Char} {inner cs text rest : List Char}

@[simp] theorem doubled_nil : doubled q [] = [] := rfl

theorem doubled_cons_self : doubled q (q :: inner) = q :: q :: doubled q inner := by
  simp [doubled]

theorem doubled_cons_of_ne {c : Char} (h : c ≠ q) :
    doubled q (c :: inner) = c :: doubled q inner := by
  simp [doubled, h]

theorem inLine_iff : InLine cs ↔ ∀ c ∈ cs, isLineEnd c = false := by
  simp only [InLine, ← Bool.not_eq_true, isLineEnd_iff, not_or]

@[simp] theorem inLine_nil : InLine [] := by simp [InLine]

theorem inLine_cons {c : Char} : InLine (c :: inner) ↔ isLineEnd c = false ∧ InLine inner := by
  simp only [inLine_iff, List.forall_mem_cons]

theorem delimited?_of_doubled (hq : isLineEnd q = false) (hi : InLine inner)
    (hr : rest.head? ≠ some q) :
    delimited? q (doubled q inner ++ q :: rest) = some (doubled q inner ++ [q], rest) := by
  induction inner with
  | nil => cases rest <;> simp_all [delimited?]
  | cons c inner ih =>
    obtain ⟨hc, hi⟩ := inLine_cons.1 hi
    by_cases he : c = q
    · subst he
      rw [doubled_cons_self, List.cons_append, List.cons_append, delimited?]
      simp [hq, ih hi]
    · rw [doubled_cons_of_ne he, List.cons_append, delimited?.eq_def]
      simp [hc, he, ih hi]

theorem exists_doubled_of_delimited? (h : delimited? q cs = some (text, rest)) :
    ∃ inner, text = doubled q inner ++ [q] ∧ InLine inner ∧ rest.head? ≠ some q := by
  fun_induction delimited? q cs generalizing text rest with
  | case1 => cases h
  | case2 => cases h
  | case3 ds hq ih =>
    obtain ⟨⟨t, u⟩, ht, he⟩ := Option.map_eq_some_iff.1 h
    cases he
    obtain ⟨inner, rfl, hi, hr⟩ := ih ht
    have hq : isLineEnd q = false := by simpa using hq
    exact ⟨q :: inner, by simp [doubled_cons_self], inLine_cons.2 ⟨hq, hi⟩, hr⟩
  | case4 d ds hd =>
    cases h
    exact ⟨[], rfl, inLine_nil, by simpa using hd⟩
  | case5 =>
    cases h
    exact ⟨[], rfl, inLine_nil, by simp⟩
  | case6 c cs hc hq ih =>
    obtain ⟨⟨t, u⟩, ht, he⟩ := Option.map_eq_some_iff.1 h
    cases he
    obtain ⟨inner, rfl, hi, hr⟩ := ih ht
    have hc : isLineEnd c = false := by simpa using hc
    exact ⟨c :: inner, by simp [doubled_cons_of_ne hq], inLine_cons.2 ⟨hc, hi⟩, hr⟩

theorem delimited?_eq_some_iff (hq : isLineEnd q = false) :
    delimited? q cs = some (text, rest) ↔ ∃ inner, text = doubled q inner ++ [q] ∧
      cs = text ++ rest ∧ InLine inner ∧ rest.head? ≠ some q := by
  constructor
  · intro h
    obtain ⟨inner, ht, hi, hr⟩ := exists_doubled_of_delimited? h
    exact ⟨inner, ht, (delimited?_append h).symm, hi, hr⟩
  · rintro ⟨inner, rfl, rfl, hi, hr⟩
    simpa using delimited?_of_doubled hq hi hr

theorem delimited?_eq_none_iff (hq : isLineEnd q = false) :
    delimited? q cs = none ↔ ¬ IsClosed q cs := by
  constructor
  · rintro h ⟨inner, rest, rfl, hi, hr⟩
    rw [delimited?_of_doubled hq hi hr] at h
    cases h
  · intro h
    cases hd : delimited? q cs with
    | none => rfl
    | some p =>
      obtain ⟨inner, ht, hs, hi, hr⟩ := (delimited?_eq_some_iff hq).1 hd
      exact absurd ⟨inner, p.2, by simpa [ht] using hs, hi, hr⟩ h

/-- What is found to be delimited is as long as any delimited text here. -/
theorem length_le_of_delimited? (hi : InLine inner) {more : List Char}
    (h : delimited? q (doubled q inner ++ q :: more) = some (text, rest)) :
    (doubled q inner ++ [q]).length ≤ text.length := by
  induction inner generalizing text rest with
  | nil =>
    obtain ⟨inner, rfl, -, -⟩ := exists_doubled_of_delimited? h
    simp
  | cons c inner ih =>
    obtain ⟨hc, hi⟩ := inLine_cons.1 hi
    by_cases he : c = q
    · subst he
      rw [doubled_cons_self, List.cons_append, List.cons_append, delimited?] at h
      simp only [hc, Bool.false_eq_true, if_false, if_true] at h
      obtain ⟨⟨t, u⟩, ht, he⟩ := Option.map_eq_some_iff.1 h
      cases he
      have := ih hi ht
      simp only [doubled_cons_self, List.length_append, List.length_cons] at this ⊢
      omega
    · rw [doubled_cons_of_ne he, List.cons_append, delimited?.eq_def] at h
      simp only [hc, he, Bool.false_eq_true, if_false] at h
      obtain ⟨⟨t, u⟩, ht, he'⟩ := Option.map_eq_some_iff.1 h
      cases he'
      have := ih hi ht
      simp only [doubled_cons_of_ne he, List.length_append, List.length_cons] at this ⊢
      omega

end Delimited

/-! ## Comments -/

/-- The text ends with `*/`, and has no other. -/
def ClosesComment (cs : List Char) : Prop :=
  (∃ body, cs = body ++ ['*', '/']) ∧ ∀ pre post, cs = pre ++ '*' :: '/' :: post → post = []

theorem commentBody?_of_closesComment {cs : List Char} (h : ClosesComment cs) (rest : List Char) :
    commentBody? (cs ++ rest) = some (cs, rest) := by
  obtain ⟨⟨body, rfl⟩, honly⟩ := h
  induction body with
  | nil => simp [commentBody?]
  | cons c body ih =>
    have htail : ∀ pre post, body ++ ['*', '/'] = pre ++ '*' :: '/' :: post → post = [] := by
      intro pre post he
      exact honly (c :: pre) post (by simp [he])
    obtain ⟨d, ds, hd⟩ : ∃ d ds, body ++ ['*', '/'] = d :: ds := by
      cases body <;> simp
    have hc : ¬ (c = '*' ∧ d = '/') := by
      rintro ⟨rfl, rfl⟩
      have hnil := honly [] ds (by simp [hd])
      have := congrArg List.length hd
      simp [hnil] at this
    have hi := ih htail
    rw [List.cons_append, List.cons_append, hd, List.cons_append, commentBody?, if_neg hc]
    rw [hd, List.cons_append] at hi
    rw [hi]
    rfl

theorem closesComment_of_commentBody? {cs text rest : List Char}
    (h : commentBody? cs = some (text, rest)) : ClosesComment text := by
  fun_induction commentBody? cs generalizing text rest with
  | case1 => cases h
  | case2 c d ds hc =>
    cases h
    obtain ⟨rfl, rfl⟩ := hc
    refine ⟨⟨[], rfl⟩, fun pre post he => ?_⟩
    have := congrArg List.length he
    simp only [List.length_cons, List.length_nil, List.length_append] at this
    exact List.length_eq_zero_iff.1 (by omega)
  | case3 c d ds hc ih =>
    obtain ⟨⟨t, u⟩, ht, he⟩ := Option.map_eq_some_iff.1 h
    cases he
    obtain ⟨⟨body, hb⟩, honly⟩ := ih ht
    refine ⟨⟨c :: body, by simp [hb]⟩, fun pre post he => ?_⟩
    cases pre with
    | nil =>
      -- The first two characters are no end of a comment.
      obtain ⟨more, rfl⟩ := commentBody?_cons ht
      cases he
      exact absurd ⟨rfl, rfl⟩ hc
    | cons p pre =>
      obtain ⟨-, he⟩ := List.cons.inj he
      exact honly pre post he
  | case4 => cases h

theorem commentBody?_eq_none_iff {cs : List Char} :
    commentBody? cs = none ↔ ¬ ['*', '/'] <:+: cs := by
  constructor
  · rintro h ⟨pre, post, rfl⟩
    induction pre with
    | nil => simp [commentBody?] at h
    | cons c pre ih =>
      obtain ⟨d, ds, hd⟩ : ∃ d ds, pre ++ ['*', '/'] ++ post = d :: ds := by
        cases pre <;> simp
      rw [List.cons_append, List.cons_append, hd, commentBody?] at h
      rw [hd] at ih
      split at h
      · cases h
      · exact ih (Option.map_eq_none_iff.1 h)
  · intro h
    cases hb : commentBody? cs with
    | none => rfl
    | some p =>
      obtain ⟨⟨body, ht⟩, -⟩ := closesComment_of_commentBody? hb
      have happ := commentBody?_append hb
      exact absurd ⟨body, p.2, by rw [← ht, happ]⟩ h

/-! ## Numbers -/

/-- A digit, and digits and underscores after it. -/
def isNumeral : List Char → Bool
  | [] => false
  | d :: ds => d.isDigit && ds.all fun c => c.isDigit || c = '_'

/-- A letter `e`, a sign or none, and a numeral. -/
def IsExponent (cs : List Char) : Prop :=
  ∃ e mark digits, cs = e :: (mark ++ digits) ∧ (e = 'e' ∨ e = 'E') ∧
    mark ∈ [[], ['+'], ['-']] ∧ isNumeral digits = true

/-- Letters, digits and underscores, with at most one point between them. -/
def IsBased (cs : List Char) : Prop :=
  (∀ c ∈ cs, isWordPart c = true) ∨
    ∃ a b, cs = a ++ '.' :: b ∧ (∀ c ∈ a, isWordPart c = true) ∧ ∀ c ∈ b, isWordPart c = true

section Numbers

variable {digits e cs rest start : List Char} {l : Lexeme} {fault : LexFault}

theorem isNumeral_iff :
    isNumeral cs = true ↔ startsWithDigit cs = true ∧ ∀ c ∈ cs, isFigure c = true := by
  cases cs with
  | nil => simp [isNumeral, startsWithDigit]
  | cons d ds =>
    simp only [isNumeral, startsWithDigit, isDigit_eq, isFigure_iff, Bool.and_eq_true,
      List.all_eq_true, Bool.or_eq_true, decide_eq_true_eq, List.forall_mem_cons]
    exact ⟨fun h => ⟨h.1, .inl h.1, h.2⟩, fun h => ⟨h.1, h.2.2⟩⟩

/-- The first digits of a number. -/
theorem isNumeral_takeWhile (h : startsWithDigit cs = true) :
    isNumeral (cs.takeWhile isFigure) = true := by
  refine isNumeral_iff.2 ⟨?_, of_mem_takeWhile⟩
  simpa using startsWithDigit_takeWhile_append [] h

theorem isNumeral_cons_takeWhile {c : Char} (h : isDigit c = true) :
    isNumeral (c :: cs.takeWhile isFigure) = true := by
  have hstart : startsWithDigit (c :: cs) = true := h
  simpa [isFigure, h] using isNumeral_takeWhile hstart

theorem startsWithDigit_append (h : isNumeral digits = true) (rest : List Char) :
    startsWithDigit (digits ++ rest) = true := by
  cases digits with
  | nil => cases h
  | cons d ds => exact (isNumeral_iff.1 h).1

theorem exponent_isExponent (cs : List Char) :
    (exponent cs).1 = [] ∨ IsExponent (exponent cs).1 := by
  cases cs with
  | nil => exact .inl rfl
  | cons e cs =>
    have hmark : (sign cs).1 ∈ [[], ['+'], ['-']] := by
      unfold sign
      split
      · split
        · rename_i h
          rcases h with rfl | rfl <;> simp
        · simp
      · simp
    simp only [exponent]
    split
    · rename_i h
      exact .inr ⟨e, (sign cs).1, _, rfl, h.1, hmark, isNumeral_takeWhile h.2⟩
    · exact .inl rfl

/-- The exponent that is found is as long as any. -/
theorem length_le_exponent (h : IsExponent e) (rest : List Char) :
    e.length ≤ (exponent (e ++ rest)).1.length := by
  obtain ⟨x, mark, digits, rfl, hx, hmark, hd⟩ := h
  have hstart := startsWithDigit_append hd rest
  have hsign : sign (mark ++ (digits ++ rest)) = (mark, digits ++ rest) := by
    simp only [List.mem_cons, List.not_mem_nil, or_false] at hmark
    rcases hmark with rfl | rfl | rfl
    · exact sign_append_digits [] hstart
    · rfl
    · rfl
  have hlen := length_le_takeWhile (isNumeral_iff.1 hd).2 rest
  rw [List.cons_append, List.append_assoc]
  simp only [exponent, hsign, hx, hstart, and_self, if_true, List.cons_append, List.length_cons,
    List.length_append]
  omega

/-! ### Based literals -/

theorem head?_not_isWordPart (d : Char) (hd : isWordPart d = false) (rest : List Char) :
    ∀ c ∈ (d :: rest).head?, isWordPart c = false := by
  simpa using hd

theorem based_digits (h : ∀ c ∈ cs, isWordPart c = true) (start rest : List Char) :
    based start (cs ++ '#' :: rest) =
      .ok (withExponent .integerLiteral (start ++ cs ++ ['#']) rest) := by
  obtain ⟨ht, hd⟩ := takeWhile_append_of_head? h (head?_not_isWordPart '#' (by decide) rest)
  simp only [based_eq, ht, hd, afterBased, if_true]

theorem based_point {a b : List Char} (ha : ∀ c ∈ a, isWordPart c = true)
    (hb : ∀ c ∈ b, isWordPart c = true) (start rest : List Char) :
    based start (a ++ '.' :: (b ++ '#' :: rest)) =
      .ok (withExponent .realLiteral (start ++ a ++ '.' :: (b ++ ['#'])) rest) := by
  obtain ⟨ht, hd⟩ := takeWhile_append_of_head? ha
    (head?_not_isWordPart '.' (by decide) (b ++ '#' :: rest))
  obtain ⟨ht', hd'⟩ := takeWhile_append_of_head? hb (head?_not_isWordPart '#' (by decide) rest)
  simp [based_eq, ht, hd, afterBased, ht', hd', basedEnd]

/-- Where a based literal does not end, it is an error. -/
theorem based_cases (start cs : List Char) :
    (∃ body rest, cs = body ++ '#' :: rest ∧ IsBased body) ∨
      based start cs = .error .unterminatedBasedLiteral := by
  have hs := cs.takeWhile_append_dropWhile (p := isWordPart)
  have ha : ∀ c ∈ cs.takeWhile isWordPart, isWordPart c = true := of_mem_takeWhile
  simp only [based_eq]
  generalize cs.takeWhile isWordPart = a at hs ha
  generalize cs.dropWhile isWordPart = after at hs
  subst hs
  cases after with
  | nil => exact .inr rfl
  | cons c ds =>
    by_cases hc : c = '#'
    · exact .inl ⟨a, ds, by rw [hc], .inl ha⟩
    by_cases hp : c = '.'
    · have hs := ds.takeWhile_append_dropWhile (p := isWordPart)
      have hb : ∀ c ∈ ds.takeWhile isWordPart, isWordPart c = true := of_mem_takeWhile
      simp only [afterBased, if_neg hc, if_pos hp]
      generalize ds.takeWhile isWordPart = b at hs hb
      generalize ds.dropWhile isWordPart = after at hs
      subst hs
      cases after with
      | nil => exact .inr rfl
      | cons d es =>
        by_cases hd : d = '#'
        · exact .inl ⟨a ++ '.' :: b, es, by simp [hp, hd], .inr ⟨a, b, rfl, ha, hb⟩⟩
        · exact .inr (if_neg hd)
    · exact .inr (by simp only [afterBased, if_neg hc, if_neg hp])

theorem based_eq_error_iff : based start cs = .error fault ↔
    fault = .unterminatedBasedLiteral ∧ ¬ ∃ body rest, cs = body ++ '#' :: rest ∧ IsBased body := by
  have hok {body : List Char} (h : IsBased body) (rest : List Char) :
      ∃ l, based start (body ++ '#' :: rest) = .ok l := by
    rcases h with h | ⟨a, b, rfl, ha, hb⟩
    · exact ⟨_, based_digits h start rest⟩
    · exact ⟨_, by simpa using based_point ha hb start rest⟩
  constructor
  · intro h
    refine ⟨?_, ?_⟩
    · rcases based_cases start cs with ⟨body, rest, rfl, hb⟩ | he
      · obtain ⟨l, hl⟩ := hok hb rest
        rw [hl] at h
        cases h
      · rw [he] at h
        cases h
        rfl
    · rintro ⟨body, rest, rfl, hb⟩
      obtain ⟨l, hl⟩ := hok hb rest
      rw [hl] at h
      cases h
  · rintro ⟨rfl, hno⟩
    exact (based_cases start cs).resolve_left hno

/-! ### Bit strings -/

/-- The letters of the bases. -/
theorem isLetter_of_upperAscii {c : Char}
    (h : Text.upperAscii c ∈ ['B', 'O', 'X', 'D', 'U', 'S']) : isLetter c = true := by
  by_cases hs : c = 'ſ'
  · rw [hs]
    decide +kernel
  · have hi : c ≠ 'ı' := by
      rintro rfl
      revert h
      decide
    have hlt : c.toNat < 128 := by
      by_cases hlower : c.val ≥ 'a'.val ∧ c.val ≤ 'z'.val
      · have : c.toNat ≤ 122 := hlower.2
        omega
      · -- Any other character is its own upper case.
        have hupper : Text.upperAscii c = c := by
          rw [Text.upperAscii, if_neg hi, if_neg hs]
          exact dif_neg hlower
        have hall : ∀ d ∈ ['B', 'O', 'X', 'D', 'U', 'S'], d.toNat < 128 := by simp
        exact hall c (hupper ▸ h)
    exact char_of_toNat_lt (P := fun c => Text.upperAscii c ∈ ['B', 'O', 'X', 'D', 'U', 'S'] →
      isLetter c = true) (by decide) hlt h

/-- A base is one or two letters. -/
theorem of_isBase (h : isBase cs = true) :
    (cs.length = 1 ∨ cs.length = 2) ∧ ∀ c ∈ cs, isLetter c = true := by
  have hall : ∀ base ∈ [['B'], ['O'], ['X'], ['D'], ['U', 'B'], ['U', 'O'], ['U', 'X'], ['S', 'B'],
      ['S', 'O'], ['S', 'X']], (base.length = 1 ∨ base.length = 2) ∧
        ∀ c ∈ base, c ∈ ['B', 'O', 'X', 'D', 'U', 'S'] := by
    simp
  simp only [isBase, decide_eq_true_eq] at h
  obtain ⟨hlen, hletters⟩ := hall _ h
  rw [List.length_map] at hlen
  exact ⟨hlen, fun c hc => isLetter_of_upperAscii (hletters _ (List.mem_map_of_mem hc))⟩

theorem ne_nil_of_isBase (h : isBase cs = true) : cs ≠ [] := by
  rintro rfl
  cases h

theorem head?_of_isBase (h : isBase cs = true) (rest : List Char) :
    ∀ c ∈ (cs ++ rest).head?, isFigure c = false := by
  obtain ⟨c, cs, rfl⟩ := List.exists_cons_of_ne_nil (ne_nil_of_isBase h)
  rintro d ⟨⟩
  exact isFigure_of_isLetter ((of_isBase h).2 c (by simp))

/-- No base starts like an exponent. -/
theorem not_isBase_cons {c : Char} (h : c = 'e' ∨ c = 'E') (cs : List Char) :
    isBase (c :: cs) = false := by
  rcases h with rfl | rfl <;> simp [isBase, show Text.upperAscii 'e' = 'E' by decide,
    show Text.upperAscii 'E' = 'E' by decide]

theorem bitStringStart?_of_isBase (h : isBase cs = true) (rest : List Char) :
    bitStringStart? (cs ++ '\x22' :: rest) = some (cs ++ ['\x22'], rest) := by
  obtain ⟨hlen, hletters⟩ := of_isBase h
  rcases hlen with hlen | hlen
  · obtain ⟨c, rfl⟩ := List.length_eq_one_iff.1 hlen
    simp [bitStringStart?, h]
  · obtain ⟨c, d, rfl⟩ := List.length_eq_two.1 hlen
    have hd : d ≠ '\x22' := by
      rintro rfl
      exact absurd (hletters '\x22' (by simp)) (by decide)
    simp [bitStringStart?, hd, h]

theorem isBase_of_bitStringStart? (h : bitStringStart? cs = some (start, rest)) :
    ∃ base, isBase base = true ∧ start = base ++ ['\x22'] := by
  unfold bitStringStart? at h
  split at h
  · rename_i c d cs
    split at h
    · rename_i hb
      cases h
      exact ⟨[c], hb.2, by rw [hb.1]; rfl⟩
    · split at h
      · split at h
        · rename_i hb
          cases h
          exact ⟨[c, d], hb.2, by rw [hb.1]; rfl⟩
        · cases h
      · cases h
  · cases h

/-! ### After the first digits -/

theorem afterNumber_base (h : isBase cs = true) (digits rest : List Char) :
    afterNumber digits (cs ++ '\x22' :: rest) = bitString (digits ++ (cs ++ ['\x22'])) rest := by
  have hstart := bitStringStart?_of_isBase h rest
  obtain ⟨c, cs, rfl⟩ := List.exists_cons_of_ne_nil (ne_nil_of_isBase h)
  have hc := (of_isBase h).2 c (by simp)
  have hsharp : c ≠ '#' := by
    rintro rfl
    exact absurd hc (by decide)
  have hpoint : ¬ (c = '.' ∧ startsWithDigit (cs ++ '\x22' :: rest) = true) := by
    rintro ⟨rfl, -⟩
    exact absurd hc (by decide)
  rw [List.cons_append] at hstart ⊢
  simp only [afterNumber, if_neg hsharp, if_neg hpoint, hstart]

theorem afterNumber_point (h : startsWithDigit cs = true) (digits : List Char) :
    afterNumber digits ('.' :: cs) = .ok (fraction (digits ++ ['.']) cs) := by
  simp [afterNumber, h]

theorem afterNumber_exponent (h : IsExponent e) (digits rest : List Char) :
    afterNumber digits (e ++ rest) = .ok (withExponent .integerLiteral digits (e ++ rest)) := by
  obtain ⟨x, mark, ds, rfl, hx, -, -⟩ := h
  have hsharp : x ≠ '#' := by rcases hx with rfl | rfl <;> decide
  have hpoint : x ≠ '.' := by rcases hx with rfl | rfl <;> decide
  have hstart : bitStringStart? (x :: (mark ++ ds ++ rest)) = none := by
    cases hb : bitStringStart? (x :: (mark ++ ds ++ rest)) with
    | none => rfl
    | some p =>
      obtain ⟨base, hbase, hs⟩ := isBase_of_bitStringStart? hb
      obtain ⟨c, base, rfl⟩ := List.exists_cons_of_ne_nil (ne_nil_of_isBase hbase)
      have happ := bitStringStart?_append hb
      rw [hs] at happ
      obtain rfl := (List.cons.inj happ).1
      rw [not_isBase_cons hx] at hbase
      cases hbase
  rw [List.cons_append]
  simp only [afterNumber, if_neg hsharp, hpoint, false_and, if_false, hstart]

end Numbers

/-! ## What a text starts with -/

section Scan

variable {x : Context} {c : Char} {cs digits rest : List Char}

theorem scan_of_isLetter (h : isLetter c = true) : scan x c cs = word c cs := by
  have hc : Category.ofChar c = .letter := by simpa [isLetter] using h
  simp only [scan, hc]

theorem scan_of_isDigit (h : isDigit c = true) : scan x c cs = number c cs := by
  have hc : Category.ofChar c = .digit := by simpa [isDigit] using h
  simp only [scan, hc]

theorem scan_of_mem_specials (h : c ∈ Category.specials) : scan x c cs = special x c cs := by
  simp only [scan, Category.ofChar_eq_special_iff.2 h]

/-- A text that starts with a letter. -/
theorem scan_letters {run : List Char} (h : c :: cs = run ++ rest) (hc : isLetter c = true)
    (hrun : ∀ d ∈ run, isWordPart d = true) (hne : run ≠ [])
    (hrest : ∀ d ∈ rest.head?, isWordPart d = false) : scan x c cs = afterWord run rest := by
  obtain ⟨d, run, rfl⟩ := List.exists_cons_of_ne_nil hne
  rw [List.cons_append] at h
  obtain ⟨rfl, rfl⟩ := List.cons.inj h
  obtain ⟨ht, hd⟩ := takeWhile_append_of_head? (List.forall_mem_cons.1 hrun).2 hrest
  rw [scan_of_isLetter hc]
  simp only [word_eq, ht, hd, List.singleton_append]

/-- A text that starts with a digit. -/
theorem scan_digits (h : c :: cs = digits ++ rest) (hd : isNumeral digits = true)
    (hrest : ∀ d ∈ rest.head?, isFigure d = false) : scan x c cs = afterNumber digits rest := by
  cases digits with
  | nil => cases hd
  | cons d ds =>
    rw [List.cons_append] at h
    obtain ⟨rfl, rfl⟩ := List.cons.inj h
    obtain ⟨hc, hds⟩ := isNumeral_iff.1 hd
    obtain ⟨ht, hd⟩ := takeWhile_append_of_head? (List.forall_mem_cons.1 hds).2 hrest
    rw [scan_of_isDigit hc]
    simp only [number_eq, ht, hd, List.singleton_append]

/-- A text that starts with a base and a quote. -/
theorem scan_base {base : List Char} (h : c :: cs = base ++ '\x22' :: rest)
    (hb : isBase base = true) : scan x c cs = bitString (base ++ ['\x22']) rest := by
  have hletters := (of_isBase hb).2
  have hc : isLetter c = true := by
    obtain ⟨d, base, rfl⟩ := List.exists_cons_of_ne_nil (ne_nil_of_isBase hb)
    obtain rfl := (List.cons.inj h).1
    exact hletters c (by simp)
  have hrun : ∀ d ∈ base, isWordPart d = true := fun d hd => by simp [isWordPart, hletters d hd]
  rw [scan_letters h hc hrun (ne_nil_of_isBase hb) (by simp; decide)]
  exact if_pos ⟨rfl, hb⟩

end Scan

end Lexeme

end VhdlOutline
