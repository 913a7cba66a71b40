import VhdlOutline.Proofs.Lexeme.Faults
import VhdlOutline.Proofs.Spans

/-!
# Lexemes of each kind

`TokenKind.IsLexeme` says which texts are lexemes of a kind. What the scanner finds is a lexeme of
its kind (`Lexeme.isLexeme_of_scan`), and the longest one of any kind that the text starts with
(`Lexeme.length_le_of_isLexeme`), but for the apostrophe behind a name, which starts no character
literal. `tokenize_lexemes` puts both together for the tokens of a source text.
-/

namespace VhdlOutline

open Lexeme

/-! ## The lexemes of a kind -/

/-- A text of the sort `P`, with an exponent or without. -/
def IsScaled (P : List Char → Prop) (cs : List Char) : Prop :=
  ∃ m e, cs = m ++ e ∧ P m ∧ (e = [] ∨ IsExponent e)

/-- An integer without its exponent. -/
def IsInteger (cs : List Char) : Prop :=
  isNumeral cs = true ∨
    ∃ n b, cs = n ++ '#' :: (b ++ ['#']) ∧ isNumeral n = true ∧ ∀ c ∈ b, isWordPart c = true

/-- A number with a point, without its exponent. -/
def IsReal (cs : List Char) : Prop :=
  (∃ n f, cs = n ++ '.' :: f ∧ (n = [] ∨ isNumeral n = true) ∧ isNumeral f = true) ∨
    ∃ n a b, cs = n ++ '#' :: (a ++ '.' :: (b ++ ['#'])) ∧ isNumeral n = true ∧
      (∀ c ∈ a, isWordPart c = true) ∧ ∀ c ∈ b, isWordPart c = true

/-- A text between two marks, within a line, in which the mark is doubled. -/
def IsQuoted (q : Char) (cs : List Char) : Prop :=
  ∃ inner, cs = q :: (doubled q inner ++ [q]) ∧ InLine inner

/-- The ends of a line. -/
def lineEnds : List (List Char) := [['\n'], ['\r'], ['\r', '\n']]

/-- The text is a lexeme of the kind where `rest` follows. It is only for a comment at the end of a
source text that this matters. Sentinels and settled words and symbols are no lexemes. -/
def TokenKind.IsLexeme (cs rest : List Char) : TokenKind → Prop
  | .linebreak => cs ∈ lineEnds
  | .space | .indentation => cs ≠ [] ∧ ∀ c ∈ cs, isSpace c = true
  | .word => ∃ c w, cs = c :: w ∧ isLetter c = true ∧ ∀ d ∈ w, isWordPart d = true
  | .integerLiteral => IsScaled IsInteger cs
  | .realLiteral => IsScaled IsReal cs
  | .characterLiteral => ∃ c, cs = ['\x27', c, '\x27'] ∧ InLine [c]
  | .stringLiteral => IsQuoted '\x22' cs
  | .bitStringLiteral => ∃ n base s, cs = n ++ (base ++ s) ∧ (n = [] ∨ isNumeral n = true) ∧
      isBase base = true ∧ IsQuoted '\x22' s
  | .extendedIdentifier => IsQuoted '\x5c' cs
  | .singleLineComment => ∃ body close, cs = '-' :: '-' :: (body ++ close) ∧ InLine body ∧
      (close ∈ lineEnds ∨ close = [] ∧ rest = [])
  | .multiLineComment => ∃ body, cs = '/' :: '*' :: body ∧ ClosesComment body
  | .compound s => cs = s.text.toList
  | .character c => cs = [c] ∧ isPunctuation c = true
  | .startOfDocument | .endOfDocument | .keyword _ | .identifier | .operator _ => False

namespace Lexeme

variable {x : Context} {c : Char} {cs rest start digits e : List Char} {l : Lexeme} {q : Char}

/-! ## What is scanned is a lexeme -/

theorem isScaled_withExponent {P : List Char → Prop} {m : List Char} (h : P m) (kind : TokenKind)
    (cs : List Char) : IsScaled P (withExponent kind m cs).text :=
  ⟨m, (exponent cs).1, rfl, h, exponent_isExponent cs⟩

theorem isQuoted_of_delimited? {text : List Char} (h : delimited? q cs = some (text, rest)) :
    IsQuoted q (q :: text) := by
  obtain ⟨inner, rfl, hi, -⟩ := exists_doubled_of_delimited? h
  exact ⟨inner, rfl, hi⟩

/-- A bit string whose length, if any, and base have been read. -/
theorem isLexeme_of_bitString {base : List Char} (hd : digits = [] ∨ isNumeral digits = true)
    (hb : isBase base = true) (h : bitString (digits ++ (base ++ ['\x22'])) cs = .ok l) :
    l.kind.IsLexeme l.text l.rest := by
  unfold bitString at h
  split at h
  · rename_i body rest hbody
    cases h
    exact ⟨digits, base, '\x22' :: body, by simp, hd, hb, isQuoted_of_delimited? hbody⟩
  · cases h

theorem isLexeme_of_afterWord {run : List Char} (hrun : TokenKind.word.IsLexeme run [])
    (h : afterWord run rest = .ok l) : l.kind.IsLexeme l.text l.rest := by
  cases rest with
  | nil =>
    cases h
    exact hrun
  | cons d rest =>
    by_cases hd : d = '\x22' ∧ isBase run = true
    · rw [afterWord, if_pos hd, hd.1] at h
      have h : bitString ([] ++ (run ++ ['\x22'])) rest = .ok l := h
      exact isLexeme_of_bitString (.inl rfl) hd.2 h
    · rw [afterWord, if_neg hd] at h
      cases h
      exact hrun

theorem isLexeme_of_based (hd : isNumeral digits = true)
    (h : based (digits ++ ['#']) cs = .ok l) : l.kind.IsLexeme l.text l.rest := by
  rcases based_cases (digits ++ ['#']) cs with ⟨body, rest, rfl, hbody | ⟨a, b, rfl, ha, hb⟩⟩ | he
  · rw [based_digits hbody] at h
    cases h
    exact isScaled_withExponent (.inr ⟨digits, body, by simp, hd, hbody⟩) _ _
  · rw [List.append_assoc, List.cons_append, based_point ha hb] at h
    cases h
    exact isScaled_withExponent (.inr ⟨digits, a, b, by simp, hd, ha, hb⟩) _ _
  · rw [he] at h
    cases h

theorem isLexeme_fraction (hd : digits = [] ∨ isNumeral digits = true)
    (h : startsWithDigit cs = true) :
    TokenKind.realLiteral.IsLexeme (fraction (digits ++ ['.']) cs).text [] :=
  isScaled_withExponent
    (.inl ⟨digits, cs.takeWhile isFigure, by simp, hd, isNumeral_takeWhile h⟩) _ _

theorem isLexeme_of_afterNumber (hd : isNumeral digits = true)
    (h : afterNumber digits rest = .ok l) : l.kind.IsLexeme l.text l.rest := by
  cases rest with
  | nil =>
    cases h
    exact ⟨digits, [], by simp, .inl hd, .inl rfl⟩
  | cons d rest =>
    by_cases hsharp : d = '#'
    · rw [afterNumber, if_pos hsharp, hsharp] at h
      exact isLexeme_of_based hd h
    by_cases hpoint : d = '.' ∧ startsWithDigit rest = true
    · rw [afterNumber, if_neg hsharp, if_pos hpoint, hpoint.1] at h
      cases h
      exact isLexeme_fraction (.inr hd) hpoint.2
    rw [afterNumber, if_neg hsharp, if_neg hpoint] at h
    cases hb : bitStringStart? (d :: rest) with
    | none =>
      rw [hb] at h
      cases h
      exact isScaled_withExponent (.inl hd) _ _
    | some p =>
      rw [hb] at h
      obtain ⟨base, hbase, hstart⟩ := isBase_of_bitStringStart? hb
      simp only [hstart] at h
      exact isLexeme_of_bitString (.inr hd) hbase h

theorem text_of_pair? (h : pair? c cs = some l) :
    ∃ d s, Compound.ofPair? c d = some s ∧ l.kind = .compound s ∧ l.text = [c, d] := by
  unfold pair? at h
  split at h
  · obtain ⟨s, hs, rfl⟩ := Option.map_eq_some_iff.1 h
    exact ⟨_, s, hs, rfl, rfl⟩
  · cases h

theorem text_of_triple? (h : triple? c cs = some l) :
    ∃ d e s, Compound.ofTriple? c d e = some s ∧ l.kind = .compound s ∧ l.text = [c, d, e] := by
  unfold triple? at h
  split at h
  · obtain ⟨s, hs, rfl⟩ := Option.map_eq_some_iff.1 h
    exact ⟨_, _, s, hs, rfl, rfl⟩
  · cases h

theorem text_of_ofPair? {c d : Char} {s : Compound} (h : Compound.ofPair? c d = some s) :
    s.text.toList = [c, d] := by
  unfold Compound.ofPair? at h
  split at h <;> cases h <;> rfl

theorem text_of_ofTriple? {c d e : Char} {s : Compound} (h : Compound.ofTriple? c d e = some s) :
    s.text.toList = [c, d, e] := by
  unfold Compound.ofTriple? at h
  split at h <;> cases h <;> rfl

theorem isLexeme_of_symbol (h : symbol c cs = .ok l) : l.kind.IsLexeme l.text l.rest := by
  unfold symbol at h
  split at h
  · rename_i htriple
    cases h
    obtain ⟨d, e, s, hs, hk, ht⟩ := text_of_triple? htriple
    rw [hk, ht]
    exact (text_of_ofTriple? hs).symm
  split at h
  · cases h
  split at h
  · rename_i hpair
    cases h
    obtain ⟨d, s, hs, hk, ht⟩ := text_of_pair? hpair
    rw [hk, ht]
    exact (text_of_ofPair? hs).symm
  split at h
  · rename_i hpunctuation
    cases h
    exact ⟨rfl, hpunctuation⟩
  · cases h

theorem lineEnd_mem (h : ∀ c ∈ cs.head?, isLineEnd c = true) :
    (lineEnd cs).1 ∈ lineEnds ∨ (lineEnd cs).1 = [] ∧ (lineEnd cs).2 = [] := by
  fun_cases lineEnd cs with
  | case1 => exact .inl (by simp [lineEnds])
  | case2 => exact .inl (by simp [lineEnds])
  | case3 => exact .inl (by simp [lineEnds])
  | case4 cs h₁ h₂ h₃ =>
    cases cs with
    | nil => exact .inr ⟨rfl, rfl⟩
    | cons c cs =>
      rcases isLineEnd_iff.1 (h c rfl) with rfl | rfl
      · exact absurd rfl (h₃ cs)
      · exact absurd rfl (h₂ cs)

theorem inLine_takeWhile (cs : List Char) : InLine (cs.takeWhile fun d => !isLineEnd d) :=
  inLine_iff.2 fun c hc => by simpa using of_mem_takeWhile c hc

theorem isLexeme_singleLineComment (h : cs.head? = some '-') :
    TokenKind.singleLineComment.IsLexeme (singleLineComment '-' cs).text
      (singleLineComment '-' cs).rest := by
  cases cs with
  | nil => cases h
  | cons d ds =>
    obtain rfl := Option.some.inj h
    have hdash : isLineEnd '-' = false := by decide
    refine ⟨ds.takeWhile fun d => !isLineEnd d, (lineEnd (ds.dropWhile fun d => !isLineEnd d)).1,
      by simp [singleLineComment, hdash], inLine_takeWhile ds, ?_⟩
    simp only [singleLineComment, List.dropWhile_cons, hdash, Bool.not_false, if_true]
    exact lineEnd_mem fun c hc => by simpa using head?_dropWhile c hc

theorem isLexeme_apostrophe (x : Context) (cs : List Char) :
    (apostrophe x '\x27' cs).kind.IsLexeme (apostrophe x '\x27' cs).text
      (apostrophe x '\x27' cs).rest := by
  unfold apostrophe
  split
  · split
    · rename_i d e cs h
      exact ⟨d, by rw [h.2.1], inLine_cons.2 ⟨by simpa using h.2.2, inLine_nil⟩⟩
    · exact ⟨rfl, rfl⟩
  · exact ⟨rfl, rfl⟩

theorem isLexeme_of_special (h : special x c cs = .ok l) : l.kind.IsLexeme l.text l.rest := by
  unfold special at h
  split at h
  · rename_i hpoint
    cases h
    rw [hpoint.1]
    exact isLexeme_fraction (.inl rfl) hpoint.2
  split at h
  · rename_i hminus
    cases h
    rw [hminus.1]
    exact isLexeme_singleLineComment hminus.2
  split at h
  · rename_i hopen
    obtain ⟨rfl, hstar⟩ := hopen
    cases cs with
    | nil => cases hstar
    | cons d ds =>
      obtain rfl := Option.some.inj hstar
      simp only [multiLineComment] at h
      split at h
      · rename_i body rest hbody
        cases h
        exact ⟨body, rfl, closesComment_of_commentBody? hbody⟩
      · cases h
  split at h
  · rename_i hquote
    split at h
    · rename_i hbody
      cases h
      rw [hquote] at hbody ⊢
      exact isQuoted_of_delimited? hbody
    · cases h
  split at h
  · rename_i hquote
    cases h
    rw [hquote]
    exact isLexeme_apostrophe x cs
  split at h
  · rename_i hback
    split at h
    · rename_i hbody
      cases h
      rw [hback] at hbody ⊢
      exact isQuoted_of_delimited? hbody
    · cases h
  · exact isLexeme_of_symbol h

/-- **What is scanned is a lexeme of its kind.** -/
theorem isLexeme_of_scan (h : scan x c cs = .ok l) : l.kind.IsLexeme l.text l.rest := by
  unfold scan at h
  split at h
  · rename_i hc
    cases h
    have hend : ∀ d ∈ (c :: cs).head?, isLineEnd d = true := by simp [isLineEnd, hc]
    refine (lineEnd_mem hend).resolve_right fun hnil => ?_
    have happ := lineEnd_append (c :: cs)
    rw [hnil.1, hnil.2] at happ
    cases happ
  · rename_i hc
    cases h
    have hall : ∀ d ∈ c :: cs.takeWhile isSpace, isSpace d = true :=
      List.forall_mem_cons.2 ⟨by simp [isSpace, hc], of_mem_takeWhile⟩
    cases x.afterLine <;> exact ⟨by simp, hall⟩
  · rename_i hc
    simp only [word_eq] at h
    exact isLexeme_of_afterWord ⟨c, _, rfl, by simp [isLetter, hc], of_mem_takeWhile⟩ h
  · rename_i hc
    simp only [number_eq] at h
    exact isLexeme_of_afterNumber (isNumeral_cons_takeWhile (by simp [isDigit, hc])) h
  · exact isLexeme_of_special h
  · cases h

/-! ## No lexeme is longer -/

theorem length_le_withExponent (he : e = [] ∨ IsExponent e) (kind : TokenKind)
    (start rest : List Char) :
    (start ++ e).length ≤ (withExponent kind start (e ++ rest)).text.length := by
  rw [withExponent, List.length_append, List.length_append]
  rcases he with rfl | he
  · simp
  · exact Nat.add_le_add_left (length_le_exponent he rest) _

theorem head?_of_isExponent (h : IsExponent e) (rest : List Char) :
    ∀ c ∈ (e ++ rest).head?, isFigure c = false := by
  obtain ⟨d, mark, digits, rfl, hd, -, -⟩ := h
  rintro c ⟨⟩
  rcases hd with rfl | rfl <;> decide

theorem length_le_fraction {f : List Char} (hf : isNumeral f = true) (he : e = [] ∨ IsExponent e)
    (start rest : List Char) :
    (start ++ (f ++ e)).length ≤ (fraction start (f ++ (e ++ rest))).text.length := by
  have hfigures := (isNumeral_iff.1 hf).2
  rcases he with rfl | he
  · have := length_le_takeWhile hfigures rest
    simp only [fraction, withExponent, List.length_append, List.nil_append, List.append_nil]
    omega
  · obtain ⟨ht, hd⟩ := takeWhile_append_of_head? hfigures (head?_of_isExponent he rest)
    have := length_le_withExponent (.inr he) .realLiteral (start ++ f) rest
    rw [fraction, ht, hd, ← List.append_assoc]
    exact this

theorem length_le_bitString {inner : List Char} (hi : InLine inner)
    (h : bitString start (doubled '\x22' inner ++ '\x22' :: rest) = .ok l) :
    (start ++ (doubled '\x22' inner ++ ['\x22'])).length ≤ l.text.length := by
  unfold bitString at h
  split at h
  · rename_i hbody
    cases h
    have := length_le_of_delimited? hi hbody
    simp only [List.length_append] at this ⊢
    omega
  · cases h

theorem one_le_length_of_scan (hl : scan x c cs = .ok l) : 1 ≤ l.text.length := by
  obtain ⟨text, ht, -⟩ := scan_extends hl
  simp [ht]

theorem length_le_of_letters {w : List Char} (h : c :: (w ++ rest) = c :: cs)
    (hc : isLetter c = true) (hw : ∀ d ∈ w, isWordPart d = true) (hl : scan x c cs = .ok l) :
    w.length + 1 ≤ l.text.length := by
  obtain rfl := (List.cons.inj h).2
  rw [scan_of_isLetter hc] at hl
  simp only [word_eq] at hl
  obtain ⟨more, ht, -⟩ := afterWord_persists hl
  have := length_le_takeWhile hw rest
  simp only [ht, List.length_append, List.length_singleton]
  omega

/-- What starts with a numeral is as long. -/
theorem length_le_of_numeral (h : digits ++ rest = c :: cs) (hd : isNumeral digits = true)
    (hl : scan x c cs = .ok l) : digits.length ≤ l.text.length := by
  cases digits with
  | nil => cases hd
  | cons d ds =>
    rw [List.cons_append] at h
    obtain ⟨rfl, rfl⟩ := List.cons.inj h
    obtain ⟨hstart, hfigures⟩ := isNumeral_iff.1 hd
    rw [scan_of_isDigit hstart] at hl
    simp only [number_eq] at hl
    obtain ⟨more, ht, -⟩ := afterNumber_persists hl
    have := length_le_takeWhile (List.forall_mem_cons.1 hfigures).2 rest
    simp only [ht, List.length_append, List.length_cons]
    omega

theorem length_le_of_isInteger {text : List Char} (h : IsScaled IsInteger text)
    (hs : text ++ rest = c :: cs) (hl : scan x c cs = .ok l) : text.length ≤ l.text.length := by
  obtain ⟨m, e, rfl, hn | ⟨n, b, rfl, hn, hb⟩, he⟩ := h
  · rw [List.append_assoc] at hs
    rcases he with rfl | he
    · rw [List.append_nil]
      exact length_le_of_numeral hs hn hl
    · rw [scan_digits hs.symm hn (head?_of_isExponent he rest), afterNumber_exponent he] at hl
      cases hl
      simpa using length_le_withExponent (.inr he) .integerLiteral m rest
  · simp only [List.append_assoc, List.cons_append, List.nil_append] at hs
    rw [scan_digits hs.symm hn (by simp; decide), afterNumber, if_pos rfl, based_digits hb] at hl
    cases hl
    simpa using length_le_withExponent he .integerLiteral (n ++ ['#'] ++ b ++ ['#']) rest

theorem length_le_of_isReal {text : List Char} (h : IsScaled IsReal text)
    (hs : text ++ rest = c :: cs) (hl : scan x c cs = .ok l) : text.length ≤ l.text.length := by
  obtain ⟨m, e, rfl, ⟨n, f, rfl, hn, hf⟩ | ⟨n, a, b, rfl, hn, ha, hb⟩, he⟩ := h
  · simp only [List.append_assoc, List.cons_append] at hs
    have hstart := startsWithDigit_append hf (e ++ rest)
    rcases hn with rfl | hn
    · rw [List.nil_append] at hs
      obtain ⟨rfl, rfl⟩ := List.cons.inj hs
      rw [scan_of_mem_specials (by decide), special, if_pos ⟨rfl, hstart⟩] at hl
      cases hl
      simpa using length_le_fraction hf he ['.'] rest
    · rw [scan_digits hs.symm hn (by simp; decide), afterNumber_point hstart] at hl
      cases hl
      simpa using length_le_fraction hf he (n ++ ['.']) rest
  · simp only [List.append_assoc, List.cons_append, List.nil_append] at hs
    rw [scan_digits hs.symm hn (by simp; decide), afterNumber, if_pos rfl, based_point ha hb] at hl
    cases hl
    simpa using length_le_withExponent he .realLiteral (n ++ ['#'] ++ a ++ '.' :: (b ++ ['#'])) rest

theorem length_le_of_bitString {n base s : List Char} (hn : n = [] ∨ isNumeral n = true)
    (hb : isBase base = true) (h : IsQuoted '\x22' s) (hs : n ++ (base ++ s) ++ rest = c :: cs)
    (hl : scan x c cs = .ok l) : (n ++ (base ++ s)).length ≤ l.text.length := by
  obtain ⟨inner, rfl, hi⟩ := h
  simp only [List.append_assoc, List.cons_append, List.nil_append] at hs
  rcases hn with rfl | hn
  · rw [List.nil_append] at hs
    rw [scan_base hs.symm hb] at hl
    simpa using length_le_bitString hi hl
  · rw [scan_digits hs.symm hn (head?_of_isBase hb _), afterNumber_base hb] at hl
    simpa using length_le_bitString hi hl

/-- A string literal or an extended identifier. -/
theorem length_le_enclosed {kind : TokenKind} {fault : LexFault} {inner : List Char}
    (hi : InLine inner)
    (hl : enclosed kind fault q [q] (doubled q inner ++ q :: rest) = .ok l) :
    (q :: (doubled q inner ++ [q])).length ≤ l.text.length := by
  unfold enclosed at hl
  split at hl
  · rename_i hbody
    cases hl
    have := length_le_of_delimited? hi hbody
    simp only [List.length_append, List.length_cons] at this ⊢
    omega
  · cases hl

theorem special_quote (x : Context) (cs : List Char) :
    special x '\x22' cs =
      enclosed .stringLiteral .unterminatedString '\x22' ['\x22'] cs := by
  simp only [special, enclosed, Char.reduceEq, false_and, if_false, if_true]
  rfl

theorem special_backslash (x : Context) (cs : List Char) :
    special x '\x5c' cs =
      enclosed .extendedIdentifier .unterminatedExtendedIdentifier '\x5c' ['\x5c'] cs := by
  simp only [special, enclosed, Char.reduceEq, false_and, if_false, if_true]
  rfl

theorem length_le_lineEnd {close : List Char} (h : close ∈ lineEnds) (rest : List Char) :
    close.length ≤ (lineEnd (close ++ rest)).1.length := by
  simp only [lineEnds, List.mem_cons, List.not_mem_nil, or_false] at h
  rcases h with rfl | rfl | rfl
  · exact Nat.le_refl _
  · cases rest with
    | nil => exact Nat.le_refl _
    | cons d rest =>
      rw [List.singleton_append]
      unfold lineEnd
      split <;> simp_all
  · exact Nat.le_refl _

theorem length_le_singleLineComment {body close : List Char} (hb : InLine body)
    (hclose : close ∈ lineEnds ∨ close = [] ∧ rest = []) :
    (body ++ close).length + 2 ≤
      (singleLineComment '-' ('-' :: (body ++ (close ++ rest)))).text.length := by
  have hrun : ∀ d ∈ '-' :: body, (!isLineEnd d) = true :=
    List.forall_mem_cons.2 ⟨by decide, fun d hd => by simp [inLine_iff.1 hb d hd]⟩
  have hrest : ∀ d ∈ (close ++ rest).head?, (!isLineEnd d) = false := by
    rcases hclose with hclose | ⟨rfl, rfl⟩
    · simp only [lineEnds, List.mem_cons, List.not_mem_nil, or_false] at hclose
      rcases hclose with rfl | rfl | rfl <;> rintro d ⟨⟩ <;> decide
    · simp
  obtain ⟨ht, hd⟩ := takeWhile_append_of_head? hrun hrest
  rw [List.cons_append] at ht hd
  have hend : close.length ≤ (lineEnd (close ++ rest)).1.length := by
    rcases hclose with hclose | ⟨rfl, -⟩
    · exact length_le_lineEnd hclose rest
    · simp
  simp only [singleLineComment, ht, hd, List.length_append, List.length_cons]
  omega

/-! ### Symbols -/

theorem symbol_of_triple {d e : Char} {s : Compound} (h : Compound.ofTriple? c d e = some s)
    (rest : List Char) : symbol c (d :: e :: rest) = .ok ⟨.compound s, [c, d, e], rest⟩ := by
  simp [symbol, triple?, h]

theorem length_symbol_of_pair {d : Char} {s : Compound} (h : Compound.ofPair? c d = some s)
    (hl : symbol c (d :: rest) = .ok l) : 2 ≤ l.text.length := by
  unfold symbol at hl
  split at hl
  · rename_i htriple
    cases hl
    obtain ⟨d, e, s, -, -, ht⟩ := text_of_triple? htriple
    simp [ht]
  split at hl
  · cases hl
  · simp only [pair?, h, Option.map_some] at hl
    cases hl
    exact Nat.le_refl _

/-- The first two characters of a symbol start nothing else. -/
theorem special_of_pair {d : Char} {s : Compound} (h : Compound.ofPair? c d = some s) (x : Context)
    (rest : List Char) :
    c ∈ Category.specials ∧ special x c (d :: rest) = symbol c (d :: rest) := by
  unfold Compound.ofPair? at h
  split at h <;> cases h <;> exact ⟨by decide, by simp [special]⟩

theorem special_of_triple {d e : Char} {s : Compound} (h : Compound.ofTriple? c d e = some s)
    (x : Context) (rest : List Char) :
    c ∈ Category.specials ∧ special x c (d :: rest) = symbol c (d :: rest) := by
  unfold Compound.ofTriple? at h
  split at h <;> cases h <;> exact ⟨by decide, by simp [special]⟩

theorem length_le_of_compound {s : Compound} (hs : s.text.toList ++ rest = c :: cs)
    (hl : scan x c cs = .ok l) : s.text.toList.length ≤ l.text.length := by
  have hcases : (∃ c d, s.text.toList = [c, d] ∧ Compound.ofPair? c d = some s) ∨
      ∃ c d e, s.text.toList = [c, d, e] ∧ Compound.ofTriple? c d e = some s := by
    cases s <;> first
      | exact .inl ⟨_, _, rfl, rfl⟩
      | exact .inr ⟨_, _, _, rfl, rfl⟩
  rcases hcases with ⟨c, d, ht, hpair⟩ | ⟨c, d, e, ht, htriple⟩
  · rw [ht] at hs ⊢
    simp only [List.cons_append, List.nil_append] at hs
    cases hs
    obtain ⟨hc, hspecial⟩ := special_of_pair hpair x rest
    rw [scan_of_mem_specials hc, hspecial] at hl
    exact length_symbol_of_pair hpair hl
  · rw [ht] at hs ⊢
    simp only [List.cons_append, List.nil_append] at hs
    cases hs
    obtain ⟨hc, hspecial⟩ := special_of_triple htriple x (e :: rest)
    rw [scan_of_mem_specials hc, hspecial, symbol_of_triple htriple] at hl
    cases hl
    exact Nat.le_refl _

/-- **What is scanned is the longest lexeme** of all kinds that the text starts with. An apostrophe
behind a name may start a character literal, but stands for itself. -/
theorem length_le_of_isLexeme {kind : TokenKind} {text : List Char} (h : kind.IsLexeme text rest)
    (hs : text ++ rest = c :: cs) (hl : scan x c cs = .ok l) :
    text.length ≤ l.text.length ∨
      kind = .characterLiteral ∧ x.afterName = true ∧ l.kind = .character '\x27' := by
  cases kind with
  | linebreak =>
    have hmem : c = '\n' ∨ c = '\r' := by
      simp only [TokenKind.IsLexeme, lineEnds, List.mem_cons, List.not_mem_nil, or_false] at h
      rcases h with rfl | rfl | rfl <;> cases hs <;> simp
    have hc : Category.ofChar c = .linebreak := by simpa [isLineEnd] using isLineEnd_iff.2 hmem
    simp only [scan, hc, ← hs] at hl
    cases hl
    exact .inl (length_le_lineEnd h rest)
  | space | indentation =>
    obtain ⟨hne, hall⟩ := h
    obtain ⟨d, t, rfl⟩ := List.exists_cons_of_ne_nil hne
    rw [List.cons_append] at hs
    obtain ⟨rfl, rfl⟩ := List.cons.inj hs
    obtain ⟨hd, ht⟩ := List.forall_mem_cons.1 hall
    have hc : Category.ofChar d = .space := by simpa [isSpace] using hd
    simp only [scan, hc] at hl
    cases hl
    exact .inl (Nat.succ_le_succ (length_le_takeWhile ht rest))
  | word =>
    obtain ⟨d, w, rfl, hd, hw⟩ := h
    obtain rfl := (List.cons.inj hs).1
    exact .inl (length_le_of_letters hs hd hw hl)
  | integerLiteral => exact .inl (length_le_of_isInteger h hs hl)
  | realLiteral => exact .inl (length_le_of_isReal h hs hl)
  | characterLiteral =>
    obtain ⟨d, rfl, hd⟩ := h
    cases hs
    have hd : isLineEnd d = false := (inLine_cons.1 hd).1
    rw [scan_of_mem_specials (by decide)] at hl
    cases hx : x.afterName with
    | false =>
      have hspecial : special x '\x27' (d :: '\x27' :: rest) =
          .ok ⟨.characterLiteral, ['\x27', d, '\x27'], rest⟩ := by
        simp [special, apostrophe, hx, hd]
      cases hspecial.symm.trans hl
      exact .inl (Nat.le_refl _)
    | true =>
      have hspecial : special x '\x27' (d :: '\x27' :: rest) =
          .ok ⟨.character '\x27', ['\x27'], d :: '\x27' :: rest⟩ := by
        simp [special, apostrophe, hx]
      cases hspecial.symm.trans hl
      exact .inr ⟨rfl, rfl, rfl⟩
  | stringLiteral =>
    obtain ⟨inner, rfl, hi⟩ := h
    simp only [List.append_assoc, List.cons_append, List.nil_append] at hs
    cases hs
    rw [scan_of_mem_specials (by decide), special_quote] at hl
    exact .inl (length_le_enclosed hi hl)
  | bitStringLiteral =>
    obtain ⟨n, base, s, rfl, hn, hb, hq⟩ := h
    exact .inl (length_le_of_bitString hn hb hq hs hl)
  | extendedIdentifier =>
    obtain ⟨inner, rfl, hi⟩ := h
    simp only [List.append_assoc, List.cons_append, List.nil_append] at hs
    cases hs
    rw [scan_of_mem_specials (by decide), special_backslash] at hl
    exact .inl (length_le_enclosed hi hl)
  | singleLineComment =>
    obtain ⟨body, close, rfl, hb, hclose⟩ := h
    simp only [List.append_assoc, List.cons_append] at hs
    cases hs
    rw [scan_of_mem_specials (by decide)] at hl
    simp only [special, Char.reduceEq, false_and, if_false, List.head?_cons, and_self,
      if_true] at hl
    cases hl
    exact .inl (length_le_singleLineComment hb hclose)
  | multiLineComment =>
    obtain ⟨body, rfl, hb⟩ := h
    simp only [List.cons_append] at hs
    cases hs
    rw [scan_of_mem_specials (by decide)] at hl
    simp only [special, multiLineComment, commentBody?_of_closesComment hb, Char.reduceEq,
      false_and, if_false, List.head?_cons, and_self, if_true] at hl
    cases hl
    exact .inl (Nat.le_refl _)
  | compound s =>
    obtain rfl : text = s.text.toList := h
    exact .inl (length_le_of_compound hs hl)
  | character d =>
    obtain ⟨rfl, -⟩ := h
    exact .inl (one_le_length_of_scan hl)
  | startOfDocument | endOfDocument | keyword | identifier | operator => cases h

end Lexeme

/-! ## The tokens of a source text -/

/-- An apostrophe right behind the token belongs to it: a name, or a bracket that may end one. -/
def Token.takesApostrophe (t : Token) : Bool :=
  match t.kind with
  | .word => (Keyword.find? t.text).isNone
  | .extendedIdentifier => true
  | .character c => c = ')' || c = ']'
  | _ => false

theorem Lexeme.takesApostrophe_token (l : Lexeme) (k : Cursor) (c : Char) :
    (l.token k c).takesApostrophe = l.context.afterName := by
  obtain ⟨kind, text, rest⟩ := l
  cases kind <;> rfl

namespace Place

theorem Reads.eq_of_nil {p q : Place} (h : p.Reads [] q) : q = p := by
  cases h
  rfl

/-- An apostrophe belongs to the token that was read last. -/
theorem Reads.exists_takesApostrophe {p q : Place} {us : List Token} (h : p.Reads us q)
    (hp : p.context.afterName = false) (hq : q.context.afterName = true) :
    ∃ t ∈ us.getLast?, t.takesApostrophe = true := by
  obtain rfl | ⟨vs, t, rfl⟩ := List.eq_nil_or_concat us
  · cases h
    rw [hp] at hq
    cases hq
  · rw [List.concat_eq_append] at h ⊢
    obtain ⟨_, -, h⟩ := h.split
    cases h with
    | @cons _ k c _ l _ _ _ hnil =>
      rw [hnil.eq_of_nil] at hq
      exact ⟨_, List.getLast?_concat, (l.takesApostrophe_token k c).trans hq⟩

/-- A sentinel that is delivered has no text. -/
theorem text_of_isSentinel {p : Place} {t : Token} (h : .ok t ∈ p.tokens)
    (ht : t.kind.isSentinel = true) : t.text = "" := by
  obtain ⟨ts, q, hr, hq⟩ := p.exists_reads
  rw [hr.tokens, List.mem_append] at h
  rcases h with h | h
  · obtain ⟨u, hu, hok⟩ := List.mem_map.1 h
    obtain rfl := Except.ok.inj hok
    rw [(hr.of_mem hu).2] at ht
    cases ht
  · rcases hq.tokens with ⟨-, hend⟩ | ⟨c, cs, fault, -, herror⟩
    · rw [hend, List.mem_singleton] at h
      cases h
      rfl
    · rw [herror, List.mem_singleton] at h
      cases h

end Place

/-- **Every token is a lexeme of its kind, and the longest there is.** A token of a source text that
is no sentinel is a lexeme of its kind, and no other lexeme at its place is longer: but an
apostrophe behind a name stands for itself, also where it could start a character literal. Sentinels
have no text. -/
theorem tokenize_lexemes {source : String} {us : List Token} {t : Token}
    {more : List (Except LexError Token)} (h : tokenize source = us.map .ok ++ .ok t :: more) :
    (t.kind.isSentinel = true ∧ t.text = "") ∨
      ∃ rest, source.toList = (textOf us).toList ++ (t.text.toList ++ rest) ∧
        t.kind.IsLexeme t.text.toList rest ∧
        ∀ (kind : TokenKind) (text after : List Char), text ++ after = t.text.toList ++ rest →
          kind.IsLexeme text after →
          text.length ≤ t.text.length ∨
            (kind = .characterLiteral ∧ t.kind = .character '\x27' ∧
              ∃ name ∈ us.getLast?, name.takesApostrophe = true) := by
  rw [tokenize_eq] at h
  cases us with
  | nil =>
    cases h
    exact .inl ⟨rfl, rfl⟩
  | cons s us =>
    obtain ⟨hs, htokens⟩ := List.cons.inj h
    cases hs
    cases ht : t.kind.isSentinel with
    | true =>
      have hmem : .ok t ∈ (Place.ofSource source).tokens := by
        rw [htokens]
        simp
      exact .inl ⟨rfl, Place.text_of_isSentinel hmem ht⟩
    | false =>
      obtain ⟨vs, r, hr⟩ := Place.exists_reads_of_tokens htokens ht
      obtain ⟨q, hus, hq⟩ := hr.split
      cases hq with
      | @cons x k c cs l _ _ hl _ =>
        have hsource : source.toList = (textOf us).toList ++ c :: cs := hus.rest
        have happ : l.text ++ l.rest = c :: cs := (scan_extends hl).append_eq
        refine .inr ⟨l.rest, ?_, ?_, fun kind text after hprefix hkind => ?_⟩
        · simp [hsource, token, Token.startOfDocument, happ]
        · simpa [token] using isLexeme_of_scan hl
        · have hprefix : text ++ after = c :: cs := by simpa [token, happ] using hprefix
          refine (length_le_of_isLexeme hkind hprefix hl).imp (fun hle => ?_) ?_
          · simpa [token] using hle
          · rintro ⟨rfl, hx, hkind⟩
            obtain ⟨name, hname, hname'⟩ := hus.exists_takesApostrophe rfl hx
            refine ⟨rfl, hkind, name, ?_, hname'⟩
            simp [List.getLast?_cons, Option.mem_def.1 hname]

/-- An integer with a base and an exponent, and a word right behind it. -/
theorem tokenize_lexemes_based : ∃ (us : List Token) (t : Token)
    (more : List (Except LexError Token)) (rest : List Char),
    tokenize "16#F_1#e+2x" = us.map .ok ++ .ok t :: more ∧ t.text = "16#F_1#e+2" ∧
      TokenKind.integerLiteral.IsLexeme t.text.toList rest := by
  have h : tokenize "16#F_1#e+2x" = [Token.startOfDocument].map .ok ++
      .ok ⟨.integerLiteral, "16#F_1#e+2", ⟨1, 1, 0⟩, ⟨1, 10, 9⟩⟩ ::
        [.ok ⟨.word, "x", ⟨1, 11, 10⟩, ⟨1, 11, 10⟩⟩, .ok (.endOfDocument ⟨1, 12, 11⟩)] := by
    decide +kernel
  obtain ⟨hsentinel, -⟩ | ⟨rest, -, hlexeme, -⟩ := tokenize_lexemes h
  · cases hsentinel
  · exact ⟨_, _, _, rest, h, rfl, hlexeme⟩

end VhdlOutline
