import VhdlOutline.Proofs.Lexeme.Grammar
import VhdlOutline.Proofs.Lexeme.Partition

/-!
# Where no lexeme starts

Whether a text starts with a lexeme, and why not, can be told from the text alone. `LexFault.IsAt`
says for each fault what the text looks like. `Lexeme.scan_eq_error_iff` says that the scanner finds
a fault just in such a text, whatever the token before, and `tokenize_faults` says it of every
boundary between two tokens of a source text.
-/

namespace VhdlOutline

/-- What may stand before the opening quote of a literal: nothing, a base, or a length and a base.
A base has no character that a quote could be, and a length none that a base could be, so that both
are the longest of their kind. -/
def OpensString (start : List Char) : Prop :=
  start = [] ∨ Lexeme.isBase start = true ∨
    ∃ digits base, start = digits ++ base ∧ Lexeme.isNumeral digits = true ∧
      Lexeme.isBase base = true

/-- What a text looks like that does not start with a lexeme for the given reason. -/
def LexFault.IsAt : LexFault → List Char → Prop
  | .unterminatedString, cs =>
    ∃ start rest, cs = start ++ '\x22' :: rest ∧ OpensString start ∧ ¬ Lexeme.IsClosed '\x22' rest
  | .unterminatedExtendedIdentifier, cs =>
    ∃ rest, cs = '\x5c' :: rest ∧ ¬ Lexeme.IsClosed '\x5c' rest
  | .unterminatedComment, cs => ∃ rest, cs = '/' :: '*' :: rest ∧ ¬ ['*', '/'] <:+: rest
  | .unterminatedBasedLiteral, cs =>
    ∃ digits rest, cs = digits ++ '#' :: rest ∧ Lexeme.isNumeral digits = true ∧
      ¬ ∃ body more, rest = body ++ '#' :: more ∧ Lexeme.IsBased body
  | .incompleteOperator, cs => ∃ rest, cs = '?' :: '/' :: rest ∧ rest.head? ≠ some '='
  | .illegalCharacter c, cs => cs.head? = some c ∧ (c = '_' ∨ Category.ofChar c = .other)

namespace Lexeme

variable {x : Context} {c : Char} {cs start digits : List Char} {fault : LexFault}

/-! ## The faults of the scanners -/

theorem bitString_eq_error_iff : bitString start cs = .error fault ↔
    fault = .unterminatedString ∧ ¬ IsClosed '\x22' cs := by
  rw [← delimited?_eq_none_iff (by decide), bitString]
  cases delimited? '\x22' cs <;> simp [eq_comm]

theorem isAt_of_afterWord {run rest : List Char} (h : afterWord run rest = .error fault) :
    fault.IsAt (run ++ rest) := by
  cases rest with
  | nil => cases h
  | cons d rest =>
    by_cases hd : d = '\x22' ∧ isBase run = true
    · rw [afterWord, if_pos hd] at h
      obtain ⟨rfl, hclosed⟩ := bitString_eq_error_iff.1 h
      exact ⟨run, rest, by rw [hd.1], .inr (.inl hd.2), hclosed⟩
    · rw [afterWord, if_neg hd] at h
      cases h

theorem isAt_of_afterNumber {rest : List Char} (hd : isNumeral digits = true)
    (h : afterNumber digits rest = .error fault) : fault.IsAt (digits ++ rest) := by
  cases rest with
  | nil => cases h
  | cons d rest =>
    by_cases hsharp : d = '#'
    · rw [afterNumber, if_pos hsharp] at h
      obtain ⟨rfl, hbased⟩ := based_eq_error_iff.1 h
      exact ⟨digits, rest, by rw [hsharp], hd, hbased⟩
    by_cases hpoint : d = '.' ∧ startsWithDigit rest = true
    · rw [afterNumber, if_neg hsharp, if_pos hpoint] at h
      cases h
    rw [afterNumber, if_neg hsharp, if_neg hpoint] at h
    cases hb : bitStringStart? (d :: rest) with
    | none =>
      rw [hb] at h
      cases h
    | some p =>
      rw [hb] at h
      obtain ⟨rfl, hclosed⟩ := bitString_eq_error_iff.1 h
      obtain ⟨base, hbase, hstart⟩ := isBase_of_bitStringStart? hb
      refine ⟨digits ++ base, p.2, ?_, .inr (.inr ⟨digits, base, rfl, hd, hbase⟩), hclosed⟩
      rw [← bitStringStart?_append hb, hstart]
      simp

theorem isAt_of_symbol (hc : Category.ofChar c = .special) (hq : c ≠ '\x22') (hb : c ≠ '\x5c')
    (h : symbol c cs = .error fault) : fault.IsAt (c :: cs) := by
  unfold symbol at h
  split at h
  · cases h
  rename_i htriple
  split at h
  · rename_i hsome
    obtain ⟨rfl, hslash⟩ := hsome
    cases h
    cases cs with
    | nil => cases hslash
    | cons d ds =>
      obtain rfl := Option.some.inj hslash
      refine ⟨ds, rfl, fun heq => ?_⟩
      cases ds with
      | nil => cases heq
      | cons e es =>
        obtain rfl := Option.some.inj heq
        cases htriple
  split at h
  · cases h
  split at h
  · cases h
  · rename_i hpunctuation
    cases h
    -- The underscore is the only special character left.
    have hall : ∀ d ∈ Category.specials, d ≠ '\x22' → d ≠ '\x5c' → isPunctuation d ≠ true →
        d = '_' := by
      simp [Category.specials, isPunctuation]
    exact ⟨rfl, .inl (hall c (Category.ofChar_eq_special_iff.1 hc) hq hb hpunctuation)⟩

theorem isAt_of_special (hc : Category.ofChar c = .special) (h : special x c cs = .error fault) :
    fault.IsAt (c :: cs) := by
  unfold special at h
  split at h
  · cases h
  split at h
  · cases h
  split at h
  · rename_i hopen
    obtain ⟨rfl, hstar⟩ := hopen
    cases cs with
    | nil => cases hstar
    | cons d ds =>
      obtain rfl := Option.some.inj hstar
      simp only [multiLineComment] at h
      cases hb : commentBody? ds with
      | some p =>
        rw [hb] at h
        cases h
      | none =>
        rw [hb] at h
        cases h
        exact ⟨ds, rfl, commentBody?_eq_none_iff.1 hb⟩
  split at h
  · rename_i hquote
    subst hquote
    cases hd : delimited? '\x22' cs with
    | some p =>
      rw [hd] at h
      cases h
    | none =>
      rw [hd] at h
      cases h
      exact ⟨[], cs, rfl, .inl rfl, (delimited?_eq_none_iff (by decide)).1 hd⟩
  rename_i hquote
  split at h
  · cases h
  split at h
  · rename_i hback
    subst hback
    cases hd : delimited? '\x5c' cs with
    | some p =>
      rw [hd] at h
      cases h
    | none =>
      rw [hd] at h
      cases h
      exact ⟨cs, rfl, (delimited?_eq_none_iff (by decide)).1 hd⟩
  · rename_i hback
    exact isAt_of_symbol hc hquote hback h

theorem isAt_of_scan (h : scan x c cs = .error fault) : fault.IsAt (c :: cs) := by
  unfold scan at h
  split at h
  · cases h
  · cases h
  · simp only [word_eq] at h
    simpa using isAt_of_afterWord h
  · rename_i hc
    simp only [number_eq] at h
    have hd : isNumeral (c :: cs.takeWhile isFigure) = true :=
      isNumeral_cons_takeWhile (by simp [isDigit, hc])
    simpa using isAt_of_afterNumber hd h
  · rename_i hc
    exact isAt_of_special hc h
  · rename_i hc
    cases h
    exact ⟨rfl, .inr hc⟩

/-- A text that looks like this is found at fault. -/
theorem scan_of_isAt (h : fault.IsAt (c :: cs)) : scan x c cs = .error fault := by
  cases fault with
  | unterminatedString =>
    obtain ⟨start, rest, hs, hopens, hclosed⟩ := h
    have hbody (start : List Char) : bitString start rest = .error .unterminatedString :=
      bitString_eq_error_iff.2 ⟨rfl, hclosed⟩
    rcases hopens with rfl | hbase | ⟨digits, base, rfl, hd, hbase⟩
    · obtain ⟨rfl, rfl⟩ := List.cons.inj hs
      have hnone := (delimited?_eq_none_iff (by decide)).2 hclosed
      rw [scan_of_mem_specials (by decide)]
      simp [special, hnone]
    · rw [scan_base hs hbase, hbody]
    · rw [List.append_assoc] at hs
      rw [scan_digits hs hd (head?_of_isBase hbase _), afterNumber_base hbase, hbody]
  | unterminatedExtendedIdentifier =>
    obtain ⟨rest, hs, hclosed⟩ := h
    obtain ⟨rfl, rfl⟩ := List.cons.inj hs
    have hnone := (delimited?_eq_none_iff (by decide)).2 hclosed
    rw [scan_of_mem_specials (by decide)]
    simp [special, hnone]
  | unterminatedComment =>
    obtain ⟨rest, hs, hend⟩ := h
    obtain ⟨rfl, rfl⟩ := List.cons.inj hs
    rw [scan_of_mem_specials (by decide)]
    simp [special, multiLineComment, commentBody?_eq_none_iff.2 hend]
  | unterminatedBasedLiteral =>
    obtain ⟨digits, rest, hs, hd, hbased⟩ := h
    rw [scan_digits hs hd (by simp; decide), afterNumber, if_pos rfl]
    exact based_eq_error_iff.2 ⟨rfl, hbased⟩
  | incompleteOperator =>
    obtain ⟨rest, hs, heq⟩ := h
    obtain ⟨rfl, rfl⟩ := List.cons.inj hs
    have htriple : triple? '?' ('/' :: rest) = none := by
      cases rest with
      | nil => rfl
      | cons d rest =>
        have hd : d ≠ '=' := by simpa using heq
        simp [triple?, Compound.ofTriple?, hd]
    rw [scan_of_mem_specials (by decide)]
    simp [special, symbol, htriple]
  | illegalCharacter d =>
    obtain ⟨hhead, hd⟩ := h
    obtain rfl := Option.some.inj hhead
    rcases hd with rfl | hd
    · rw [scan_of_mem_specials (by decide)]
      have htriple : triple? '_' cs = none := by
        unfold triple?
        split <;> rfl
      have hpair : pair? '_' cs = none := by
        unfold pair?
        split <;> rfl
      simp [special, symbol, htriple, hpair, show isPunctuation '_' = false by decide]
    · simp only [scan, hd]

/-- **The faults of the scanner.** -/
theorem scan_eq_error_iff : scan x c cs = .error fault ↔ fault.IsAt (c :: cs) :=
  ⟨isAt_of_scan, scan_of_isAt⟩

end Lexeme

/-! ## Boundaries between tokens -/

namespace Place

/-- Tokens that the lexer delivers first lead to a place, or end with the end of the document. -/
theorem reads_of_prefix {p : Place} {us : List Token} (h : us.map .ok <+: p.tokens) :
    (∃ q, p.Reads us q) ∨
      ∃ ts q, p.Reads ts q ∧ q.rest = [] ∧ us = ts ++ [.endOfDocument q.cursor.endPosition] := by
  obtain ⟨ts, q, hr, hq⟩ := p.exists_reads
  obtain ⟨last, hlast, -⟩ := hq.exists_last
  rw [hr.tokens, hlast, List.prefix_concat_iff] at h
  rcases h with h | h
  · -- All has been delivered, so there was no error.
    obtain ⟨us', es, rfl, hus, hes⟩ := List.map_eq_append_iff.1 h
    obtain ⟨e, rfl, he⟩ := List.map_eq_singleton_iff.1 hes
    obtain rfl := (List.map_inj_right fun _ _ => Except.ok.inj).1 hus
    rcases hq.tokens with ⟨hnil, hend⟩ | ⟨c, cs, fault, -, herror⟩
    · rw [hlast, ← he] at hend
      cases hend
      exact .inr ⟨_, q, hr, hnil, rfl⟩
    · rw [hlast, ← he] at herror
      cases herror
  · obtain ⟨vs, ⟨ws, rfl⟩, hvs⟩ := List.prefix_map_iff.1 h
    obtain rfl := (List.map_inj_right fun _ _ => Except.ok.inj).1 hvs
    obtain ⟨q', hq', -⟩ := hr.split
    exact .inl ⟨q', hq'⟩

/-- What the lexer delivers next at a place before the end of the text. -/
theorem exists_next (x : Lexeme.Context) (k : Cursor) (c : Char) (cs : List Char) :
    ∃ next, (mk x k (c :: cs)).tokens.head? = some next ∧
      (∀ fault, (∃ e : LexError, next = .error e ∧ e.fault = fault) ↔ fault.IsAt (c :: cs)) ∧
      (∀ e : LexError, next = .error e → e.position = k.stamp c) ∧
      ((∃ t, next = .ok t) ↔ ∀ fault : LexFault, ¬ fault.IsAt (c :: cs)) := by
  simp only [← Lexeme.scan_eq_error_iff (x := x)]
  cases hs : Lexeme.scan x c cs with
  | error f =>
    rw [tokens_of_error hs]
    exact ⟨_, rfl, by simp, by simp [eq_comm], by simp⟩
  | ok l =>
    rw [tokens_of_ok hs]
    exact ⟨_, rfl, by simp, by simp, by simp⟩

end Place

/-- **The faults of the lexer.** Tokens that have been delivered, the start of the document among
them, make up a first part of the source text. If text remains, then another item follows. It is an
error with a given fault just if the remaining text looks like that, and the error stands at the
first character of it; and it is a token if the remaining text looks like none of the faults. -/
theorem tokenize_faults {source : String} {us : List Token} (hne : us ≠ [])
    (h : us.map .ok <+: tokenize source) :
    ∃ rest, source.toList = (textOf us).toList ++ rest ∧ (rest ≠ [] →
      ∃ next, (tokenize source)[us.length]? = some next ∧
        (∀ fault, (∃ e : LexError, next = .error e ∧ e.fault = fault) ↔ fault.IsAt rest) ∧
        (∀ e : LexError, next = .error e →
          e.position = .ofIndex source.toList (textOf us).length) ∧
        ((∃ t, next = .ok t) ↔ ∀ fault : LexFault, ¬ fault.IsAt rest)) := by
  obtain ⟨t, us, rfl⟩ := List.exists_cons_of_ne_nil hne
  rw [tokenize_eq, List.map_cons, List.cons_prefix_cons] at h
  obtain ⟨ht, h⟩ := h
  cases ht
  rw [tokenize_eq, textOf_cons, show Token.startOfDocument.text = "" from rfl, String.empty_append,
    List.length_cons, List.getElem?_cons_succ]
  rcases Place.reads_of_prefix h with ⟨⟨x, k, cs⟩, hq⟩ | ⟨ts, q, hq, hnil, rfl⟩
  · refine ⟨cs, hq.rest, fun hcs => ?_⟩
    obtain ⟨c, cs, rfl⟩ := List.exists_cons_of_ne_nil hcs
    obtain ⟨next, hnext, hfault, hposition, htoken⟩ := Place.exists_next x k c cs
    refine ⟨next, ?_, hfault, fun e he => (hposition e he).trans ?_, htoken⟩
    · rw [hq.tokens, List.getElem?_append_right (by simp)]
      simpa [List.head?_eq_getElem?] using hnext
    · refine hq.cursor_at.stamp ?_
      have hrest : source.toList = (textOf us).toList ++ c :: cs := hq.rest
      rw [hrest, ← String.length_toList, List.getElem?_append_right (Nat.le_refl _)]
      simp
  · refine ⟨[], ?_, fun h => absurd rfl h⟩
    have hrest : source.toList = (textOf ts).toList ++ q.rest := hq.rest
    simpa [hnil, Token.endOfDocument] using hrest

/-- A comment without an end, behind two other tokens. -/
theorem tokenize_faults_comment : ∃ us rest,
    us.map .ok <+: tokenize "a /*" ∧ "a /*".toList = (textOf us).toList ++ rest ∧
      ∃ e : LexError, (tokenize "a /*")[us.length]? = some (.error e) ∧
        e.fault = .unterminatedComment := by
  have h : [Token.startOfDocument, ⟨.word, "a", ⟨1, 1, 0⟩, ⟨1, 1, 0⟩⟩,
      ⟨.space, " ", ⟨1, 2, 1⟩, ⟨1, 2, 1⟩⟩].map .ok <+: tokenize "a /*" := by
    decide +kernel
  obtain ⟨rest, hs, hnext⟩ := tokenize_faults (by simp) h
  obtain rfl : rest = ['/', '*'] := by simpa [textOf, Token.startOfDocument] using hs.symm
  obtain ⟨next, hget, hfault, -, -⟩ := hnext (by simp)
  obtain ⟨e, rfl, he⟩ := (hfault .unterminatedComment).2 ⟨[], rfl, by simp⟩
  exact ⟨_, _, h, hs, e, hget, he⟩

end VhdlOutline
