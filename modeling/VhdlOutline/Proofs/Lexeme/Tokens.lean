import VhdlOutline.Lexeme.Tokens

/-!
# The tokens of a source text make it up

A lexeme is never a sentinel, and no word or symbol is settled yet (`Lexeme.isLexical_of_scan`).
Hence the end of the document is the last token that `tokenize` delivers, and the tokens before it
make up the source text.
-/

namespace VhdlOutline

/-- The kinds of the tokens at both ends of a document. -/
def TokenKind.isSentinel : TokenKind → Bool
  | .startOfDocument | .endOfDocument => true
  | _ => false

/-- The kinds of lexemes. Words and symbols have not been settled. -/
def TokenKind.isLexical : TokenKind → Bool
  | .startOfDocument | .endOfDocument | .keyword _ | .identifier | .operator _ => false
  | _ => true

theorem TokenKind.not_isSentinel_of_isLexical {k : TokenKind} (h : k.isLexical = true) :
    k.isSentinel = false := by
  cases k <;> first | rfl | cases h

namespace Lexeme

theorem isLexical_of_bitString {start cs : List Char} {l : Lexeme}
    (h : bitString start cs = .ok l) : l.kind.isLexical = true := by
  unfold bitString at h
  split at h <;> cases h
  rfl

theorem isLexical_of_word {c : Char} {cs : List Char} {l : Lexeme} (h : word c cs = .ok l) :
    l.kind.isLexical = true := by
  simp only [word] at h
  split at h
  · cases h
    rfl
  · split at h
    · exact isLexical_of_bitString h
    · cases h
      rfl

theorem isLexical_of_based {start cs : List Char} {l : Lexeme} (h : based start cs = .ok l) :
    l.kind.isLexical = true := by
  simp only [based] at h
  split at h
  · cases h
  split at h
  · cases h
    rfl
  split at h
  · split at h
    · cases h
    · split at h <;> cases h
      rfl
  · cases h

theorem isLexical_of_number {c : Char} {cs : List Char} {l : Lexeme}
    (h : number c cs = .ok l) : l.kind.isLexical = true := by
  simp only [number] at h
  split at h
  · cases h
    rfl
  split at h
  · exact isLexical_of_based h
  split at h
  · cases h
    rfl
  split at h
  · exact isLexical_of_bitString h
  · cases h
    rfl

theorem isLexical_of_symbol {c : Char} {cs : List Char} {l : Lexeme}
    (h : symbol c cs = .ok l) : l.kind.isLexical = true := by
  unfold symbol triple? pair? at h
  split at h
  · rename_i ht
    cases h
    split at ht
    · obtain ⟨s, -, rfl⟩ := Option.map_eq_some_iff.1 ht
      rfl
    · cases ht
  split at h
  · cases h
  split at h
  · rename_i hp
    cases h
    split at hp
    · obtain ⟨s, -, rfl⟩ := Option.map_eq_some_iff.1 hp
      rfl
    · cases hp
  · split at h <;> cases h
    rfl

theorem isLexical_of_special {x : Context} {c : Char} {cs : List Char} {l : Lexeme}
    (h : special x c cs = .ok l) : l.kind.isLexical = true := by
  unfold special at h
  split at h
  · cases h
    rfl
  split at h
  · cases h
    rfl
  split at h
  · unfold multiLineComment at h
    split at h
    · cases h
    · split at h <;> cases h
      rfl
  split at h
  · split at h <;> cases h
    rfl
  split at h
  · cases h
    unfold apostrophe
    split
    · split <;> rfl
    · rfl
  split at h
  · split at h <;> cases h
    rfl
  · exact isLexical_of_symbol h

/-- What has been scanned is neither a sentinel nor settled. -/
theorem isLexical_of_scan {x : Context} {c : Char} {cs : List Char} {l : Lexeme}
    (h : scan x c cs = .ok l) : l.kind.isLexical = true := by
  unfold scan at h
  split at h
  · cases h
    rfl
  · cases h
    dsimp only
    split <;> rfl
  · exact isLexical_of_word h
  · exact isLexical_of_number h
  · exact isLexical_of_special h
  · cases h

theorem not_isSentinel_of_scan {x : Context} {c : Char} {cs : List Char} {l : Lexeme}
    (h : scan x c cs = .ok l) : l.kind.isSentinel = false :=
  TokenKind.not_isSentinel_of_isLexical (isLexical_of_scan h)

end Lexeme

/-- The tokens of a source text are lexemes, but for those at its ends. -/
theorem isLexical_of_mem_tokensFrom {x : Lexeme.Context} {k : Cursor} {cs : List Char} {t : Token}
    (h : .ok t ∈ tokensFrom x k cs) : t.kind.isLexical = true ∨ t.kind.isSentinel = true := by
  fun_induction tokensFrom x k cs with
  | case1 =>
    simp only [List.mem_singleton, Except.ok.injEq] at h
    rw [h]
    exact .inr rfl
  | case2 => simp at h
  | case3 x k c cs l hs ih =>
    rcases List.mem_cons.1 h with h | h
    · cases h
      exact .inl (Lexeme.isLexical_of_scan hs)
    · exact ih h

theorem isLexical_of_mem_tokenize {source : String} {t : Token} (h : .ok t ∈ tokenize source) :
    t.kind.isLexical = true ∨ t.kind.isSentinel = true := by
  rcases List.mem_cons.1 h with h | h
  · cases h
    exact .inr rfl
  · exact isLexical_of_mem_tokensFrom h

/-- The tokens `us` consist of others than sentinels and the end of the document. -/
def EndsDocument (us : List Token) : Prop :=
  ∃ body e, us = body ++ [e] ∧ e.kind = .endOfDocument ∧ ∀ t ∈ body, t.kind.isSentinel = false

/-- Tokens up to the end of the document are all the tokens there are, and make up the text. -/
theorem tokensFrom_ends {x : Lexeme.Context} {k : Cursor} {cs : List Char} {us : List Token}
    {rest : List (Except LexError Token)} (h : tokensFrom x k cs = us.map .ok ++ rest)
    (he : ∃ e ∈ us.getLast?, e.kind = .endOfDocument) :
    rest = [] ∧ EndsDocument us ∧ String.join (us.map Token.text) = String.ofList cs := by
  obtain ⟨e, hlast, hkind⟩ := he
  fun_induction tokensFrom x k cs generalizing us with
  | case1 x k =>
    cases us with
    | nil => cases hlast
    | cons u us =>
      simp only [List.map_cons, List.cons_append, List.cons.injEq, Except.ok.injEq,
        List.nil_eq, List.append_eq_nil_iff, List.map_eq_nil_iff] at h
      obtain ⟨rfl, rfl, rfl⟩ := h
      exact ⟨rfl, ⟨[], _, rfl, rfl, by simp⟩, by simp⟩
  | case2 x k c cs fault hs =>
    cases us with
    | nil => cases hlast
    | cons u us => simp at h
  | case3 x k c cs l hs ih =>
    cases us with
    | nil => cases hlast
    | cons u us =>
      simp only [List.map_cons, List.cons_append, List.cons.injEq, Except.ok.injEq] at h
      obtain ⟨rfl, h⟩ := h
      have hsent := Lexeme.not_isSentinel_of_scan hs
      cases us with
      | nil =>
        -- A lexeme is not the end of the document.
        cases hlast
        rw [show l.kind = .endOfDocument from hkind] at hsent
        cases hsent
      | cons u' us =>
        obtain ⟨rfl, ⟨body, e, he, hek, hbody⟩, htext⟩ := ih h (by simpa using hlast)
        refine ⟨rfl, ⟨l.token k c :: body, e, by simp [he], hek, ?_⟩, ?_⟩
        · intro t ht
          rcases List.mem_cons.1 ht with rfl | ht
          · exact hsent
          · exact hbody t ht
        · have := (Lexeme.scan_extends hs).append_eq
          rw [List.map_cons, String.join_cons, htext, Lexeme.token, ← String.ofList_append, this]
          rfl

/-- A source text is made up by its tokens, of which the first is the start of the document and the
last its end. -/
theorem tokenize_ends {source : String} {us : List Token} {rest : List (Except LexError Token)}
    (h : tokenize source = us.map .ok ++ rest)
    (he : ∃ e ∈ us.getLast?, e.kind = .endOfDocument) :
    rest = [] ∧ String.join (us.map Token.text) = source ∧
      ∃ s vs, us = s :: vs ∧ s.kind = .startOfDocument ∧ EndsDocument vs := by
  obtain ⟨e, hlast, hkind⟩ := he
  cases us with
  | nil => cases hlast
  | cons u us =>
    simp only [tokenize, List.map_cons, List.cons_append, List.cons.injEq, Except.ok.injEq] at h
    obtain ⟨rfl, h⟩ := h
    cases us with
    | nil =>
      cases hlast
      cases hkind
    | cons u' us =>
      obtain ⟨rfl, hends, htext⟩ := tokensFrom_ends h ⟨e, by simpa using hlast, hkind⟩
      refine ⟨rfl, ?_, _, _, rfl, rfl, hends⟩
      rw [List.map_cons, String.join_cons, htext]
      simp

end VhdlOutline
