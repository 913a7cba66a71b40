import VhdlOutline.Proofs.Lexeme.Lexemes

/-!
# Tokens next to each other

Blanks and apostrophes are read in the light of the token before them, and of that token alone: what
the lexer remembers at a place is the context of the token that ends there (`Place.Reads.context`).
`tokenize_neighbours` says what follows for two tokens in a row. That neither two words nor two runs
of blanks stand next to each other needs no look at the scanner: joined they would be a lexeme, and
a longer one than the first of the two.
-/

namespace VhdlOutline

open Lexeme

/-! ## What the lexer remembers of a token -/

namespace Token

/-- The line ends with the token: a line break, or a comment up to the end of its line. -/
def endsLine (t : Token) : Bool := t.kind = .linebreak || t.kind = .singleLineComment

/-- What the lexer remembers of the token. -/
def context (t : Token) : Context := ⟨t.endsLine, t.takesApostrophe⟩

/-- The token is a run of blanks. -/
def IsBlankRun (t : Token) : Prop := t.text ≠ "" ∧ ∀ c ∈ t.text.toList, isSpace c = true

variable {t : Token}

theorem endsLine_iff : t.endsLine = true ↔ t.kind = .linebreak ∨ t.kind = .singleLineComment := by
  simp [endsLine]

theorem takesApostrophe_iff : t.takesApostrophe = true ↔
    t.kind = .word ∧ Keyword.find? t.text = none ∨ t.kind = .extendedIdentifier ∨
      t.kind = .character ')' ∨ t.kind = .character ']' := by
  unfold takesApostrophe
  cases t.kind <;> simp

theorem IsBlankRun.ne_startOfDocument (h : t.IsBlankRun) : t ≠ .startOfDocument := by
  rintro rfl
  exact h.1 rfl

theorem IsBlankRun.ne_endOfDocument (h : t.IsBlankRun) (e : Position) : t ≠ .endOfDocument e := by
  rintro rfl
  exact h.1 rfl

end Token

theorem Lexeme.context_token (l : Lexeme) (k : Cursor) (c : Char) :
    (l.token k c).context = l.context :=
  congrArg (Context.mk _) (l.takesApostrophe_token k c)

namespace Place

variable {p q : Place} {us : List Token} {t u v : Token} {more : List (Except LexError Token)}

/-- The context of a place is that of the token that ends there. -/
theorem Reads.context (h : p.Reads (us ++ [t]) q) : q.context = t.context := by
  obtain ⟨_, -, h⟩ := h.split
  cases h with
  | cons _ hnil =>
    rw [hnil.eq_of_nil, Lexeme.context_token]
    rfl

/-! ## Two tokens in a row -/

/-- A token other than the end of the document is read at the place where it is delivered. -/
theorem exists_scan (h : p.tokens = .ok t :: more) (ht : ∀ e, t ≠ .endOfDocument e) :
    ∃ c cs l, p.rest = c :: cs ∧ scan p.context c cs = .ok l ∧ t = l.token p.cursor c ∧
      (after p.cursor l).tokens = more := by
  obtain ⟨x, k, _ | ⟨c, cs⟩⟩ := p
  · rw [tokens_nil] at h
    cases h
    exact absurd rfl (ht _)
  · cases hs : scan x c cs with
    | error fault =>
      rw [tokens_of_error hs] at h
      cases h
    | ok l =>
      rw [tokens_of_ok hs] at h
      obtain ⟨ht, htail⟩ := List.cons.inj h
      exact ⟨c, cs, l, rfl, hs, (Except.ok.inj ht).symm, htail⟩

/-- Nothing is delivered after the end of the document. -/
theorem ne_endOfDocument (h : p.tokens = .ok u :: .ok v :: more) (e : Position) :
    u ≠ .endOfDocument e := by
  rintro rfl
  obtain ⟨ts, q, hr, hq⟩ := p.exists_reads
  obtain ⟨last, hlast, -⟩ := hq.exists_last
  rw [hr.tokens, hlast] at h
  cases ts with
  | nil => cases h
  | cons t ts =>
    have ht := (hr.of_mem List.mem_cons_self).1
    rw [Except.ok.inj (List.cons.inj h).1] at ht
    exact ht rfl

/-- What is delivered before a token is read on the way to its place. -/
theorem exists_reads_before (h : p.tokens = us.map .ok ++ .ok v :: more) :
    ∃ q, p.Reads us q ∧ q.tokens = .ok v :: more := by
  rcases reads_of_prefix ⟨_, h.symm⟩ with ⟨q, hq⟩ | ⟨ts, q, hq, hnil, rfl⟩
  · refine ⟨q, hq, ?_⟩
    rw [hq.tokens] at h
    exact List.append_cancel_left h
  · rw [hq.tokens, List.map_append, List.append_assoc] at h
    exact absurd rfl (ne_endOfDocument (List.append_cancel_left h) _)

/-- Two tokens in a row are lexemes of their kinds. Joined they are none, unless a character
literal: the first of them would not be the longest. -/
theorem exists_isLexeme (h : p.tokens = .ok u :: .ok v :: more)
    (hv : ∀ e, v ≠ .endOfDocument e) :
    ∃ rest rest', u.kind.IsLexeme u.text.toList rest ∧ v.kind.IsLexeme v.text.toList rest' ∧
      ∀ kind : TokenKind, kind ≠ .characterLiteral →
        ¬ kind.IsLexeme (u.text.toList ++ v.text.toList) rest' := by
  obtain ⟨c, cs, l, -, hl, rfl, htail⟩ := exists_scan h (ne_endOfDocument h)
  obtain ⟨d, ds, l', hrest, hl', rfl, -⟩ := exists_scan htail hv
  simp only [token, String.toList_ofList]
  refine ⟨l.rest, l'.rest, isLexeme_of_scan hl, isLexeme_of_scan hl', fun kind hkind hlex => ?_⟩
  have happ : l.text ++ l.rest = c :: cs := (scan_extends hl).append_eq
  have happ' : l'.text ++ l'.rest = d :: ds := (scan_extends hl').append_eq
  have hrest : l.rest = d :: ds := hrest
  rw [hrest, ← happ', ← List.append_assoc] at happ
  rcases length_le_of_isLexeme hlex happ hl with hle | ⟨hliteral, -⟩
  · have hpos := one_le_length_of_scan hl'
    rw [List.length_append] at hle
    omega
  · exact hkind hliteral

end Place

/-! ## Blanks and apostrophes -/

namespace Lexeme

variable {x : Context} {c : Char} {cs : List Char} {l : Lexeme}

/-- A lexeme that starts with a blank. -/
theorem kind_of_isSpace (hc : isSpace c = true) (h : scan x c cs = .ok l) :
    l.kind = if x.afterLine then .indentation else .space := by
  have hc : Category.ofChar c = .space := by simpa [isSpace] using hc
  simp only [scan, hc] at h
  cases h
  rfl

/-- The text starts with what may be a character literal. -/
def StartsLiteral (cs : List Char) : Prop :=
  ∃ d rest, cs = '\x27' :: d :: '\x27' :: rest ∧ d ≠ '\n' ∧ d ≠ '\r'

theorem apostrophe_of_startsLiteral (hx : x.afterName = false)
    (h : StartsLiteral ('\x27' :: cs)) :
    ∃ d rest, apostrophe x '\x27' cs = ⟨.characterLiteral, ['\x27', d, '\x27'], rest⟩ := by
  obtain ⟨d, rest, hs, hn, hr⟩ := h
  obtain ⟨-, rfl⟩ := List.cons.inj hs
  have hd : isLineEnd d = false := by simp [← Bool.not_eq_true, isLineEnd_iff, hn, hr]
  exact ⟨d, rest, by simp [apostrophe, hx, hd]⟩

theorem apostrophe_of_not (h : ¬ (x.afterName = false ∧ StartsLiteral ('\x27' :: cs))) :
    apostrophe x '\x27' cs = ⟨.character '\x27', ['\x27'], cs⟩ := by
  unfold apostrophe
  split
  · rename_i d e rest
    rw [if_neg]
    rintro ⟨hx, rfl, hd⟩
    have hd : ¬ (d = '\n' ∨ d = '\r') := by
      rw [← isLineEnd_iff]
      simpa using hd
    exact h ⟨by simpa using hx, d, rest, rfl, fun hn => hd (.inl hn), fun hr => hd (.inr hr)⟩
  · rfl

/-- A lexeme that starts with an apostrophe is a character literal or the apostrophe alone. -/
theorem scan_apostrophe (h : scan x '\x27' cs = .ok l) :
    (l.kind = .characterLiteral ∧ l.text.length = 3 ↔
        x.afterName = false ∧ StartsLiteral ('\x27' :: cs)) ∧
      (l.kind = .characterLiteral ∧ l.text.length = 3 ∨
        l.kind = .character '\x27' ∧ l.text = ['\x27']) := by
  have hspecial : special x '\x27' cs = .ok (apostrophe x '\x27' cs) := by simp [special]
  rw [scan_of_mem_specials (by decide), hspecial] at h
  cases h
  by_cases hlit : x.afterName = false ∧ StartsLiteral ('\x27' :: cs)
  · obtain ⟨d, rest, hap⟩ := apostrophe_of_startsLiteral hlit.1 hlit.2
    rw [hap]
    exact ⟨iff_of_true ⟨rfl, rfl⟩ hlit, .inl ⟨rfl, rfl⟩⟩
  · rw [apostrophe_of_not hlit]
    exact ⟨iff_of_false (by simp) hlit, .inr ⟨rfl, rfl⟩⟩

end Lexeme

/-! ## The tokens of a source text -/

section Neighbours

variable {source : String} {us : List Token} {u v : Token} {more : List (Except LexError Token)}

/-- The place between two tokens. -/
theorem exists_place_between (h : tokenize source = us.map .ok ++ .ok u :: .ok v :: more) :
    ∃ q : Place, source.toList = (textOf us).toList ++ (u.text.toList ++ q.rest) ∧
      q.context = u.context ∧ q.tokens = .ok v :: more := by
  rw [tokenize_eq] at h
  cases us with
  | nil =>
    obtain ⟨hu, htokens⟩ := List.cons.inj h
    cases hu
    exact ⟨.ofSource source, rfl, rfl, htokens⟩
  | cons s us =>
    obtain ⟨hs, htokens⟩ := List.cons.inj h
    cases hs
    have htokens : (Place.ofSource source).tokens = (us ++ [u]).map .ok ++ .ok v :: more := by
      simpa using htokens
    obtain ⟨q, hq, hnext⟩ := Place.exists_reads_before htokens
    have hrest : source.toList = (textOf (us ++ [u])).toList ++ q.rest := hq.rest
    exact ⟨q, by simpa [Token.startOfDocument] using hrest, hq.context, hnext⟩

/-- Two tokens after the start of the document are delivered at a place before both. -/
theorem exists_place_before (h : tokenize source = us.map .ok ++ .ok u :: .ok v :: more)
    (hu : u ≠ .startOfDocument) : ∃ p : Place, p.tokens = .ok u :: .ok v :: more := by
  rw [tokenize_eq] at h
  cases us with
  | nil => exact absurd (Except.ok.inj (List.cons.inj h).1).symm hu
  | cons s us =>
    obtain ⟨p, -, hp⟩ := Place.exists_reads_before (List.cons.inj h).2
    exact ⟨p, hp⟩

/-- A run of blanks tells whether a line ended before it. -/
theorem kind_of_isBlankRun (h : tokenize source = us.map .ok ++ .ok u :: .ok v :: more)
    (hv : v.IsBlankRun) : v.kind = if u.endsLine then .indentation else .space := by
  obtain ⟨q, -, hcontext, hq⟩ := exists_place_between h
  obtain ⟨c, cs, l, -, hl, rfl, -⟩ := Place.exists_scan hq hv.ne_endOfDocument
  obtain ⟨text, ht, -⟩ := scan_extends hl
  have hc : isSpace c = true := hv.2 c (by simp [token, ht])
  rw [hcontext] at hl
  exact kind_of_isSpace hc hl

/-- A token that starts with an apostrophe tells whether a name stands before it. -/
theorem kind_of_apostrophe (h : tokenize source = us.map .ok ++ .ok u :: .ok v :: more)
    (hv : v.text.toList.head? = some '\x27') :
    ∃ rest, source.toList = (textOf us).toList ++ (u.text.toList ++ rest) ∧
      (v.kind = .characterLiteral ∧ v.text.length = 3 ↔
        u.takesApostrophe = false ∧ StartsLiteral rest) ∧
      (¬ (v.kind = .characterLiteral ∧ v.text.length = 3) →
        v.kind = .character '\x27' ∧ v.text = "\x27") := by
  obtain ⟨q, hsource, hcontext, hq⟩ := exists_place_between h
  have hne : ∀ e, v ≠ .endOfDocument e := by
    rintro e rfl
    cases hv
  obtain ⟨c, cs, l, hrest, hl, rfl, -⟩ := Place.exists_scan hq hne
  obtain ⟨text, ht, -⟩ := scan_extends hl
  obtain rfl : c = '\x27' := by simpa [token, ht] using hv
  rw [hcontext] at hl
  obtain ⟨hiff, hcases⟩ := scan_apostrophe hl
  have hlength : (l.token q.cursor '\x27').text.length = l.text.length := by simp [token]
  rw [hlength]
  refine ⟨q.rest, hsource, by rw [hrest]; exact hiff, fun hnot => ?_⟩
  obtain ⟨hkind, htext⟩ := hcases.resolve_left hnot
  exact ⟨hkind, by simp [token, htext]⟩

theorem not_isBlankRun_twice (h : tokenize source = us.map .ok ++ .ok u :: .ok v :: more) :
    ¬ (u.IsBlankRun ∧ v.IsBlankRun) := by
  rintro ⟨hu, hv⟩
  obtain ⟨p, hp⟩ := exists_place_before h hu.ne_startOfDocument
  obtain ⟨-, rest, -, -, hnone⟩ := Place.exists_isLexeme hp hv.ne_endOfDocument
  refine hnone .space (by simp) ⟨by simp [hu.1], fun c hc => ?_⟩
  exact (List.mem_append.1 hc).elim (hu.2 c) (hv.2 c)

theorem not_word_twice (h : tokenize source = us.map .ok ++ .ok u :: .ok v :: more) :
    ¬ (u.kind = .word ∧ v.kind = .word) := by
  rintro ⟨hu, hv⟩
  obtain ⟨p, hp⟩ := exists_place_before h fun he => by cases (he ▸ hu :)
  obtain ⟨_, rest, hul, hvl, hnone⟩ := Place.exists_isLexeme hp fun e he => by cases (he ▸ hv :)
  rw [hu] at hul
  rw [hv] at hvl
  obtain ⟨c, w, hut, hc, hw⟩ := hul
  obtain ⟨d, w', hvt, hd, hw'⟩ := hvl
  rw [hut, hvt] at hnone
  refine hnone .word (by simp) ⟨c, w ++ d :: w', rfl, hc, fun e he => ?_⟩
  rcases List.mem_append.1 he with he | he
  · exact hw e he
  · exact List.forall_mem_cons.2 ⟨by simp [isWordPart, hd], hw'⟩ e he

/-- **Two tokens in a row.** A run of blanks is an indentation just behind a token that ends its
line, and space behind any other. A token that starts with an apostrophe is a character literal just
if the token before it is not a name or a closing bracket, and the text there is that of a character
literal; otherwise it is the apostrophe alone. Neither two runs of blanks nor two words stand next
to each other. -/
theorem tokenize_neighbours (h : tokenize source = us.map .ok ++ .ok u :: .ok v :: more) :
    (v.IsBlankRun →
      (v.kind = .indentation ↔ u.kind = .linebreak ∨ u.kind = .singleLineComment) ∧
      (v.kind = .space ↔ ¬ (u.kind = .linebreak ∨ u.kind = .singleLineComment))) ∧
    (v.text.toList.head? = some '\x27' →
      ∃ rest, source.toList = (textOf us).toList ++ (u.text.toList ++ rest) ∧
        (v.kind = .characterLiteral ∧ v.text.length = 3 ↔
          ¬ (u.kind = .word ∧ Keyword.find? u.text = none ∨ u.kind = .extendedIdentifier ∨
            u.kind = .character ')' ∨ u.kind = .character ']') ∧
          ∃ c more, rest = '\x27' :: c :: '\x27' :: more ∧ c ≠ '\n' ∧ c ≠ '\r') ∧
        (¬ (v.kind = .characterLiteral ∧ v.text.length = 3) →
          v.kind = .character '\x27' ∧ v.text = "\x27")) ∧
    ¬ (u.IsBlankRun ∧ v.IsBlankRun) ∧
    ¬ (u.kind = .word ∧ v.kind = .word) := by
  refine ⟨fun hv => ?_, fun hv => ?_, not_isBlankRun_twice h, not_word_twice h⟩
  · rw [← Token.endsLine_iff, kind_of_isBlankRun h hv]
    cases u.endsLine <;> simp
  · rw [← Token.takesApostrophe_iff, Bool.not_eq_true]
    exact kind_of_apostrophe h hv

end Neighbours

/-- Behind a name the apostrophe stands alone although a second one follows, and behind a bracket
it starts a literal. -/
theorem tokenize_neighbours_tick : ∃ (us us' : List Token) (u v u' v' : Token)
    (more more' : List (Except LexError Token)),
    tokenize "x'('y'" = us.map .ok ++ .ok u :: .ok v :: more ∧
    tokenize "x'('y'" = us'.map .ok ++ .ok u' :: .ok v' :: more' ∧
    v.text.toList.head? = some '\x27' ∧ v.kind = .character '\x27' ∧
    v'.text.toList.head? = some '\x27' ∧ v'.kind = .characterLiteral := by
  have h : tokenize "x'('y'" = [Token.startOfDocument].map .ok ++
      .ok ⟨.word, "x", ⟨1, 1, 0⟩, ⟨1, 1, 0⟩⟩ ::
        .ok ⟨.character '\x27', "\x27", ⟨1, 2, 1⟩, ⟨1, 2, 1⟩⟩ ::
        [.ok ⟨.character '(', "(", ⟨1, 3, 2⟩, ⟨1, 3, 2⟩⟩,
          .ok ⟨.characterLiteral, "'y'", ⟨1, 4, 3⟩, ⟨1, 6, 5⟩⟩,
          .ok (.endOfDocument ⟨1, 7, 6⟩)] := by
    decide +kernel
  have h' : tokenize "x'('y'" = [Token.startOfDocument, ⟨.word, "x", ⟨1, 1, 0⟩, ⟨1, 1, 0⟩⟩,
      ⟨.character '\x27', "\x27", ⟨1, 2, 1⟩, ⟨1, 2, 1⟩⟩].map .ok ++
      .ok ⟨.character '(', "(", ⟨1, 3, 2⟩, ⟨1, 3, 2⟩⟩ ::
        .ok ⟨.characterLiteral, "'y'", ⟨1, 4, 3⟩, ⟨1, 6, 5⟩⟩ ::
          [.ok (.endOfDocument ⟨1, 7, 6⟩)] := h
  obtain ⟨-, htick, -⟩ := tokenize_neighbours h
  obtain ⟨_, -, hiff, halone⟩ := htick rfl
  obtain ⟨-, hliteral, -⟩ := tokenize_neighbours h'
  obtain ⟨rest, hrest, hiff', -⟩ := hliteral rfl
  have hword : Keyword.find? "x" = none := by decide
  obtain rfl : rest = ['\x27', 'y', '\x27'] := by
    simpa [textOf, Token.startOfDocument] using hrest.symm
  refine ⟨_, _, _, _, _, _, _, _, h, h', rfl, (halone fun hlit => ?_).1, rfl, (hiff'.2 ?_).1⟩
  · exact (hiff.1 hlit).1 (.inl ⟨rfl, hword⟩)
  · exact ⟨by simp, 'y', [], rfl, by decide, by decide⟩

end VhdlOutline
