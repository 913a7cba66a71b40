import VhdlOutline.Lexeme.Lexer
import VhdlOutline.Proofs.Lexeme.Tokens
import VhdlOutline.Proofs.Source.Position

/-!
# The tokens of a source text partition it

`Place.Reads` relates two places of a source text and the tokens between them. From every place the
lexer reads on until the text is used up or no lexeme starts (`Place.exists_reads`), and what it
has read by then is the text up to there. `tokenize_partition` says this of whole source texts.
-/

namespace VhdlOutline

/-- The text of all of the tokens. -/
def textOf (ts : List Token) : String := String.join (ts.map Token.text)

@[simp] theorem textOf_nil : textOf [] = "" := rfl

@[simp] theorem textOf_cons (t : Token) (ts : List Token) :
    textOf (t :: ts) = t.text ++ textOf ts := by
  simp [textOf]

@[simp] theorem textOf_append (ts us : List Token) :
    textOf (ts ++ us) = textOf ts ++ textOf us := by
  simp [textOf]

namespace Place

/-- From the place `p` the lexer reads the tokens `ts` and comes to the place `q`. -/
inductive Reads : Place → List Token → Place → Prop
  | nil (p : Place) : Reads p [] p
  | cons {x : Lexeme.Context} {k : Cursor} {c : Char} {cs : List Char} {l : Lexeme}
      {ts : List Token} {q : Place} (hs : Lexeme.scan x c cs = .ok l)
      (h : Reads (after k l) ts q) : Reads ⟨x, k, c :: cs⟩ (l.token k c :: ts) q

namespace Reads

variable {p q r : Place} {ts us : List Token}

/-- What was read in one go was read in two. -/
theorem split (h : p.Reads (ts ++ us) r) : ∃ q, p.Reads ts q ∧ q.Reads us r := by
  induction ts generalizing p with
  | nil => exact ⟨p, nil p, h⟩
  | cons t ts ih =>
    cases h with
    | cons hs h =>
      obtain ⟨q, ht, hu⟩ := ih h
      exact ⟨q, cons hs ht, hu⟩

theorem tokens (h : p.Reads ts q) : p.tokens = ts.map .ok ++ q.tokens := by
  induction h with
  | nil => rfl
  | cons hs _ ih => rw [tokens_of_ok hs, ih, List.map_cons, List.cons_append]

/-- What was read makes up the text between the two places. -/
theorem rest (h : p.Reads ts q) : p.rest = (textOf ts).toList ++ q.rest := by
  induction h with
  | nil => rfl
  | @cons x k c cs l ts q hs _ ih =>
    have hl : l.text ++ l.rest = c :: cs := (Lexeme.scan_extends hs).append_eq
    rw [show l.rest = _ from ih] at hl
    simp [Lexeme.token, hl]

theorem cursor (h : p.Reads ts q) : q.cursor = p.cursor.advanceAll (textOf ts).toList := by
  induction h with
  | nil => rfl
  | cons hs _ ih => simp [ih, after, Lexeme.token, Cursor.advanceAll_append]

/-- The tokens that are read have a text and are no sentinels. -/
theorem of_mem {t : Token} (h : p.Reads ts q) (ht : t ∈ ts) :
    t.text ≠ "" ∧ t.kind.isSentinel = false := by
  induction h with
  | nil => cases ht
  | @cons x k c cs l ts q hs _ ih =>
    rcases List.mem_cons.1 ht with rfl | ht
    · obtain ⟨text, hl, -⟩ := Lexeme.scan_extends hs
      refine ⟨fun he => ?_, Lexeme.not_isSentinel_of_scan hs⟩
      have := congrArg String.toList he
      simp [Lexeme.token, hl] at this
    · exact ih ht

end Reads

/-- No token can be read from the place: the text ends there, or no lexeme starts there. -/
def IsStop (p : Place) : Prop :=
  ∀ c cs, p.rest = c :: cs → ∃ fault, Lexeme.scan p.context c cs = .error fault

/-- From every place the lexer reads on to a stop. -/
theorem exists_reads (p : Place) : ∃ ts q, p.Reads ts q ∧ q.IsStop := by
  obtain ⟨x, k, cs⟩ := p
  fun_induction tokensFrom x k cs with
  | case1 x k => exact ⟨[], _, .nil _, by simp [IsStop]⟩
  | case2 x k c cs fault hs => exact ⟨[], _, .nil _, by simp [IsStop, hs]⟩
  | case3 x k c cs l hs ih =>
    obtain ⟨ts, q, hr, hq⟩ := ih
    exact ⟨l.token k c :: ts, q, .cons hs hr, hq⟩

/-- What comes at a stop: the end of the document, or an error at the next character. -/
theorem IsStop.tokens {q : Place} (h : q.IsStop) :
    (q.rest = [] ∧ q.tokens = [.ok (.endOfDocument q.cursor.endPosition)]) ∨
      ∃ c cs fault, q.rest = c :: cs ∧ q.tokens = [.error ⟨fault, q.cursor.stamp c⟩] := by
  obtain ⟨x, k, _ | ⟨c, cs⟩⟩ := q
  · exact .inl ⟨rfl, tokens_nil⟩
  · obtain ⟨fault, hs⟩ := h c cs rfl
    exact .inr ⟨c, cs, fault, rfl, tokens_of_error hs⟩

/-- A stop delivers one thing only, and no token but the end of the document. -/
theorem IsStop.exists_last {q : Place} (h : q.IsStop) :
    ∃ last, q.tokens = [last] ∧ ∀ t, last = .ok t → t.kind = .endOfDocument := by
  rcases h.tokens with ⟨-, hend⟩ | ⟨c, cs, fault, -, herror⟩
  · refine ⟨_, hend, ?_⟩
    rintro t ⟨⟩
    rfl
  · refine ⟨_, herror, ?_⟩
    rintro t ⟨⟩

/-- The place at the start of a source text. -/
def ofSource (source : String) : Place := { rest := source.toList }

/-- The cursor of a place stands where the tokens before it end. -/
theorem Reads.cursor_at {source : String} {ts : List Token} {q : Place}
    (h : (ofSource source).Reads ts q) : q.cursor.At source.toList (textOf ts).length := by
  have hd : (textOf ts).toList <+: source.toList.drop 0 := ⟨q.rest, h.rest.symm⟩
  have := (Cursor.At.start source.toList).advanceAll hd
  rw [Nat.zero_add, String.length_toList] at this
  rw [h.cursor]
  exact this

end Place

theorem tokenize_eq (source : String) :
    tokenize source = .ok .startOfDocument :: (Place.ofSource source).tokens := rfl

/-- The tokens of a source text: the start of the document, then tokens `ts` with texts of their own
that are no sentinels, and then either the end of the document, if the text of `ts` is the source
text, or an error at the first character after the text of `ts`. A lexer delivers them one by one,
and nothing after them. -/
theorem tokenize_partition (source : String) :
    ∃ (ts : List Token) (last : Except LexError Token),
      tokenize source = .ok ⟨.startOfDocument, "", .start, .start⟩ :: (ts.map .ok ++ [last]) ∧
      (∀ t ∈ ts, t.text ≠ "" ∧ t.kind ≠ .startOfDocument ∧ t.kind ≠ .endOfDocument) ∧
      ((∃ e : Token, last = .ok e ∧ e.kind = .endOfDocument ∧ e.text = "" ∧
          textOf ts = source) ∨
        ∃ (e : LexError) (c : Char) (rest : List Char), last = .error e ∧
          source.toList = (textOf ts).toList ++ c :: rest ∧
          e.position = .ofIndex source.toList (textOf ts).length) ∧
      (∀ n, (Lexer.fresh source).answer n = (tokenize source)[n]?) ∧
      ∀ n, ts.length + 2 ≤ n → (Lexer.fresh source).answer n = none := by
  obtain ⟨ts, q, hr, hq⟩ := (Place.ofSource source).exists_reads
  have hrest : source.toList = (textOf ts).toList ++ q.rest := hr.rest
  have htokens : tokenize source = .ok .startOfDocument :: (ts.map .ok ++ q.tokens) := by
    rw [tokenize_eq, hr.tokens]
  obtain ⟨last, hlast, -⟩ := hq.exists_last
  rw [hlast] at htokens
  refine ⟨ts, last, htokens, ?_, ?_, Lexer.answer_fresh source, ?_⟩
  · intro t ht
    obtain ⟨htext, hkind⟩ := hr.of_mem ht
    refine ⟨htext, ?_, ?_⟩
    · intro h
      simp [h, TokenKind.isSentinel] at hkind
    · intro h
      simp [h, TokenKind.isSentinel] at hkind
  · rcases hq.tokens with ⟨hnil, h⟩ | ⟨c, cs, fault, hcons, h⟩
    · obtain rfl : last = .ok (.endOfDocument q.cursor.endPosition) := by simpa [hlast] using h
      refine .inl ⟨_, rfl, rfl, rfl, ?_⟩
      rw [hnil, List.append_nil] at hrest
      exact (String.toList_inj.1 hrest).symm
    · obtain rfl : last = .error ⟨fault, q.cursor.stamp c⟩ := by simpa [hlast] using h
      rw [hcons] at hrest
      refine .inr ⟨_, c, cs, rfl, hrest, hr.cursor_at.stamp ?_⟩
      rw [hrest, ← String.length_toList, List.getElem?_append_right (Nat.le_refl _)]
      simp
  · intro n hn
    rw [Lexer.answer_fresh, htokens]
    refine List.getElem?_eq_none ?_
    simp only [List.length_cons, List.length_append, List.length_map, List.length_nil]
    omega

end VhdlOutline
