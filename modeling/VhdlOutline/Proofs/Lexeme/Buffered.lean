import VhdlOutline.Proofs.Lexeme.Scanner
import VhdlOutline.Proofs.Lexeme.Stamper

/-!
# The buffered lexer delivers the tokens of the text

The lexer that reads a stamper through a buffer delivers with each call what `Lexer.next` delivers
(`BufferedLexer.Tracks.next?`). So all its tokens are those of `tokenize`, with the positions of a
cursor, unless a machine word overflows (`bufferedTokens?_eq`).
-/

namespace VhdlOutline

namespace Cursor.Stamps

variable {k : Cursor} {x : Stamped} {as bs : List Stamped}

/-- The characters after some others stand where these lead. -/
theorem drop (h : k.Stamps (as ++ bs)) : (k.advanceAll (as.map Stamped.char)).Stamps bs := by
  induction as generalizing k with
  | nil => exact h
  | cons a as ih =>
    cases h with
    | cons _ h => exact ih h

/-- The mark of the last character of a token is that of the cursor there. -/
theorem last_pushAll (h : k.Stamps (x :: as ++ bs)) {s : Scan} (hs : s.last = x.mark) :
    (s.pushAll as).last.position = k.stampLast x.char (as.map Stamped.char) := by
  induction as generalizing k x s with
  | nil =>
    cases h with
    | cons hx _ => exact hs ▸ hx
  | cons a as ih =>
    cases h with
    | cons _ h => exact ih h rfl

/-- The token that a scanner makes of a lexeme is that of the lexeme at the cursor. -/
theorem finish_eq (h : k.Stamps (x :: as ++ bs)) {l : Lexeme}
    (hl : l.text = x.char :: as.map Stamped.char) :
    ((Scan.start x).pushAll as).finish l.kind = l.token k x.char := by
  have htext : ((Scan.start x).pushAll as).text = String.ofList l.text := by
    rw [← String.toList_inj, Scan.toList_pushAll, hl]
    simp [Scan.start]
  have hlast := h.last_pushAll (s := .start x) rfl
  cases h with
  | cons hx _ =>
    rw [Scan.finish, htext, Scan.first_pushAll, hlast, Lexeme.token, ← hx, hl]
    rfl

end Cursor.Stamps

/-- A lexer remembers of the token of a lexeme what it remembers of the lexeme. -/
theorem Lexeme.lexContext_token (l : Lexeme) (k : Cursor) (c : Char) :
    (l.token k c).lexContext = l.context := by
  rw [Token.lexContext, Lexeme.context, Lexeme.context, Lexeme.token, String.toList_ofList]

namespace BufferedLexer

/-- The buffer shows the text `cs` to come, each character where the cursor meets it, and the
stamper behind it knows the place where the text ends. -/
structure Reads (inner : Text.Lookahead Stamper Stamped) (k : Cursor) (cs : List Char)
    (xs rest : List Stamped) (e : Stamper) (m : Mark) : Prop where
  shows : inner.Shows e xs rest
  chars : xs.map Stamped.char = cs
  stamps : k.Stamps xs
  last : e.end? = some m
  position : m.position = (k.advanceAll cs).endPosition

/-- The lexer stands where another one stands that reads a list of characters. -/
inductive Tracks : BufferedLexer → Lexer → Prop
  | fresh {inner source xs rest e m} (h : Reads inner .start source.toList xs rest e m) :
      Tracks ⟨inner, false, false, {}⟩ (.fresh source)
  | reading {inner x k cs xs rest e m} (h : Reads inner k cs xs rest e m) :
      Tracks ⟨inner, true, false, x⟩ (.reading ⟨x, k, cs⟩)
  | finished {inner started x} : Tracks ⟨inner, started, true, x⟩ .finished

variable {t : BufferedLexer} {l : Lexer}

/-- **Reading through a buffer is reading a list**: each call delivers the same. -/
theorem Tracks.next? (h : t.Tracks l) : ∃ t', t.next? = some (l.next.1, t') ∧ t'.Tracks l.next.2 := by
  cases h with
  | fresh h => exact ⟨_, rfl, .reading h⟩
  | finished => exact ⟨_, rfl, .finished⟩
  | @reading inner x k cs xs rest e m h =>
    obtain ⟨inner', rest', hnext, hshows, -⟩ := h.shows.next?
    cases xs with
    | nil =>
      obtain rfl := h.chars
      refine ⟨⟨inner', true, true, x⟩, ?_, .finished⟩
      have hend : inner'.unread.end? = some m := hshows.unread_eq ▸ h.last
      have hposition : m.position = k.endPosition := h.position
      simp [BufferedLexer.next?, hnext, hend, hposition, Lexer.next]
    | cons c xs =>
      obtain rfl := h.chars
      have hfinds := Scanner.finds_scan x c xs
      rw [List.map_cons, Lexer.next]
      cases hscan : Lexeme.scan x c.char (xs.map Stamped.char) with
      | error fault =>
        rw [hscan] at hfinds
        obtain ⟨ys, hgives⟩ := hfinds
        obtain ⟨inner'', rest'', hrun, -⟩ := hgives hshows
        refine ⟨⟨inner'', true, true, x⟩, ?_, .finished⟩
        have hfail : (Scan.start c).fail fault = ⟨fault, k.stamp c.char⟩ := by
          cases h.stamps with
          | cons hc _ => rw [Scan.fail, Scan.start, hc]
        simp [BufferedLexer.next?, hnext, hrun, hfail]
      | ok l =>
        rw [hscan] at hfinds
        obtain ⟨as, bs, rfl, htext, hrest, hgives⟩ := hfinds
        obtain ⟨inner'', rest'', hrun, hshows'⟩ := hgives hshows
        have htext : l.text = (c :: as).map Stamped.char := by simpa [Scan.start] using htext
        have htoken := Cursor.Stamps.finish_eq (x := c) h.stamps htext
        rw [htoken] at hrun
        have hreads : Reads inner'' (k.advanceAll l.text) l.rest bs rest'' e m := by
          refine ⟨hshows', hrest.symm, ?_, h.last, ?_⟩
          · rw [htext]
            exact Cursor.Stamps.drop h.stamps
          · rw [h.position, htext, hrest, ← Cursor.advanceAll_append, ← List.map_append]
            rfl
        refine ⟨⟨inner'', true, false, l.context⟩, ?_, .reading hreads⟩
        simp [BufferedLexer.next?, hnext, hrun, Lexeme.lexContext_token]

theorem Tracks.tokens? (h : t.Tracks l) : t.tokens? = some l.pending := by
  generalize hxs : l.pending = xs
  induction xs generalizing t l with
  | nil =>
    obtain ⟨t', hnext, -⟩ := h.next?
    rw [(Lexer.next_eq l).1, hxs] at hnext
    rw [BufferedLexer.tokens?, hnext]
    rfl
  | cons x xs ih =>
    obtain ⟨t', hnext, htracks⟩ := h.next?
    rw [(Lexer.next_eq l).1, hxs] at hnext
    have hlater := ih htracks (by rw [(Lexer.next_eq l).2, hxs, List.tail_cons])
    rw [BufferedLexer.tokens?, hnext]
    simp [hlater]

end BufferedLexer

/-- **The tokens that are read through a buffer are those of the text**, unless a machine word
overflows. -/
theorem bufferedTokens?_eq {source : String} (h : source.length + 1 < UInt32.size) :
    bufferedTokens? source = some (tokenize source) := by
  have hlength : (Stamper.ofSource source).rest.length = source.length := String.length_toList
  obtain ⟨xs, e, hyields, hchars, hstamps, m, hm, hp⟩ :=
    Stamper.exists_yields (s := .ofSource source) (.plain .start) (by omega)
  have htracks : (BufferedLexer.ofSource source).Tracks (.fresh source) :=
    .fresh ⟨Text.Lookahead.shows_ofSupply hyields, hchars, hstamps, hm, hp⟩
  exact htracks.tokens?

end VhdlOutline
