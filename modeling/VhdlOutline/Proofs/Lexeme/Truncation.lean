import VhdlOutline.Proofs.Lexeme.Partition
import VhdlOutline.Proofs.Lexeme.Persistence

/-!
# Cutting a source text off between two tokens

The tokens before the cut are found as before (`Place.Reads.truncate`). The end of the document then
stands where the next token stood: no lexeme ends between a carriage return and the line feed that
belongs to it (`Lexeme.scan_boundary`), so no position changes at the cut.
-/

namespace VhdlOutline

namespace Lexeme

/-- The text does not end with a carriage return. -/
def Sealed (cs : List Char) : Prop := cs.getLast? ≠ some '\r'

theorem sealed_nil : Sealed [] := by simp [Sealed]

theorem Sealed.append {cs ds : List Char} (h : Sealed cs) (h' : Sealed ds) : Sealed (cs ++ ds) := by
  unfold Sealed at h h' ⊢
  rw [List.getLast?_append]
  cases hd : ds.getLast? with
  | none => simpa using h
  | some d => simpa [hd] using h'

theorem sealed_concat {c : Char} (cs : List Char) (hc : c ≠ '\r') : Sealed (cs ++ [c]) := by
  simpa [Sealed] using hc

theorem sealed_takeWhile {p : Char → Bool} (cs : List Char) (hp : p '\r' = false) :
    Sealed (cs.takeWhile p) := by
  intro h
  have := List.all_eq_true.1 List.all_takeWhile _ (List.mem_of_getLast? h)
  rw [hp] at this
  cases this

theorem sealed_delimited? {q : Char} {cs text rest : List Char} (hq : q ≠ '\r')
    (h : delimited? q cs = some (text, rest)) (start : List Char) : Sealed (start ++ text) := by
  fun_induction delimited? q cs generalizing text rest start with
  | case1 => cases h
  | case2 => cases h
  | case3 ds _ ih =>
    obtain ⟨⟨t, u⟩, ht, he⟩ := Option.map_eq_some_iff.1 h
    cases he
    simpa using ih ht (start ++ [q, q])
  | case4 =>
    cases h
    exact sealed_concat start hq
  | case5 =>
    cases h
    exact sealed_concat start hq
  | case6 c cs _ _ ih =>
    obtain ⟨⟨t, u⟩, ht, he⟩ := Option.map_eq_some_iff.1 h
    cases he
    simpa using ih ht (start ++ [c])

theorem sealed_commentBody? {cs text rest : List Char} (h : commentBody? cs = some (text, rest))
    (start : List Char) : Sealed (start ++ text) := by
  fun_induction commentBody? cs generalizing text rest start with
  | case1 => cases h
  | case2 c d ds hc =>
    cases h
    obtain ⟨rfl, rfl⟩ := hc
    simpa using sealed_concat (start ++ ['*']) (c := '/') (by decide)
  | case3 c d ds _ ih =>
    obtain ⟨⟨t, u⟩, ht, he⟩ := Option.map_eq_some_iff.1 h
    cases he
    simpa using ih ht (start ++ [c])
  | case4 => cases h

theorem sealed_sign (cs : List Char) : Sealed (sign cs).1 := by
  unfold sign
  split
  · split
    · rename_i hc
      exact sealed_concat [] (by rcases hc with rfl | rfl <;> decide)
    · exact sealed_nil
  · exact sealed_nil

theorem sealed_exponent (cs : List Char) : Sealed (exponent cs).1 := by
  cases cs with
  | nil => exact sealed_nil
  | cons c cs =>
    simp only [exponent]
    split
    · rename_i hc
      have he : Sealed [c] := sealed_concat [] (by rcases hc.1 with rfl | rfl <;> decide)
      exact (he.append (sealed_sign cs)).append (sealed_takeWhile _ (by decide))
    · exact sealed_nil

theorem sealed_withExponent {kind : TokenKind} {text : List Char} (cs : List Char)
    (h : Sealed text) : Sealed (withExponent kind text cs).text :=
  h.append (sealed_exponent cs)

theorem sealed_fraction {start : List Char} (cs : List Char) (h : Sealed start) :
    Sealed (fraction start cs).text :=
  sealed_withExponent _ (h.append (sealed_takeWhile cs (by decide)))

theorem sealed_bitString {start cs : List Char} {l : Lexeme} (h : bitString start cs = .ok l) :
    Sealed l.text := by
  unfold bitString at h
  split at h
  · rename_i hd
    cases h
    exact sealed_delimited? (by decide) hd start
  · cases h

theorem sealed_word {c : Char} {cs : List Char} {l : Lexeme} (hc : c ≠ '\r')
    (h : word c cs = .ok l) : Sealed l.text := by
  have htext : Sealed (c :: cs.takeWhile isWordPart) :=
    (sealed_concat [] hc).append (sealed_takeWhile cs (by decide))
  simp only [word] at h
  split at h
  · cases h
    exact htext
  · split at h
    · exact sealed_bitString h
    · cases h
      exact htext

theorem sealed_based {start cs : List Char} {l : Lexeme} (h : based start cs = .ok l) :
    Sealed l.text := by
  simp only [based] at h
  split at h
  · cases h
  split at h
  · rename_i hc
    cases h
    exact sealed_withExponent _ (sealed_concat _ (by rw [hc]; decide))
  split at h
  · split at h
    · cases h
    split at h
    · rename_i hd
      cases h
      exact sealed_withExponent _ (sealed_concat _ (by rw [hd]; decide))
    · cases h
  · cases h

theorem sealed_number {c : Char} {cs : List Char} {l : Lexeme} (hc : c ≠ '\r')
    (h : number c cs = .ok l) : Sealed l.text := by
  have hdigits : Sealed (c :: cs.takeWhile isFigure) :=
    (sealed_concat [] hc).append (sealed_takeWhile cs (by decide))
  simp only [number] at h
  split at h
  · cases h
    exact hdigits
  split at h
  · exact sealed_based h
  split at h
  · rename_i hd
    cases h
    exact sealed_fraction _ (sealed_concat _ (by rw [hd.1]; decide))
  split at h
  · exact sealed_bitString h
  · cases h
    exact sealed_withExponent _ hdigits

theorem sealed_symbol {c : Char} {cs : List Char} {l : Lexeme} (hc : c ≠ '\r')
    (h : symbol c cs = .ok l) : Sealed l.text := by
  unfold symbol triple? pair? at h
  split at h
  · rename_i ht
    cases h
    split at ht
    · obtain ⟨s, hs, rfl⟩ := Option.map_eq_some_iff.1 ht
      refine sealed_concat [c, _] ?_
      rintro rfl
      simp [Compound.ofTriple?] at hs
    · cases ht
  split at h
  · cases h
  split at h
  · rename_i hp
    cases h
    split at hp
    · obtain ⟨s, hs, rfl⟩ := Option.map_eq_some_iff.1 hp
      refine sealed_concat [c] ?_
      rintro rfl
      simp [Compound.ofPair?] at hs
    · cases hp
  · split at h <;> cases h
    exact sealed_concat [] hc

theorem sealed_apostrophe (x : Context) {c : Char} (cs : List Char) (hc : c ≠ '\r') :
    Sealed (apostrophe x c cs).text := by
  unfold apostrophe
  split
  · rename_i d e ds
    split
    · rename_i h
      exact sealed_concat [c, d] (by rw [h.2.1]; decide)
    · exact sealed_concat [] hc
  · exact sealed_concat [] hc

/-- A line end is taken as a whole. -/
theorem lineEnd_boundary {start cs : List Char} (hs : Sealed start)
    (h : (start ++ (lineEnd cs).1).getLast? = some '\r') :
    (lineEnd cs).2.head? ≠ some '\n' := by
  fun_cases lineEnd cs with
  | case1 cs => simp [lineEnd] at h
  | case2 cs hn =>
    intro hc
    obtain ⟨ds, hd⟩ := List.head?_eq_some_iff.1 hc
    exact hn ds hd
  | case3 cs => simp [lineEnd] at h
  | case4 cs h₁ h₂ h₃ =>
    rw [lineEnd.eq_4 cs h₁ h₂ h₃, List.append_nil] at h
    exact absurd h hs

/-- A lexeme that starts with a special character ends with no carriage return, unless it is a
comment up to the end of its line. -/
theorem special_boundary {x : Context} {c : Char} {cs : List Char} {l : Lexeme} (hc : c ≠ '\r')
    (h : special x c cs = .ok l) (hr : l.text.getLast? = some '\r') :
    l.rest.head? ≠ some '\n' := by
  have hsingle : Sealed [c] := sealed_concat [] hc
  unfold special at h
  split at h
  · cases h
    exact absurd hr (sealed_fraction _ hsingle)
  split at h
  · cases h
    refine lineEnd_boundary ?_ hr
    exact hsingle.append (sealed_takeWhile _ (by decide))
  split at h
  · unfold multiLineComment at h
    split at h
    · cases h
    split at h
    · rename_i hb
      cases h
      exact absurd hr (sealed_commentBody? hb [c, _])
    · cases h
  split at h
  · split at h
    · rename_i hd
      cases h
      exact absurd hr (sealed_delimited? hc hd [c])
    · cases h
  split at h
  · cases h
    exact absurd hr (sealed_apostrophe x cs hc)
  split at h
  · split at h
    · rename_i hd
      cases h
      exact absurd hr (sealed_delimited? hc hd [c])
    · cases h
  · exact absurd hr (sealed_symbol hc h)

/-- No lexeme ends between a carriage return and its line feed. -/
theorem scan_boundary {x : Context} {c : Char} {cs : List Char} {l : Lexeme}
    (h : scan x c cs = .ok l) (hr : l.text.getLast? = some '\r') :
    l.rest.head? ≠ some '\n' := by
  have hc : Category.ofChar c ≠ .linebreak → c ≠ '\r' := by
    rintro hl rfl
    exact hl (by decide)
  unfold scan at h
  split at h
  · cases h
    exact lineEnd_boundary sealed_nil hr
  all_goals
    rename_i hcat
    replace hc := hc (by simp [hcat])
  · cases h
    exact absurd hr ((sealed_concat [] hc).append (sealed_takeWhile cs (by decide)))
  · exact absurd hr (sealed_word hc h)
  · exact absurd hr (sealed_number hc h)
  · exact special_boundary hc h hr
  · cases h

end Lexeme

theorem Cursor.afterReturn_advanceAll {k : Cursor} {cs : List Char} (hcs : cs ≠ [])
    (h : (k.advanceAll cs).afterReturn = true) : cs.getLast? = some '\r' := by
  obtain rfl | ⟨ds, d, rfl⟩ := List.eq_nil_or_concat cs
  · exact absurd rfl hcs
  · rw [List.concat_eq_append, advanceAll_append, advanceAll_cons, advanceAll_nil, advance] at h
    split at h
    · rename_i hd
      simp [hd]
    · cases h

/-- The position at which a token starts or an error is reported. -/
def itemPosition : Except LexError Token → Position
  | .error e => e.position
  | .ok t => t.first

namespace Place

/-- The place is not inside a line end. -/
def IsClear (p : Place) : Prop := p.cursor.afterReturn = true → p.rest.head? ≠ some '\n'

theorem isClear_ofSource (source : String) : (ofSource source).IsClear := by
  intro h
  cases h

theorem isClear_after {x : Lexeme.Context} {c : Char} {cs : List Char} {l : Lexeme} (k : Cursor)
    (h : Lexeme.scan x c cs = .ok l) : (after k l).IsClear := by
  intro hr
  obtain ⟨text, ht, -⟩ := Lexeme.scan_extends h
  exact Lexeme.scan_boundary h (Cursor.afterReturn_advanceAll (by simp [ht]) hr)

/-- No place between two tokens is inside a line end. -/
theorem Reads.isClear {p q : Place} {ts : List Token} (h : p.Reads ts q) (hp : p.IsClear) :
    q.IsClear := by
  induction h with
  | nil => exact hp
  | cons hs _ ih => exact ih (isClear_after _ hs)

/-- What comes next starts where the text before it ends. -/
theorem IsClear.exists_tokens {p : Place} (h : p.IsClear) :
    ∃ next more, p.tokens = next :: more ∧ itemPosition next = p.cursor.endPosition := by
  obtain ⟨x, k, _ | ⟨c, cs⟩⟩ := p
  · exact ⟨_, _, tokens_nil, rfl⟩
  · have hk : k.stamp c = k.endPosition := by
      unfold Cursor.stamp Cursor.endPosition
      split
      · rename_i hr
        exact if_neg fun hc => h hr (by rw [hc]; rfl)
      · rfl
    cases hs : Lexeme.scan x c cs with
    | error fault => exact ⟨_, _, tokens_of_error hs, hk⟩
    | ok l => exact ⟨_, _, tokens_of_ok hs, hk⟩

/-- The tokens up to a place are read as well if the text ends there. -/
theorem Reads.truncate {p q : Place} {ts : List Token} (h : p.Reads ts q) :
    Reads { p with rest := (textOf ts).toList } ts { q with rest := [] } := by
  induction h with
  | nil p => exact nil _
  | @cons x k c cs l ts q hs h ih =>
    obtain ⟨text, ht, -, hp⟩ := Lexeme.scan_persists hs
    have hrest : (textOf ts).toList <+: l.rest := ⟨q.rest, h.rest.symm⟩
    have htext : (textOf (l.token k c :: ts)).toList = c :: (text ++ (textOf ts).toList) := by
      simp [Lexeme.token, ht]
    rw [htext]
    have hcut := cons (k := k) (hp _ hrest) ih
    exact hcut

end Place

/-- Cut off after its first `n` tokens, a source text has these tokens, and ends at the position of
what came next: a token, the end of the document or an error. -/
theorem tokenize_truncate (source : String) (n : Nat) (hn : 1 ≤ n)
    (hlen : n < (tokenize source).length) :
    ∃ (us : List Token) (next : Except LexError Token),
      (tokenize source).take n = us.map .ok ∧ (tokenize source)[n]? = some next ∧
      tokenize (textOf us) =
        us.map .ok ++ [.ok ⟨.endOfDocument, "", itemPosition next, itemPosition next⟩] := by
  obtain ⟨m, rfl⟩ : ∃ m, n = m + 1 := ⟨n - 1, by omega⟩
  obtain ⟨ts, q, hall, hq⟩ := (Place.ofSource source).exists_reads
  have hm : m ≤ ts.length := by
    obtain ⟨last, hlast, -⟩ := hq.exists_last
    rw [tokenize_eq, hall.tokens, hlast] at hlen
    exact Nat.le_of_lt_succ (by simpa using hlen)
  obtain ⟨us, vs, rfl, rfl⟩ : ∃ us vs, ts = us ++ vs ∧ us.length = m :=
    ⟨ts.take m, ts.drop m, (List.take_append_drop m ts).symm, List.length_take_of_le hm⟩
  obtain ⟨r, hr, -⟩ := hall.split
  obtain ⟨next, more, hnext, hpos⟩ := (hr.isClear (Place.isClear_ofSource source)).exists_tokens
  have htokens : tokenize source = (Token.startOfDocument :: us).map .ok ++ next :: more := by
    rw [tokenize_eq, hr.tokens, hnext, List.map_cons, List.cons_append]
  have hcut : (Place.ofSource (textOf us)).Reads us { r with rest := [] } := hr.truncate
  refine ⟨Token.startOfDocument :: us, next, ?_, ?_, ?_⟩
  · rw [htokens]
    exact List.take_left' (by simp)
  · rw [htokens, List.getElem?_append_right (by simp)]
    simp
  · have htext : textOf (Token.startOfDocument :: us) = textOf us := by
      rw [textOf_cons]
      exact String.empty_append
    rw [htext, tokenize_eq, hcut.tokens, Place.tokens_nil, hpos, List.map_cons, List.cons_append]
    rfl

/-- A cut between a comment with its line end and a character that is not allowed. -/
theorem tokenize_truncate_comment : ∃ us : List Token,
    (tokenize "1e -- x\r\n%").take 5 = us.map .ok ∧
      tokenize (textOf us) = us.map .ok ++ [.ok ⟨.endOfDocument, "", ⟨2, 1, 9⟩, ⟨2, 1, 9⟩⟩] := by
  have hlen : 5 < (tokenize "1e -- x\r\n%").length := by decide +kernel
  have hnext : (tokenize "1e -- x\r\n%")[5]?.map itemPosition = some ⟨2, 1, 9⟩ := by
    decide +kernel
  obtain ⟨us, next, htake, hget, hcut⟩ := tokenize_truncate _ 5 (by decide) hlen
  rw [hget, Option.map_some, Option.some.injEq] at hnext
  rw [hnext] at hcut
  exact ⟨us, htake, hcut⟩

end VhdlOutline
