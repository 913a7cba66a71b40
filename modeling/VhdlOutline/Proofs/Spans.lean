import VhdlOutline.Proofs.Lexeme.Buffered
import VhdlOutline.Proofs.Lexeme.Partition
import VhdlOutline.Proofs.Lossless

/-!
# Positions and spans address the source text

Characters, tokens and blocks carry positions that a cursor gave them on the way. They are the ones
that `Position.ofIndex` defines (`positions_address_source`), so the span of a block delimits its
text in the bytes of the source text. This needs a source text that is short enough for every line
and column to fit 32 bits; the bound is exact (`blanks_overflow`).
-/

namespace VhdlOutline

/-! ## Characters and tokens -/

theorem getElem?_charactersFrom (k : Cursor) (cs : List Char) (i : Nat) :
    (charactersFrom k cs)[i]? = cs[i]?.map fun c =>
      ⟨c, .ofChar c, (k.advanceAll (cs.take i)).stamp c,
        ((k.advanceAll (cs.take i)).advance c).endPosition⟩ := by
  induction cs generalizing k i with
  | nil => rfl
  | cons c cs ih =>
    cases i with
    | zero => rfl
    | succ i => simpa [charactersFrom] using ih (k.advance c) i

theorem map_char_charactersFrom (k : Cursor) (cs : List Char) :
    (charactersFrom k cs).map Character.char = cs := by
  apply List.ext_getElem?
  intro i
  rw [List.getElem?_map, getElem?_charactersFrom, Option.map_map]
  exact Option.map_id'

/-- The characters of a source text stand where `Position.ofIndex` says. -/
theorem getElem?_characters {source : String} {i : Nat} {x : Character}
    (h : (characters source)[i]? = some x) :
    source.toList[i]? = some x.char ∧ x.position = .ofIndex source.toList i ∧
      (¬(x.char = '\r' ∧ source.toList[i + 1]? = some '\n') →
        x.after = .ofIndex source.toList (i + 1)) := by
  rw [characters, getElem?_charactersFrom] at h
  obtain ⟨c, hc, rfl⟩ := Option.map_eq_some_iff.1 h
  have hi : (source.toList.take i).length = i :=
    List.length_take_of_le (Nat.le_of_lt (List.getElem?_eq_some_iff.1 hc).1)
  have hat := (Cursor.At.start source.toList).advanceAll (List.take_prefix i source.toList)
  rw [hi, Nat.zero_add] at hat
  refine ⟨hc, hat.stamp hc, fun hn => (hat.advance hc).endPosition fun j hj hr hl => hn ⟨?_, hl⟩⟩
  obtain rfl : i = j := by omega
  simpa [hc] using hr

/-- A token stands where its text does. -/
theorem Place.Reads.position {source : String} {us vs : List Token} {t : Token} {q : Place}
    (h : (ofSource source).Reads (us ++ t :: vs) q) :
    t.text.toList <+: source.toList.drop (textOf us).length ∧
      t.first = .ofIndex source.toList (textOf us).length ∧
      t.last = .ofIndex source.toList ((textOf us).length + t.text.length - 1) := by
  obtain ⟨r, hr, hrest⟩ := h.split
  have hat := hr.cursor_at
  have hdrop : source.toList.drop (textOf us).length = r.rest := by
    rw [show source.toList = (textOf us).toList ++ r.rest from hr.rest, ← String.length_toList,
      List.drop_left]
  cases hrest with
  | @cons x k c cs l _ _ hs _ =>
    obtain ⟨text, htext, rfl⟩ := Lexeme.scan_extends hs
    have hpre : c :: text <+: source.toList.drop (textOf us).length := ⟨l.rest, hdrop.symm⟩
    refine ⟨by simpa [Lexeme.token, htext] using hpre, ?_, ?_⟩
    · exact hat.stamp (Cursor.At.getElem?_of_prefix_drop hpre).1
    · have hlength : (l.token k c).text.length = text.length + 1 := by
        simp [Lexeme.token, htext, Nat.add_comm]
      have hlast := hat.stampLast hpre
      rw [hlength]
      simpa [Lexeme.token, htext] using hlast

/-- A token that is no sentinel is read, together with all that is delivered before it. -/
theorem Place.exists_reads_of_tokens {p : Place} {us : List Token} {t : Token}
    {rest : List (Except LexError Token)} (h : p.tokens = us.map .ok ++ .ok t :: rest)
    (ht : t.kind.isSentinel = false) : ∃ vs q, p.Reads (us ++ t :: vs) q := by
  obtain ⟨ts, q, hr, hq⟩ := p.exists_reads
  obtain ⟨last, hlast, hend⟩ := hq.exists_last
  rw [hr.tokens, hlast] at h
  obtain rfl | ⟨more, x, rfl⟩ := List.eq_nil_or_concat rest
  · -- The last thing to be delivered would be a sentinel.
    obtain ⟨-, hx⟩ := List.append_inj' h rfl
    rw [hend t (List.singleton_inj.1 hx)] at ht
    cases ht
  · rw [List.concat_eq_append, ← List.cons_append, ← List.append_assoc] at h
    obtain ⟨hts, -⟩ := List.append_inj' h rfl
    obtain ⟨us', tail, rfl, hus, htail⟩ := List.map_eq_append_iff.1 hts
    obtain ⟨t', vs, rfl, hok, -⟩ := List.map_eq_cons_iff.1 htail
    cases hok
    obtain rfl := (List.map_inj_right fun _ _ => Except.ok.inj).1 hus
    exact ⟨vs, q, hr⟩

/-- The tokens of a source text that are no sentinels stand where their texts do. -/
theorem token_position {source : String} {us : List Token} {t : Token}
    {rest : List (Except LexError Token)} (h : tokenize source = us.map .ok ++ .ok t :: rest)
    (ht : t.kind.isSentinel = false) :
    t.text ≠ "" ∧ t.text.toList <+: source.toList.drop (textOf us).length ∧
      t.first = .ofIndex source.toList (textOf us).length ∧
      t.last = .ofIndex source.toList ((textOf us).length + t.text.length - 1) := by
  rw [tokenize_eq] at h
  cases us with
  | nil =>
    cases h
    cases ht
  | cons u us =>
    rw [List.map_cons, List.cons_append, List.cons.injEq] at h
    obtain ⟨hu, h⟩ := h
    cases hu
    obtain ⟨vs, q, hq⟩ := Place.exists_reads_of_tokens h ht
    rw [textOf_cons, show Token.startOfDocument.text = "" from rfl, String.empty_append]
    exact ⟨(hq.of_mem (by simp)).1, hq.position⟩

/-! ## Runs of tokens -/

theorem Position.offset_ofIndex (p z : String) :
    (ofIndex (p ++ z).toList p.length).offset = p.utf8ByteSize := by
  simp [ofIndex, ← String.length_toList]

/-- The bytes of a text in the middle of another. -/
theorem extract_toByteArray_append (a m z : String) :
    (a ++ m ++ z).toByteArray.extract a.utf8ByteSize (a ++ m).utf8ByteSize = m.toByteArray := by
  rw [String.toByteArray_append, ← String.size_toByteArray, ← String.size_toByteArray,
    ByteArray.extract_append_size_left, String.toByteArray_append]
  exact ByteArray.extract_append_eq_right rfl (by simp)

/-- From the offset of its first character up to the end of its last one, the source text holds the
text of a run of tokens. -/
theorem Place.Reads.extract {source : String} {us ms vs : List Token} {t t' : Token} {q : Place}
    (h : (ofSource source).Reads (us ++ ms ++ vs) q) (ht : ms.head? = some t)
    (ht' : ms.getLast? = some t') :
    ∃ (i j : Nat) (c : Char), t.first.offset = i ∧ (textOf ms).toList.getLast? = some c ∧
      t'.last.offset + c.utf8Size = j ∧
      source.toByteArray.extract i j = (textOf ms).toByteArray := by
  obtain ⟨z, hz⟩ : ∃ z, source = textOf us ++ textOf ms ++ z := by
    refine ⟨String.ofList ((textOf vs).toList ++ q.rest), String.toList_inj.1 ?_⟩
    rw [show source.toList = _ from h.rest]
    simp
  have hfirst : t.first.offset = (textOf us).utf8ByteSize := by
    obtain ⟨more, rfl⟩ := List.head?_eq_some_iff.1 ht
    obtain ⟨-, hp, -⟩ := @position source us (more ++ vs) t q (by simpa using h)
    rw [hp, hz, String.append_assoc]
    exact Position.offset_ofIndex _ _
  obtain ⟨init, rfl⟩ := List.getLast?_eq_some_iff.1 ht'
  obtain ⟨cs, c, hcs⟩ : ∃ cs c, t'.text = String.ofList cs ++ String.singleton c := by
    obtain ⟨htext, -⟩ := h.of_mem (t := t') (by simp)
    rcases List.eq_nil_or_concat t'.text.toList with he | ⟨cs, c, he⟩
    · exact absurd (String.toList_eq_nil_iff.1 he) htext
    · exact ⟨cs, c, String.toList_inj.1 (by simpa using he)⟩
  have hms : textOf (init ++ [t']) = textOf init ++ String.ofList cs ++ String.singleton c := by
    rw [textOf_append, textOf_cons, textOf_nil, String.append_empty, hcs, String.append_assoc]
  have hlast : t'.last.offset = (textOf us ++ (textOf init ++ String.ofList cs)).utf8ByteSize := by
    obtain ⟨-, -, hp⟩ := @position source (us ++ init) vs t' q (by simpa using h)
    have hi : (textOf (us ++ init)).length + t'.text.length - 1 =
        (textOf us ++ (textOf init ++ String.ofList cs)).length := by
      simp only [textOf_append, hcs, String.length_append, String.length_singleton]
      omega
    rw [hp, hi, hz, hms, ← String.append_assoc, String.append_assoc]
    exact Position.offset_ofIndex _ _
  refine ⟨_, _, c, hfirst, ?_, ?_, hz ▸ extract_toByteArray_append _ _ z⟩
  · simp [hms]
  · rw [hlast, hms]
    simp only [String.utf8ByteSize_append, String.utf8ByteSize_singleton]
    omega

theorem Place.Reads.extract_between {source : String} {ts : List Token} {q : Place} {f l : Nat}
    (h : (ofSource source).Reads ts q) (hfl : f ≤ l) (hl : l < ts.length) :
    ∃ (i j : Nat) (c : Char), ts[f].first.offset = i ∧
      (textOf ((ts.take (l + 1)).drop f)).toList.getLast? = some c ∧
      ts[l].last.offset + c.utf8Size = j ∧
      source.toByteArray.extract i j = (textOf ((ts.take (l + 1)).drop f)).toByteArray := by
  have hmid : ts.take f ++ (ts.take (l + 1)).drop f ++ ts.drop (l + 1) = ts := by
    have hpre : ts.take f = (ts.take (l + 1)).take f := by
      rw [List.take_take, Nat.min_eq_left (by omega)]
    rw [hpre, List.take_append_drop, List.take_append_drop]
  have hhead : ((ts.take (l + 1)).drop f).head? = some ts[f] := by
    rw [List.head?_drop, List.getElem?_take_of_lt (by omega), List.getElem?_eq_getElem]
  have hlast : ((ts.take (l + 1)).drop f).getLast? = some ts[l] := by
    rw [List.getLast?_drop, if_neg (by simp; omega), List.getLast?_take]
    simp [hl]
  rw [← hmid] at h
  exact h.extract hhead hlast

/-! ## Blocks -/

/-- Settling the kinds of tokens leaves their texts and positions. -/
theorem Token.map_of_settles {α : Type} {us us' : List Token} (f : Token → α)
    (hf : ∀ t kind, f { t with kind } = f t) (h : List.Forall₂ Token.Settles us us') :
    us'.map f = us.map f := by
  induction h with
  | nil => rfl
  | cons hset _ ih =>
    obtain ⟨kind, rfl, -⟩ := hset
    rw [List.map_cons, List.map_cons, hf, ih]

/-- A block that is no sentinel covers neither the first nor the last token. -/
theorem Tiles.inside {n : Nat} {bs : List Block} (h : Tiles 0 (bs.map Block.extent) n)
    (hk : Enclosed .startOfDocument .endOfDocument (bs.map Block.kind)) {b : Block} (hb : b ∈ bs)
    (hs : b.kind.isSentinel = false) : 1 ≤ b.first ∧ b.first ≤ b.last ∧ b.last + 1 < n := by
  obtain ⟨body, hbody, -, -⟩ := hk
  obtain ⟨s, bs, rfl, hsk, hbs⟩ := List.map_eq_cons_iff.1 hbody
  obtain ⟨mid, ends, rfl, -, hends⟩ := List.map_eq_append_iff.1 hbs
  obtain ⟨e, rfl, hek⟩ := List.map_eq_singleton_iff.1 hends
  have hmid : b ∈ mid := by
    rcases List.mem_cons.1 hb with rfl | hb
    · rw [hsk] at hs
      cases hs
    rcases List.mem_append.1 hb with hb | hb
    · exact hb
    · rw [List.mem_singleton.1 hb, hek] at hs
      cases hs
  rw [List.map_cons, List.map_append] at h
  obtain ⟨-, -, h⟩ := h
  obtain ⟨m, hm, he, hle, hn⟩ := tiles_append_iff.1 h
  obtain ⟨hfirst, hb, hlast⟩ := hm.mem (List.mem_map_of_mem hmid)
  have hn : e.last + 1 = n := hn
  simp only [Block.extent] at hfirst hb hlast he hle
  omega

/-- What a lexer reads before the end of a text is all that can be accepted of it. -/
theorem exists_reads_of_accepted {source : String} {us : List Token}
    (h : tokenize source = us.map .ok) : ∃ ts q e, (Place.ofSource source).Reads ts q ∧
      us = .startOfDocument :: (ts ++ [e]) := by
  obtain ⟨ts, q, hr, hq⟩ := (Place.ofSource source).exists_reads
  obtain ⟨last, hlast, -⟩ := hq.exists_last
  rw [tokenize_eq, hr.tokens, hlast] at h
  obtain ⟨e, -, rfl⟩ : ∃ e ∈ us, .ok e = last := by
    rw [← List.mem_map, ← h]
    simp
  refine ⟨ts, q, e, hr, ?_⟩
  rw [← List.map_inj_right fun _ _ => Except.ok.inj, ← h, List.map_cons, List.map_append,
    List.map_singleton]

/-- The position of the end of the document is that after the whole text. -/
theorem endOfDocument_position {source : String} {e : Token} (he : .ok e ∈ tokenize source)
    (hk : e.kind = .endOfDocument) :
    e.first = .ofIndex source.toList source.length ∧
      e.last = .ofIndex source.toList source.length := by
  obtain ⟨ts, q, hr, hq⟩ := (Place.ofSource source).exists_reads
  rw [tokenize_eq, hr.tokens] at he
  have hmem : .ok e ∈ q.tokens := by
    rcases List.mem_cons.1 he with he | he
    · cases he
      cases hk
    rcases List.mem_append.1 he with he | he
    · obtain ⟨t, ht, heq⟩ := List.mem_map.1 he
      cases heq
      have := (hr.of_mem ht).2
      rw [hk] at this
      cases this
    · exact he
  rcases hq.tokens with ⟨hnil, htokens⟩ | ⟨c, cs, fault, -, htokens⟩
  · rw [htokens, List.mem_singleton] at hmem
    cases hmem
    have hsource : textOf ts = source := by
      refine String.toList_inj.1 ?_
      rw [show source.toList = _ from hr.rest, hnil, List.append_nil]
    have hend : q.cursor.endPosition = .ofIndex source.toList source.length := by
      rw [← hsource] at hr ⊢
      exact hr.cursor_at.endPosition fun j _ _ => by simp [← String.length_toList]
    exact ⟨hend, hend⟩
  · simp [htokens] at hmem

/-- A run of tokens of a document, and its place in the source text. -/
theorem Document.slice_of_settles {d : Document} {us : List Token}
    (h : List.Forall₂ Token.Settles us d.tokens.toList) (b : Block) :
    d.text b = textOf ((us.take (b.last + 1)).drop b.first) ∧
      d.span b = ⟨(us[b.first]?.map Token.first).getD .unknown,
        (us[b.last]?.map Token.last).getD .unknown⟩ := by
  have hget : ∀ (f : Token → Position), (∀ t kind, f { t with kind } = f t) → ∀ i,
      (d.tokens.get? i).map f = us[i]?.map f := by
    intro f hf i
    rw [Chain.get?_eq, ← List.getElem?_map, Token.map_of_settles f hf h, List.getElem?_map]
  refine ⟨?_, ?_⟩
  · rw [Document.text, TokenChain.text_eq, textBetween, textOf, List.map_drop, List.map_take,
      Token.map_of_settles Token.text (fun _ _ => rfl) h, List.map_drop, List.map_take]
  · rw [Document.span, Document.firstPosition, Document.lastPosition,
      hget Token.first fun _ _ => rfl, hget Token.last fun _ _ => rfl]

/-- The span of a block that is no sentinel delimits its text in the bytes of the source text. -/
theorem extract_span {source : String} {options : Options} {d : Document}
    (h : outline (tokenize source) options = .ok d) {b : Block} (hb : b ∈ d.blocks.toList)
    (hs : b.kind.isSentinel = false) :
    ∃ (i j : Nat) (c : Char), (d.span b).first.offset = i ∧ (d.text b).toList.getLast? = some c ∧
      (d.span b).last.offset + c.utf8Size = j ∧
      source.toByteArray.extract i j = (d.text b).toByteArray := by
  obtain ⟨-, htiles⟩ := outline_tiles h
  obtain ⟨m, hrun, rfl⟩ := outline_ok h
  obtain ⟨us, us', rest, hus, hset, hlast, htokens, -, hframed⟩ :=
    @Machine.run_induction _ Machine.kept_framed { options } m [] [] (Machine.sound_start options)
      rfl rfl (Machine.framed_start options) _ hrun
  rw [List.nil_append] at htokens
  obtain ⟨rfl, -, -⟩ := tokenize_ends hus hlast
  rw [List.append_nil] at hus
  obtain ⟨ts, q, e, hr, rfl⟩ := exists_reads_of_accepted hus
  have hset : List.Forall₂ Token.Settles _ m.document.tokens.toList := htokens ▸ hset
  obtain ⟨hfirst, hle, hlt⟩ := htiles.inside (hframed.enclosed (Machine.done_of_run hrun)) hb hs
  obtain ⟨htext, hspan⟩ := Document.slice_of_settles hset b
  have hsize : m.document.tokens.size = ts.length + 2 := by
    rw [← Chain.length_toList, ← hset.length_eq]
    simp
  -- The tokens of the block are among those between the sentinels.
  obtain ⟨f, hf⟩ : ∃ f, b.first = f + 1 := ⟨b.first - 1, by omega⟩
  obtain ⟨l, hl⟩ : ∃ l, b.last = l + 1 := ⟨b.last - 1, by omega⟩
  have hlts : l < ts.length := by omega
  have hfl : f ≤ l := by omega
  rw [hf, hl, List.take_succ_cons, List.drop_succ_cons, List.take_append_of_le_length hlts] at htext
  rw [hf, hl, List.getElem?_cons_succ, List.getElem?_cons_succ, List.getElem?_append_left hlts,
    List.getElem?_append_left (Nat.lt_of_le_of_lt hfl hlts), List.getElem?_eq_getElem hlts,
    List.getElem?_eq_getElem (Nat.lt_of_le_of_lt hfl hlts)] at hspan
  rw [htext, hspan]
  exact hr.extract_between hfl hlts

/-! ## All positions -/

/-- The positions of a source text address it, and none of them overflows its machine words on the
way. -/
structure Addresses (source : String) : Prop where
  /-- Every character is stamped, and so is the end. -/
  stamped : (Stamper.ofSource source).characters? = some (characters source, endPosition source)
  /-- Every token is read. -/
  read : bufferedTokens? source = some (tokenize source)
  chars : (characters source).map Character.char = source.toList
  /-- A character stands where it should, and its line and column fit 32 bits. -/
  character : ∀ (i : Nat) (x : Character), (characters source)[i]? = some x →
    x.position = .ofIndex source.toList i ∧ x.position.line < UInt32.size ∧
      x.position.column < UInt32.size
  /-- The position after a character is that of the next one, except between a carriage return and its
  line feed. -/
  after : ∀ (i : Nat) (x : Character), (characters source)[i]? = some x →
    ¬(x.char = '\r' ∧ source.toList[i + 1]? = some '\n') → x.after = .ofIndex source.toList (i + 1)
  /-- A token stands where its text does. -/
  token : ∀ us t rest, tokenize source = us.map .ok ++ .ok t :: rest → t.kind.isSentinel = false →
    t.text ≠ "" ∧ t.text.toList <+: source.toList.drop (textOf us).length ∧
      t.first = .ofIndex source.toList (textOf us).length ∧
      t.last = .ofIndex source.toList ((textOf us).length + t.text.length - 1)
  endOfDocument : ∀ e, .ok e ∈ tokenize source → e.kind = .endOfDocument →
    e.first = .ofIndex source.toList source.length ∧ e.last = .ofIndex source.toList source.length
  /-- The span of a block delimits its text in the bytes of the source text. -/
  block : ∀ options d gs, parseDocument source options = .ok (d, gs) →
    ∀ b ∈ d.blocks.toList, b.kind.isSentinel = false →
      ∃ (i j : Nat) (c : Char), (d.span b).first.offset = i ∧
        (d.text b).toList.getLast? = some c ∧ (d.span b).last.offset + c.utf8Size = j ∧
        source.toUTF8.extract i j = (d.text b).toUTF8

/-- **Positions address the source text.** Every character, every token and the end of the document
carry the positions that `Position.ofIndex` defines, as long as the lines and columns after every
character fit 32 bits. -/
theorem positions_address_source (source : String) (hlength : source.length + 1 < UInt32.size) :
    Addresses source where
  stamped := by
    have hrest : (Stamper.ofSource source).rest.length = source.length := String.length_toList
    exact Stamper.characters?_eq (s := .ofSource source) (.plain .start) (by omega)
  read := bufferedTokens?_eq hlength
  chars := map_char_charactersFrom _ _
  character i x hx := by
    obtain ⟨hc, hpos, -⟩ := getElem?_characters hx
    have hi : i < source.length := by
      rw [← String.length_toList]
      exact (List.getElem?_eq_some_iff.1 hc).1
    have hline := Position.ofIndex_line_le source.toList i
    have hcolumn := Position.ofIndex_column_le source.toList i
    exact ⟨hpos, by rw [hpos]; omega, by rw [hpos]; omega⟩
  after _ _ hx := (getElem?_characters hx).2.2
  token _ _ _ h ht := token_position h ht
  endOfDocument _ he hk := endOfDocument_position he hk
  block _ _ _ hparse _ hb hs := extract_span (parseDocument_ok hparse).1 hb hs

/-- Lines that end in three ways, and a character of two bytes. -/
theorem positions_address_source_mixed :
    ∃ d gs, parseDocument "package p is\r\n-- é\r\nend;\n" {} = .ok (d, gs) ∧
      ∀ b ∈ d.blocks.toList, b.kind.isSentinel = false →
        ∃ (i j : Nat) (c : Char), (d.span b).first.offset = i ∧
          (d.text b).toList.getLast? = some c ∧ (d.span b).last.offset + c.utf8Size = j ∧
          "package p is\r\n-- é\r\nend;\n".toUTF8.extract i j = (d.text b).toUTF8 := by
  have hok : (parseDocument "package p is\r\n-- é\r\nend;\n" {}).isOk = true := by decide +kernel
  generalize hr : parseDocument "package p is\r\n-- é\r\nend;\n" {} = r at hok
  cases r with
  | error e => cases hok
  | ok r =>
    exact ⟨r.1, r.2, rfl, (positions_address_source _ (by decide)).block {} r.1 r.2 hr⟩

/-- A line of blanks as long as there are columns has no position after it. -/
theorem blanks_overflow :
    (String.ofList (List.replicate 4294967295 ' ')).length < UInt32.size ∧
      ¬ Addresses (String.ofList (List.replicate 4294967295 ' ')) := by
  have hsize : UInt32.size = 4294967296 := rfl
  constructor
  · rw [String.length_ofList, List.length_replicate, hsize]
    decide
  · intro h
    have hstop := h.stamped
    rw [Stamper.ofSource, String.toList_ofList, Stamper.characters?_blanks] at hstop
    · cases hstop
    · rw [hsize]
      decide

end VhdlOutline
