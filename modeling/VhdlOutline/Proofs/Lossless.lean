import VhdlOutline.Pipeline
import VhdlOutline.Proofs.Group.Reduce
import VhdlOutline.Proofs.Lexeme.Tokens
import VhdlOutline.Proofs.Outline.Parts

/-!
# Nothing is lost

A parsed document holds its whole source text: its tokens, its blocks and its groups make it up, in
order and once each, and the start and the end of the document enclose everything else
(`parseDocument_lossless`).

That the tokens are all there is due to the lexer. That the blocks cover them holds because every
turn of the machine keeps the sheet laid out, and because the end of the document is read only
between design units, where nothing waits.
-/

namespace VhdlOutline

/-- The list starts with `first` and ends with `last`, and both occur nowhere else in it. -/
def Enclosed {α : Type} (first last : α) (as : List α) : Prop :=
  ∃ body, as = first :: (body ++ [last]) ∧ first ∉ body ∧ last ∉ body

/-! ## The blocks at both ends -/

/-- A move does not lead back before the start of the document. -/
def Next.IsForward : Next → Prop
  | .goto s => s ≠ .documentStart
  | .call _ sub => sub ≠ .documentStart
  | .return_ => True

namespace State

theorem Allows.isForward_take {s : State} {t : Token} {before closing : Option BlockKind}
    {next : Next} (h : s.Allows t (.take before closing next)) : next.IsForward := by
  cases h <;> simp [Next.IsForward, Outline.thenBranch]

theorem Allows.isForward_pass {s : State} {t : Token} {before : Option BlockKind} {next : Next}
    (h : s.Allows t (.pass before next)) : next.IsForward := by
  cases h with
  | declaration _ _ hs =>
    rintro rfl
    cases (declarationState?_inner hs).1
  | _ => simp [Next.IsForward]

theorem Fits.ne_documentStart {c c' : Control} {next : Next} (hf : Fits c.state c.stack)
    (hc : c.follow next = .ok c') (hn : next.IsForward) : c'.state ≠ .documentStart := by
  have harrives := hf.arrives hc
  generalize c'.state = s' at harrives ⊢
  cases harrives with
  | goto | call => exact hn
  | document => simp
  | frame _ h | expression _ h =>
    rintro rfl
    cases h

end State

/-- The kinds of the blocks at both ends of a document. -/
def BlockKind.isSentinel (k : BlockKind) : Bool := k == .startOfDocument || k == .endOfDocument

theorem BlockKind.not_isSentinel {k : BlockKind} (h : k.isOrdinary = true ∨ k.isSkippable = true) :
    k.isSentinel = false := by
  cases k <;> revert h <;> decide

namespace Machine

/-- The start of the document is the first block, and its end the last one if it has been read. -/
structure Framed (m : Machine) : Prop where
  /-- Nothing precedes the start of the document. -/
  unopened : m.control.state = .documentStart →
    m.sheet.blocks.toList = [] ∧ m.sheet.waiting = []
  opened : m.control.state ≠ .documentStart → ∃ body,
    m.sheet.blocks.toList.map Block.kind =
      .startOfDocument :: (body ++ if m.done then [.endOfDocument] else []) ∧
      ∀ k ∈ body, k.isSentinel = false
  closed : m.done = true → m.control.state = .documentRegion

variable {m m' : Machine} {ts : List Token} {t : Token} {cs : List Completion} {v : Verdict}

/-- Blocks that are no sentinels leave the frame as it is. -/
theorem Framed.append (h : m.Framed) (hs : m.control.state ≠ .documentStart)
    (hd : m.done = false) {bs : List Block}
    (hb : m'.sheet.blocks.toList = m.sheet.blocks.toList ++ bs)
    (hk : ∀ b ∈ bs, b.kind.isSentinel = false) (hs' : m'.control.state ≠ .documentStart)
    (hd' : m'.done = m.done) : m'.Framed where
  unopened h := absurd h hs'
  opened _ := by
    obtain ⟨body, hbody, hsent⟩ := h.opened hs
    refine ⟨body ++ bs.map Block.kind, ?_, ?_⟩
    · simp [hb, hbody, hd', hd]
    · intro k hmem
      rcases List.mem_append.1 hmem with hmem | hmem
      · exact hsent k hmem
      · obtain ⟨b, hb, rfl⟩ := List.mem_map.1 hmem
        exact hk b hb
  closed h := by
    rw [hd', hd] at h
    cases h

/-- The completions of a move other than the last are of ordinary kinds. -/
theorem Turn.not_isSentinel (hm : Turn m t cs m' v) (h : m.Sound ts)
    (ht : m.sheet.tokens.toList = ts ++ [t]) {move : Move}
    (hallows : m.control.state.Allows t move) (hcs : cs = m.sheet.completedBy move)
    (hs : m.control.state ≠ .documentStart) (hmove : move ≠ .finish) :
    ∀ b ∈ cs.flatMap Completion.blocks, b.kind.isSentinel = false := by
  intro b hb
  obtain ⟨c, hc, hb⟩ := List.mem_flatMap.1 hb
  apply BlockKind.not_isSentinel
  rcases Completion.of_mem_blocks (hm.isWhole h ht c hc).skippable hb with hk | ⟨hk, -⟩
  · left
    rw [hk]
    apply hallows.isOrdinary hs hmove
    rw [← m.sheet.kinds_completedBy, ← hcs]
    exact List.mem_map_of_mem hc
  · exact .inr hk

/-- Before the document has started, only the token that starts it is taken. -/
theorem Turn.of_documentStart (hm : Turn m t cs m' v) (h : m.Sound ts)
    (hs : m.control.state = .documentStart) (hv : ∀ e, v ≠ .failed e) :
    t.kind.isTrivia = false ∧ v = .taken ∧ m'.control.state = .documentRegion ∧
      m'.done = m.done ∧ m'.sheet =
        m.sheet.taking none (some .startOfDocument) (m.control.state.reading t) := by
  have haside : m.control.isAside = false := by
    cases ha : m.control.isAside with
    | false => rfl
    | true =>
      have := (h.aside ha).2
      rw [hs] at this
      cases this
  cases hm with
  | trivium _ hor =>
    rw [haside, hs] at hor
    rcases hor with ha | hap
    · cases ha
    · cases hap
  | resume _ ha => cases haside.symm.trans ha
  | absorb _ _ hin | interrupt _ _ hin =>
    rw [hs] at hin
    cases hin
  | refuse | mismatch => exact absurd rfl (hv _)
  | take _ htr hr _ hc hm =>
    have hallows := State.allows_of_react hr
    have hk := hallows.not_isTrivia htr
    have hcontrol := hm.control
    have hsheet := hm.sheet
    rw [hs] at hallows
    cases hallows
    cases hc
    exact ⟨hk, rfl, by rw [hcontrol], hm.done, hsheet⟩
  | pass _ _ hr | finish _ _ hr =>
    have hallows := State.allows_of_react hr
    rw [hs] at hallows
    cases hallows

theorem Framed.start (hfr : m.Framed) (h : m.Sound ts) (hd : m.done = false)
    (hm : Turn m t cs m' v) (hv : ∀ e, v ≠ .failed e) (hs : m.control.state = .documentStart) :
    m'.Framed := by
  obtain ⟨hblocks, hwaiting⟩ := hfr.unopened hs
  obtain ⟨-, -, hregion, hdone, hsheet⟩ := hm.of_documentStart h hs hv
  refine ⟨fun h => ?_, fun _ => ⟨[], ?_, by simp⟩, fun _ => hregion⟩
  · cases hregion.symm.trans h
  · rw [hsheet, m.sheet.blocks_taking _ _ _ (.goto .documentRegion), hdone, hd, hblocks]
    simp [Sheet.completedBy, Sheet.cutBefore, Sheet.closeCompletion, Completion.blocks, assemble,
      hwaiting, Fragment.block]

theorem Framed.inside (hfr : m.Framed) (h : m.Sound ts) (ht : m.sheet.tokens.toList = ts ++ [t])
    (hd : m.done = false) (hm : Turn m t cs m' v) (hv : ∀ e, v ≠ .failed e)
    (hs : m.control.state ≠ .documentStart) : m'.Framed := by
  obtain ⟨bs, hb, hbs⟩ := hm.blocks
  have hsent := @Turn.not_isSentinel _ _ _ _ _ _ hm h ht
  have hkind : (∀ b ∈ cs.flatMap Completion.blocks, b.kind.isSentinel = false) →
      ∀ b ∈ bs, b.kind.isSentinel = false := by
    intro hcs
    rcases hbs with rfl | ⟨-, hskip⟩
    · exact hcs
    · exact fun b hb => BlockKind.not_isSentinel (.inr (hskip b hb).1)
  cases hm with
  | trivium _ _ hm | resume _ _ hm | absorb _ _ _ hm | interrupt _ _ _ hm =>
    exact hfr.append hs hd hb (hkind (by simp)) (by rw [hm.control]; exact hs) hm.done
  | take _ _ hr _ hc hm =>
    have hallows := State.allows_of_react hr
    refine hfr.append hs hd hb (hkind (hsent hallows rfl hs (by simp))) ?_ hm.done
    rw [hm.control]
    exact h.fits.ne_documentStart hc hallows.isForward_take
  | pass _ _ hr hc hm =>
    have hallows := State.allows_of_react hr
    refine hfr.append hs hd hb (hkind (hsent hallows rfl hs (by simp))) ?_ hm.done
    rw [hm.control]
    exact h.fits.ne_documentStart hc hallows.isForward_pass
  | finish _ _ hr hm =>
    -- Between design units nothing waits, so that the end of the document is a single block.
    obtain ⟨hregion, -⟩ := (State.allows_of_react hr).eq_documentRegion_of_finish
    have hclean := h.stands
    rw [hregion] at hclean
    obtain ⟨body, hbody, hbs⟩ := hfr.opened hs
    refine ⟨fun h => ?_, fun _ => ⟨body, ?_, hbs⟩, fun _ => by rw [hm.control, hregion]⟩
    · rw [hm.control] at h
      exact absurd h hs
    · rw [hm.sheet, m.sheet.blocks_close, hm.done, List.map_append, hbody, hd]
      simp [Sheet.closeCompletion, Completion.blocks, assemble, hclean.1, Fragment.block]
  | refuse | mismatch => exact absurd rfl (hv _)

theorem Framed.turn (hfr : m.Framed) (h : m.Sound ts) (ht : m.sheet.tokens.toList = ts ++ [t])
    (hd : m.done = false) (hm : Turn m t cs m' v) (hv : ∀ e, v ≠ .failed e) : m'.Framed := by
  by_cases hs : m.control.state = .documentStart
  · exact hfr.start h hd hm hv hs
  · exact hfr.inside h ht hd hm hv hs

theorem framed_start (options : Options) : ({ options } : Machine).Framed where
  unopened _ := ⟨rfl, rfl⟩
  opened h := absurd rfl h
  closed h := by cases h

theorem kept_framed : Kept fun m _ _ => m.Framed where
  push _ h := ⟨h.unopened, h.opened, h.closed⟩
  handedOn h ht hd hm hp := hp.turn h ht hd hm (by simp)
  taken h ht hd hm _ hp := hp.turn h ht hd hm (by simp)

end Machine

/-! ## The texts of blocks and groups -/

/-- The text of the tokens from `lo` up to, but not including, `hi`. -/
def textBetween (ts : List Token) (lo hi : Nat) : String :=
  String.join (((ts.take hi).drop lo).map Token.text)

theorem textBetween_append (ts : List Token) {lo mid hi : Nat} (h : lo ≤ mid) (h' : mid ≤ hi) :
    textBetween ts lo mid ++ textBetween ts mid hi = textBetween ts lo hi := by
  have hslice : (ts.take hi).drop lo = (ts.take mid).drop lo ++ (ts.take hi).drop mid := by
    simp only [List.drop_take]
    rw [show hi - lo = (mid - lo) + (hi - mid) by omega, List.take_add, List.drop_drop,
      show lo + (mid - lo) = mid by omega]
  rw [textBetween, textBetween, textBetween, hslice, List.map_append, String.join_append]

theorem textBetween_all (ts : List Token) :
    textBetween ts 0 ts.length = String.join (ts.map Token.text) := by
  simp [textBetween]

theorem TokenChain.text_eq (ts : TokenChain) (i j : Nat) :
    ts.text i j = textBetween ts.toList i (j + 1) := by
  rw [TokenChain.text, TokenChain.range_eq, textBetween]

/-- What covers a range of tokens has their text. -/
theorem Tiles.join_text {lo hi : Nat} {es : List (Nat × Nat)} (h : Tiles lo es hi)
    (ts : List Token) :
    String.join (es.map fun e => textBetween ts e.1 (e.2 + 1)) = textBetween ts lo hi := by
  induction es generalizing lo with
  | nil =>
    obtain rfl : lo = hi := h
    simp [textBetween]
  | cons e es ih =>
    obtain ⟨rfl, hle, h⟩ := h
    rw [List.map_cons, String.join_cons, ih h]
    exact textBetween_append ts (by omega) h.le

/-- A run of extents that cover a range reaches from the start of the first to the end of the
last. -/
theorem Tiles.run {a n : Nat} {es : List (Nat × Nat)} {lo l : Nat} (h : Tiles a (es.drop lo) n)
    (hlo : lo ≤ l) (hl : l < es.length) :
    ∃ e e', es[lo]? = some e ∧ es[l]? = some e' ∧ e.1 = a ∧ a ≤ e'.2 ∧
      Tiles (e'.2 + 1) (es.drop (l + 1)) n := by
  induction hk : l - lo generalizing a lo with
  | zero =>
    obtain rfl : lo = l := by omega
    rw [List.drop_eq_getElem_cons hl] at h
    obtain ⟨rfl, hle, h⟩ := h
    have he := List.getElem?_eq_getElem hl
    exact ⟨_, _, he, he, rfl, hle, h⟩
  | succ k ih =>
    have hlt : lo < es.length := by omega
    rw [List.drop_eq_getElem_cons hlt] at h
    obtain ⟨rfl, hle, h⟩ := h
    obtain ⟨-, e', -, he', -, hle', h'⟩ := ih h (by omega) (by omega)
    exact ⟨_, e', List.getElem?_eq_getElem hlt, he', rfl, by omega, h'⟩

/-- Groups that cover blocks that cover tokens have the text of these tokens. -/
theorem join_groupText {d : Document} {a n lo : Nat} {gs : List Group}
    (hb : Tiles a ((d.blocks.toList.map Block.extent).drop lo) n)
    (hg : Tiles lo (gs.map Group.extent) d.blocks.size) :
    String.join (gs.map d.groupText) = textBetween d.tokens.toList a n := by
  induction gs generalizing a lo with
  | nil =>
    obtain rfl : lo = d.blocks.size := hg
    have hnil : (d.blocks.toList.map Block.extent).drop d.blocks.size = [] := by simp
    rw [hnil] at hb
    obtain rfl : a = n := hb
    simp [textBetween]
  | cons g gs ih =>
    obtain ⟨rfl, hle, hg⟩ := hg
    have hlast := hg.le
    obtain ⟨e, e', he, he', rfl, hle', hb⟩ := hb.run hle (by simp [Group.extent] at hlast ⊢; omega)
    rw [List.getElem?_map] at he he'
    obtain ⟨b, hfirst, rfl⟩ := Option.map_eq_some_iff.1 he
    obtain ⟨b', hlast, rfl⟩ := Option.map_eq_some_iff.1 he'
    have htext : d.groupText g = textBetween d.tokens.toList b.extent.1 (b'.extent.2 + 1) := by
      rw [Document.groupText, Chain.get?_eq, Chain.get?_eq]
      simp only [Group.extent] at hfirst hlast
      rw [hfirst, hlast]
      exact TokenChain.text_eq ..
    rw [List.map_cons, String.join_cons, ih hb hg, htext]
    exact textBetween_append _ (by omega) hb.le

/-! ## The whole pipeline -/

theorem parseDocument_ok {source : String} {options : Options} {d : Document} {gs : GroupChain}
    (h : parseDocument source options = .ok (d, gs)) :
    outline (tokenize source) options = .ok d ∧ groupBlocks d.blocks = .ok gs := by
  unfold parseDocument at h
  split at h
  · cases h
  rename_i d' hd
  split at h
  · cases h
  rename_i gs' hgs
  cases h
  exact ⟨hd, hgs⟩

theorem Token.Settles.isSentinel {t t' : Token} (h : t.Settles t') :
    t'.kind.isSentinel = t.kind.isSentinel := by
  apply h.kind_iff <;> intros <;> rfl

theorem Token.map_text_of_settles {us us' : List Token}
    (h : List.Forall₂ Token.Settles us us') : us'.map Token.text = us.map Token.text := by
  induction h with
  | nil => rfl
  | cons hset _ ih => rw [List.map_cons, List.map_cons, hset.text, ih]

theorem EndsDocument.settles {us us' : List Token} (h : EndsDocument us)
    (hs : List.Forall₂ Token.Settles us us') : EndsDocument us' := by
  obtain ⟨body, e, rfl, he, hbody⟩ := h
  induction body generalizing us' with
  | nil =>
    obtain ⟨e', _, hset, hnil, rfl⟩ := List.forall₂_cons_left_iff.1 hs
    obtain rfl := List.forall₂_nil_left_iff.1 hnil
    exact ⟨[], e', rfl, hset.isEnd.2 he, by simp⟩
  | cons t body ih =>
    obtain ⟨t', us', hset, htail, rfl⟩ := List.forall₂_cons_left_iff.1 hs
    obtain ⟨body', e', rfl, he', hbody'⟩ :=
      ih htail fun t h => hbody t (List.mem_cons_of_mem _ h)
    refine ⟨t' :: body', e', rfl, he', ?_⟩
    intro u hu
    rcases List.mem_cons.1 hu with rfl | hu
    · rw [hset.isSentinel]
      exact hbody t List.mem_cons_self
    · exact hbody' u hu

theorem enclosed_kinds {s : Token} {us : List Token} (hs : s.kind = .startOfDocument)
    (hu : EndsDocument us) :
    Enclosed .startOfDocument .endOfDocument ((s :: us).map Token.kind) := by
  obtain ⟨body, e, rfl, he, hbody⟩ := hu
  refine ⟨body.map Token.kind, by simp [hs, he], ?_, ?_⟩
  · intro hmem
    obtain ⟨t, ht, hk⟩ := List.mem_map.1 hmem
    have := hbody t ht
    rw [hk] at this
    cases this
  · intro hmem
    obtain ⟨t, ht, hk⟩ := List.mem_map.1 hmem
    have := hbody t ht
    rw [hk] at this
    cases this

/-- The blocks of a machine that has read the end of the document cover its tokens. -/
theorem Machine.Framed.tiles {m : Machine} {ts : List Token} (hfr : m.Framed) (h : m.Sound ts)
    (hd : m.done = true) : Tiles 0 (m.sheet.blocks.toList.map Block.extent) ts.length := by
  have hclean := h.stands
  rw [hfr.closed hd] at hclean
  obtain ⟨hwaiting, hstart⟩ := hclean
  have := h.laid.tiles
  rwa [hwaiting, hstart, List.map_nil, List.append_nil] at this

theorem Machine.Framed.enclosed {m : Machine} (h : m.Framed) (hd : m.done = true) :
    Enclosed .startOfDocument .endOfDocument (m.sheet.blocks.toList.map Block.kind) := by
  obtain ⟨body, hbody, hsent⟩ := h.opened (by rw [h.closed hd]; simp)
  rw [hd] at hbody
  refine ⟨body, hbody, ?_, ?_⟩
  · intro hmem
    cases hsent _ hmem
  · intro hmem
    cases hsent _ hmem

/-- The blocks of an outline are linked, and cover its tokens. -/
theorem outline_tiles {xs : List (Except LexError Token)} {options : Options} {d : Document}
    (h : outline xs options = .ok d) :
    d.blocks.isLinked = true ∧ Tiles 0 (d.blocks.toList.map Block.extent) d.tokens.size := by
  obtain ⟨m, hrun, rfl⟩ := outline_ok h
  obtain ⟨_, us', _, -, -, -, htokens, hsound, hframed⟩ :=
    Machine.run_induction_start Machine.kept_framed (Machine.framed_start options) hrun
  have htiles := hframed.tiles hsound (Machine.done_of_run hrun)
  rw [← htokens, Chain.length_toList] at htiles
  exact ⟨hsound.laid.blocks_linked, htiles⟩

/-- **Nothing is lost.** A parsed document and its groups hold the whole source text, in order and
once, between a start and an end that occur nowhere else. -/
theorem parseDocument_lossless {source : String} {options : Options} {d : Document}
    {gs : GroupChain} (h : parseDocument source options = .ok (d, gs)) :
    (d.tokens.isLinked = true ∧ d.tokens.sourceText = source) ∧
    (d.blocks.covers d.tokens.size = true ∧ gs.covers d.blocks.size = true) ∧
    (String.join (d.blocks.toList.map d.text) = source ∧
      String.join (gs.toList.map d.groupText) = source) ∧
    Enclosed .startOfDocument .endOfDocument (d.tokens.toList.map Token.kind) ∧
    Enclosed .startOfDocument .endOfDocument (d.blocks.toList.map Block.kind) := by
  obtain ⟨houtline, hgroups⟩ := parseDocument_ok h
  obtain ⟨hlinked, htiles⟩ := outline_tiles houtline
  obtain ⟨m, hrun, rfl⟩ := outline_ok houtline
  obtain ⟨us, us', rest, hus, hset, hlast, htokens, hsound, hframed⟩ :=
    @Machine.run_induction _ Machine.kept_framed { options } m [] [] (Machine.sound_start options)
      rfl rfl (Machine.framed_start options) _ hrun
  rw [List.nil_append] at htokens hsound
  have hdone := Machine.done_of_run hrun
  obtain ⟨rfl, hsource, s, vs, rfl, hstart, hends⟩ := tokenize_ends hus hlast
  obtain ⟨s', vs', hsset, hvset, rfl⟩ := List.forall₂_cons_left_iff.1 hset
  have hlist : m.document.tokens.toList = s' :: vs' := htokens
  have hall : textBetween m.document.tokens.toList 0 m.document.tokens.size = source := by
    rw [← Chain.length_toList, textBetween_all, hlist, Token.map_text_of_settles hset, hsource]
  obtain ⟨hgtiles, hgcovers⟩ := groupBlocks_covers hlinked hgroups
  refine ⟨⟨hsound.laid.tokens_linked, ?_⟩, ⟨?_, hgcovers⟩, ⟨?_, ?_⟩, ?_, hframed.enclosed hdone⟩
  · rw [← hall, ← Chain.length_toList, textBetween_all]
    rfl
  · rw [BlockChain.covers, Bool.and_eq_true, tiles_iff]
    exact ⟨hlinked, htiles⟩
  · have := htiles.join_text m.document.tokens.toList
    rw [hall, List.map_map] at this
    rw [← this]
    congr 1
    apply List.map_congr_left
    intro b _
    exact TokenChain.text_eq ..
  · exact (join_groupText htiles hgtiles).trans hall
  · rw [hlist]
    exact enclosed_kinds (hsset.isStart.2 hstart) (hends.settles hvset)

/-- A comment in the middle of a block is kept with everything else. -/
theorem parseDocument_lossless_split : ∃ d gs,
    parseDocument "package p is end -- q\n;" {} = .ok (d, gs) ∧
      String.join (gs.toList.map d.groupText) = "package p is end -- q\n;" := by
  have hok : (parseDocument "package p is end -- q\n;" {}).isOk = true := by decide +kernel
  generalize hr : parseDocument "package p is end -- q\n;" {} = r at hok
  cases r with
  | error e => cases hok
  | ok r => exact ⟨r.1, r.2, rfl, (parseDocument_lossless hr).2.2.1.2⟩

end VhdlOutline
