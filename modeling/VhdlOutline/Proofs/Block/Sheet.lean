import VhdlOutline.Block.Sheet
import VhdlOutline.Proofs.Chain

/-!
# Sheets keep everything

The blocks of a sheet and the fragments that wait cover the tokens before the block under
construction, in order and once each. This is `Sheet.Laid`, and every operation of a sheet restores
it. What has been read of the block under construction, blanks and comments left out, is
`Sheet.pending`; for each operation one lemma says what becomes of it.

The tokens `ts` below are those before the current one, so that the sheet holds `ts ++ [t]` while
the token `t` is read, and `ts` between two tokens.
-/

namespace VhdlOutline

/-! ## Extents that cover a range -/

/-- The indices of the first and last token of a block. -/
def Block.extent (b : Block) : Nat × Nat := (b.first, b.last)

/-- The indices of the first and last token of a fragment. -/
def Fragment.extent (f : Fragment) : Nat × Nat := (f.first, f.last)

/-- The extents cover the range from `lo` up to, but not including, `hi`, in order. -/
def Tiles : Nat → List (Nat × Nat) → Nat → Prop
  | lo, [], hi => lo = hi
  | lo, e :: es, hi => e.1 = lo ∧ e.1 ≤ e.2 ∧ Tiles (e.2 + 1) es hi

theorem tiles_iff (lo : Nat) (bs : List Block) (hi : Nat) :
    tiles lo bs hi = true ↔ Tiles lo (bs.map Block.extent) hi := by
  induction bs generalizing lo with
  | nil => simp [tiles, Tiles]
  | cons b bs ih => simp [tiles, Tiles, ih, Block.extent, and_assoc]

theorem tiles_append_iff {lo hi : Nat} {es fs : List (Nat × Nat)} :
    Tiles lo (es ++ fs) hi ↔ ∃ mid, Tiles lo es mid ∧ Tiles mid fs hi := by
  induction es generalizing lo with
  | nil => simp [Tiles]
  | cons e es ih => simp [Tiles, ih, and_assoc]

theorem tiles_singleton {lo hi : Nat} (h : lo ≤ hi) : Tiles lo [(lo, hi)] (hi + 1) :=
  ⟨rfl, h, rfl⟩

theorem Tiles.append {lo mid hi : Nat} {es fs : List (Nat × Nat)} (h : Tiles lo es mid)
    (h' : Tiles mid fs hi) : Tiles lo (es ++ fs) hi :=
  tiles_append_iff.2 ⟨mid, h, h'⟩

theorem Tiles.le {lo hi : Nat} {es : List (Nat × Nat)} (h : Tiles lo es hi) : lo ≤ hi := by
  induction es generalizing lo with
  | nil => exact Nat.le_of_eq h
  | cons e es ih =>
    obtain ⟨rfl, he, h⟩ := h
    have := ih h
    omega

theorem Tiles.mem {lo hi : Nat} {es : List (Nat × Nat)} (h : Tiles lo es hi) {e : Nat × Nat}
    (he : e ∈ es) : lo ≤ e.1 ∧ e.1 ≤ e.2 ∧ e.2 < hi := by
  induction es generalizing lo with
  | nil => cases he
  | cons e' es ih =>
    obtain ⟨rfl, hle, h⟩ := h
    rcases List.mem_cons.1 he with rfl | he
    · exact ⟨Nat.le_refl _, hle, h.le⟩
    · have := ih h he
      omega

@[simp] theorem Fragment.extent_block (kind : BlockKind) (split : Bool) (f : Fragment) :
    (f.block kind split).extent = f.extent := by
  unfold Fragment.block
  split <;> rfl

theorem map_extent_assemble (kind : BlockKind) (waiting : List Fragment)
    (rest : Option (Nat × Nat)) :
    (assemble kind waiting rest).map Block.extent = waiting.map Fragment.extent ++ rest.toList := by
  cases rest <;> simp [assemble, Function.comp_def, Fragment.extent]

/-! ## Tokens that carry meaning -/

/-- The token is neither blank nor a comment. -/
def Token.isSignificant (t : Token) : Bool := !t.kind.isTrivia

/-- The tokens that are neither blank nor comments. -/
def significant (ts : List Token) : List Token := ts.filter Token.isSignificant

@[simp] theorem significant_nil : significant [] = [] := rfl

@[simp] theorem significant_append (ts us : List Token) :
    significant (ts ++ us) = significant ts ++ significant us :=
  List.filter_append ..

theorem significant_singleton {t : Token} (h : t.kind.isTrivia = false) :
    significant [t] = [t] := by
  simp [significant, Token.isSignificant, h]

theorem significant_trivium {t : Token} (h : t.kind.isTrivia = true) : significant [t] = [] := by
  simp [significant, Token.isSignificant, h]

theorem significant_eq_nil {ts : List Token} (h : ∀ t ∈ ts, t.kind.isTrivia = true) :
    significant ts = [] := by
  simpa [significant, Token.isSignificant] using h

/-- The tokens of a fragment. -/
def Fragment.tokensIn (f : Fragment) (ts : List Token) : List Token :=
  (ts.take (f.last + 1)).drop f.first

theorem Fragment.tokensIn_append {f : Fragment} {ts : List Token} (h : f.last < ts.length)
    (us : List Token) : f.tokensIn (ts ++ us) = f.tokensIn ts := by
  rw [tokensIn, tokensIn, List.take_append_of_le_length h]

namespace Sheet

/-- The fragments of the block under construction, without what stands between them. -/
def pieces (s : Sheet) : List Fragment := s.waiting.filter fun f => f.kind?.isNone

/-- What has been read of the block under construction before the current token, blanks and
comments left out. The tokens before the current one are `ts`. -/
def pending (s : Sheet) (ts : List Token) : List Token :=
  significant (s.pieces.flatMap (·.tokensIn ts) ++ ts.drop s.start)

/-- Blocks and waiting fragments cover the tokens before the block under construction, which begins
no later than at token number `n`. -/
structure Laid (s : Sheet) (n : Nat) : Prop where
  tokens_linked : s.tokens.isLinked = true
  blocks_linked : s.blocks.isLinked = true
  tiles : Tiles 0 (s.blocks.toList.map Block.extent ++ s.waiting.map Fragment.extent) s.start
  start_le : s.start ≤ n
  /-- Only blanks and comments wait with a kind of their own. -/
  skippable : ∀ f ∈ s.waiting, ∀ k, f.kind? = some k → k.isSkippable = true

theorem index_eq {s : Sheet} {ts : List Token} {t : Token} (h : s.tokens.toList = ts ++ [t]) :
    s.index = ts.length := by
  have := congrArg List.length h
  simp only [Chain.length_toList, List.length_append, List.length_singleton] at this
  simp [index, this]

theorem Laid.last_lt {s : Sheet} {n : Nat} (h : s.Laid n) {f : Fragment} (hf : f ∈ s.waiting) :
    f.first ≤ f.last ∧ f.last < s.start := by
  have := h.tiles.mem (List.mem_append_right _ (List.mem_map_of_mem hf))
  exact ⟨this.2.1, this.2.2⟩

theorem laid_empty : ({} : Sheet).Laid 0 where
  tokens_linked := Chain.isLinked_empty
  blocks_linked := Chain.isLinked_empty
  tiles := rfl
  start_le := Nat.le_refl 0
  skippable := by simp

theorem Laid.mono {s : Sheet} {m n : Nat} (h : s.Laid m) (hn : m ≤ n) : s.Laid n :=
  { h with start_le := Nat.le_trans h.start_le hn }

theorem Laid.push {s : Sheet} {n : Nat} (h : s.Laid n) (t : Token) : (s.push t).Laid n :=
  { h with tokens_linked := Chain.isLinked_push h.tokens_linked t }

theorem Laid.settle {s : Sheet} {n : Nat} (h : s.Laid n) (kind : TokenKind) :
    (s.settle kind).Laid n :=
  { h with tokens_linked := Chain.isLinked_modifyLast h.tokens_linked _ }

theorem Laid.complete {s : Sheet} {n : Nat} (h : s.Laid n) (kind : BlockKind)
    {rest : Option (Nat × Nat)} {start : Nat} (hr : Tiles s.start rest.toList start)
    (hn : start ≤ n) : { s.complete kind rest with start }.Laid n where
  tokens_linked := h.tokens_linked
  blocks_linked := Chain.isLinked_append h.blocks_linked _
  tiles := by
    have := h.tiles.append hr
    simpa [Sheet.complete, map_extent_assemble] using this
  start_le := hn
  skippable := by simp [Sheet.complete]

theorem Laid.close {s : Sheet} (h : s.Laid s.index) (kind : BlockKind) :
    (s.close kind).Laid (s.index + 1) :=
  (h.mono (Nat.le_succ _)).complete kind (tiles_singleton h.start_le) (Nat.le_refl _)

theorem Laid.cut {s : Sheet} (h : s.Laid s.index) (kind : BlockKind) :
    (s.cut kind).Laid s.index := by
  refine h.complete kind ?_ (Nat.le_refl _)
  have hle := h.start_le
  split
  · have := @tiles_singleton s.start (s.index - 1) (by omega)
    rwa [show s.index - 1 + 1 = s.index by omega] at this
  · exact show s.start = s.index by omega

theorem Laid.aside {s : Sheet} {n : Nat} (h : s.Laid n) {kind : BlockKind}
    (hk : kind.isSkippable = true) {last : Nat} (hl : s.start ≤ last) (hn : last + 1 ≤ n) :
    { s.aside kind s.start last with start := last + 1 }.Laid n := by
  have ht := h.tiles.append (tiles_singleton hl)
  unfold Sheet.aside
  split
  · rename_i hw
    obtain hw : s.waiting = [] := by simpa using hw
    exact {
      tokens_linked := h.tokens_linked
      blocks_linked := Chain.isLinked_push h.blocks_linked _
      tiles := by simpa [hw, Block.extent] using ht
      start_le := hn
      skippable := h.skippable }
  · exact {
      tokens_linked := h.tokens_linked
      blocks_linked := h.blocks_linked
      tiles := by simpa [Fragment.extent] using ht
      start_le := hn
      skippable := by
        intro f hf k hfk
        rcases List.mem_append.1 hf with hf | hf
        · exact h.skippable f hf k hfk
        · obtain rfl := List.mem_singleton.1 hf
          cases hfk
          exact hk }

theorem Laid.closeAside {s : Sheet} (h : s.Laid s.index) {kind : BlockKind}
    (hk : kind.isSkippable = true) : (s.closeAside kind).Laid (s.index + 1) :=
  (h.mono (Nat.le_succ _)).aside hk h.start_le (Nat.le_refl _)

theorem Laid.interrupt {s : Sheet} (h : s.Laid s.index) : s.interrupt.Laid s.index := by
  unfold Sheet.interrupt
  split
  · rename_i hlt
    split
    · have := @Laid.aside s _ h .whitespace rfl (s.index - 1) (by omega) (by omega)
      rwa [show s.index - 1 + 1 = s.index by omega] at this
    · have ht := h.tiles.append (@tiles_singleton s.start (s.index - 1) (by omega))
      rw [show s.index - 1 + 1 = s.index by omega] at ht
      exact {
        tokens_linked := h.tokens_linked
        blocks_linked := h.blocks_linked
        tiles := by simpa [Fragment.extent] using ht
        start_le := Nat.le_refl _
        skippable := by
          intro f hf k hfk
          rcases List.mem_append.1 hf with hf | hf
          · exact h.skippable f hf k hfk
          · obtain rfl := List.mem_singleton.1 hf
            cases hfk }
  · exact h

theorem isSkippable_triviaKind (s : Sheet) (kind : TokenKind) :
    (s.triviaKind kind).isSkippable = true := by
  unfold triviaKind
  split <;> first | rfl | (split <;> rfl)

/-! ## What becomes of the block under construction -/

@[simp] theorem index_settle (s : Sheet) (kind : TokenKind) : (s.settle kind).index = s.index := by
  simp [index, settle]

@[simp] theorem index_cut (s : Sheet) (kind : BlockKind) : (s.cut kind).index = s.index := rfl

@[simp] theorem pending_push (s : Sheet) (ts : List Token) (t : Token) :
    (s.push t).pending ts = s.pending ts := rfl

@[simp] theorem pending_settle (s : Sheet) (ts : List Token) (kind : TokenKind) :
    (s.settle kind).pending ts = s.pending ts := rfl

/-- Nothing has been read of the block under construction, not even a blank. -/
def IsClean (s : Sheet) (n : Nat) : Prop := s.waiting = [] ∧ s.start = n

theorem IsClean.pending {s : Sheet} {ts : List Token} (h : s.IsClean ts.length) :
    s.pending ts = [] := by
  simp [Sheet.pending, pieces, h.1, h.2]

theorem isClean_close (s : Sheet) (kind : BlockKind) : (s.close kind).IsClean (s.index + 1) :=
  ⟨rfl, rfl⟩

theorem isClean_cut (s : Sheet) (kind : BlockKind) : (s.cut kind).IsClean s.index := ⟨rfl, rfl⟩

theorem IsClean.closeAside {s : Sheet} (h : s.IsClean s.index) (kind : BlockKind) :
    (s.closeAside kind).IsClean (s.index + 1) := by
  refine ⟨?_, rfl⟩
  simp [Sheet.closeAside, Sheet.aside, h.1]

theorem Laid.flatMap_pieces_append {s : Sheet} {ts : List Token} (h : s.Laid ts.length)
    (us : List Token) :
    s.pieces.flatMap (·.tokensIn (ts ++ us)) = s.pieces.flatMap (·.tokensIn ts) := by
  rw [List.flatMap_def, List.flatMap_def, List.map_congr_left]
  intro f hf
  have hl := h.last_lt (List.mem_filter.1 hf).1
  have hs := h.start_le
  exact Fragment.tokensIn_append (by omega) us

/-- More tokens join the block under construction. -/
theorem Laid.pending_append {s : Sheet} {ts : List Token} (h : s.Laid ts.length)
    (us : List Token) : s.pending (ts ++ us) = s.pending ts ++ significant us := by
  rw [pending, pending, h.flatMap_pieces_append, List.drop_append_of_le_length h.start_le]
  simp

theorem pieces_aside (s : Sheet) (kind : BlockKind) (first last : Nat) :
    (s.aside kind first last).pieces = s.pieces := by
  unfold aside
  split <;> simp [pieces]

/-- Blanks and comments of their own leave the block under construction as it is. -/
theorem Laid.pending_closeAside {s : Sheet} {ts : List Token} {t : Token}
    (h : s.Laid ts.length) (hs : s.start = ts.length) (ht : s.tokens.toList = ts ++ [t])
    (kind : BlockKind) : (s.closeAside kind).pending (ts ++ [t]) = s.pending ts := by
  have hi := index_eq ht
  have hp : (s.closeAside kind).pieces = s.pieces := s.pieces_aside ..
  have hd : (ts ++ [t]).drop (s.closeAside kind).start = [] := by
    simp [Sheet.closeAside, hi]
  rw [pending, pending, hp, hd, h.flatMap_pieces_append, hs, List.drop_length]

/-- What has been read of the block under construction since its last fragment. -/
theorem range_start {s : Sheet} {ts : List Token} {t : Token} (ht : s.tokens.toList = ts ++ [t])
    (h : s.start < s.index) : s.tokens.range s.start (s.index - 1) = ts.drop s.start := by
  have hi := index_eq ht
  rw [TokenChain.range_eq, ht, hi, show ts.length - 1 + 1 = ts.length by omega, List.take_left']
  rfl

/-- An interruption moves what has been read of the block to its fragments. -/
theorem pending_interrupt {s : Sheet} {ts : List Token} {t : Token}
    (ht : s.tokens.toList = ts ++ [t]) : s.interrupt.pending ts = s.pending ts := by
  have hi := index_eq ht
  unfold Sheet.interrupt
  split
  · rename_i hlt
    have hd : ts.drop s.index = [] := by simp [hi]
    split
    · rename_i hall
      rw [range_start ht hlt, List.all_eq_true] at hall
      have he : significant (ts.drop s.start) = [] := by
        apply significant_eq_nil
        intro u hu
        have := hall u hu
        simp only [decide_eq_true_eq] at this
        rw [this]
        rfl
      rw [pending, pending]
      show significant ((s.aside .whitespace s.start (s.index - 1)).pieces.flatMap _ ++
        ts.drop s.index) = _
      rw [pieces_aside, hd]
      simp [he]
    · have hl : s.index - 1 + 1 = ts.length := by omega
      simp [pending, pieces, Fragment.tokensIn, hd, hl, List.filter_append]
  · rfl

end Sheet

end VhdlOutline
