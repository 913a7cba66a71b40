import VhdlOutline.Engine.Desk
import VhdlOutline.Proofs.Block.Sheet

/-!
# A desk is a sheet

The desk keeps in words what a sheet keeps in numbers. `Desk.sheet` is the sheet that a desk stands
for, and for each operation one lemma says that it does to the desk what the operation of the same
purpose does to the sheet. While a token is looked at, the desk has it as its current token and a
block under construction, which is `Desk.Faces`; then every number that the desk refers to is that
of a token it has.
-/

namespace VhdlOutline

/-- The fragment that a piece is. -/
def Piece.fragment (p : Piece) : Fragment := ⟨p.first.toNat, p.last.toNat, p.kind?⟩

/-- The block of a piece, for a block of the given kind that is split or not. -/
def Piece.block (kind : BlockKind) (split : Bool) (p : Piece) : Block :=
  p.fragment.block kind split

theorem Word.pred32?_of_lt {n m : UInt32} (h : n < m) :
    pred32? m = some (m - 1) ∧ (m - 1).toNat = m.toNat - 1 := by
  have hlt : n.toNat < m.toNat := UInt32.lt_iff_toNat_lt.1 h
  have hne : m ≠ 0 := by
    rintro rfl
    simp at hlt
  have hle : (1 : UInt32) ≤ m := by
    rw [UInt32.le_iff_toNat_le]
    exact Nat.le_trans (Nat.succ_le_succ (Nat.zero_le _)) hlt
  exact ⟨if_neg hne, UInt32.toNat_sub_of_le _ _ hle⟩

namespace Desk

variable {d : Desk} {t : Token} {k : Nat}

/-- The sheet that a desk stands for. -/
def sheet (d : Desk) : Sheet where
  tokens := d.tokens
  blocks := d.blocks
  waiting := d.deferred.map Piece.fragment
  start := (d.marker.map UInt32.toNat).getD d.tokens.size
  last? := d.lastEmitted

/-- The current token is `t`, and a block is under construction. -/
structure Faces (d : Desk) (t : Token) : Prop where
  size : d.tokens.size = d.token.toNat + 1
  current : d.current? = some t
  marked : ∃ a, d.marker = some a ∧ a ≤ d.token

/-- The first `k` blocks have been handed out. -/
structure Hands (d : Desk) (k : Nat) : Prop where
  le : k ≤ d.blocks.size
  fresh : d.fresh = ((List.range d.blocks.size).drop k).map .ofNat

theorem Faces.index (h : d.Faces t) : d.sheet.index = d.token.toNat := by
  simp [Sheet.index, sheet, h.size]

theorem Faces.start (h : d.Faces t) : d.start.toNat = d.sheet.start := by
  obtain ⟨a, ha, -⟩ := h.marked
  simp [Desk.start, sheet, ha]

theorem Faces.start_le (h : d.Faces t) : d.start ≤ d.token := by
  obtain ⟨a, ha, hle⟩ := h.marked
  simpa [Desk.start, ha] using hle

/-! ## Tokens -/

@[simp] theorem current?_reclassify (d : Desk) (kind : TokenKind) :
    (d.reclassify kind).current? = d.current?.map fun t => { t with kind } := by
  simp only [current?, reclassify, Chain.modify, Chain.get?, Array.getElem?_modify, if_true,
    Option.map_map]
  rfl

theorem Faces.reclassify (h : d.Faces t) (kind : TokenKind) :
    (d.reclassify kind).Faces { t with kind } where
  size := by simpa [Desk.reclassify, Chain.modify, Chain.size] using h.size
  current := by rw [current?_reclassify, h.current]; rfl
  marked := h.marked

theorem Faces.sheet_reclassify (h : d.Faces t) (kind : TokenKind) :
    (d.reclassify kind).sheet = d.sheet.settle kind := by
  have hsize : d.tokens.nodes.size - 1 = d.token.toNat := by
    have := h.size
    rw [Chain.size] at this
    omega
  simp [Desk.reclassify, Desk.sheet, Sheet.settle, Chain.modify, Chain.modifyLast, Chain.size,
    hsize]

/-- Nothing changes where a token keeps its kind. -/
theorem Faces.reclassify_self (h : d.Faces t) : d.reclassify t.kind = d := by
  have hcur := h.current
  rw [current?, Chain.get?] at hcur
  have hnodes : (d.tokens.modify d.token.toNat fun u => { u with kind := t.kind }) = d.tokens := by
    rw [Chain.modify]
    congr 1
    apply Array.ext_getElem?
    intro i
    rw [Array.getElem?_modify]
    split
    · rename_i hi
      subst hi
      obtain ⟨x, hx, rfl⟩ := Option.map_eq_some_iff.1 hcur
      simp [hx]
    · rfl
  rw [Desk.reclassify, hnodes]

theorem Hands.reclassify (h : d.Hands k) (kind : TokenKind) : (d.reclassify kind).Hands k :=
  ⟨h.le, h.fresh⟩

/-! ## Blocks -/

theorem appendPiece_eq (kind : BlockKind) (split : Bool) (d : Desk) (p : Piece) :
    d.appendPiece kind split p = { d with
      blocks := d.blocks.push (p.block kind split)
      lastEmitted := some (p.block kind split).kind
      fresh := d.fresh ++ [.ofNat d.blocks.size] } := by
  unfold appendPiece Piece.block Piece.fragment Fragment.block
  cases p.kind? <;> rfl

/-- Several blocks are appended. -/
def appendAll (d : Desk) (bs : List Block) : Desk :=
  { d with
    blocks := d.blocks.append bs
    lastEmitted := (bs.getLast?.map Block.kind).or d.lastEmitted
    fresh := d.fresh ++ (List.range' d.blocks.size bs.length).map .ofNat }

theorem foldl_appendPiece (kind : BlockKind) (split : Bool) (d : Desk) (ps : List Piece) :
    ps.foldl (appendPiece kind split) d = d.appendAll (ps.map (Piece.block kind split)) := by
  induction ps generalizing d with
  | nil => simp [appendAll, Chain.append]
  | cons p ps ih =>
    rw [List.foldl_cons, ih, appendPiece_eq]
    cases hps : ps.map (Piece.block kind split) with
    | nil => simp [appendAll, hps, Chain.append]
    | cons b bs => simp [appendAll, hps, Chain.append, List.getLast?_cons, List.range'_succ]

/-- The tokens after the pieces are a piece themselves. -/
def rangePieces (range : Option (UInt32 × UInt32)) : List Piece :=
  (range.map fun (first, last) => ⟨first, last, none⟩).toList

theorem finish_eq_foldl (d : Desk) (kind : BlockKind) (range : Option (UInt32 × UInt32)) :
    d.finish kind range =
      (d.deferred ++ rangePieces range).foldl
        (appendPiece kind (1 < (d.deferred ++ rangePieces range).countP fun p => p.kind?.isNone))
        { d with deferred := [] } := by
  unfold finish
  split
  · rename_i h
    obtain ⟨tokens, blocks, token, marker, deferred, last, fresh⟩ := d
    obtain rfl : deferred = [] := List.isEmpty_iff.1 h
    rcases range with _ | ⟨first, last⟩ <;> simp [rangePieces, appendPiece]
  · rcases range with _ | ⟨first, last⟩
    · simp [rangePieces]
    · simp [rangePieces, appendPiece, List.foldl_append]

/-- A range in numbers. -/
def numbers (range : Option (UInt32 × UInt32)) : Option (Nat × Nat) :=
  range.map fun (first, last) => (first.toNat, last.toNat)

/-- A completion appends the blocks that the sheet assembles. -/
theorem finish_eq (d : Desk) (kind : BlockKind) (range : Option (UInt32 × UInt32)) :
    d.finish kind range = { d with deferred := [] }.appendAll
      (assemble kind d.sheet.waiting (numbers range)) := by
  have hpieces : assemble kind d.sheet.waiting (numbers range) =
      ((d.deferred ++ rangePieces range).map Piece.fragment).map (Fragment.block kind
        (1 < ((d.deferred ++ rangePieces range).map Piece.fragment).countP fun f =>
          f.kind?.isNone)) := by
    rcases range with _ | ⟨first, last⟩ <;>
      simp [assemble, rangePieces, numbers, sheet, Piece.fragment]
  rw [finish_eq_foldl, foldl_appendPiece, hpieces, List.countP_map, List.map_map]
  rfl

theorem Hands.appendAll (h : d.Hands k) (bs : List Block) : (d.appendAll bs).Hands k where
  le := by
    have := h.le
    rw [← Chain.length_toList] at this ⊢
    simp only [Desk.appendAll, Chain.toList_append, List.length_append]
    omega
  fresh := by
    have hsize : (d.blocks.append bs).size = d.blocks.size + bs.length := by
      rw [← Chain.length_toList, Chain.toList_append, List.length_append, Chain.length_toList]
    have hle : k ≤ (List.range d.blocks.size).length := by simpa using h.le
    simp only [Desk.appendAll]
    rw [hsize, h.fresh, List.range_add, List.drop_append_of_le_length hle, List.map_append,
      List.range'_eq_map_range]

theorem Hands.finish (h : d.Hands k) (kind : BlockKind) (range : Option (UInt32 × UInt32)) :
    (d.finish kind range).Hands k := by
  have hrest : ({ d with deferred := [] } : Desk).Hands k := ⟨h.le, h.fresh⟩
  rw [finish_eq]
  exact hrest.appendAll _

theorem Faces.sheet_emit (h : d.Faces t) (kind : BlockKind) :
    (d.emit kind).sheet = d.sheet.close kind := by
  simp only [emit, finish_eq, numbers, Option.map_some, h.start, appendAll, Sheet.close,
    Sheet.complete, h.index]
  simp [sheet, h.size]

theorem Hands.emit (h : d.Hands k) (kind : BlockKind) : (d.emit kind).Hands k := by
  have := h.finish kind (some (d.start, d.token))
  exact ⟨this.le, this.fresh⟩

/-- The desk after a completion before the current token. -/
def cut (d : Desk) (kind : BlockKind) : Desk :=
  let range := if d.start < d.token then some (d.start, d.token - 1) else none
  { d.finish kind range with marker := some d.token }

/-- There is a token before the current one where one is referred to. -/
theorem emitBefore?_eq (d : Desk) (kind : BlockKind) : d.emitBefore? kind = some (d.cut kind) := by
  unfold emitBefore? cut
  by_cases h : d.start < d.token
  · simp [h, (Word.pred32?_of_lt h).1]
  · simp [h]

theorem Faces.cut (h : d.Faces t) (kind : BlockKind) : (d.cut kind).Faces t := by
  rw [Desk.cut, finish_eq]
  exact ⟨h.size, h.current, _, rfl, UInt32.le_refl _⟩

theorem Faces.sheet_cut (h : d.Faces t) (kind : BlockKind) :
    (d.cut kind).sheet = d.sheet.cut kind := by
  have hlt : d.start < d.token ↔ d.sheet.start < d.sheet.index := by
    rw [UInt32.lt_iff_toNat_lt, h.start, h.index]
  have hrange : numbers (if d.start < d.token then some (d.start, d.token - 1) else none) =
      if d.sheet.start < d.sheet.index then some (d.sheet.start, d.sheet.index - 1) else none := by
    by_cases hs : d.start < d.token
    · rw [if_pos hs, if_pos (hlt.1 hs), ← h.start, h.index, ← (Word.pred32?_of_lt hs).2]
      rfl
    · rw [if_neg hs, if_neg (mt hlt.2 hs)]
      rfl
  simp only [Desk.cut, finish_eq, appendAll, Sheet.cut, Sheet.complete, hrange, h.index]
  simp [sheet]

theorem Hands.cut (h : d.Hands k) (kind : BlockKind) : (d.cut kind).Hands k := by
  have := h.finish kind (if d.start < d.token then some (d.start, d.token - 1) else none)
  exact ⟨this.le, this.fresh⟩

/-! ## Blanks and comments -/

theorem triviaKind?_eq (d : Desk) (kind : TokenKind) :
    d.triviaKind? kind = if kind.isTrivia then some (d.sheet.triviaKind kind) else none := by
  cases kind with
  | linebreak =>
    simp only [triviaKind?, Sheet.triviaKind, sheet, TokenKind.isTrivia, if_true]
    split <;> simp_all
  | _ => rfl

theorem sheet_aside (d : Desk) (kind : BlockKind) (first last : UInt32) :
    (d.aside kind first last).sheet = d.sheet.aside kind first.toNat last.toNat := by
  have hwaiting : d.sheet.waiting.isEmpty = d.deferred.isEmpty := by simp [sheet]
  unfold aside Sheet.aside
  rw [hwaiting]
  split
  · rfl
  · simp [sheet, Piece.fragment]

theorem Hands.aside (h : d.Hands k) (kind : BlockKind) (first last : UInt32) :
    (d.aside kind first last).Hands k := by
  unfold Desk.aside
  split
  · exact h.appendAll [⟨kind, first.toNat, last.toNat, false⟩]
  · exact ⟨h.le, h.fresh⟩

theorem Faces.sheet_emitAside (h : d.Faces t) (kind : BlockKind) :
    (d.emitAside kind).sheet = d.sheet.closeAside kind := by
  have hsheet := sheet_aside d kind d.start d.token
  rw [h.start, ← h.index] at hsheet
  rw [Sheet.closeAside, ← hsheet, h.index]
  unfold emitAside aside
  split <;> simp [sheet, append, h.size]

theorem Hands.emitAside (h : d.Hands k) (kind : BlockKind) : (d.emitAside kind).Hands k := by
  have := h.aside kind d.start d.token
  exact ⟨this.le, this.fresh⟩

/-- A test of the elements of a range finds all of them, if the range ends within the list. -/
theorem allM_range' {α : Type} {p : α → Bool} {xs : List α} {n a : Nat}
    (h : a + n ≤ xs.length) :
    (List.range' a n).allM (fun i => xs[i]?.map p) = some (((xs.drop a).take n).all p) := by
  induction n generalizing a with
  | zero => simp
  | succ n ih =>
    have ha : a < xs.length := by omega
    rw [List.range'_succ, List.allM, List.getElem?_eq_getElem ha, List.drop_eq_getElem_cons ha,
      List.take_succ_cons, List.all_cons]
    cases hp : p xs[a] with
    | false => simp [hp]
    | true => simpa [hp] using ih (by omega)

/-- The tokens of a range are there if its last is. -/
theorem isBlank?_eq {first last : UInt32} (hle : first ≤ last)
    (hlast : last.toNat < d.tokens.size) :
    d.isBlank? first last =
      some ((d.tokens.range first.toNat last.toNat).all fun t => t.kind = .space) := by
  have hle' := UInt32.le_iff_toNat_le.1 hle
  rw [← Chain.length_toList] at hlast
  unfold isBlank?
  simp only [Chain.get?_eq]
  rw [allM_range' (by omega), TokenChain.range_eq, List.drop_take]

/-- What has been read of a block is set aside, and all tokens are found that are asked for. -/
theorem Faces.setAside?_of_lt (h : d.Faces t) (hlt : d.start < d.token) :
    d.setAside? = some
      (if (d.tokens.range d.sheet.start (d.sheet.index - 1)).all fun t => t.kind = .space then
        d.aside .whitespace d.start (d.token - 1)
      else
        { d with
          deferred := d.deferred ++ [⟨d.start, d.token - 1, none⟩]
          lastEmitted := none }) := by
  obtain ⟨a, ha, -⟩ := h.marked
  have hstart : d.start = a := by simp [Desk.start, ha]
  obtain ⟨hpred, hv⟩ := Word.pred32?_of_lt hlt
  have hnat := UInt32.lt_iff_toNat_lt.1 hlt
  have hlast : (d.token - 1).toNat < d.tokens.size := by
    rw [hv, h.size]
    omega
  have hrange : d.start ≤ d.token - 1 := by
    rw [UInt32.le_iff_toNat_le, hv]
    omega
  have hblank := isBlank?_eq hrange hlast
  rw [h.start, show (d.token - 1).toNat = d.sheet.index - 1 by rw [hv, h.index]] at hblank
  unfold setAside?
  simp only [ha, ← hstart, if_pos hlt, hpred, hblank, Option.bind_eq_bind, Option.bind_some]
  split <;> simp [*]

/-- An interruption does to the desk what it does to the sheet. -/
theorem Faces.interrupt? (h : d.Faces t) : ∃ d', d.interrupt? = some d' ∧
    d'.sheet = d.sheet.interrupt ∧ d'.Faces t ∧ ∀ k, d.Hands k → d'.Hands k := by
  by_cases hlt : d.start < d.token
  · have hslt : d.sheet.start < d.sheet.index := by
      rwa [← h.start, h.index, ← UInt32.lt_iff_toNat_lt]
    have hlast : (d.token - 1).toNat = d.sheet.index - 1 := by
      rw [(Word.pred32?_of_lt hlt).2, h.index]
    have htokens : d.sheet.tokens = d.tokens := rfl
    rw [Desk.interrupt?, h.setAside?_of_lt hlt, Sheet.interrupt, if_pos hslt, htokens]
    refine ⟨_, rfl, ?_⟩
    split
    · have haside := sheet_aside d .whitespace d.start (d.token - 1)
      rw [h.start, hlast] at haside
      refine ⟨?_, ?_, fun k hk => ?_⟩
      · rw [← haside, h.index]
        unfold aside
        split <;> rfl
      · unfold aside
        split <;> exact ⟨h.size, h.current, _, rfl, UInt32.le_refl _⟩
      · have := hk.aside .whitespace d.start (d.token - 1)
        exact ⟨this.le, this.fresh⟩
    · refine ⟨?_, ⟨h.size, h.current, _, rfl, UInt32.le_refl _⟩, fun k hk => ⟨hk.le, hk.fresh⟩⟩
      rw [← h.start, ← hlast, h.index]
      simp [sheet, Piece.fragment]
  · obtain ⟨a, ha, hle⟩ := h.marked
    have hstart : d.start = a := by simp [Desk.start, ha]
    obtain rfl : a = d.token := UInt32.le_antisymm hle (UInt32.not_lt.1 (hstart ▸ hlt))
    have hslt : ¬ d.sheet.start < d.sheet.index := by
      rw [← h.start, h.index, ← UInt32.lt_iff_toNat_lt]
      exact hlt
    have hmarked : { d with marker := some d.token } = d := by rw [← ha]
    have hd : d.interrupt? = some d := by
      rw [Desk.interrupt?, setAside?, ha]
      simpa using hmarked
    exact ⟨d, hd, (if_neg hslt).symm, h, fun k hk => hk⟩

/-! ## From token to token -/

/-- Between two tokens, a block under construction has begun with a token that is there. -/
def Rests (d : Desk) : Prop := ∀ a, d.marker = some a → a.toNat < d.tokens.size

theorem Rests.of_marker (h : d.marker = none) : d.Rests :=
  fun _ ha => absurd (h.symm.trans ha) (by simp)

theorem Faces.rests (h : d.Faces t) : d.Rests := by
  obtain ⟨a, ha, hle⟩ := h.marked
  rintro b hb
  cases ha.symm.trans hb
  have := UInt32.le_iff_toNat_le.1 hle
  rw [h.size]
  omega

/-- A block is already under construction while a token is looked at. -/
theorem Faces.mark (h : d.Faces t) : d.mark = d := by
  obtain ⟨a, ha, -⟩ := h.marked
  rw [Desk.mark, ha, Option.some_or, ← ha]

theorem Rests.push (h : d.Rests) (hsize : d.tokens.size < UInt32.size) (t : Token) :
    (d.push t).mark.Faces t ∧ (d.push t).mark.sheet = d.sheet.push t ∧
      ∀ k, d.Hands k → (d.push t).mark.Hands k := by
  have htoken : (UInt32.ofNat d.tokens.size).toNat = d.tokens.size :=
    UInt32.toNat_ofNat_of_lt hsize
  refine ⟨⟨?_, ?_, ?_⟩, ?_, fun k hk => ⟨hk.le, hk.fresh⟩⟩
  · rw [Desk.push, Desk.mark, Chain.size_push, htoken]
  · rw [current?, Desk.push, Desk.mark, htoken, Chain.get?_eq, Chain.toList_push,
      ← Chain.length_toList]
    simp
  · cases hm : d.marker with
    | none => exact ⟨_, by simp [Desk.push, Desk.mark, hm], UInt32.le_refl _⟩
    | some a =>
      refine ⟨a, by simp [Desk.push, Desk.mark, hm], UInt32.le_iff_toNat_le.2 ?_⟩
      have := h a hm
      simp only [Desk.push, Desk.mark, htoken]
      omega
  · rw [Desk.push, Desk.mark, Sheet.push]
    cases hm : d.marker <;> simp only [sheet, hm] <;> simp [htoken]

/-! ## The token before -/

/-- Along right links, the search finds the last token before number `i` that is neither blank nor a
comment. -/
theorem significant?_of_isLinked {tokens : TokenChain} (h : tokens.isLinked = true) {i : Nat}
    (hi : i ≤ tokens.size) :
    tokens.significant? (Chain.indexBefore i) =
      some (VhdlOutline.significant (tokens.toList.take i)).getLast? := by
  rw [Chain.isLinked_iff] at h
  induction i with
  | zero =>
    rw [Chain.indexBefore, if_pos rfl, TokenChain.significant?]
    simp
  | succ i ih =>
    have hx : tokens.nodes[i]? = some tokens.nodes[i] := Array.getElem?_eq_getElem hi
    have htake : tokens.toList.take (i + 1) = tokens.toList.take i ++ [tokens.nodes[i].item] := by
      rw [List.take_add_one]
      simp [Chain.toList, hx]
    rw [Chain.indexBefore, if_neg (Nat.succ_ne_zero i), Nat.add_sub_cancel,
      TokenChain.significant?, hx, Option.bind_eq_bind, Option.bind_some, (h i _ hx).1,
      ih (Nat.le_of_lt hi), htake]
    split
    · rename_i htrivia
      rw [significant_append, significant_trivium htrivia, List.append_nil]
    · rename_i htrivia
      rw [Bool.not_eq_true] at htrivia
      rw [significant_append, significant_singleton htrivia, List.getLast?_concat]

theorem Faces.previousSignificant? (h : d.Faces t) {ts : List Token}
    (ht : d.tokens.toList = ts ++ [t]) (hl : d.tokens.isLinked = true) :
    d.previousSignificant? = some (VhdlOutline.significant ts).getLast? := by
  have hindex : d.token.toNat = ts.length := by
    have := congrArg List.length ht
    rw [Chain.length_toList, h.size, List.length_append, List.length_singleton] at this
    omega
  have hlt : d.token.toNat < d.tokens.nodes.size := by
    have := h.size
    rw [Chain.size] at this
    omega
  have hx := Array.getElem?_eq_getElem hlt
  unfold Desk.previousSignificant?
  rw [hx, Option.bind_eq_bind, Option.bind_some, ((Chain.isLinked_iff _).1 hl _ _ hx).1,
    significant?_of_isLinked hl (Nat.le_of_lt hlt), hindex, ht, List.take_left]

end Desk

end VhdlOutline
