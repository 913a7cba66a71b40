import Mathlib.Data.List.Sort
import VhdlOutline.Proofs.Group.Reducer
import VhdlOutline.Proofs.Group.Unfinished

/-!
# What becomes of linked blocks

Blocks with right links are scanned from left to right, and the blocks of a group are skipped once
it is found. `IsGroup` says which groups there are, `IsLonely` which fragments belong to none, and
`Reaches` how far the scan comes. None of them looks at the reducer.

* `scan_step`: a block that the scan reaches begins a group or is lonely, and is taken for that.
* `scan_ends`: the scan reaches the end of the blocks or a lonely fragment.
* `groupBlocks_outcome`: what `groupBlocks` returns, in terms of this.
-/

namespace VhdlOutline

/-- The block is a fragment of the given kind. -/
def Block.isPart (kind : BlockKind) (b : Block) : Bool := b.isFragment && b.kind == kind

/-- The search for fragments of the given kind ends at the block: it is neither blank nor one of
them. -/
def Block.stops (kind : BlockKind) (b : Block) : Bool :=
  !b.kind.isSkippable && !b.isPart kind

/-- The block `j` is a fragment of the given kind after the block `i`, and no block between them
ends the search. -/
def IsSibling (bs : List Block) (kind : BlockKind) (i j : Nat) : Prop :=
  i < j ∧ (∃ c, bs[j]? = some c ∧ c.isPart kind = true) ∧
    ∀ k c, i < k → k < j → bs[k]? = some c → c.stops kind = false

/-- The block `i` is a fragment of the given kind without a sibling. The search ended at a block of
the kind `found`, or at the end of the blocks. -/
structure IsLonely (bs : List Block) (kind : BlockKind) (i : Nat) (found : Option BlockKind) :
    Prop where
  fragment : ∃ b, bs[i]? = some b ∧ b.isPart kind = true
  alone : ∀ j, ¬ IsSibling bs kind i j
  found : found = ((bs.drop (i + 1)).find? (Block.stops kind)).map Block.kind

/-- The group is one of the blocks. -/
structure IsGroup (bs : List Block) (g : Group) : Prop where
  kind : bs[g.first]?.map Block.kind = some g.kind
  /-- A block that is no fragment is a group of its own, and only such a block. -/
  single : g.parts.length = 1 ↔ bs[g.first]?.map Block.isFragment = some false
  first : g.parts.head? = some g.first
  last : g.parts.getLast? = some g.last
  sorted : g.parts.Pairwise (· < ·)
  /-- The parts of a larger group are fragments of its kind. -/
  parts : g.parts.length ≠ 1 → ∀ j ∈ g.parts, ∃ c, bs[j]? = some c ∧ c.isPart g.kind = true
  /-- What stands between them is blank, and no fragment of that kind. -/
  between : ∀ j, g.first < j → j < g.last → j ∉ g.parts →
    ∃ c, bs[j]? = some c ∧ c.kind.isSkippable = true ∧ c.isPart g.kind = false
  /-- No sibling is left out. -/
  complete : g.parts.length ≠ 1 → ∀ j, g.last < j → ¬ IsSibling bs g.kind g.first j

/-- The scan reaches the block `i`: the blocks before it make up groups. -/
inductive Reaches (bs : List Block) : Nat → Prop
  | start : Reaches bs 0
  | next {g : Group} (h : Reaches bs g.first) (hg : IsGroup bs g) : Reaches bs (g.last + 1)

section Gather

variable {bs xs : List Block} {b : Block} {kind : BlockKind} {i j k lo : Nat}

/-! ## What gathering finds -/

/-- The search through `xs` finds the block with the index `k`. -/
def Finds (kind : BlockKind) (xs : List Block) (k : Nat) : Prop :=
  (∃ c, xs[k]? = some c ∧ c.isPart kind = true) ∧
    ∀ k' c, k' < k → xs[k']? = some c → c.stops kind = false

theorem finds_zero : Finds kind (b :: xs) 0 ↔ b.isPart kind = true := by
  simp [Finds]

theorem finds_succ : Finds kind (b :: xs) (k + 1) ↔ b.stops kind = false ∧ Finds kind xs k := by
  constructor
  · rintro ⟨hk, hstops⟩
    refine ⟨hstops 0 b (Nat.succ_pos k) rfl, by simpa using hk, fun k' c hk' hc => ?_⟩
    exact hstops (k' + 1) c (Nat.succ_lt_succ hk') (by simpa using hc)
  · rintro ⟨hb, hk, hstops⟩
    refine ⟨by simpa using hk, fun k' c hk' hc => ?_⟩
    cases k' with
    | zero => simpa [← Option.some.inj hc] using hb
    | succ k' => exact hstops k' c (Nat.lt_of_succ_lt_succ hk') (by simpa using hc)

theorem isSibling_iff :
    IsSibling bs kind i j ↔ ∃ k, j = i + 1 + k ∧ Finds kind (bs.drop (i + 1)) k := by
  simp only [IsSibling, Finds, List.getElem?_drop]
  constructor
  · rintro ⟨hlt, hj, hstops⟩
    obtain ⟨k, rfl⟩ := Nat.exists_eq_add_of_le (Nat.succ_le_of_lt hlt)
    exact ⟨k, rfl, hj, fun k' c hk' hc => hstops _ c (by omega) (by omega) hc⟩
  · rintro ⟨k, rfl, hk, hstops⟩
    refine ⟨by omega, hk, fun k' c hi hk' hc => ?_⟩
    obtain ⟨k', rfl⟩ := Nat.exists_eq_add_of_le (Nat.succ_le_of_lt hi)
    exact hstops k' c (by omega) hc

theorem gather_part (h : b.isPart kind = true) (ys : List IndexedBlock) :
    (gather kind ((lo, b) :: ys)).parts = lo :: (gather kind ys).parts ∧
      (gather kind ((lo, b) :: ys)).found = (gather kind ys).found := by
  rw [gather, if_pos (by simpa [Block.isPart] using h)]
  exact ⟨rfl, rfl⟩

theorem gather_blank (h : b.isPart kind = false) (hs : b.stops kind = false)
    (ys : List IndexedBlock) : gather kind ((lo, b) :: ys) = gather kind ys := by
  have hblank : b.kind.isSkippable = true := by simpa [Block.stops, h] using hs
  rw [gather, if_neg (by simpa [Block.isPart] using h), if_pos hblank]

theorem gather_stop (h : b.stops kind = true) (ys : List IndexedBlock) :
    gather kind ((lo, b) :: ys) = ⟨[], [], some b.kind⟩ := by
  obtain ⟨hblank, hpart⟩ : b.kind.isSkippable = false ∧ b.isPart kind = false := by
    simpa [Block.stops] using h
  rw [gather, if_neg (by simpa [Block.isPart] using hpart), if_neg (by simp [hblank])]

theorem stops_of_isPart (h : b.isPart kind = true) : b.stops kind = false := by
  simp [Block.stops, h]

/-- The blocks that gathering takes are those that the search finds. -/
theorem mem_parts_gather :
    j ∈ (gather kind (indexed lo xs)).parts ↔ ∃ k, j = lo + k ∧ Finds kind xs k := by
  induction xs generalizing lo with
  | nil => simp [indexed, gather, Finds]
  | cons b xs ih =>
    have hsplit : (∃ k, j = lo + k ∧ Finds kind (b :: xs) k) ↔
        j = lo ∧ b.isPart kind = true ∨
          b.stops kind = false ∧ ∃ k, j = lo + 1 + k ∧ Finds kind xs k := by
      constructor
      · rintro ⟨_ | k, rfl, hk⟩
        · exact .inl ⟨rfl, finds_zero.1 hk⟩
        · obtain ⟨hb, hk⟩ := finds_succ.1 hk
          exact .inr ⟨hb, k, by omega, hk⟩
      · rintro (⟨rfl, hb⟩ | ⟨hb, k, rfl, hk⟩)
        · exact ⟨0, rfl, finds_zero.2 hb⟩
        · exact ⟨k + 1, by omega, finds_succ.2 ⟨hb, hk⟩⟩
    rw [hsplit, indexed]
    cases hpart : b.isPart kind with
    | true =>
      rw [(gather_part hpart _).1, List.mem_cons, ih]
      simp [stops_of_isPart hpart]
    | false =>
      cases hstops : b.stops kind with
      | true => simp [gather_stop hstops]
      | false => simp [gather_blank hpart hstops, ih]

/-- The block that ends gathering is the first that ends the search. -/
theorem found_gather : (gather kind (indexed lo xs)).found =
    (xs.find? (Block.stops kind)).map Block.kind := by
  induction xs generalizing lo with
  | nil => rfl
  | cons b xs ih =>
    rw [indexed]
    cases hpart : b.isPart kind with
    | true =>
      rw [(gather_part hpart _).2, ih, List.find?_cons_of_neg (by simp [stops_of_isPart hpart])]
    | false =>
      cases hstops : b.stops kind with
      | true => rw [gather_stop hstops, List.find?_cons_of_pos hstops]; rfl
      | false => rw [gather_blank hpart hstops, ih, List.find?_cons_of_neg (by simp [hstops])]

theorem map_fst_indexed (lo : Nat) (xs : List Block) :
    (indexed lo xs).map Prod.fst = List.range' lo xs.length := by
  induction xs generalizing lo with
  | nil => rfl
  | cons b xs ih => rw [indexed, List.map_cons, ih, List.length_cons, List.range'_succ]

theorem sorted_parts_gather (kind : BlockKind) (lo : Nat) (xs : List Block) :
    (gather kind (indexed lo xs)).parts.Pairwise (· < ·) := by
  have hsub := gather_sublist kind (indexed lo xs)
  rw [map_fst_indexed] at hsub
  exact (List.pairwise_lt_range' ..).sublist ((List.sublist_append_left ..).trans hsub)

end Gather

/-! ## Groups of blocks -/

section IsGroup

variable {bs : List Block} {b : Block} {g g' : Group} {kind : BlockKind} {i j last : Nat}
  {parts : List Nat} {found : Option BlockKind}

theorem le_of_getLast? (h : parts.Pairwise (· < ·)) (hl : parts.getLast? = some last)
    (hj : j ∈ parts) : j ≤ last := by
  obtain ⟨front, rfl⟩ := List.getLast?_eq_some_iff.1 hl
  rcases List.mem_append.1 hj with hj | hj
  · exact Nat.le_of_lt ((List.pairwise_append.1 h).2.2 j hj last (by simp))
  · exact Nat.le_of_eq (List.mem_singleton.1 hj)

theorem le_of_head? (h : parts.Pairwise (· < ·)) (hh : parts.head? = some i) (hj : j ∈ parts) :
    i ≤ j := by
  obtain ⟨tail, rfl⟩ := List.head?_eq_some_iff.1 hh
  rcases List.mem_cons.1 hj with rfl | hj
  · exact Nat.le_refl _
  · exact Nat.le_of_lt ((List.pairwise_cons.1 h).1 j hj)

theorem isGroup_whole (hb : bs[i]? = some b) (hw : b.isFragment = false) :
    IsGroup bs ⟨b.kind, i, i, [i]⟩ where
  kind := by simp [hb]
  single := by simp [hb, hw]
  first := rfl
  last := rfl
  sorted := by simp
  parts h := absurd rfl h
  between j hi hl := absurd hl (Nat.not_lt_of_gt hi)
  complete h := absurd rfl h

/-- A fragment and its siblings are a group. -/
theorem isGroup_split (hb : bs[i]? = some b) (hf : b.isFragment = true)
    (hsorted : parts.Pairwise (· < ·)) (hlast : parts.getLast? = some last)
    (hmem : ∀ j, j ∈ parts ↔ IsSibling bs b.kind i j) :
    IsGroup bs ⟨b.kind, i, last, i :: parts⟩ where
  kind := by simp [hb]
  single := by
    have := List.ne_nil_of_mem (List.mem_of_getLast? hlast)
    simp [hb, hf, this]
  first := rfl
  last := by simp [List.getLast?_cons, hlast]
  sorted := List.pairwise_cons.2 ⟨fun j hj => ((hmem j).1 hj).1, hsorted⟩
  parts _ j hj := by
    rcases List.mem_cons.1 hj with rfl | hj
    · exact ⟨b, hb, by simp [Block.isPart, hf]⟩
    · exact ((hmem j).1 hj).2.1
  between j hi hl hj := by
    obtain ⟨-, ⟨c, hc, -⟩, hstops⟩ := (hmem last).1 (List.mem_of_getLast? hlast)
    have hlen := (List.getElem?_eq_some_iff.1 hc).1
    obtain ⟨d, hd⟩ : ∃ d, bs[j]? = some d := ⟨_, List.getElem?_eq_getElem (Nat.lt_trans hl hlen)⟩
    have hdstops := hstops j d hi hl hd
    have hpart : d.isPart b.kind = false := by
      by_contra hpart
      refine hj (List.mem_cons_of_mem _ ((hmem j).2 ⟨hi, ⟨d, hd, by simpa using hpart⟩, ?_⟩))
      exact fun k e hk hkj he => hstops k e hk (Nat.lt_trans hkj hl) he
    exact ⟨d, hd, by simpa [Block.stops, hpart] using hdstops, hpart⟩
  complete _ j hj hsib := Nat.not_le_of_gt hj (le_of_getLast? hsorted hlast ((hmem j).2 hsib))

namespace IsGroup

/-- The parts of a larger group are its first block and its siblings. -/
theorem mem_parts_iff (h : IsGroup bs g) (hsplit : g.parts.length ≠ 1) :
    j ∈ g.parts ↔ j = g.first ∨ IsSibling bs g.kind g.first j := by
  constructor
  · intro hj
    refine (Nat.eq_or_lt_of_le (le_of_head? h.sorted h.first hj)).imp Eq.symm fun hlt => ?_
    refine ⟨hlt, h.parts hsplit j hj, fun k c hk hkj hc => ?_⟩
    have hjl := le_of_getLast? h.sorted h.last hj
    by_cases hkm : k ∈ g.parts
    · obtain ⟨d, hd, hpart⟩ := h.parts hsplit k hkm
      cases hc.symm.trans hd
      exact stops_of_isPart hpart
    · obtain ⟨d, hd, hblank, -⟩ := h.between k hk (Nat.lt_of_lt_of_le hkj hjl) hkm
      cases hc.symm.trans hd
      simp [Block.stops, hblank]
  · rintro (rfl | hsib)
    · exact List.mem_of_head? h.first
    · by_contra hj
      have hle : j ≤ g.last := Nat.le_of_not_lt fun hlt => h.complete hsplit j hlt hsib
      rcases Nat.eq_or_lt_of_le hle with rfl | hlt
      · exact hj (List.mem_of_getLast? h.last)
      · obtain ⟨c, hc, -, hpart⟩ := h.between j hsib.1 hlt hj
        obtain ⟨d, hd, hpart'⟩ := hsib.2.1
        cases hc.symm.trans hd
        rw [hpart] at hpart'
        cases hpart'

theorem parts_of_length_eq_one (h : IsGroup bs g) (hone : g.parts.length = 1) :
    g.parts = [g.first] := by
  obtain ⟨j, hj⟩ := List.length_eq_one_iff.1 hone
  have hfirst := h.first
  rw [hj] at hfirst ⊢
  rw [Option.some.inj hfirst]

/-- Its first block tells which group it is. -/
theorem unique (h : IsGroup bs g) (h' : IsGroup bs g') (hfirst : g.first = g'.first) :
    g = g' := by
  have hkind : g.kind = g'.kind :=
    Option.some.inj (h.kind.symm.trans ((congrArg (bs[·]?.map Block.kind) hfirst).trans h'.kind))
  have hone : g.parts.length = 1 ↔ g'.parts.length = 1 := by
    rw [h.single, h'.single, hfirst]
  have hparts : g.parts = g'.parts := by
    by_cases hg : g.parts.length = 1
    · rw [h.parts_of_length_eq_one hg, h'.parts_of_length_eq_one (hone.1 hg), hfirst]
    · refine h.sorted.eq_of_mem_iff h'.sorted fun j => ?_
      rw [h.mem_parts_iff hg, h'.mem_parts_iff (mt hone.2 hg), hfirst, hkind]
  have hlast : g.last = g'.last :=
    Option.some.inj (h.last.symm.trans ((congrArg List.getLast? hparts).trans h'.last))
  obtain ⟨_, _, _, _⟩ := g
  obtain ⟨_, _, _, _⟩ := g'
  cases hkind
  cases hfirst
  cases hlast
  cases hparts
  rfl

theorem not_isLonely (h : IsGroup bs g) : ¬ IsLonely bs kind g.first found := by
  intro hl
  obtain ⟨b, hb, hpart⟩ := hl.fragment
  obtain ⟨hf, rfl⟩ : b.isFragment = true ∧ b.kind = kind := by simpa [Block.isPart] using hpart
  have hsplit : g.parts.length ≠ 1 := by
    rw [Ne, h.single, hb]
    simp [hf]
  have hkind : b.kind = g.kind := by simpa [hb] using h.kind
  obtain ⟨tail, htail⟩ := List.head?_eq_some_iff.1 h.first
  have hsorted := h.sorted
  rw [htail] at hsorted hsplit
  -- The second part is a sibling of the first.
  obtain ⟨j, hj⟩ : ∃ j, j ∈ tail := List.exists_mem_of_ne_nil _ fun hnil => hsplit (by simp [hnil])
  have hlt := (List.pairwise_cons.1 hsorted).1 j hj
  have hmem : j ∈ g.parts := htail ▸ List.mem_cons_of_mem _ hj
  rcases (h.mem_parts_iff (by rwa [htail])).1 hmem with rfl | hsib
  · exact Nat.lt_irrefl _ hlt
  · exact hl.alone j (hkind ▸ hsib)

end IsGroup

/-! ## The scan -/

theorem indexed_drop (hb : bs[i]? = some b) :
    indexed i (bs.drop i) = (i, b) :: indexed (i + 1) (bs.drop (i + 1)) := by
  obtain ⟨hi, rfl⟩ := List.getElem?_eq_some_iff.1 hb
  rw [List.drop_eq_getElem_cons hi, indexed]

/-- **One step of the scan**: a block begins a group, after which the scan goes on, or it is a
lonely fragment. -/
theorem scan_step (hb : bs[i]? = some b) (previous : Option BlockKind) :
    (∃ g, IsGroup bs g ∧ g.first = i ∧ bs[g.last]?.map Block.kind = some g.kind ∧
      reduceFrom none previous (indexed i (bs.drop i)) =
        .ok g :: reduceFrom none (some g.kind) (indexed (g.last + 1) (bs.drop (g.last + 1)))) ∨
    ∃ found, IsLonely bs b.kind i found ∧
      reduceFrom none previous (indexed i (bs.drop i)) =
        [.error (.lonelyFragment b.kind i found)] := by
  cases hf : b.isFragment with
  | false =>
    left
    refine ⟨⟨b.kind, i, i, [i]⟩, isGroup_whole hb hf, rfl, by simp [hb], ?_⟩
    rw [indexed_drop hb, reduceFrom_of_not_isFragment hf (.inr rfl)]
  | true =>
    have hmem (j : Nat) : j ∈ (gather b.kind (indexed (i + 1) (bs.drop (i + 1)))).parts ↔
        IsSibling bs b.kind i j := by
      rw [mem_parts_gather, isSibling_iff]
    cases hl : (gather b.kind (indexed (i + 1) (bs.drop (i + 1)))).parts.getLast? with
    | some last =>
      left
      have hsorted := sorted_parts_gather b.kind (i + 1) (bs.drop (i + 1))
      obtain ⟨hle, -, hrest⟩ := gather_rest hl
      obtain ⟨-, ⟨c, hc, hpart⟩, -⟩ := (hmem last).1 (List.mem_of_getLast? hl)
      refine ⟨_, isGroup_split hb hf hsorted hl hmem, rfl, ?_, ?_⟩
      · have hk : c.kind = b.kind := by
          simp only [Block.isPart, Bool.and_eq_true, beq_iff_eq] at hpart
          exact hpart.2
        simp [hc, hk]
      · have hdrop : i + 1 + (last + 1 - (i + 1)) = last + 1 := by omega
        rw [indexed_drop hb, reduceFrom_of_isFragment hf, groupOf_of_getLast? hl, hrest,
          List.drop_drop, hdrop]
    | none =>
      right
      have hnil := List.getLast?_eq_none_iff.1 hl
      have hfound := @found_gather (bs.drop (i + 1)) b.kind (i + 1)
      refine ⟨_, ⟨⟨b, hb, by simp [Block.isPart, hf]⟩, fun j hj => ?_, hfound⟩, ?_⟩
      · rw [← hmem, hnil] at hj
        cases hj
      · rw [indexed_drop hb, reduceFrom_of_isFragment hf, groupOf, hl]
        simp [brokenAt]

theorem getLast?_take_succ (h : last < bs.length) :
    (bs.take (last + 1)).getLast? = bs[last]? := by
  rw [List.getLast?_take, if_neg (Nat.succ_ne_zero _), Nat.add_sub_cancel,
    List.getElem?_eq_getElem h]
  rfl

theorem IsGroup.last_lt (h : IsGroup bs g) : g.last < bs.length := by
  have hlast := List.mem_of_getLast? h.last
  by_cases hone : g.parts.length = 1
  · rw [h.parts_of_length_eq_one hone, List.mem_singleton] at hlast
    obtain ⟨b, hb, -⟩ := Option.map_eq_some_iff.1 h.kind
    rw [hlast]
    exact (List.getElem?_eq_some_iff.1 hb).1
  · obtain ⟨c, hc, -⟩ := h.parts hone _ hlast
    exact (List.getElem?_eq_some_iff.1 hc).1

/-- What the scan has passed before it reaches a block are groups. -/
theorem Reaches.exists_groups (h : Reaches bs i) :
    ∃ gs : List Group, reduceFrom none none (indexed 0 bs) =
      gs.map .ok ++
        reduceFrom none ((bs.take i).getLast?.map Block.kind) (indexed i (bs.drop i)) := by
  induction h with
  | start => exact ⟨[], rfl⟩
  | @next g h hg ih =>
    obtain ⟨gs, hgs⟩ := ih
    obtain ⟨b, hb, -⟩ := Option.map_eq_some_iff.1 hg.kind
    rcases scan_step hb ((bs.take g.first).getLast?.map Block.kind) with
      ⟨g', hg', hfirst, hlast, hstep⟩ | ⟨found, hlonely, -⟩
    · obtain rfl := hg'.unique hg hfirst
      refine ⟨gs ++ [g'], ?_⟩
      rw [hgs, hstep, getLast?_take_succ hg.last_lt, hlast]
      simp
    · exact absurd hlonely hg.not_isLonely

/-- **The scan ends** at the end of the blocks or at a lonely fragment. -/
theorem scan_ends (h : Reaches bs i) (hi : i ≤ bs.length) :
    ∃ gs : List Group, (∀ g ∈ gs, IsGroup bs g) ∧
      ((reduceFrom none ((bs.take i).getLast?.map Block.kind) (indexed i (bs.drop i)) =
          gs.map .ok ++ reduceEnd (bs.getLast?.map Block.kind) ∧
        groupsTile i gs bs.length = true) ∨
      ∃ kind j found,
        reduceFrom none ((bs.take i).getLast?.map Block.kind) (indexed i (bs.drop i)) =
          gs.map .ok ++ [.error (.lonelyFragment kind j found)] ∧
        Reaches bs j ∧ IsLonely bs kind j found) := by
  induction hn : bs.length - i using Nat.strong_induction_on generalizing i with
  | _ n ih =>
    rcases Nat.eq_or_lt_of_le hi with rfl | hlt
    · refine ⟨[], by simp, .inl ⟨?_, by simp [groupsTile]⟩⟩
      rw [List.take_length, List.drop_length, indexed, reduceFrom]
      rfl
    · have hb := List.getElem?_eq_getElem hlt
      rcases scan_step hb ((bs.take i).getLast?.map Block.kind) with
        ⟨g, hg, rfl, hlast, hstep⟩ | ⟨found, hlonely, hstep⟩
      · have hle := le_of_head? hg.sorted hg.first (List.mem_of_getLast? hg.last)
        obtain ⟨gs, hgs, hcases⟩ := ih _ (by omega) (h.next hg) hg.last_lt rfl
        rw [getLast?_take_succ hg.last_lt, hlast] at hcases
        rw [hstep]
        refine ⟨g :: gs, List.forall_mem_cons.2 ⟨hg, hgs⟩, hcases.imp ?_ ?_⟩
        · rintro ⟨hr, ht⟩
          exact ⟨by rw [hr]; rfl, by simp [groupsTile, hg.first, hg.last, ht]⟩
        · rintro ⟨kind, j, found, hr, hj⟩
          exact ⟨kind, j, found, by rw [hr]; rfl, hj⟩
      · exact ⟨[], by simp, .inr ⟨_, i, found, hstep, h, hlonely⟩⟩

end IsGroup

/-! ## The outcome -/

section Outcome

variable {bs : BlockChain}

/-- The blocks from the start on are grouped to their end, or up to a lonely fragment. -/
theorem groupBlocks_cases (hl : bs.isLinked = true)
    (hs : bs.toList.head?.map Block.kind = some .startOfDocument) :
    (∃ kind i found, groupBlocks bs = .error (.lonelyFragment kind i found) ∧
      Reaches bs.toList i ∧ IsLonely bs.toList kind i found) ∨
    ∃ gs : List Group, (∀ g ∈ gs, IsGroup bs.toList g) ∧ groupsTile 0 gs bs.size = true ∧
      groupBlocks bs = if bs.toList.getLast?.map Block.kind = some .endOfDocument
        then .ok (Chain.empty.append gs) else .error .missingEndOfDocument := by
  obtain ⟨b, hb, hk⟩ := Option.map_eq_some_iff.1 hs
  obtain ⟨rest, hlist⟩ := List.head?_eq_some_iff.1 hb
  have hreduce := reduce_eq hl hlist hk
  obtain ⟨gs, hgs, ⟨hr, ht⟩ | ⟨kind, j, found, hr, hj⟩⟩ :=
    scan_ends (.start : Reaches bs.toList 0) (Nat.zero_le _)
  · refine .inr ⟨gs, hgs, by rwa [Chain.length_toList] at ht, ?_⟩
    have hr : reduce bs = gs.map .ok ++ reduceEnd (bs.toList.getLast?.map Block.kind) :=
      hreduce.trans hr
    rw [reduceEnd] at hr
    split at hr
    · rw [List.append_nil] at hr
      rw [if_pos (by assumption), groupBlocks_of_reduce hr]
    · rw [if_neg (by assumption), groupBlocks_of_reduce_error hr]
  · exact .inl ⟨kind, j, found, groupBlocks_of_reduce_error (hreduce.trans hr), hj⟩

/-- A lonely fragment that the scan reaches is reported. -/
theorem groupBlocks_of_isLonely (hl : bs.isLinked = true)
    (hs : bs.toList.head?.map Block.kind = some .startOfDocument) {kind : BlockKind} {i : Nat}
    {found : Option BlockKind} (hr : Reaches bs.toList i) (hi : IsLonely bs.toList kind i found) :
    groupBlocks bs = .error (.lonelyFragment kind i found) := by
  obtain ⟨b, hb, hk⟩ := Option.map_eq_some_iff.1 hs
  obtain ⟨rest, hlist⟩ := List.head?_eq_some_iff.1 hb
  obtain ⟨gs, hgs⟩ := hr.exists_groups
  obtain ⟨c, hc, hpart⟩ := hi.fragment
  rcases scan_step hc ((bs.toList.take i).getLast?.map Block.kind) with
    ⟨g, hg, rfl, -⟩ | ⟨found', hlonely, hstep⟩
  · exact absurd hi hg.not_isLonely
  · obtain rfl : c.kind = kind := by
      simp only [Block.isPart, Bool.and_eq_true, beq_iff_eq] at hpart
      exact hpart.2
    rw [hlonely.found, ← hi.found] at hstep
    rw [hstep] at hgs
    exact groupBlocks_of_reduce_error ((reduce_eq hl hlist hk).trans hgs)

theorem groupBlocks_of_head? (hs : bs.toList.head?.map Block.kind ≠ some .startOfDocument) :
    groupBlocks bs = .error .missingStartOfDocument := by
  have hhead : bs.toList.head? = bs.nodes[0]?.map Linked.item := by
    rw [List.head?_eq_getElem?, ← Chain.get?_eq, Chain.get?]
  have hreduce : reduce bs = [.error .missingStartOfDocument] := by
    rw [reduce]
    cases hx : bs.nodes[0]? with
    | none => rfl
    | some x =>
      rw [hhead, hx] at hs
      exact if_pos fun hk => hs (congrArg some hk)
  have hgroups : reduce bs = ([] : List Group).map .ok ++ [.error .missingStartOfDocument] :=
    hreduce
  exact groupBlocks_of_reduce_error hgroups

/-- Groups that are returned are the groups of the blocks, and cover them. -/
theorem isGroup_of_groupBlocks (hl : bs.isLinked = true) {gs : GroupChain}
    (h : groupBlocks bs = .ok gs) :
    gs.covers bs.size = true ∧ ∀ g ∈ gs.toList, IsGroup bs.toList g := by
  by_cases hs : bs.toList.head?.map Block.kind = some .startOfDocument
  · rcases groupBlocks_cases hl hs with ⟨kind, i, found, herror, -⟩ | ⟨gs', hgs, ht, hif⟩
    · cases h.symm.trans herror
    · rw [h] at hif
      split at hif
      · cases hif
        rw [GroupChain.covers, Chain.isLinked_append Chain.isLinked_empty, Chain.toList_append]
        exact ⟨ht, hgs⟩
      · cases hif
  · cases h.symm.trans (groupBlocks_of_head? hs)

/-- **What becomes of linked blocks**, whatever their kinds and whichever of them are fragments. If
they do not begin with the start of the document, that is reported. Otherwise the first lonely
fragment that a scan from left to right comes to is reported. If there is none, it is reported if
the last block is not the end of the document, and groups are returned if it is. These are the
groups of the blocks, and cover them. -/
theorem groupBlocks_outcome (hl : bs.isLinked = true) :
    (groupBlocks bs = .error .missingStartOfDocument ↔
      bs.toList.head?.map Block.kind ≠ some .startOfDocument) ∧
    (bs.toList.head?.map Block.kind = some .startOfDocument →
      (∀ kind i found, groupBlocks bs = .error (.lonelyFragment kind i found) ↔
        Reaches bs.toList i ∧ IsLonely bs.toList kind i found) ∧
      ((∀ kind i found, ¬ (Reaches bs.toList i ∧ IsLonely bs.toList kind i found)) →
        (groupBlocks bs = .error .missingEndOfDocument ↔
          bs.toList.getLast?.map Block.kind ≠ some .endOfDocument) ∧
        ((∃ gs, groupBlocks bs = .ok gs) ↔
          bs.toList.getLast?.map Block.kind = some .endOfDocument))) ∧
    ∀ gs, groupBlocks bs = .ok gs →
      gs.covers bs.size = true ∧ ∀ g ∈ gs.toList, IsGroup bs.toList g := by
  refine ⟨⟨fun h hs => ?_, groupBlocks_of_head?⟩, fun hs => ⟨fun kind i found => ⟨fun h => ?_,
    fun h => groupBlocks_of_isLonely hl hs h.1 h.2⟩, fun hnone => ?_⟩,
    fun gs h => isGroup_of_groupBlocks hl h⟩
  · -- Other errors are reported if the start is there.
    rcases groupBlocks_cases hl hs with ⟨kind, i, found, herror, -⟩ | ⟨gs, -, -, hif⟩
    · cases h.symm.trans herror
    · rw [h] at hif
      split at hif <;> cases hif
  · rcases groupBlocks_cases hl hs with ⟨kind', i', found', herror, hlonely⟩ | ⟨gs, -, -, hif⟩
    · cases h.symm.trans herror
      exact hlonely
    · rw [h] at hif
      split at hif <;> cases hif
  · rcases groupBlocks_cases hl hs with ⟨kind, i, found, -, hlonely⟩ | ⟨gs, -, -, hif⟩
    · exact absurd hlonely (hnone kind i found)
    · rw [hif]
      by_cases hend : bs.toList.getLast?.map Block.kind = some .endOfDocument
      · simp [hend]
      · simp [hend]

/-- A split entity head is a group, and the end of the entity after it is lonely. -/
theorem groupBlocks_outcome_lonely :
    let bs : BlockChain := Chain.ofList [⟨.startOfDocument, 0, 0, false⟩, ⟨.entityName, 1, 3, true⟩,
      ⟨.multiLineComment, 4, 4, false⟩, ⟨.entityName, 5, 6, true⟩, ⟨.entityEnd, 7, 8, true⟩,
      ⟨.endOfDocument, 9, 9, false⟩]
    bs.isLinked = true ∧ bs.toList.head?.map Block.kind = some .startOfDocument ∧
      Reaches bs.toList 4 ∧ IsLonely bs.toList .entityEnd 4 (some .endOfDocument) := by
  intro bs
  have hl : bs.isLinked = true := rfl
  have hs : bs.toList.head?.map Block.kind = some .startOfDocument := rfl
  have hlonely := ((groupBlocks_outcome hl).2.1 hs).1 .entityEnd 4 (some .endOfDocument)
  exact ⟨hl, hs, hlonely.1 (by decide +kernel)⟩

end Outcome

end VhdlOutline
