import Mathlib.Data.List.SplitBy
import VhdlOutline.Group.Reduce
import VhdlOutline.Proofs.Block.Sheet

/-!
# What groups are made of

Grouping starts at the first block and goes on after the last part of each group.

* `reduceFrom_of_isFragment`, `reduceFrom_of_not_isFragment`: what becomes of the first block.
* `groupBlocks_covers`: the groups cover the blocks in order and once each.
* `reduceFrom_parts`: up to blanks and comments, a group is a longest run of fragments of one kind,
  or a block that is no fragment. Nothing else tells where a group ends, so two split blocks of one
  kind, one right after the other, form a single group.
-/

namespace VhdlOutline

/-- The blocks `bs` with their indices, the first of which is `lo`. -/
def indexed (lo : Nat) : List Block → List IndexedBlock
  | [] => []
  | b :: bs => (lo, b) :: indexed (lo + 1) bs

/-- The blocks of a list that are neither blank nor comments. -/
def properBlocks (xs : List IndexedBlock) : List IndexedBlock :=
  xs.filter fun x => !x.2.kind.isSkippable

theorem properBlocks_cons {x : IndexedBlock} (h : x.2.kind.isSkippable = false)
    (xs : List IndexedBlock) : properBlocks (x :: xs) = x :: properBlocks xs :=
  List.filter_cons_of_pos (by simp [h])

theorem properBlocks_cons_skippable {x : IndexedBlock} (h : x.2.kind.isSkippable = true)
    (xs : List IndexedBlock) : properBlocks (x :: xs) = properBlocks xs :=
  List.filter_cons_of_neg (by simp [h])

/-- The indices of the first and last block of a group. -/
def Group.extent (g : Group) : Nat × Nat := (g.first, g.last)

theorem filterMap_range (as bs : List Block) :
    (List.range' as.length bs.length).filterMap (fun i => ((as ++ bs)[i]?).map (i, ·)) =
      indexed as.length bs := by
  induction bs generalizing as with
  | nil => rfl
  | cons b bs ih =>
    have hb : (as ++ b :: bs)[as.length]? = some b := by simp
    have := ih (as ++ [b])
    rw [List.length_append, List.length_singleton, List.append_assoc] at this
    rw [List.length_cons, List.range'_succ, List.filterMap_cons, hb]
    simpa [indexed] using this

theorem filterMap_get?_range (bs : BlockChain) :
    (List.range bs.size).filterMap (fun i => (bs.get? i).map (i, ·)) = indexed 0 bs.toList := by
  have hr := filterMap_range [] bs.toList
  simp only [List.length_nil, List.nil_append, Chain.length_toList] at hr
  rw [← hr, List.range_eq_range']
  simp only [Chain.get?_eq]

theorem getElem?_of_mem_indexed {lo i : Nat} {b : Block} {bs : List Block}
    (h : (i, b) ∈ indexed lo bs) : lo ≤ i ∧ bs[i - lo]? = some b := by
  induction bs generalizing lo with
  | nil => cases h
  | cons c bs ih =>
    rcases List.mem_cons.1 h with h | h
    · cases h
      simp
    · obtain ⟨hle, hb⟩ := ih h
      rw [show i - lo = (i - (lo + 1)) + 1 by omega, List.getElem?_cons_succ]
      exact ⟨by omega, hb⟩

theorem map_snd_indexed (lo : Nat) (bs : List Block) : (indexed lo bs).map Prod.snd = bs := by
  induction bs generalizing lo with
  | nil => rfl
  | cons b bs ih => rw [indexed, List.map_cons, ih]

theorem map_snd_properBlocks (lo : Nat) (bs : List Block) :
    (properBlocks (indexed lo bs)).map Prod.snd = bs.filter fun b => !b.kind.isSkippable := by
  conv_rhs => rw [← map_snd_indexed lo bs, List.filter_map]
  rfl

/-! ## Gathering -/

/-- The blocks left after gathering from `xs`. -/
def Gathered.remaining (g : Gathered) (xs : List IndexedBlock) : List IndexedBlock :=
  if g.parts.isEmpty then xs else g.rest

/-- Gathering takes the fragments of the given kind up to the first proper block that is none. -/
theorem gather_run {kind : BlockKind} {xs : List IndexedBlock}
    (hx : ∀ x ∈ xs, x.2.kind.isSkippable = true → x.2.isFragment = false) :
    ∃ run, properBlocks xs = run ++ properBlocks ((gather kind xs).remaining xs) ∧
      run.map Prod.fst = (gather kind xs).parts ∧
      (∀ y ∈ run, y.2.isFragment = true ∧ y.2.kind = kind) ∧
      ∀ y ∈ (properBlocks ((gather kind xs).remaining xs)).head?,
        ¬ (y.2.isFragment = true ∧ y.2.kind = kind) := by
  fun_induction gather kind xs with
  | case1 => exact ⟨[], rfl, rfl, by simp, by simp [Gathered.remaining, properBlocks]⟩
  | case2 i b xs hb g ih =>
    obtain ⟨run, hrun, hparts, hall, hhead⟩ := ih fun x h => hx x (List.mem_cons_of_mem _ h)
    have hproper : b.kind.isSkippable = false := by
      cases hs : b.kind.isSkippable with
      | false => rfl
      | true => exact absurd (hx (i, b) List.mem_cons_self hs) (by simp [hb.1])
    refine ⟨(i, b) :: run, ?_, by simp [hparts, g], ?_, hhead⟩
    · rw [properBlocks_cons hproper]
      exact congrArg ((i, b) :: ·) hrun
    · intro y hy
      rcases List.mem_cons.1 hy with rfl | hy
      · exact hb
      · exact hall y hy
  | case3 i b xs hb hs ih =>
    obtain ⟨run, hrun, hparts, hall, hhead⟩ := ih fun x h => hx x (List.mem_cons_of_mem _ h)
    have hskip := properBlocks_cons_skippable (x := (i, b)) hs xs
    have hrem : properBlocks ((gather kind xs).remaining ((i, b) :: xs)) =
        properBlocks ((gather kind xs).remaining xs) := by
      unfold Gathered.remaining
      split
      · exact hskip
      · rfl
    exact ⟨run, by rw [hskip, hrem, hrun], hparts, hall, by rw [hrem]; exact hhead⟩
  | case4 i b xs hb hs =>
    refine ⟨[], rfl, rfl, by simp, ?_⟩
    intro y hy
    have hr : Gathered.remaining ⟨[], [], some b.kind⟩ ((i, b) :: xs) = (i, b) :: xs := rfl
    rw [hr, properBlocks_cons (by simpa using hs)] at hy
    cases hy
    exact hb

/-- The search goes on right after the last fragment found. -/
theorem gather_rest {kind : BlockKind} {lo last : Nat} {bs : List Block}
    (h : (gather kind (indexed lo bs)).parts.getLast? = some last) :
    lo ≤ last ∧ last < lo + bs.length ∧
      (gather kind (indexed lo bs)).rest = indexed (last + 1) (bs.drop (last + 1 - lo)) := by
  induction bs generalizing lo last with
  | nil => cases h
  | cons b bs ih =>
    rw [indexed, gather] at h ⊢
    split at h
    · rename_i hb
      rw [if_pos hb]
      dsimp only at h ⊢
      rw [List.getLast?_cons] at h
      cases hl : (gather kind (indexed (lo + 1) bs)).parts.getLast? with
      | none =>
        rw [hl] at h
        cases h
        have he : (gather kind (indexed (lo + 1) bs)).parts.isEmpty = true := by
          simpa using hl
        refine ⟨Nat.le_refl _, by simp, ?_⟩
        simp [he]
      | some last' =>
        rw [hl] at h
        cases h
        obtain ⟨hle, hlt, hrest⟩ := ih hl
        have he : (gather kind (indexed (lo + 1) bs)).parts.isEmpty = false := by
          cases hp : (gather kind (indexed (lo + 1) bs)).parts with
          | nil => rw [hp] at hl; cases hl
          | cons => rfl
        refine ⟨by simp; omega, by simp; omega, ?_⟩
        rw [if_neg (by simp [he]), hrest]
        simp only [Option.getD_some]
        rw [show last' + 1 - lo = (last' + 1 - (lo + 1)) + 1 by omega, List.drop_succ_cons]
    · rename_i hb
      rw [if_neg hb]
      split at h
      · rename_i hs
        rw [if_pos hs]
        obtain ⟨hle, hlt, hrest⟩ := ih h
        refine ⟨by omega, by simp; omega, ?_⟩
        rw [hrest, show last + 1 - lo = (last + 1 - (lo + 1)) + 1 by omega, List.drop_succ_cons]
      · cases h

theorem mem_of_mem_rest_gather {kind : BlockKind} {xs : List IndexedBlock} {x : IndexedBlock}
    (h : x ∈ (gather kind xs).rest) : x ∈ xs := by
  fun_induction gather kind xs with
  | case1 => exact h
  | case2 i b xs _ g ih =>
    dsimp only at h
    split at h
    · exact List.mem_cons_of_mem _ h
    · exact List.mem_cons_of_mem _ (ih h)
  | case3 i b xs _ _ ih => exact List.mem_cons_of_mem _ (ih h)
  | case4 => cases h

/-! ## Reducing -/

/-- Where the search for fragments broke off, on a walk that breaks off at `broken`. -/
def brokenAt (g : Gathered) (broken : Option Nat) : Option Nat :=
  if g.found.isSome then none else broken

/-- The group of the fragment `i` with the fragments `g` after it. -/
def groupOf (i : Nat) (kind : BlockKind) (g : Gathered) (broken : Option Nat) :
    Except GroupError Group :=
  match brokenAt g broken, g.parts.getLast? with
  | some j, _ => .error (.brokenLink j)
  | none, none => .error (.lonelyFragment kind i g.found)
  | none, some last => .ok ⟨kind, i, last, i :: g.parts⟩

section Equations

variable {i last : Nat} {kind : BlockKind} {broken : Option Nat} {previous : Option BlockKind}
  {b : Block} {xs : List IndexedBlock} {g : Gathered} {group : Group}

theorem of_groupOf (h : groupOf i kind g broken = .ok group) :
    ∃ last, g.parts.getLast? = some last ∧ group = ⟨kind, i, last, i :: g.parts⟩ ∧
      (g.found ≠ none ∨ broken = none) := by
  unfold groupOf at h
  split at h
  · cases h
  · cases h
  · rename_i last hbroken hlast
    cases h
    refine ⟨last, hlast, rfl, ?_⟩
    cases hf : g.found with
    | some k => exact .inl (by simp)
    | none => exact .inr (by simpa [brokenAt, hf] using hbroken)

theorem groupOf_of_getLast? (hl : g.parts.getLast? = some last) :
    groupOf i kind g none = .ok ⟨kind, i, last, i :: g.parts⟩ := by
  simp [groupOf, brokenAt, hl]

/-- How the blocks from a fragment on are grouped. -/
theorem reduceFrom_of_isFragment (hb : b.isFragment = true) :
    reduceFrom broken previous ((i, b) :: xs) =
      match groupOf i b.kind (gather b.kind xs) broken with
      | .error e => [.error e]
      | .ok g => .ok g :: reduceFrom broken (some b.kind) (gather b.kind xs).rest := by
  conv_lhs => unfold reduceFrom
  dsimp only
  rw [if_pos hb, groupOf]
  generalize gather b.kind xs = g
  obtain ⟨parts, rest, found⟩ := g
  cases found <;> cases broken <;> simp only [brokenAt] <;> cases parts.getLast? <;> rfl

/-- How the blocks from a whole block on are grouped. -/
theorem reduceFrom_of_not_isFragment (hb : b.isFragment = false)
    (hbroken : xs ≠ [] ∨ broken = none) :
    reduceFrom broken previous ((i, b) :: xs) =
      .ok ⟨b.kind, i, i, [i]⟩ :: reduceFrom broken (some b.kind) xs := by
  conv_lhs => unfold reduceFrom
  dsimp only
  rw [if_neg (by simp [hb])]
  split
  · simp at hbroken
  · rfl

end Equations

theorem reduceFrom_nil {previous : Option BlockKind} {gs : List Group}
    (h : reduceFrom none previous [] = gs.map .ok) : gs = [] := by
  rw [reduceFrom] at h
  split at h
  · simpa using h
  · cases gs <;> simp at h

/-- How a list of blocks is reduced. -/
theorem reduceFrom_cons {previous : Option BlockKind} {x : IndexedBlock} {xs : List IndexedBlock}
    {gs : List Group} (h : reduceFrom none previous (x :: xs) = gs.map .ok) :
    (x.2.isFragment = true ∧ ∃ last gs', (gather x.2.kind xs).parts.getLast? = some last ∧
      gs = ⟨x.2.kind, x.1, last, x.1 :: (gather x.2.kind xs).parts⟩ :: gs' ∧
      reduceFrom none (some x.2.kind) (gather x.2.kind xs).rest = gs'.map .ok) ∨
    (x.2.isFragment = false ∧ ∃ gs', gs = ⟨x.2.kind, x.1, x.1, [x.1]⟩ :: gs' ∧
      reduceFrom none (some x.2.kind) xs = gs'.map .ok) := by
  obtain ⟨i, b⟩ := x
  cases hb : b.isFragment with
  | true =>
    rw [reduceFrom_of_isFragment hb] at h
    cases hg : groupOf i b.kind (gather b.kind xs) none with
    | error e =>
      rw [hg] at h
      cases gs <;> simp at h
    | ok g =>
      rw [hg] at h
      obtain ⟨last, hl, rfl, -⟩ := of_groupOf hg
      obtain ⟨g', gs', rfl, hg', h'⟩ := List.map_eq_cons_iff.1 h.symm
      cases hg'
      exact .inl ⟨rfl, last, gs', hl, rfl, h'.symm⟩
  | false =>
    rw [reduceFrom_of_not_isFragment hb (.inr rfl)] at h
    obtain ⟨g', gs', rfl, hg', h'⟩ := List.map_eq_cons_iff.1 h.symm
    cases hg'
    exact .inr ⟨rfl, gs', rfl, h'.symm⟩

/-- Groups start where the one before ended, and end with their last part. -/
theorem reduceFrom_tiles {previous : Option BlockKind} {lo : Nat} {bs : List Block}
    {gs : List Group} (h : reduceFrom none previous (indexed lo bs) = gs.map .ok) :
    Tiles lo (gs.map Group.extent) (lo + bs.length) ∧
      ∀ g ∈ gs, g.parts.head? = some g.first ∧ g.parts.getLast? = some g.last := by
  induction hn : bs.length using Nat.strong_induction_on generalizing previous lo bs gs with
  | _ n ih =>
    cases bs with
    | nil =>
      obtain rfl := reduceFrom_nil h
      exact ⟨by simp [Tiles, ← hn], by simp⟩
    | cons b bs =>
      rw [List.length_cons] at hn
      rw [indexed] at h
      rcases reduceFrom_cons h with ⟨-, last, gs', hl, rfl, h'⟩ | ⟨-, gs', rfl, h'⟩
      · obtain ⟨hle, hlt, hrest⟩ := gather_rest hl
        rw [hrest] at h'
        obtain ⟨ht, hg⟩ := ih _ (by rw [List.length_drop]; omega) h' rfl
        rw [List.length_drop] at ht
        refine ⟨⟨rfl, by simp [Group.extent]; omega, ?_⟩, ?_⟩
        · have he : last + 1 + (bs.length - (last + 1 - (lo + 1))) = lo + n := by omega
          rwa [he] at ht
        · intro g hmem
          rcases List.mem_cons.1 hmem with rfl | hmem
          · exact ⟨rfl, by simp [List.getLast?_cons, hl]⟩
          · exact hg g hmem
      · obtain ⟨ht, hg⟩ := ih _ (by omega) h' rfl
        refine ⟨⟨rfl, Nat.le_refl _, ?_⟩, ?_⟩
        · have he : lo + 1 + bs.length = lo + n := by omega
          rwa [he] at ht
        · intro g hmem
          rcases List.mem_cons.1 hmem with rfl | hmem
          · exact ⟨rfl, rfl⟩
          · exact hg g hmem

/-- Two blocks in a row are taken for parts of one block. -/
def Block.joins (a b : Block) : Bool := a.isFragment && b.isFragment && a.kind == b.kind

theorem isChain_joins {kind : BlockKind} {ys : List IndexedBlock}
    (h : ∀ y ∈ ys, y.2.isFragment = true ∧ y.2.kind = kind) :
    ys.IsChain fun y z => y.2.joins z.2 := by
  apply List.Pairwise.isChain
  apply List.pairwise_of_forall_mem_list
  intro y hy z hz
  obtain ⟨hyf, hyk⟩ := h y hy
  obtain ⟨hzf, hzk⟩ := h z hz
  simp [Block.joins, hyf, hzf, hyk, hzk]

/-- A run of fragments of one kind is split off where what follows does not go on with it. -/
theorem splitBy_run {kind : BlockKind} {run ys : List IndexedBlock} (hne : run ≠ [])
    (hrun : ∀ y ∈ run, y.2.isFragment = true ∧ y.2.kind = kind)
    (hys : ∀ y ∈ ys.head?, ¬ (y.2.isFragment = true ∧ y.2.kind = kind)) :
    (run ++ ys).splitBy (fun x y => x.2.joins y.2) = run :: ys.splitBy fun x y => x.2.joins y.2 := by
  have hone : run.splitBy (fun x y => x.2.joins y.2) = [run] :=
    List.splitBy_of_isChain hne (isChain_joins hrun)
  rw [List.splitBy_append, hone, List.singleton_append]
  intro y hy z hz
  obtain ⟨-, hyk⟩ := hrun y (List.mem_of_getLast? hy)
  cases hj : y.2.joins z.2 with
  | false => rfl
  | true =>
    simp only [Block.joins, Bool.and_eq_true, beq_iff_eq] at hj
    exact absurd ⟨hj.1.2, hj.2.symm.trans hyk⟩ (hys z hz)

/-- A block that is no fragment is split off. -/
theorem splitBy_cons_of_not_isFragment {x : IndexedBlock} (hx : x.2.isFragment = false)
    (ys : List IndexedBlock) : (x :: ys).splitBy (fun x y => x.2.joins y.2) =
      [x] :: ys.splitBy fun x y => x.2.joins y.2 := by
  have hone : [x].splitBy (fun x y => x.2.joins y.2) = [[x]] :=
    List.splitBy_of_isChain (by simp) (by simp)
  rw [← List.singleton_append, List.splitBy_append, hone, List.singleton_append]
  intro y hy z _
  obtain rfl : x = y := by simpa using hy
  simp [Block.joins, hx]

/-- Up to blanks and comments, a group is a longest run of fragments of one kind, or a block that is
no fragment. -/
theorem reduceFrom_parts {previous : Option BlockKind} {xs : List IndexedBlock} {gs : List Group}
    (hx : ∀ x ∈ xs, x.2.kind.isSkippable = true → x.2.isFragment = false)
    (h : reduceFrom none previous xs = gs.map .ok) :
    (gs.filter fun g => !g.kind.isSkippable).map Group.parts =
      ((properBlocks xs).splitBy fun x y => x.2.joins y.2).map (·.map Prod.fst) := by
  induction hn : xs.length using Nat.strong_induction_on generalizing previous xs gs with
  | _ n ih =>
    cases xs with
    | nil =>
      obtain rfl := reduceFrom_nil h
      rfl
    | cons x xs =>
      have hxs : ∀ y ∈ xs, y.2.kind.isSkippable = true → y.2.isFragment = false :=
        fun y hy => hx y (List.mem_cons_of_mem _ hy)
      rw [List.length_cons] at hn
      rcases reduceFrom_cons h with ⟨hb, last, gs', hl, rfl, h'⟩ | ⟨hb, gs', rfl, h'⟩
      · have hproper : x.2.kind.isSkippable = false := by
          cases hs : x.2.kind.isSkippable with
          | false => rfl
          | true => exact absurd (hx x List.mem_cons_self hs) (by simp [hb])
        obtain ⟨run, hrun, hparts, hall, hhead⟩ := @gather_run x.2.kind xs hxs
        have hrem : (gather x.2.kind xs).remaining xs = (gather x.2.kind xs).rest := by
          rw [Gathered.remaining, if_neg]
          intro he
          simp only [List.isEmpty_iff] at he
          rw [he] at hl
          cases hl
        rw [hrem] at hrun hhead
        have hrest : ∀ y ∈ (gather x.2.kind xs).rest,
            y.2.kind.isSkippable = true → y.2.isFragment = false :=
          fun y hy => hxs y (mem_of_mem_rest_gather hy)
        have hlen := length_rest_gather_le x.2.kind xs
        have hih := ih _ (by omega) hrest h' rfl
        have hlist : properBlocks (x :: xs) =
            (x :: run) ++ properBlocks (gather x.2.kind xs).rest := by
          rw [properBlocks_cons hproper]
          exact congrArg (x :: ·) hrun
        rw [hlist, splitBy_run (by simp) (List.forall_mem_cons.2 ⟨⟨hb, rfl⟩, hall⟩) hhead,
          List.map_cons, ← hih]
        simp [hproper, hparts]
      · have hih := ih _ (by omega) hxs h' rfl
        cases hs : x.2.kind.isSkippable with
        | true =>
          rw [properBlocks_cons_skippable hs, ← hih]
          simp [hs]
        | false =>
          rw [properBlocks_cons hs, splitBy_cons_of_not_isFragment hb, List.map_cons, ← hih]
          simp [hs]

theorem of_mem_parts_gather {kind : BlockKind} {xs : List IndexedBlock} {i : Nat}
    (h : i ∈ (gather kind xs).parts) : ∃ b, (i, b) ∈ xs ∧ b.kind = kind := by
  fun_induction gather kind xs with
  | case1 => cases h
  | case2 j b xs hb g ih =>
    rcases List.mem_cons.1 h with rfl | h
    · exact ⟨b, List.mem_cons_self, hb.2⟩
    · obtain ⟨b', hmem, hk⟩ := ih h
      exact ⟨b', List.mem_cons_of_mem _ hmem, hk⟩
  | case3 j b xs _ _ ih =>
    obtain ⟨b', hmem, hk⟩ := ih h
    exact ⟨b', List.mem_cons_of_mem _ hmem, hk⟩
  | case4 => cases h

/-- The parts of a group are blocks of its kind. -/
theorem reduceFrom_kind {previous : Option BlockKind} {xs : List IndexedBlock} {gs : List Group}
    (h : reduceFrom none previous xs = gs.map .ok) {g : Group} (hg : g ∈ gs) {i : Nat}
    (hi : i ∈ g.parts) : ∃ b, (i, b) ∈ xs ∧ b.kind = g.kind := by
  induction hn : xs.length using Nat.strong_induction_on generalizing previous xs gs with
  | _ n ih =>
    cases xs with
    | nil =>
      obtain rfl := reduceFrom_nil h
      cases hg
    | cons x xs =>
      rw [List.length_cons] at hn
      rcases reduceFrom_cons h with ⟨-, last, gs', -, rfl, h'⟩ | ⟨-, gs', rfl, h'⟩
      · rcases List.mem_cons.1 hg with rfl | hg
        · rcases List.mem_cons.1 hi with rfl | hi
          · exact ⟨x.2, List.mem_cons_self, rfl⟩
          · obtain ⟨b, hmem, hk⟩ := of_mem_parts_gather hi
            exact ⟨b, List.mem_cons_of_mem _ hmem, hk⟩
        · have hlen := length_rest_gather_le x.2.kind xs
          obtain ⟨b, hmem, hk⟩ := ih _ (by omega) h' hg rfl
          exact ⟨b, List.mem_cons_of_mem _ (mem_of_mem_rest_gather hmem), hk⟩
      · rcases List.mem_cons.1 hg with rfl | hg
        · obtain rfl := List.mem_singleton.1 hi
          exact ⟨x.2, List.mem_cons_self, rfl⟩
        · obtain ⟨b, hmem, hk⟩ := ih _ (by omega) h' hg rfl
          exact ⟨b, List.mem_cons_of_mem _ hmem, hk⟩

/-! ## Grouping -/

theorem foldlM_push {α : Type} {xs : List (Except GroupError α)} {c c' : Chain α}
    (h : xs.foldlM (fun c x => x.map c.push) c = .ok c') :
    ∃ as, xs = as.map .ok ∧ c' = c.append as := by
  induction xs generalizing c with
  | nil =>
    cases h
    exact ⟨[], rfl, rfl⟩
  | cons x xs ih =>
    cases x with
    | error e => cases h
    | ok a =>
      obtain ⟨as, rfl, rfl⟩ := ih (c := c.push a) h
      exact ⟨a :: as, rfl, rfl⟩

/-- The groups of a linked chain of blocks. -/
theorem groupBlocks_ok {bs : BlockChain} {gs : GroupChain} (hl : bs.isLinked = true)
    (h : groupBlocks bs = .ok gs) :
    gs.isLinked = true ∧ reduceFrom none none (indexed 0 bs.toList) = gs.toList.map .ok := by
  obtain ⟨as, has, rfl⟩ := foldlM_push h
  have hlist : (Chain.empty.append as).toList = as := by simp
  refine ⟨Chain.isLinked_append Chain.isLinked_empty as, ?_⟩
  rw [hlist, ← has]
  unfold reduce at has ⊢
  split
  · rename_i hnone
    rw [hnone] at has
    cases as <;> cases has
  · rename_i x hx
    rw [hx] at has
    dsimp only at has
    split at has
    · cases as <;> cases has
    · rename_i hk
      rw [if_neg hk]
      split at has
      · cases as <;> cases has
      · rename_i hp
        rw [if_neg hp, Chain.walk_of_isLinked hl]
        dsimp only
        rw [filterMap_get?_range]

theorem groupsTile_of_tiles {lo hi : Nat} {gs : List Group}
    (ht : Tiles lo (gs.map Group.extent) hi)
    (hg : ∀ g ∈ gs, g.parts.head? = some g.first ∧ g.parts.getLast? = some g.last) :
    groupsTile lo gs hi = true := by
  induction gs generalizing lo with
  | nil => simpa [Tiles, groupsTile] using ht
  | cons g gs ih =>
    obtain ⟨rfl, -, ht⟩ := ht
    obtain ⟨hhead, hlast⟩ := hg g List.mem_cons_self
    have := ih ht fun g h => hg g (List.mem_cons_of_mem _ h)
    simpa [groupsTile, Group.extent, hhead, hlast] using this

/-- The groups of a linked chain of blocks cover them in order and once each. -/
theorem groupBlocks_covers {bs : BlockChain} {gs : GroupChain} (hl : bs.isLinked = true)
    (h : groupBlocks bs = .ok gs) :
    Tiles 0 (gs.toList.map Group.extent) bs.size ∧ gs.covers bs.size = true := by
  obtain ⟨hlinked, hr⟩ := groupBlocks_ok hl h
  obtain ⟨ht, hg⟩ := reduceFrom_tiles hr
  rw [Nat.zero_add, Chain.length_toList] at ht
  refine ⟨ht, ?_⟩
  rw [GroupChain.covers, hlinked, Bool.true_and]
  exact groupsTile_of_tiles ht hg

end VhdlOutline
