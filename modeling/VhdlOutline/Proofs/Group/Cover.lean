import VhdlOutline.Proofs.Chain
import VhdlOutline.Group.Basic

/-!
# What the check of a group chain says

Groups may be appended with any links, parts and ends. The links are put right (`Chain.ofNodes`), the
rest is left to `GroupChain.covers`. It is compared here with `IsCover`, which says what the ranges of
the groups have to be without going from one group to the next.

* `isCover_cons`: a group and a cover of the blocks after it.
* `groupsTile_iff_isCover`: the check accepts covers only, as long as no range runs backwards.
* `groupsTile_no_gap`: whatever it accepts leaves no block out.
* `covers_iff_isCover`: both for the groups of a chain.
-/

namespace VhdlOutline

/-! ## Covers -/

/-- The block `i` lies between the first and the last block of the group. -/
def Group.Contains (g : Group) (i : Nat) : Prop := g.first ≤ i ∧ i ≤ g.last

/-- The groups cover the blocks from `lo` up to, but not including, `hi`. -/
structure IsCover (lo : Nat) (gs : List Group) (hi : Nat) : Prop where
  starts : ∀ g ∈ gs, g.parts.head? = some g.first
  ends : ∀ g ∈ gs, g.parts.getLast? = some g.last
  nonempty : ∀ g ∈ gs, ∃ i, g.Contains i
  disjoint : gs.Pairwise fun g h => ∀ i, ¬ (g.Contains i ∧ h.Contains i)
  ascending : gs.Pairwise fun g h => g.first < h.first
  fills : ∀ i, lo ≤ i ∧ i < hi ↔ ∃ g ∈ gs, g.Contains i

section Cover

variable {lo hi i : Nat} {g : Group} {gs : List Group}

theorem exists_contains_iff : (∃ i, g.Contains i) ↔ g.first ≤ g.last :=
  ⟨fun ⟨_, h⟩ => Nat.le_trans h.1 h.2, fun h => ⟨g.first, Nat.le_refl _, h⟩⟩

theorem isCover_nil : IsCover lo [] hi ↔ hi ≤ lo := by
  constructor
  · intro h
    refine Nat.le_of_not_lt fun hlt => ?_
    obtain ⟨g, hg, -⟩ := (h.fills lo).1 ⟨Nat.le_refl _, hlt⟩
    cases hg
  · intro h
    exact ⟨by simp, by simp, by simp, .nil, .nil, fun i => by simp; omega⟩

/-- A cover begins with the group that starts at `lo`. What follows it covers the rest. -/
theorem isCover_cons : IsCover lo (g :: gs) hi ↔
    g.first = lo ∧ g.parts.head? = some g.first ∧ g.parts.getLast? = some g.last ∧
      g.first ≤ g.last ∧ g.last < hi ∧ IsCover (g.last + 1) gs hi := by
  constructor
  · rintro ⟨hstarts, hends, hne, hdis, hasc, hfills⟩
    obtain ⟨hstart, hstarts⟩ := List.forall_mem_cons.1 hstarts
    obtain ⟨hend, hends⟩ := List.forall_mem_cons.1 hends
    obtain ⟨hle, hne⟩ := List.forall_mem_cons.1 hne
    obtain ⟨hdis, hdis'⟩ := List.pairwise_cons.1 hdis
    obtain ⟨hasc, hasc'⟩ := List.pairwise_cons.1 hasc
    rw [exists_contains_iff] at hle
    have hfirst := (hfills g.first).2 ⟨g, List.mem_cons_self, Nat.le_refl _, hle⟩
    have hlast := (hfills g.last).2 ⟨g, List.mem_cons_self, hle, Nat.le_refl _⟩
    -- Only the first group can hold `lo`: the others start behind it.
    have hlo : g.first = lo := by
      obtain ⟨h, hh, hc⟩ := (hfills lo).1 ⟨Nat.le_refl _, by omega⟩
      rcases List.mem_cons.1 hh with rfl | hh
      · exact Nat.le_antisymm hc.1 hfirst.1
      · have := hasc h hh
        have := hc.1
        omega
    -- The others start behind its end too, for they share no block with it.
    have hbehind : ∀ h ∈ gs, g.last < h.first := by
      refine fun h hh => Nat.lt_of_not_le fun hle => ?_
      exact hdis h hh h.first ⟨⟨Nat.le_of_lt (hasc h hh), hle⟩, Nat.le_refl _,
        exists_contains_iff.1 (hne h hh)⟩
    refine ⟨hlo, hstart, hend, hle, hlast.2, hstarts, hends, hne, hdis', hasc', fun i => ?_⟩
    constructor
    · intro hi
      obtain ⟨h, hh, hc⟩ := (hfills i).1 ⟨by omega, hi.2⟩
      rcases List.mem_cons.1 hh with rfl | hh
      · exact absurd hc.2 (by omega)
      · exact ⟨h, hh, hc⟩
    · rintro ⟨h, hh, hc⟩
      have := hbehind h hh
      have := hc.1
      exact ⟨by omega, ((hfills i).2 ⟨h, List.mem_cons_of_mem _ hh, hc⟩).2⟩
  · rintro ⟨rfl, hstart, hend, hle, hlast, hcover⟩
    have hbehind : ∀ h ∈ gs, g.last < h.first := fun h hh =>
      ((hcover.fills h.first).2
        ⟨h, hh, Nat.le_refl _, exists_contains_iff.1 (hcover.nonempty h hh)⟩).1
    refine ⟨List.forall_mem_cons.2 ⟨hstart, hcover.starts⟩,
      List.forall_mem_cons.2 ⟨hend, hcover.ends⟩,
      List.forall_mem_cons.2 ⟨exists_contains_iff.2 hle, hcover.nonempty⟩,
      List.pairwise_cons.2 ⟨fun h hh i hi => ?_, hcover.disjoint⟩,
      List.pairwise_cons.2 ⟨fun h hh => Nat.lt_of_le_of_lt hle (hbehind h hh), hcover.ascending⟩,
      fun i => ?_⟩
    · exact absurd (hbehind h hh) (by have := hi.1.2; have := hi.2.1; omega)
    · have hsplit : (∃ h ∈ g :: gs, h.Contains i) ↔ g.Contains i ∨ ∃ h ∈ gs, h.Contains i := by
        simp
      rw [hsplit, ← hcover.fills i, Group.Contains]
      omega

/-! ## The check -/

theorem groupsTile_cons : groupsTile lo (g :: gs) hi = true ↔
    g.first = lo ∧ g.parts.head? = some g.first ∧ g.parts.getLast? = some g.last ∧
      groupsTile (g.last + 1) gs hi = true := by
  simp [groupsTile, and_assoc]

/-- What the check accepts covers the blocks if no range runs backwards, and every cover is
accepted. -/
theorem groupsTile_iff_isCover :
    groupsTile lo gs hi = true ∧ (∀ g ∈ gs, g.first ≤ g.last) ↔ lo ≤ hi ∧ IsCover lo gs hi := by
  induction gs generalizing lo with
  | nil => simp only [groupsTile, beq_iff_eq, isCover_nil, List.not_mem_nil]; grind
  | cons g gs ih =>
    rw [groupsTile_cons, isCover_cons, List.forall_mem_cons]
    have := @ih (g.last + 1)
    constructor
    · rintro ⟨⟨rfl, hstart, hend, ht⟩, hle, hles⟩
      obtain ⟨hlast, hcover⟩ := this.1 ⟨ht, hles⟩
      exact ⟨by omega, rfl, hstart, hend, hle, hlast, hcover⟩
    · rintro ⟨-, hlo, hstart, hend, hle, hlast, hcover⟩
      obtain ⟨ht, hles⟩ := this.2 ⟨hlast, hcover⟩
      exact ⟨⟨hlo, hstart, hend, ht⟩, hle, hles⟩

/-- What the check accepts leaves no block out, even if ranges run backwards. -/
theorem groupsTile_no_gap (h : groupsTile lo gs hi = true) (hlo : lo ≤ i) (hhi : i < hi) :
    ∃ g ∈ gs, g.Contains i := by
  induction gs generalizing lo with
  | nil =>
    have : lo = hi := by simpa [groupsTile] using h
    omega
  | cons g gs ih =>
    obtain ⟨rfl, -, -, ht⟩ := groupsTile_cons.1 h
    rcases Nat.lt_or_ge g.last i with hlt | hge
    · obtain ⟨g', hg', hc⟩ := ih ht hlt
      exact ⟨g', List.mem_cons_of_mem _ hg', hc⟩
    · exact ⟨g, List.mem_cons_self, hlo, hge⟩

theorem covers_ofNodes (xs : List (Linked Group)) (n : Nat) :
    GroupChain.covers (Chain.ofNodes xs) n = true ↔
      groupsTile 0 (Chain.ofNodes xs).toList n = true := by
  simp [GroupChain.covers, Chain.isLinked_ofNodes]

/-- **What the check of a group chain says**, whatever groups are appended and whatever links they
come with. The links are right after each of them. A cover is always accepted, and what is accepted
leaves no block out. It is a cover exactly if no range runs backwards. -/
theorem covers_iff_isCover (xs : List (Linked Group)) (n : Nat) :
    let gs : GroupChain := Chain.ofNodes xs
    gs.toList = xs.map Linked.item ∧
    (∀ k, (Chain.ofNodes (xs.take k)).isLinked = true) ∧
    (gs.covers n = true ∧ (∀ g ∈ gs.toList, g.first ≤ g.last) ↔ IsCover 0 gs.toList n) ∧
    (gs.covers n = true → ∀ i < n, ∃ g ∈ gs.toList, g.Contains i) ∧
    ((gs.covers n = true ↔ IsCover 0 gs.toList n) ↔
      (gs.covers n = true → ∀ g ∈ gs.toList, g.first ≤ g.last)) := by
  intro gs
  have hiff : gs.covers n = true ∧ (∀ g ∈ gs.toList, g.first ≤ g.last) ↔
      IsCover 0 gs.toList n := by
    rw [covers_ofNodes, groupsTile_iff_isCover]
    exact and_iff_right (Nat.zero_le n)
  refine ⟨Chain.toList_ofNodes xs, fun k => Chain.isLinked_ofNodes _, hiff, fun h i hi => ?_, ?_⟩
  · exact groupsTile_no_gap ((covers_ofNodes xs n).1 h) (Nat.zero_le i) hi
  · rw [← hiff]
    exact ⟨fun h hc => (h.1 hc).2, fun h => ⟨fun hc => ⟨hc, h hc⟩, And.left⟩⟩

/-- The second of three groups ends before it starts, and the third takes a block of the first once
more. -/
theorem covers_overlap :
    let gs : GroupChain := Chain.ofNodes [⟨⟨.startOfDocument, 0, 1, [0, 1]⟩, none, some 1⟩,
      ⟨⟨.entityName, 2, 0, [2, 0]⟩, some 0, some 2⟩, ⟨⟨.whitespace, 1, 2, [1, 2]⟩, some 1, some 3⟩]
    gs.covers 3 = true ∧ ¬ IsCover 0 gs.toList 3 := by
  intro gs
  refine ⟨by decide, fun h => ?_⟩
  have hle := h.nonempty ⟨.entityName, 2, 0, [2, 0]⟩ (by decide)
  exact absurd (exists_contains_iff.1 hle) (by decide)

end Cover

end VhdlOutline
