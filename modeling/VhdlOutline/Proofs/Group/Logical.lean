import Mathlib.Data.List.Nodup
import VhdlOutline.Proofs.Lossless

/-!
# Groups and logical blocks

A group is meant to be a logical block again: all fragments that one completion released. Grouping
sees only kinds and marks, though, so that it cannot tell apart two split blocks of one kind that
follow one another with nothing but blanks and comments between them.

* `partsOf_groups`: the groups of a document are the longest runs of such twins, each run taken for
  one block.
* `groups_faithful_iff`: the groups are the logical blocks exactly if there are no twins.
-/

namespace VhdlOutline

/-- The parts of a group. -/
def Document.partsOf (d : Document) (g : Group) : List Block :=
  g.parts.filterMap d.blocks.get?

/-- The groups that are neither blank nor comments. -/
def GroupChain.proper (gs : GroupChain) : List Group :=
  gs.toList.filter fun g => !g.kind.isSkippable

/-- Two blocks are parts of one group. -/
def SameGroup (d : Document) (gs : GroupChain) (b b' : Block) : Prop :=
  ∃ g ∈ gs.toList, b ∈ d.partsOf g ∧ b' ∈ d.partsOf g

/-- Two blocks are parts of one logical block. -/
def SameCompletion (cs : List Completion) (b b' : Block) : Prop :=
  ∃ c ∈ cs, b ∈ c.parts ∧ b' ∈ c.parts

instance (d : Document) (gs : GroupChain) (b b' : Block) : Decidable (SameGroup d gs b b') :=
  inferInstanceAs (Decidable (∃ g ∈ gs.toList, _))

instance (cs : List Completion) (b b' : Block) : Decidable (SameCompletion cs b b') :=
  inferInstanceAs (Decidable (∃ c ∈ cs, _))

/-- Two logical blocks that grouping cannot tell apart: both are split, and of one kind. -/
def Completion.twins (c c' : Completion) : Bool :=
  decide (1 < c.parts.length) && decide (1 < c'.parts.length) && c.kind == c'.kind

/-- No logical block is followed by its twin. -/
def NoTwins (cs : List Completion) : Prop := cs.IsChain fun c c' => c.twins c' = false

instance (cs : List Completion) : Decidable (NoTwins cs) :=
  inferInstanceAs (Decidable (cs.IsChain _))

/-! ## Runs of a list -/

theorem splitBy_map {α β : Type} (f : α → β) (r : β → β → Bool) (as : List α) :
    (as.map f).splitBy r = (as.splitBy fun a a' => r (f a) (f a')).map (·.map f) := by
  rw [List.splitBy_eq_iff]
  refine ⟨?_, ?_, ?_, ?_⟩
  · rw [← List.map_flatten, List.flatten_splitBy]
  · intro hmem
    obtain ⟨run, hrun, he⟩ := List.mem_map.1 hmem
    exact List.ne_nil_of_mem_splitBy hrun (by simpa using he)
  · intro run hrun
    obtain ⟨run', hrun', rfl⟩ := List.mem_map.1 hrun
    rw [List.isChain_map]
    exact List.isChain_of_mem_splitBy hrun'
  · rw [List.isChain_map]
    refine (List.isChain_getLast_head_splitBy _ as).imp ?_
    rintro run run' ⟨ha, hb, h⟩
    refine ⟨by simpa using ha, by simpa using hb, ?_⟩
    simpa using h

/-- If every run has a single element, no element is related to the next. -/
theorem isChain_of_splitBy_singletons {α : Type} {r : α → α → Bool} {as : List α}
    (h : ∀ run ∈ as.splitBy r, ∃ a, run = [a]) : as.IsChain fun a a' => r a a' = false := by
  have hmap : as.splitBy r = as.map ([·]) := by
    have hflat := List.flatten_splitBy r as
    generalize as.splitBy r = runs at h hflat
    subst hflat
    induction runs with
    | nil => rfl
    | cons run runs ih =>
      obtain ⟨a, rfl⟩ := h run List.mem_cons_self
      have hruns := ih fun run hrun => h run (List.mem_cons_of_mem _ hrun)
      rw [List.flatten_cons, List.singleton_append, List.map_cons, ← hruns]
  have hchain := List.isChain_getLast_head_splitBy r as
  rw [hmap, List.isChain_map] at hchain
  refine hchain.imp ?_
  rintro a a' ⟨_, _, hr⟩
  exact hr

theorem splitBy_of_isChain_not {α : Type} {r : α → α → Bool} {as : List α}
    (h : as.IsChain fun a a' => r a a' = false) : as.splitBy r = as.map ([·]) := by
  rw [List.splitBy_eq_iff]
  refine ⟨?_, by simp, by simp, ?_⟩
  · rw [← List.flatMap_def, List.flatMap_singleton']
  · rw [List.isChain_map]
    exact h.imp fun a a' h => ⟨by simp, by simp, h⟩

/-! ## Runs of twins -/

/-- Parts of two logical blocks in a row are taken for parts of one exactly if these are twins. -/
theorem joins_eq_twins {c c' : Completion} (h : c.IsWhole) (h' : c'.IsWhole) {b b' : Block}
    (hb : b ∈ c.parts) (hb' : b' ∈ c'.parts) : b.joins b' = c.twins c' := by
  obtain ⟨hk, hf⟩ := h.of_mem_parts hb
  obtain ⟨hk', hf'⟩ := h'.of_mem_parts hb'
  rw [Block.joins, Completion.twins, hk, hk', hf, hf']

theorem isChain_parts {c : Completion} (h : c.IsWhole) :
    c.parts.IsChain fun b b' => b.joins b' := by
  by_cases hs : 1 < c.parts.length
  · apply List.Pairwise.isChain
    apply List.pairwise_of_forall_mem_list
    intro b hb b' hb'
    simp [joins_eq_twins h h hb hb', Completion.twins, hs]
  · obtain ⟨b, hb⟩ : ∃ b, c.parts = [b] := by
      rw [← List.length_eq_one_iff]
      have := List.length_pos_iff.2 h.parts_ne_nil
      omega
    rw [hb]
    simp

/-- The runs among the parts of logical blocks come from runs of twins. -/
theorem splitBy_parts {cs : List Completion} (h : ∀ c ∈ cs, c.IsWhole) :
    (cs.flatMap Completion.parts).splitBy Block.joins =
      (cs.splitBy Completion.twins).map (·.flatMap Completion.parts) := by
  have hmem : ∀ run ∈ cs.splitBy Completion.twins, ∀ c ∈ run, c.IsWhole := by
    intro run hrun c hc
    apply h
    rw [← List.flatten_splitBy Completion.twins cs]
    exact List.mem_flatten_of_mem hrun hc
  have hne : ∀ run ∈ cs.splitBy Completion.twins, [] ∉ run.map Completion.parts := by
    intro run hrun hnil
    obtain ⟨c, hc, he⟩ := List.mem_map.1 hnil
    exact (hmem run hrun c hc).parts_ne_nil he
  rw [List.splitBy_eq_iff]
  refine ⟨?_, ?_, ?_, ?_⟩
  · calc cs.flatMap Completion.parts
        = (cs.splitBy Completion.twins).flatten.flatMap Completion.parts := by
          rw [List.flatten_splitBy]
      _ = _ := by simp only [List.flatMap_def, List.map_flatten, List.flatten_flatten, List.map_map,
          Function.comp_def]
  · intro hnil
    obtain ⟨run, hrun, he⟩ := List.mem_map.1 hnil
    obtain ⟨c, hc⟩ := List.exists_mem_of_ne_nil run (List.ne_nil_of_mem_splitBy hrun)
    exact (hmem run hrun c hc).parts_ne_nil (List.flatMap_eq_nil_iff.1 he c hc)
  · intro bs hbs
    obtain ⟨run, hrun, rfl⟩ := List.mem_map.1 hbs
    rw [List.flatMap_def, List.isChain_flatten (hne run hrun)]
    refine ⟨?_, ?_⟩
    · intro bs hbs
      obtain ⟨c, hc, rfl⟩ := List.mem_map.1 hbs
      exact isChain_parts (hmem run hrun c hc)
    · rw [List.isChain_map]
      refine (List.isChain_of_mem_splitBy hrun).imp_of_mem_imp ?_
      intro c c' hc hc' htwins b hb b' hb'
      rw [joins_eq_twins (hmem run hrun c hc) (hmem run hrun c' hc') (List.mem_of_getLast? hb)
        (List.mem_of_head? hb')]
      exact htwins
  · rw [List.isChain_map]
    refine (List.isChain_getLast_head_splitBy Completion.twins cs).imp_of_mem_imp ?_
    rintro run run' hrun hrun' ⟨hl, hh, hnot⟩
    have hlast := hmem run hrun _ (List.getLast_mem hl)
    have hhead := hmem run' hrun' _ (List.head_mem hh)
    have hsplit : run.flatMap Completion.parts =
        run.dropLast.flatMap Completion.parts ++ (run.getLast hl).parts := by
      conv_lhs => rw [← List.dropLast_append_getLast hl]
      simp
    have hsplit' : run'.flatMap Completion.parts =
        (run'.head hh).parts ++ run'.tail.flatMap Completion.parts := by
      conv_lhs => rw [← List.cons_head_tail hh, List.flatMap_cons]
    refine ⟨?_, ?_, ?_⟩
    · simp [hsplit, hlast.parts_ne_nil]
    · simp [hsplit', hhead.parts_ne_nil]
    · rw [joins_eq_twins hlast hhead, hnot]
      · simp only [hsplit]
        rw [List.getLast_append_of_right_ne_nil _ _ hlast.parts_ne_nil]
        exact List.getLast_mem _
      · simp only [hsplit']
        rw [List.head_append_of_ne_nil hhead.parts_ne_nil]
        exact List.head_mem _

/-! ## The groups of a document -/

theorem filterMap_get?_eq {d : Document} {run : List IndexedBlock}
    (h : ∀ x ∈ run, x ∈ indexed 0 d.blocks.toList) :
    (run.map Prod.fst).filterMap d.blocks.get? = run.map Prod.snd := by
  induction run with
  | nil => rfl
  | cons x run ih =>
    obtain ⟨-, hx⟩ := getElem?_of_mem_indexed (h x List.mem_cons_self)
    rw [Nat.sub_zero] at hx
    have hget : d.blocks.get? x.1 = some x.2 := by rw [Chain.get?_eq, hx]
    rw [List.map_cons, List.filterMap_cons, hget, List.map_cons,
      ih fun y hy => h y (List.mem_cons_of_mem _ hy)]

/-- Up to blanks and comments, the groups of a document are the longest runs of twins, each taken
for one block. -/
theorem partsOf_groups {source : String} {options : Options} {d : Document} {gs : GroupChain}
    (h : parseDocument source options = .ok (d, gs)) :
    gs.proper.map d.partsOf =
      ((logicalBlocks (tokenize source) options).splitBy Completion.twins).map
        (·.flatMap Completion.parts) := by
  obtain ⟨houtline, hgroups⟩ := parseDocument_ok h
  obtain ⟨hparts, hwhole, hfragment⟩ := outline_parts houtline
  obtain ⟨-, hreduce⟩ := groupBlocks_ok (outline_tiles houtline).1 hgroups
  have hx : ∀ x ∈ indexed 0 d.blocks.toList,
      x.2.kind.isSkippable = true → x.2.isFragment = false := by
    intro x hx
    obtain ⟨-, hget⟩ := getElem?_of_mem_indexed hx
    exact hfragment x.2 (List.mem_of_getElem? hget)
  have hruns := congrArg (List.map (List.filterMap d.blocks.get?)) (reduceFrom_parts hx hreduce)
  rw [← splitBy_parts hwhole, ← hparts, Document.proper, ← map_snd_properBlocks 0, splitBy_map]
  rw [List.map_map, List.map_map] at hruns
  rw [GroupChain.proper]
  refine Eq.trans hruns ?_
  apply List.map_congr_left
  intro run hrun
  apply filterMap_get?_eq
  intro x hx
  have : x ∈ properBlocks (indexed 0 d.blocks.toList) := by
    rw [← List.flatten_splitBy (fun x y : IndexedBlock => x.2.joins y.2)
      (properBlocks (indexed 0 d.blocks.toList))]
    exact List.mem_flatten_of_mem hrun hx
  exact (List.mem_filter.1 this).1

/-- The parts of a group are of its kind. -/
theorem kind_of_mem_partsOf {source : String} {options : Options} {d : Document} {gs : GroupChain}
    (h : parseDocument source options = .ok (d, gs)) {g : Group} (hg : g ∈ gs.toList) {b : Block}
    (hb : b ∈ d.partsOf g) : b.kind = g.kind := by
  obtain ⟨houtline, hgroups⟩ := parseDocument_ok h
  obtain ⟨-, hreduce⟩ := groupBlocks_ok (outline_tiles houtline).1 hgroups
  obtain ⟨i, hi, hget⟩ := List.mem_filterMap.1 hb
  obtain ⟨b', hmem, hk⟩ := reduceFrom_kind hreduce hg hi
  obtain ⟨-, hget'⟩ := getElem?_of_mem_indexed hmem
  rw [Chain.get?_eq] at hget
  rw [Nat.sub_zero, hget] at hget'
  cases hget'
  exact hk

/-! ## Faithful groups -/

theorem singletons_of_length_eq {α : Type} {runs : List (List α)} (hn : [] ∉ runs)
    (h : runs.length = runs.flatten.length) : ∀ run ∈ runs, ∃ a, run = [a] := by
  have hle : ∀ {runs : List (List α)}, [] ∉ runs → runs.length ≤ runs.flatten.length := by
    intro runs hn
    induction runs with
    | nil => simp
    | cons run runs ih =>
      have := ih fun h => hn (List.mem_cons_of_mem _ h)
      have : 0 < run.length := List.length_pos_iff.2 fun h => hn (h ▸ List.mem_cons_self)
      simp only [List.length_cons, List.flatten_cons, List.length_append]
      omega
  induction runs with
  | nil => simp
  | cons run runs ih =>
    have hn' : [] ∉ runs := fun h => hn (List.mem_cons_of_mem _ h)
    have hpos : 0 < run.length := List.length_pos_iff.2 fun h => hn (h ▸ List.mem_cons_self)
    have := hle hn'
    simp only [List.length_cons, List.flatten_cons, List.length_append] at h
    intro run' hrun'
    rcases List.mem_cons.1 hrun' with rfl | hrun'
    · exact List.length_eq_one_iff.1 (by omega)
    · exact ih hn' (by omega) run' hrun'

theorem Tiles.nodup {lo hi : Nat} {es : List (Nat × Nat)} (h : Tiles lo es hi) : es.Nodup := by
  induction es generalizing lo with
  | nil => exact List.nodup_nil
  | cons e es ih =>
    obtain ⟨rfl, hle, h⟩ := h
    refine List.nodup_cons.2 ⟨fun hmem => ?_, ih h⟩
    have := (h.mem hmem).1
    omega

section Faithful

variable {source : String} {options : Options} {d : Document} {gs : GroupChain}

/-- A logical block is told from the others by any of its parts. -/
theorem disjoint_parts (h : parseDocument source options = .ok (d, gs)) :
    (logicalBlocks (tokenize source) options).Pairwise
      fun c c' => c.parts.Disjoint c'.parts := by
  obtain ⟨houtline, -⟩ := parseDocument_ok h
  obtain ⟨hparts, -⟩ := outline_parts houtline
  have hnodup : d.blocks.toList.Nodup := List.Nodup.of_map _ (outline_tiles houtline).2.nodup
  have hproper : d.proper.Nodup := hnodup.filter _
  rw [hparts] at hproper
  exact (List.nodup_flatMap.1 hproper).2

theorem correspond_iff (h : parseDocument source options = .ok (d, gs)) :
    gs.proper.map d.partsOf = (logicalBlocks (tokenize source) options).map Completion.parts ↔
      NoTwins (logicalBlocks (tokenize source) options) := by
  rw [partsOf_groups h]
  constructor
  · intro heq
    apply isChain_of_splitBy_singletons
    apply singletons_of_length_eq (List.nil_notMem_splitBy _ _)
    have hlen := congrArg List.length heq
    rw [List.length_map, List.length_map] at hlen
    rw [hlen, List.flatten_splitBy]
  · intro hno
    rw [splitBy_of_isChain_not hno, List.map_map]
    apply List.map_congr_left
    intro c _
    simp

theorem sameGroup_iff_of_correspond (h : parseDocument source options = .ok (d, gs))
    (heq : gs.proper.map d.partsOf =
      (logicalBlocks (tokenize source) options).map Completion.parts) {b : Block}
    (hb : b ∈ d.proper) (b' : Block) :
    SameGroup d gs b b' ↔ SameCompletion (logicalBlocks (tokenize source) options) b b' := by
  constructor
  · rintro ⟨g, hg, hbg, hbg'⟩
    have hproper : g ∈ gs.proper := by
      refine List.mem_filter.2 ⟨hg, ?_⟩
      rw [← kind_of_mem_partsOf h hg hbg]
      exact (List.mem_filter.1 hb).2
    have hmem := List.mem_map_of_mem (f := d.partsOf) hproper
    rw [heq] at hmem
    obtain ⟨c, hc, he⟩ := List.mem_map.1 hmem
    exact ⟨c, hc, he ▸ hbg, he ▸ hbg'⟩
  · rintro ⟨c, hc, hbc, hbc'⟩
    have hmem := List.mem_map_of_mem (f := Completion.parts) hc
    rw [← heq] at hmem
    obtain ⟨g, hg, he⟩ := List.mem_map.1 hmem
    exact ⟨g, (List.mem_filter.1 hg).1, he ▸ hbc, he ▸ hbc'⟩

theorem noTwins_of_sameGroup_iff (h : parseDocument source options = .ok (d, gs))
    (hsame : ∀ b ∈ d.proper, ∀ b' ∈ d.proper,
      SameGroup d gs b b' ↔ SameCompletion (logicalBlocks (tokenize source) options) b b') :
    NoTwins (logicalBlocks (tokenize source) options) := by
  have hdisjoint := disjoint_parts h
  obtain ⟨hparts, hwhole, -⟩ := outline_parts (parseDocument_ok h).1
  have hgroups := partsOf_groups h
  generalize logicalBlocks (tokenize source) options = cs at *
  apply isChain_of_splitBy_singletons
  intro run hrun
  have hsub : run.Sublist cs := by
    have := List.sublist_flatten_of_mem hrun
    rwa [List.flatten_splitBy] at this
  match run, List.ne_nil_of_mem_splitBy hrun with
  | [c], _ => exact ⟨c, rfl⟩
  | c :: c' :: rest, _ =>
    -- Parts of both would be in one group, but no completion releases both.
    exfalso
    have hc : c ∈ cs := hsub.subset (by simp)
    have hc' : c' ∈ cs := hsub.subset (by simp)
    obtain ⟨b, hb⟩ := List.exists_mem_of_ne_nil _ (hwhole c hc).parts_ne_nil
    obtain ⟨b', hb'⟩ := List.exists_mem_of_ne_nil _ (hwhole c' hc').parts_ne_nil
    have hproper : ∀ c ∈ cs, ∀ b ∈ c.parts, b ∈ d.proper := by
      intro c hc b hb
      rw [hparts]
      exact List.mem_flatMap_of_mem hc hb
    have hgroup : SameGroup d gs b b' := by
      have hmem := List.mem_map_of_mem (f := fun run => run.flatMap Completion.parts) hrun
      rw [← hgroups] at hmem
      obtain ⟨g, hg, he⟩ := List.mem_map.1 hmem
      refine ⟨g, (List.mem_filter.1 hg).1, ?_, ?_⟩
      · rw [he]
        exact List.mem_flatMap_of_mem (by simp) hb
      · rw [he]
        exact List.mem_flatMap_of_mem (by simp) hb'
    obtain ⟨e, he, hbe, hbe'⟩ := (hsame b (hproper c hc b hb) b' (hproper c' hc' b' hb')).1 hgroup
    have hec : e = c := by
      have : Std.Symm fun c c' : Completion => c.parts.Disjoint c'.parts :=
        ⟨fun _ _ h _ hb hb' => h hb' hb⟩
      by_contra hne
      exact hdisjoint.forall he hc hne hbe hb
    have hcc' := (List.pairwise_cons.1 (hdisjoint.sublist hsub)).1 c' (by simp)
    exact hcc' (hec ▸ hbe') hb'

/-- **When groups are logical blocks.** Two blocks of a parsed document are parts of one group
exactly if they are fragments of one logical block, and the groups correspond to the logical blocks
in order, if and only if no split block is followed by another of its kind. -/
theorem groups_faithful_iff (h : parseDocument source options = .ok (d, gs)) :
    ((∀ b ∈ d.proper, ∀ b' ∈ d.proper, SameGroup d gs b b' ↔
        SameCompletion (logicalBlocks (tokenize source) options) b b') ↔
      NoTwins (logicalBlocks (tokenize source) options)) ∧
    (gs.proper.map d.partsOf = (logicalBlocks (tokenize source) options).map Completion.parts ↔
      NoTwins (logicalBlocks (tokenize source) options)) := by
  refine ⟨⟨noTwins_of_sameGroup_iff h, fun hno => ?_⟩, correspond_iff h⟩
  have heq := (correspond_iff h).2 hno
  exact fun b hb b' _ => sameGroup_iff_of_correspond h heq hb b'

end Faithful

/-- A split block without a twin is a group of its own. -/
theorem groups_faithful_split : ∃ d gs,
    parseDocument "package p is end -- q\n;" {} = .ok (d, gs) ∧
      gs.proper.map d.partsOf =
        (logicalBlocks (tokenize "package p is end -- q\n;") {}).map Completion.parts := by
  have hok : (parseDocument "package p is end -- q\n;" {}).isOk = true := by decide +kernel
  have hno : NoTwins (logicalBlocks (tokenize "package p is end -- q\n;") {}) := by decide +kernel
  generalize hr : parseDocument "package p is end -- q\n;" {} = r at hok
  cases r with
  | error e => cases hok
  | ok r => exact ⟨r.1, r.2, rfl, (groups_faithful_iff hr).2.2 hno⟩

/-- Two null statements, each with a comment inside, end up in one group. -/
theorem groups_merge_twins : ∃ d gs,
    parseDocument "package p is procedure q is begin null/**/;null/**/;end;end;" {} =
      .ok (d, gs) ∧
    ∃ b ∈ d.proper, ∃ b' ∈ d.proper, SameGroup d gs b b' ∧
      ¬ SameCompletion (logicalBlocks
        (tokenize "package p is procedure q is begin null/**/;null/**/;end;end;") {}) b b' := by
  have hmerge : (parseDocument "package p is procedure q is begin null/**/;null/**/;end;end;"
      {}).toOption.any (fun r => ∃ b ∈ r.1.proper, ∃ b' ∈ r.1.proper, SameGroup r.1 r.2 b b' ∧
        ¬ SameCompletion (logicalBlocks
          (tokenize "package p is procedure q is begin null/**/;null/**/;end;end;") {}) b b') =
      true := by decide +kernel
  generalize parseDocument "package p is procedure q is begin null/**/;null/**/;end;end;" {} = r
    at hmerge
  cases r with
  | error e => cases hmerge
  | ok r => exact ⟨r.1, r.2, rfl, of_decide_eq_true hmerge⟩

end VhdlOutline
