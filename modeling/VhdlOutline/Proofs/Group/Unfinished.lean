import VhdlOutline.Proofs.Outline.Delivery

/-!
# Groups of an unfinished outline

The blocks of a machine can be grouped at any time, whether or not the end of the document has been
read. A fragment is put on the sheet together with its siblings, so that no group lacks a part, and
all that may be missing is the end of the document, or everything.

* `Paired` lists of blocks are those in which every fragment has a sibling next to it. What is left
  of such a list after a longest run of siblings is paired again (`Paired.of_fragment`).
* `reduceFrom_paired` groups the blocks of a paired list.
* `Parser.calls_groups` says what becomes of the blocks after any number of calls.
-/

namespace VhdlOutline

/-- The blocks come one by one, if they are no fragments, or as several fragments of one kind. -/
inductive Paired : List Block → Prop
  | nil : Paired []
  | whole {b : Block} {bs : List Block} (hb : b.isFragment = false) (h : Paired bs) :
      Paired (b :: bs)
  | split {kind : BlockKind} {run bs : List Block} (hlen : 1 < run.length)
      (hrun : ∀ b ∈ run, b.isFragment = true ∧ b.kind = kind) (h : Paired bs) : Paired (run ++ bs)

namespace Paired

theorem append {as bs : List Block} (ha : Paired as) (hb : Paired bs) : Paired (as ++ bs) := by
  induction ha with
  | nil => exact hb
  | whole hw _ ih => exact .whole hw ih
  | split hlen hrun _ ih =>
    rw [List.append_assoc]
    exact .split hlen hrun ih

/-- The parts of a completed block are paired. -/
theorem parts {c : Completion} (h : c.IsWhole) : Paired c.parts := by
  have hparts := @Completion.IsWhole.of_mem_parts c h
  by_cases hlen : 1 < c.parts.length
  · rw [← List.append_nil c.parts]
    refine @split c.kind _ _ hlen (fun b hb => ?_) .nil
    obtain ⟨hk, hf⟩ := hparts hb
    exact ⟨hf.trans (decide_eq_true hlen), hk⟩
  · obtain ⟨b, hb⟩ : ∃ b, c.parts = [b] := by
      rw [← List.length_eq_one_iff]
      have := List.length_pos_of_ne_nil h.parts_ne_nil
      omega
    rw [hb] at hparts ⊢
    exact .whole (hparts List.mem_cons_self).2 .nil

theorem flatMap_parts {cs : List Completion} (h : ∀ c ∈ cs, c.IsWhole) :
    Paired (cs.flatMap Completion.parts) := by
  induction cs with
  | nil => exact .nil
  | cons c cs ih =>
    rw [List.flatMap_cons]
    exact (parts (h c List.mem_cons_self)).append (ih fun c hc => h c (List.mem_cons_of_mem _ hc))

/-- Fragments of one kind may be left out at the front, as long as all of them are. -/
theorem dropWhile {bs : List Block} (h : Paired bs) (kind : BlockKind) :
    Paired (bs.dropWhile fun b => b.isFragment && b.kind == kind) := by
  induction h with
  | nil => exact .nil
  | whole hb h =>
    rw [List.dropWhile_cons_of_neg (by simp [hb])]
    exact .whole hb h
  | @split kind' run bs hlen hrun h ih =>
    by_cases hk : kind' = kind
    · rw [List.dropWhile_append_of_pos]
      · exact ih
      · intro b hb
        obtain ⟨hf, hb⟩ := hrun b hb
        simp [hf, hb, hk]
    · cases run with
      | nil => cases hlen
      | cons b run =>
        rw [List.cons_append, List.dropWhile_cons_of_neg, ← List.cons_append]
        · exact .split hlen hrun h
        · simp [(hrun b List.mem_cons_self).2, hk]

/-- What comes after a block that is no fragment is paired. -/
theorem of_whole {b : Block} {bs : List Block} (h : Paired (b :: bs)) (hb : b.isFragment = false) :
    Paired bs := by
  generalize hbs : b :: bs = as at h
  cases h with
  | nil => cases hbs
  | whole _ h =>
    cases hbs
    exact h
  | @split _ run _ hlen hrun _ =>
    cases run with
    | nil => cases hlen
    | cons c run =>
      cases hbs
      rw [(hrun b List.mem_cons_self).1] at hb
      cases hb

/-- A fragment is followed by a sibling, and what comes after all of its siblings is paired. -/
theorem of_fragment {b : Block} {run rest : List Block} (h : Paired (b :: (run ++ rest)))
    (hb : b.isFragment = true) (hrun : ∀ c ∈ run, c.isFragment = true ∧ c.kind = b.kind)
    (hrest : ∀ c ∈ rest.head?, ¬ (c.isFragment = true ∧ c.kind = b.kind)) :
    run ≠ [] ∧ Paired rest := by
  have hdrop := h.dropWhile b.kind
  rw [List.dropWhile_cons_of_pos (by simp [hb]), List.dropWhile_append_of_pos (by
    intro c hc
    obtain ⟨hf, hk⟩ := hrun c hc
    simp [hf, hk])] at hdrop
  have hstay : rest.dropWhile (fun c => c.isFragment && c.kind == b.kind) = rest := by
    cases rest with
    | nil => rfl
    | cons c rest =>
      rw [List.dropWhile_cons_of_neg]
      simpa using hrest c rfl
  rw [hstay] at hdrop
  refine ⟨?_, hdrop⟩
  rintro rfl
  generalize hbs : b :: ([] ++ rest) = bs at h
  cases h with
  | nil => cases hbs
  | whole hw =>
    cases hbs
    rw [hb] at hw
    cases hw
  | @split kind run bs hlen hrun _ =>
    -- The second of the siblings is the head of what comes after them.
    match run, hlen with
    | c :: d :: run, _ =>
      cases hbs
      obtain ⟨-, hck⟩ := hrun b (by simp)
      obtain ⟨hdf, hdk⟩ := hrun d (by simp)
      exact hrest d rfl ⟨hdf, hdk.trans hck.symm⟩

end Paired

/-! ## Grouping paired blocks -/

/-- How the list of groups ends after a block of the given kind, or before any. -/
def reduceEnd (last : Option BlockKind) : List (Except GroupError Group) :=
  if last = some .endOfDocument then [] else [.error .missingEndOfDocument]

theorem getLast?_drop {bs : List Block} {i : Nat} {b : Block} (h : bs[i]? = some b) :
    (bs.drop (i + 1)).getLast?.or (some b) = bs.getLast? := by
  have hlen := (List.getElem?_eq_some_iff.1 h).1
  have htake : (bs.take (i + 1)).getLast? = some b := by
    rw [List.getLast?_take, if_neg (by omega), Nat.add_sub_cancel, h]
    rfl
  rw [← htake, ← List.getLast?_append, List.take_append_drop]

/-- A fragment among paired blocks is gathered with a last sibling, after which the search goes
on with paired blocks. -/
theorem gather_paired {lo : Nat} {b : Block} {bs : List Block} (hb : b.isFragment = true)
    (hskip : ∀ c ∈ bs, c.kind.isSkippable = true → c.isFragment = false)
    (hp : Paired (b :: bs.filter fun c => !c.kind.isSkippable)) :
    ∃ i b', i < bs.length ∧ bs[i]? = some b' ∧ b'.kind = b.kind ∧
      (gather b.kind (indexed lo bs)).parts.getLast? = some (lo + i) ∧
      (gather b.kind (indexed lo bs)).rest = indexed (lo + i + 1) (bs.drop (i + 1)) ∧
      Paired ((bs.drop (i + 1)).filter fun c => !c.kind.isSkippable) := by
  have hx : ∀ x ∈ indexed lo bs, x.2.kind.isSkippable = true → x.2.isFragment = false := by
    intro x hx
    apply hskip
    rw [← map_snd_indexed lo bs]
    exact List.mem_map_of_mem hx
  obtain ⟨run, hrun, hparts, hall, hhead⟩ := @gather_run b.kind _ hx
  rw [← map_snd_properBlocks lo, hrun, List.map_append] at hp
  obtain ⟨hne, hrest⟩ : run.map Prod.snd ≠ [] ∧ _ := by
    refine hp.of_fragment hb (List.forall_mem_map.2 hall) ?_
    intro c hc
    rw [List.head?_map] at hc
    obtain ⟨y, hy, rfl⟩ := Option.map_eq_some_iff.1 hc
    exact hhead y hy
  have hparts_ne : (gather b.kind (indexed lo bs)).parts ≠ [] := by
    rw [← hparts]
    simpa using hne
  obtain ⟨last, hl⟩ := Option.ne_none_iff_exists'.1 (mt List.getLast?_eq_none_iff.1 hparts_ne)
  obtain ⟨hle, hlt, hgather⟩ := gather_rest hl
  obtain ⟨b', hmem, hk⟩ := of_mem_parts_gather (List.mem_of_getLast? hl)
  have hlast : lo + (last - lo) = last := by omega
  have hdrop : last + 1 - lo = last - lo + 1 := by omega
  rw [Gathered.remaining, if_neg (by simpa using hparts_ne), hgather, map_snd_properBlocks,
    hdrop] at hrest
  refine ⟨last - lo, b', by omega, (getElem?_of_mem_indexed hmem).2, hk, ?_, ?_, hrest⟩
  · rw [hlast, hl]
  · rw [hlast, hgather, hdrop]

/-- **Paired blocks are grouped** up to the last one. -/
theorem reduceFrom_paired {previous : Option BlockKind} {lo : Nat} {bs : List Block}
    (hskip : ∀ b ∈ bs, b.kind.isSkippable = true → b.isFragment = false)
    (hp : Paired (bs.filter fun b => !b.kind.isSkippable)) :
    ∃ gs : List Group,
      reduceFrom none previous (indexed lo bs) =
        gs.map .ok ++ reduceEnd ((bs.getLast?.map Block.kind).or previous) ∧
      Tiles lo (gs.map Group.extent) (lo + bs.length) ∧
      ∀ g ∈ gs, g.parts.head? = some g.first ∧ g.parts.getLast? = some g.last := by
  induction hn : bs.length using Nat.strong_induction_on generalizing previous lo bs with
  | _ n ih =>
    cases bs with
    | nil =>
      refine ⟨[], ?_, by simp [Tiles, ← hn], by simp⟩
      rw [indexed, reduceFrom]
      rfl
    | cons b bs =>
      rw [List.length_cons] at hn
      have hskip' : ∀ c ∈ bs, c.kind.isSkippable = true → c.isFragment = false :=
        fun c hc => hskip c (List.mem_cons_of_mem _ hc)
      rw [indexed]
      cases hb : b.isFragment with
      | true =>
        have hproper : b.kind.isSkippable = false := by
          cases hs : b.kind.isSkippable with
          | false => rfl
          | true => exact absurd (hskip b List.mem_cons_self hs) (by simp [hb])
        rw [List.filter_cons_of_pos (by simp [hproper])] at hp
        obtain ⟨i, b', hi, hb', hk, hlast, hrest, hp'⟩ := @gather_paired (lo + 1) b bs hb hskip' hp
        obtain ⟨gs, hr, ht, hg⟩ := ih _ (by rw [List.length_drop]; omega)
          (fun c hc => hskip' c (List.mem_of_mem_drop hc)) hp' rfl
        refine ⟨⟨b.kind, lo, lo + 1 + i, lo :: (gather b.kind (indexed (lo + 1) bs)).parts⟩ :: gs,
          ?_, ⟨rfl, by simp [Group.extent]; omega, ?_⟩, ?_⟩
        · -- The last sibling decides how the list ends if nothing comes after it.
          rw [reduceFrom_of_isFragment hb, groupOf_of_getLast? hlast, hrest, hr, ← hk,
            List.map_cons, List.cons_append, List.getLast?_cons, ← getLast?_drop hb']
          cases (bs.drop (i + 1)).getLast? <;> rfl
        · have he : lo + 1 + i + 1 + (bs.drop (i + 1)).length = lo + n := by
            rw [List.length_drop]
            omega
          rwa [he] at ht
        · intro g hmem
          rcases List.mem_cons.1 hmem with rfl | hmem
          · exact ⟨rfl, by simp [List.getLast?_cons, hlast]⟩
          · exact hg g hmem
      | false =>
        have hp' : Paired (bs.filter fun b => !b.kind.isSkippable) := by
          rw [List.filter_cons] at hp
          split at hp
          · exact hp.of_whole hb
          · exact hp
        obtain ⟨gs, hr, ht, hg⟩ := ih _ (by omega) hskip' hp' rfl
        refine ⟨⟨b.kind, lo, lo, [lo]⟩ :: gs, ?_, ⟨rfl, Nat.le_refl _, ?_⟩, ?_⟩
        · rw [reduceFrom_of_not_isFragment hb (.inr rfl), hr]
          cases h : bs.getLast? <;> simp [List.getLast?_cons, h]
        · have he : lo + 1 + bs.length = lo + n := by omega
          rwa [he] at ht
        · intro g hmem
          rcases List.mem_cons.1 hmem with rfl | hmem
          · exact ⟨rfl, rfl⟩
          · exact hg g hmem

/-! ## The blocks of a chain -/

theorem reduce_of_size_eq_zero {bs : BlockChain} (h : bs.size = 0) :
    reduce bs = [.error .missingStartOfDocument] := by
  have hnone : bs.nodes[0]? = none := Array.getElem?_eq_none (Nat.le_of_eq h)
  rw [reduce, hnone]

/-- A linked chain that begins with the start of the document is reduced from there on. -/
theorem reduce_eq {bs : BlockChain} (hl : bs.isLinked = true) {b : Block} {rest : List Block}
    (hb : bs.toList = b :: rest) (hk : b.kind = .startOfDocument) :
    reduce bs = reduceFrom none none (indexed 0 bs.toList) := by
  have hget : bs.nodes[0]?.map Linked.item = some b := by
    rw [← Chain.get?, Chain.get?_eq, hb]
    rfl
  obtain ⟨x, hx, rfl⟩ := Option.map_eq_some_iff.1 hget
  have hprevious := ((Chain.isLinked_iff bs).1 hl 0 x hx).1
  rw [reduce, hx]
  dsimp only
  rw [if_neg (by simpa using hk), if_neg (by simp [hprevious, Chain.indexBefore]),
    Chain.walk_of_isLinked hl]
  dsimp only
  rw [filterMap_get?_range]

/-- Groups without an error make a chain. -/
theorem collect_map_ok (c : GroupChain) (gs : List Group) :
    (gs.map Except.ok).foldlM (fun gs (g : Except GroupError Group) => g.map gs.push) c =
      .ok (c.append gs) := by
  induction gs generalizing c with
  | nil => rfl
  | cons g gs ih => exact ih (c.push g)

theorem groupBlocks_of_reduce {bs : BlockChain} {gs : List Group} (h : reduce bs = gs.map .ok) :
    groupBlocks bs = .ok (Chain.empty.append gs) := by
  rw [groupBlocks, h, collect_map_ok]

theorem groupBlocks_of_reduce_error {bs : BlockChain} {gs : List Group} {e : GroupError}
    (h : reduce bs = gs.map .ok ++ [.error e]) : groupBlocks bs = .error e := by
  rw [groupBlocks, h, List.foldlM_append, collect_map_ok]
  rfl

/-! ## The blocks of a machine -/

namespace Machine

variable {m : Machine}

/-- What the groups of a machine lack: nothing once the end of the document has been read, that end
before, and everything if there is no block. -/
def missing (m : Machine) : List (Except GroupError Group) :=
  if m.done then []
  else if m.sheet.blocks.size = 0 then [.error .missingStartOfDocument]
  else [.error .missingEndOfDocument]

/-- The last block is the end of the document just if that has been read. -/
theorem Framed.getLast?_blocks (h : m.Framed) (hs : m.control.state ≠ .documentStart) :
    m.sheet.blocks.toList.getLast?.map Block.kind = some .endOfDocument ↔ m.done = true := by
  obtain ⟨body, hbody, hsent⟩ := h.opened hs
  rw [← List.getLast?_map, hbody]
  cases hd : m.done with
  | true => simp [List.getLast?_cons]
  | false =>
    simp only [Bool.false_eq_true, if_false, List.append_nil, iff_false]
    intro hlast
    rcases List.mem_cons.1 (List.mem_of_getLast? hlast) with hk | hk
    · cases hk
    · cases hsent _ hk

/-- **The blocks of a run can be grouped**, however it ends. -/
theorem reduce_of_run {options : Options} {xs : List (Except LexError Token)}
    {e : Option OutlineError} (hrun : Machine.run { options } xs = (m, e)) :
    ∃ gs : List Group, reduce m.sheet.blocks = gs.map .ok ++ m.missing ∧
      Tiles 0 (gs.map Group.extent) m.sheet.blocks.size ∧
      groupsTile 0 gs m.sheet.blocks.size = true := by
  have hstart : ({ options } : Machine).Records [] := ⟨rfl, by simp, by rintro _ ⟨⟩⟩
  obtain ⟨cs, hrecords⟩ := (run_ends_start kept_records hstart hrun).records
  have hends := run_ends_start kept_framed (framed_start options) hrun
  have hframed := hends.framed
  obtain ⟨_, -, hlaid, -⟩ := hends.laid
  by_cases hs : m.control.state = .documentStart
  · have hsize : m.sheet.blocks.size = 0 := by
      rw [← Chain.length_toList, (hframed.unopened hs).1, List.length_nil]
    have hdone : m.done = false := by
      cases hd : m.done with
      | false => rfl
      | true => cases hs.symm.trans (hframed.closed hd)
    refine ⟨[], ?_, hsize.symm, by simp [groupsTile, hsize]⟩
    rw [reduce_of_size_eq_zero hsize]
    simp [missing, hdone, hsize]
  · have hpaired : Paired (m.sheet.blocks.toList.filter fun b => !b.kind.isSkippable) := by
      rw [← Sheet.parts, hrecords.parts]
      exact .flatMap_parts hrecords.isWhole
    obtain ⟨gs, hr, ht, hg⟩ := @reduceFrom_paired none 0 _ hrecords.not_isFragment hpaired
    obtain ⟨body, hbody, -⟩ := hframed.opened hs
    obtain ⟨b, rest, hblocks, hk, -⟩ := List.map_eq_cons_iff.1 hbody
    have hsize : m.sheet.blocks.size ≠ 0 := by
      rw [← Chain.length_toList, hblocks]
      simp
    rw [Nat.zero_add, Chain.length_toList] at ht
    refine ⟨gs, ?_, ht, groupsTile_of_tiles ht hg⟩
    rw [reduce_eq hlaid.blocks_linked hblocks hk, hr, Option.or_none, reduceEnd, missing]
    simp only [hframed.getLast?_blocks hs, if_neg hsize]

end Machine

/-- **Grouping never fails on the blocks of a parser**, complete or not. After any number of calls
the groups cover the blocks so far in order and once each. All that may be missing then is the end
of the document, or its start if there is no block at all. So a source text with an outline has its
groups. -/
theorem Parser.calls_groups :
    (∀ (input : List (Except LexError Token)) (options : Options) (n : Nat),
      let m := ((Parser.start input options).calls n).2.machine
      ∃ gs : List Group,
        reduce m.sheet.blocks = gs.map .ok ++
          (if m.done then []
          else if m.sheet.blocks.size = 0 then [.error .missingStartOfDocument]
          else [.error .missingEndOfDocument]) ∧
        Tiles 0 (gs.map Group.extent) m.sheet.blocks.size ∧
        groupsTile 0 gs m.sheet.blocks.size = true) ∧
    ∀ (source : String) (options : Options) (e : GroupError),
      parseDocument source options ≠ .error (.groups e) := by
  constructor
  · intro input options n
    obtain ⟨xs, e, -, hrun, -⟩ := (delivers_calls input options n).exists_run
    exact Machine.reduce_of_run hrun
  · intro source options e h
    unfold parseDocument at h
    split at h
    · cases h
    · rename_i d hd
      obtain ⟨m, hrun, rfl⟩ := outline_ok hd
      obtain ⟨gs, hr, -⟩ := Machine.reduce_of_run hrun
      rw [Machine.missing, if_pos (Machine.done_of_run hrun), List.append_nil] at hr
      have hgroups : groupBlocks m.document.blocks = _ := groupBlocks_of_reduce hr
      rw [hgroups] at h
      cases h

end VhdlOutline
