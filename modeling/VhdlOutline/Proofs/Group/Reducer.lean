import VhdlOutline.Group.Reducer
import VhdlOutline.Proofs.Group.Reduce
import VhdlOutline.Proofs.Trail

/-!
# Grouping ends

A reducer follows the links of the blocks, whatever they are. The blocks it passes form a trail that
starts at a block without a link back, so that it comes to an end.

* `BlockChain.searchFrom_trail`: the search for fragments ends with the trail at the latest, and
  finds what `gather` does.
* `BlockChain.Pending` says what a reducer has still to deliver, and
  `BlockChain.Pending.exists_next` that each call delivers the first of it.
* `Reducer.calls_return` puts this together for all calls.
-/

namespace VhdlOutline

namespace BlockChain

variable {bs : BlockChain} {i j : Nat} {x : Linked Block} {path : List Nat} {broken : Option Nat}
  {kind : BlockKind} {parts : List Nat}

/-- The blocks with the given indices. -/
def select (bs : BlockChain) (path : List Nat) : List IndexedBlock :=
  path.filterMap fun i => (bs.get? i).map (i, ·)

@[simp] theorem select_nil : bs.select [] = [] := rfl

theorem select_cons (hx : bs.nodes[i]? = some x) (path : List Nat) :
    bs.select (i :: path) = (i, x.item) :: bs.select path := by
  simp [select, Chain.get?, hx]

theorem map_fst_select (h : ∀ i ∈ path, i < bs.size) : (bs.select path).map Prod.fst = path := by
  induction path with
  | nil => rfl
  | cons i path ih =>
    obtain ⟨hi, h⟩ := List.forall_mem_cons.1 h
    rw [select_cons (Array.getElem?_eq_getElem hi), List.map_cons, ih h]

/-! ## Single steps -/

theorem look_eq (hx : bs.nodes[i]? = some x) : bs.look i = pure x := by
  simp [look, hx]

theorem advance_last (hx : bs.nodes[i]? = some x) (hn : x.next = none) :
    bs.advance i = pure none := by
  simp [advance, look_eq hx, hn]

theorem advance_step (hx : bs.nodes[i]? = some x) (hn : x.next = some j)
    (hj : bs.nodes[j]?.bind Linked.previous = some i) : bs.advance i = pure (some j) := by
  simp [advance, look_eq hx, hn, hj]

theorem advance_broken (hx : bs.nodes[i]? = some x) (hn : x.next = some j)
    (hj : bs.nodes[j]?.bind Linked.previous ≠ some i) :
    bs.advance i = throw (.fault (.brokenLink j)) := by
  simp [advance, look_eq hx, hn, hj]

/-! ## The search for fragments -/

/-- What the search comes to that started with `parts` and found the fragments `g`. -/
def searched (g : Gathered) (broken : Option Nat) (parts : List Nat) :
    Walk (List Nat × Option BlockKind) :=
  match brokenAt g broken with
  | some j => throw (.fault (.brokenLink j))
  | none => pure (parts ++ g.parts, g.found)

theorem searched_cons (g : Gathered) (broken : Option Nat) (parts : List Nat) (i : Nat)
    (rest : List IndexedBlock) :
    searched ⟨i :: g.parts, rest, g.found⟩ broken parts = searched g broken (parts ++ [i]) := by
  simp [searched, brokenAt]

/-- A search ends after a block if it ends after those that follow. -/
theorem searchFrom_cons {xs : List IndexedBlock} (hx : bs.nodes[i]? = some x)
    (hxs : ∀ parts, bs.advance i >>= bs.searchFrom kind parts =
      searched (gather kind xs) broken parts) :
    bs.searchFrom kind parts (some i) =
      searched (gather kind ((i, x.item) :: xs)) broken parts := by
  rw [searchFrom, look_eq hx, pure_bind, gather]
  dsimp only
  by_cases hb : x.item.isFragment = true ∧ x.item.kind = kind
  · rw [if_pos hb, if_pos hb, hxs, searched_cons]
  rw [if_neg hb, if_neg hb]
  by_cases hs : x.item.kind.isSkippable = true
  · rw [if_pos hs, if_pos hs, hxs]
  · rw [if_neg hs, if_neg hs]
    simp [searched, brokenAt]

/-- **The search ends**, and finds what there is to find on the trail. -/
theorem searchFrom_trail {tail : List Nat} (h : bs.Trail i (i :: tail) broken) :
    bs.advance i >>= bs.searchFrom kind parts =
      searched (gather kind (bs.select tail)) broken parts := by
  induction tail generalizing i parts with
  | nil =>
    cases h with
    | last hx hn =>
      rw [advance_last hx hn, pure_bind, searchFrom]
      simp [gather, searched, brokenAt]
    | broken hx hn hj =>
      rw [advance_broken hx hn hj]
      rfl
    | step _ _ _ h => cases h
  | cons k tail ih =>
    cases h with
    | @step _ j x _ _ hx hn hj h =>
      obtain ⟨_, heq⟩ := h.exists_cons
      obtain ⟨rfl, rfl⟩ := List.cons.inj heq
      obtain ⟨y, hy, -⟩ := Option.bind_eq_some_iff.1 hj
      rw [advance_step hx hn hj, pure_bind, select_cons hy]
      exact searchFrom_cons hy fun parts => ih h

/-- A result or an error, in a walk. -/
def ofExcept {α : Type} : Except GroupError α → Walk α
  | .ok a => pure a
  | .error e => throw (.fault e)

/-- The fragments of a block are collected. -/
theorem collect_trail {tail : List Nat} (h : bs.Trail i (i :: tail) broken)
    (hx : bs.nodes[i]? = some x) :
    bs.collect i =
      ofExcept (groupOf i x.item.kind (gather x.item.kind (bs.select tail)) broken) := by
  rw [collect, look_eq hx, pure_bind]
  dsimp only
  rw [← bind_assoc, searchFrom_trail h, searched, groupOf]
  generalize gather x.item.kind (bs.select tail) = g
  cases brokenAt g broken with
  | some j => rfl
  | none =>
    simp only [pure_bind]
    cases hl : g.parts.getLast? with
    | none =>
      have hnil : g.parts = [] := by simpa using hl
      simp [hnil, ofExcept]
    | some last =>
      have hlen : ¬ ([i] ++ g.parts).length < 2 := by
        have := List.length_pos_of_mem (List.mem_of_getLast? hl)
        rw [List.length_append, List.length_singleton]
        omega
      rw [if_neg hlen]
      simp [ofExcept, List.getLastD_eq_getLast?, List.getLast?_cons, hl]

/-! ## One group after the other -/

theorem reduceFrom_of_broken {previous : Option BlockKind} {b : Block} (hb : b.isFragment = false) :
    reduceFrom (some j) previous [(i, b)] = [.error (.brokenLink j)] := by
  rw [reduceFrom, if_neg (by simp [hb])]

/-- What is left after gathering begins just after the last fragment. -/
theorem gather_split {xs : List IndexedBlock} {last : Nat}
    (h : (gather kind xs).parts.getLast? = some last) :
    ∃ pre b, xs = pre ++ (last, b) :: (gather kind xs).rest ∧ b.kind = kind ∧
      ((gather kind xs).found ≠ none → (gather kind xs).rest ≠ []) := by
  fun_induction gather kind xs with
  | case1 => cases h
  | case2 i b xs hb g ih =>
    rw [List.getLast?_cons] at h
    cases hl : g.parts.getLast? with
    | none =>
      have hnil : g.parts = [] := by simpa using hl
      obtain rfl : i = last := by simpa [hl] using h
      refine ⟨[], b, by simp [hnil], hb.2, ?_⟩
      rintro hfound hrest
      obtain rfl : xs = [] := by simpa [hnil] using hrest
      exact hfound rfl
    | some last' =>
      have hne : g.parts ≠ [] := List.ne_nil_of_mem (List.mem_of_getLast? hl)
      obtain rfl : last' = last := by simpa [hl] using h
      obtain ⟨pre, b', hxs, hk, hfound⟩ := ih hl
      simp only [List.isEmpty_iff, if_neg hne]
      exact ⟨(i, b) :: pre, b', congrArg _ hxs, hk, hfound⟩
  | case3 i b xs _ _ ih =>
    obtain ⟨pre, b', hxs, hk, hfound⟩ := ih h
    exact ⟨(i, b) :: pre, b', congrArg _ hxs, hk, hfound⟩
  | case4 => cases h

/-- The rest of a trail whose blocks have been selected. -/
theorem exists_rest {pre rest : List IndexedBlock} {b : Block} {tail : List Nat}
    (h : bs.Trail i (i :: tail) broken) (hs : bs.select tail = pre ++ (j, b) :: rest) :
    ∃ y tail', bs.nodes[j]? = some y ∧ y.item = b ∧ bs.Trail j (j :: tail') broken ∧
      rest = bs.select tail' := by
  obtain ⟨p, q, rfl, -, hq⟩ := List.filterMap_eq_append_iff.1 hs
  obtain ⟨p', k, q', rfl, -, hk, hq'⟩ := List.filterMap_eq_cons_iff.1 hq
  obtain ⟨c, hc, heq⟩ := Option.map_eq_some_iff.1 hk
  cases heq
  obtain ⟨y, hy, hitem⟩ := Option.map_eq_some_iff.1 hc
  have hpath : i :: (p ++ (p' ++ j :: q')) = i :: (p ++ p') ++ j :: q' := by simp
  exact ⟨y, q', hy, hitem, h.drop hpath, hq'.symm⟩

/-- What a reducer has still to deliver. -/
inductive Pending (bs : BlockChain) : Reducer → List (Except GroupError Group) → Prop
  | fresh : Pending bs (.fresh bs) (reduce bs)
  | ended {p : Nat} {x : Linked Block} (hx : bs.nodes[p]? = some x) :
      Pending bs (.reading bs none (some p)) (reduceFrom none (some x.item.kind) [])
  | reading {i p : Nat} {x : Linked Block} {path : List Nat} {broken : Option Nat}
      {kind : Option BlockKind} (h : bs.Trail i path broken) (hx : bs.nodes[i]? = some x)
      (hp : x.previous = some p) :
      Pending bs (.reading bs (some i) (some p)) (reduceFrom broken kind (bs.select path))
  | finished : Pending bs .finished []

theorem advance_of_broken (h : bs.Trail i [i] (some j)) :
    bs.advance i = throw (.fault (.brokenLink j)) := by
  cases h with
  | broken hx hn hj => exact advance_broken hx hn hj
  | step _ _ _ h => cases h

theorem select_ne_nil {tail : List Nat} (h : bs.Trail i (i :: tail) broken) (ht : tail ≠ []) :
    bs.select tail ≠ [] := by
  cases h with
  | last => exact absurd rfl ht
  | broken => exact absurd rfl ht
  | step _ _ hj h =>
    obtain ⟨_, rfl⟩ := h.exists_cons
    obtain ⟨y, hy, -⟩ := Option.bind_eq_some_iff.1 hj
    simp [select_cons hy]

/-- Where the reducer goes on after a block on a trail that ends rightly or goes on. -/
theorem advance_trail {tail : List Nat} (h : bs.Trail i (i :: tail) broken)
    (hx : bs.nodes[i]? = some x) (hbroken : tail ≠ [] ∨ broken = none) :
    ∃ next, bs.advance i = pure next ∧
      Pending bs (.reading bs next (some i))
        (reduceFrom broken (some x.item.kind) (bs.select tail)) := by
  cases h with
  | last hx' hn => exact ⟨none, advance_last hx' hn, .ended hx⟩
  | broken => simp at hbroken
  | step hx' hn hj h =>
    obtain ⟨y, hy, hp⟩ := Option.bind_eq_some_iff.1 hj
    exact ⟨_, advance_step hx' hn hj, .reading h hy hp⟩

/-- The group that starts with the block `i` of a trail is the first of those on the trail, or there
is none for the same reason; and what comes after it are the others. -/
def Delivers (bs : BlockChain) (i : Nat) (items : List (Except GroupError Group)) : Prop :=
  ∀ x, bs.nodes[i]? = some x →
    (∃ e, items = [.error e] ∧ bs.groupAt (some i) x.previous = throw (.fault e)) ∨
    ∃ g next rest, items = .ok g :: rest ∧
      bs.groupAt (some i) x.previous = pure (some (g, next)) ∧
      Pending bs (.reading bs next (some g.last)) rest

section GroupAt

variable {previous : Option BlockKind} {tail : List Nat}

theorem groupAt_whole (hx : bs.nodes[i]? = some x) (hb : x.item.isFragment = false) :
    bs.groupAt (some i) x.previous =
      bs.advance i >>= fun next => pure (some (⟨x.item.kind, i, i, [i]⟩, next)) := by
  simp [groupAt, look_eq hx, hb]

theorem groupAt_fragment (hx : bs.nodes[i]? = some x) (hb : x.item.isFragment = true) :
    bs.groupAt (some i) x.previous =
      bs.collect i >>= fun g => bs.advance g.last >>= fun next => pure (some (g, next)) := by
  simp [groupAt, look_eq hx, hb]

theorem delivers_whole (h : bs.Trail i (i :: tail) broken) (hx : bs.nodes[i]? = some x)
    (hb : x.item.isFragment = false) :
    bs.Delivers i (reduceFrom broken previous ((i, x.item) :: bs.select tail)) := by
  intro _ hx'
  cases hx.symm.trans hx'
  rw [groupAt_whole hx hb]
  by_cases hend : tail ≠ [] ∨ broken = none
  · obtain ⟨next, hnext, hpending⟩ := advance_trail h hx hend
    rw [hnext, reduceFrom_of_not_isFragment hb (hend.imp_left (select_ne_nil h))]
    exact .inr ⟨_, next, _, rfl, rfl, hpending⟩
  · obtain ⟨rfl, hbroken⟩ : tail = [] ∧ broken ≠ none := by simpa using hend
    obtain ⟨j, rfl⟩ := Option.ne_none_iff_exists'.1 hbroken
    rw [advance_of_broken h, select_nil, reduceFrom_of_broken hb]
    exact .inl ⟨_, rfl, rfl⟩

theorem delivers_fragment (h : bs.Trail i (i :: tail) broken) (hx : bs.nodes[i]? = some x)
    (hb : x.item.isFragment = true) :
    bs.Delivers i (reduceFrom broken previous ((i, x.item) :: bs.select tail)) := by
  intro _ hx'
  cases hx.symm.trans hx'
  rw [groupAt_fragment hx hb, collect_trail h hx, reduceFrom_of_isFragment hb]
  cases hg : groupOf i x.item.kind (gather x.item.kind (bs.select tail)) broken with
  | error e => exact .inl ⟨e, rfl, rfl⟩
  | ok g =>
    obtain ⟨last, hlast, rfl, hbroken⟩ := of_groupOf hg
    obtain ⟨pre, b, hs, hk, hfound⟩ := gather_split hlast
    obtain ⟨y, tail', hy, rfl, htrail, hrest⟩ := exists_rest h hs
    -- The search was stopped by a block, or the trail does not break off.
    have hend : tail' ≠ [] ∨ broken = none := by
      refine hbroken.imp_left fun hne ht => hfound hne ?_
      rw [hrest, ht, select_nil]
    obtain ⟨next, hnext, hpending⟩ := advance_trail htrail hy hend
    refine .inr ⟨_, next, _, rfl, ?_, ?_⟩
    · rw [ofExcept, pure_bind, hnext]
      rfl
    · rw [hrest, ← hk]
      exact hpending

theorem delivers_trail (h : bs.Trail i path broken) :
    bs.Delivers i (reduceFrom broken previous (bs.select path)) := by
  intro x hx
  obtain ⟨tail, rfl⟩ := h.exists_cons
  rw [select_cons hx]
  cases hb : x.item.isFragment with
  | false => exact delivers_whole h hx hb x hx
  | true => exact delivers_fragment h hx hb x hx

end GroupAt

/-! ## All calls -/

theorem firstGroup_of_root (hx : bs.nodes[0]? = some x) (hk : x.item.kind = .startOfDocument) :
    bs.firstGroup = bs.groupAt (some 0) none := by
  have hsize : bs.size ≠ 0 := Nat.ne_of_gt (Array.getElem?_eq_some_iff.1 hx).1
  simp [firstGroup, Chain.first?, hsize, look_eq hx, hk]

/-- How the blocks are grouped if they begin as they should. -/
theorem reduce_of_root (hx : bs.nodes[0]? = some x) (hk : x.item.kind = .startOfDocument)
    (hp : x.previous = none) :
    ∃ path broken, reduce bs = reduceFrom broken none (bs.select path) ∧
      bs.Trail 0 path broken ∧ path.Nodup ∧ (∀ i ∈ path, i < bs.size) ∧
      path.length ≤ bs.size := by
  obtain ⟨path, broken, hwalk, h⟩ := Chain.walk_of_root hx hp
  refine ⟨path, broken, ?_, h⟩
  simp only [reduce, hx, hk, hp, hwalk]
  rfl

theorem Delivers.exists_deliver {items : List (Except GroupError Group)} (h : bs.Delivers i items)
    (hx : bs.nodes[i]? = some x) :
    ∃ r, Reducer.deliver bs (bs.groupAt (some i) x.previous) =
        some (items.head?.map (Except.mapError .fault), r) ∧ Pending bs r items.tail := by
  rcases h x hx with ⟨e, rfl, hgroup⟩ | ⟨g, next, rest, rfl, hgroup, hrest⟩
  · rw [hgroup]
    exact ⟨.finished, rfl, .finished⟩
  · rw [hgroup]
    exact ⟨_, rfl, hrest⟩

/-- The first call delivers the first group, or the reason why there is none. -/
theorem exists_firstGroup :
    ∃ r, Reducer.deliver bs bs.firstGroup =
        some ((reduce bs).head?.map (Except.mapError .fault), r) ∧
      Pending bs r (reduce bs).tail := by
  cases hx : bs.nodes[0]? with
  | none =>
    have hsize : bs.size = 0 := by simpa [Chain.size] using hx
    refine ⟨.finished, ?_, ?_⟩
    · simp [firstGroup, Chain.first?, hsize, reduce, hx]
      rfl
    · simp only [reduce, hx]
      exact .finished
  | some x =>
    by_cases hk : x.item.kind = .startOfDocument
    · rw [firstGroup_of_root hx hk]
      cases hp : x.previous with
      | none =>
        obtain ⟨path, broken, hreduce, h, -⟩ := reduce_of_root hx hk hp
        rw [hreduce, ← hp]
        exact (delivers_trail h).exists_deliver hx
      | some p =>
        have hreduce : reduce bs = [.error (.brokenLink 0)] := by simp [reduce, hx, hk, hp]
        have hgroup : bs.groupAt (some 0) none = throw (.fault (.brokenLink 0)) := by
          simp [groupAt, look_eq hx, hp]
        rw [hreduce, hgroup]
        exact ⟨.finished, rfl, .finished⟩
    · have hsize : bs.size ≠ 0 := Nat.ne_of_gt (Array.getElem?_eq_some_iff.1 hx).1
      have hreduce : reduce bs = [.error .missingStartOfDocument] := by simp [reduce, hx, hk]
      have hgroup : bs.firstGroup = throw (.fault .missingStartOfDocument) := by
        simp [firstGroup, Chain.first?, hsize, look_eq hx, hk]
      rw [hreduce, hgroup]
      exact ⟨.finished, rfl, .finished⟩

/-- **Every call returns**: it delivers the first of what is pending, and leaves the others. -/
theorem Pending.exists_next {r : Reducer} {items : List (Except GroupError Group)}
    (h : bs.Pending r items) :
    ∃ r', r.next = some (items.head?.map (Except.mapError .fault), r') ∧
      bs.Pending r' items.tail := by
  cases h with
  | fresh => exact exists_firstGroup
  | @ended p x hx =>
    have hgroup : bs.groupAt none (some p) =
        if x.item.kind = .endOfDocument then pure none
        else throw (.fault .missingEndOfDocument) := by
      simp [groupAt, look_eq hx]
    rw [Reducer.next, hgroup, reduceFrom]
    by_cases hk : x.item.kind = .endOfDocument
    · rw [if_pos hk, if_pos (congrArg some hk)]
      exact ⟨.finished, rfl, .finished⟩
    · rw [if_neg hk, if_neg (by simpa using hk)]
      exact ⟨.finished, rfl, .finished⟩
  | reading h hx hp =>
    rw [Reducer.next, ← hp]
    exact (delivers_trail h).exists_deliver hx
  | finished => exact ⟨.finished, rfl, .finished⟩

theorem Pending.exists_after {r : Reducer} {items : List (Except GroupError Group)}
    (h : bs.Pending r items) (n : Nat) :
    ∃ r', r.after n = some r' ∧ bs.Pending r' (items.drop n) := by
  induction n generalizing r items with
  | zero => exact ⟨r, rfl, h⟩
  | succ n ih =>
    obtain ⟨r', hnext, h'⟩ := h.exists_next
    obtain ⟨r'', hafter, h''⟩ := ih h'
    rw [List.drop_tail] at h''
    exact ⟨r'', by rw [Reducer.after, hnext]; exact hafter, h''⟩

/-- The calls deliver the groups of the blocks, one after the other. -/
theorem answer_fresh (bs : BlockChain) (n : Nat) :
    (Reducer.fresh bs).answer n = some ((reduce bs)[n]?.map (Except.mapError .fault)) := by
  have hfresh : bs.Pending (.fresh bs) (reduce bs) := .fresh
  obtain ⟨r, hafter, h⟩ := hfresh.exists_after n
  obtain ⟨r', hnext, -⟩ := h.exists_next
  rw [Reducer.answer, hafter, Option.bind_some, hnext, Option.map_some, List.head?_drop]

/-- The fragments of the block that comes next are collected, whatever follows. -/
theorem exists_collect (bs : BlockChain) {n : Nat} {previous : Option Nat}
    (h : (Reducer.fresh bs).after n = some (.reading bs (some i) previous)) :
    ∃ x, bs.collect i = ofExcept x := by
  have hfresh : bs.Pending (.fresh bs) (reduce bs) := .fresh
  obtain ⟨r, hafter, hr⟩ := hfresh.exists_after n
  obtain rfl := Option.some.inj (hafter.symm.trans h)
  generalize (reduce bs).drop n = items at hr
  cases hr with
  | reading htrail hx hp =>
    obtain ⟨tail, rfl⟩ := htrail.exists_cons
    exact ⟨_, collect_trail htrail hx⟩

end BlockChain

/-! ## The parts of the groups -/

theorem gather_sublist (kind : BlockKind) (xs : List IndexedBlock) :
    ((gather kind xs).parts ++ ((gather kind xs).remaining xs).map Prod.fst).Sublist
      (xs.map Prod.fst) := by
  fun_induction gather kind xs with
  | case1 => simp [Gathered.remaining]
  | case2 i b xs hb g ih => exact ih.cons_cons i
  | case3 i b xs _ _ ih =>
    unfold Gathered.remaining at ih ⊢
    split
    · rename_i hnil
      rw [List.isEmpty_iff.1 hnil]
      exact List.Sublist.refl _
    · rename_i hne
      rw [if_neg hne] at ih
      exact ih.cons i
  | case4 => simp [Gathered.remaining]

/-- The items are groups, the parts of which come one after the other in `path`, and an error may
end them. -/
def GroupsAlong (path : List Nat) (items : List (Except GroupError Group)) : Prop :=
  ∃ (gs : List Group) (e : Option GroupError), items = gs.map .ok ++ e.toList.map .error ∧
    (gs.flatMap Group.parts).Sublist path ∧
    ∀ g ∈ gs, g.parts.head? = some g.first ∧ g.parts.getLast? = some g.last

namespace GroupsAlong

variable {path rest : List Nat} {items : List (Except GroupError Group)}

theorem nil (path : List Nat) : GroupsAlong path [] := ⟨[], none, rfl, by simp, by simp⟩

theorem error (path : List Nat) (e : GroupError) : GroupsAlong path [.error e] :=
  ⟨[], some e, rfl, by simp, by simp⟩

theorem cons {g : Group} (hfirst : g.parts.head? = some g.first)
    (hlast : g.parts.getLast? = some g.last) (hpath : (g.parts ++ rest).Sublist path)
    (h : GroupsAlong rest items) : GroupsAlong path (.ok g :: items) := by
  obtain ⟨gs, e, rfl, hparts, hgs⟩ := h
  refine ⟨g :: gs, e, rfl, ?_, List.forall_mem_cons.2 ⟨⟨hfirst, hlast⟩, hgs⟩⟩
  exact ((List.Sublist.refl g.parts).append hparts).trans hpath

end GroupsAlong

theorem reduceFrom_groupsAlong (broken : Option Nat) (previous : Option BlockKind)
    (xs : List IndexedBlock) :
    GroupsAlong (xs.map Prod.fst) (reduceFrom broken previous xs) := by
  fun_induction reduceFrom broken previous xs with
  | case1 => exact .nil _
  | case2 => exact .error _ _
  | case3 => exact .error _ _
  | case4 => exact .error _ _
  | case5 previous i b xs hb g last hlast _ ih =>
    have hne : g.parts ≠ [] := List.ne_nil_of_mem (List.mem_of_getLast? hlast)
    have hsub := gather_sublist b.kind xs
    rw [Gathered.remaining, if_neg (by simpa using hne)] at hsub
    exact .cons rfl (by simp [List.getLast?_cons, hlast]) (hsub.cons_cons i) ih
  | case6 => exact .error _ _
  | case7 previous i b hb xs _ ih => exact .cons rfl rfl (List.Sublist.refl _) ih

/-- The groups of any blocks. -/
theorem reduce_groupsAlong (bs : BlockChain) :
    ∃ path, path.Nodup ∧ (∀ i ∈ path, i < bs.size) ∧ path.length ≤ bs.size ∧
      GroupsAlong path (reduce bs) := by
  have hnone (e : GroupError) (h : reduce bs = [.error e]) :
      ∃ path, path.Nodup ∧ (∀ i ∈ path, i < bs.size) ∧ path.length ≤ bs.size ∧
        GroupsAlong path (reduce bs) :=
    ⟨[], by simp, by simp, by simp, h ▸ .error [] e⟩
  cases hx : bs.nodes[0]? with
  | none => exact hnone .missingStartOfDocument (by simp [reduce, hx])
  | some x =>
    by_cases hk : x.item.kind = .startOfDocument
    · cases hp : x.previous with
      | none =>
        obtain ⟨path, broken, hreduce, -, hnodup, hlt, hlen⟩ :=
          BlockChain.reduce_of_root hx hk hp
        have hgroups := reduceFrom_groupsAlong broken none (bs.select path)
        rw [BlockChain.map_fst_select hlt, ← hreduce] at hgroups
        exact ⟨path, hnodup, hlt, hlen, hgroups⟩
      | some p => exact hnone (.brokenLink 0) (by simp [reduce, hx, hk, hp])
    · exact hnone .missingStartOfDocument (by simp [reduce, hx, hk])

theorem length_le_flatMap_parts {gs : List Group} (h : ∀ g ∈ gs, g.parts ≠ []) :
    gs.length ≤ (gs.flatMap Group.parts).length := by
  induction gs with
  | nil => simp
  | cons g gs ih =>
    obtain ⟨hg, h⟩ := List.forall_mem_cons.1 h
    have := List.length_pos_of_ne_nil hg
    have := ih h
    rw [List.flatMap_cons, List.length_append, List.length_cons]
    omega

/-- **Grouping ends for all links.** Whatever the links of the blocks, every call of a reducer
returns, and the calls deliver the items of `reduce` one after the other and then nothing more:
first groups, at most as many as there are blocks, and then an error perhaps. No block is looked at
that does not exist, and no block is a part of two groups or of one group twice. The search for
the fragments of a block that the reducer has come to returns too. -/
theorem Reducer.calls_return (bs : BlockChain) :
    (∀ n, (fresh bs).answer n = some ((reduce bs)[n]?.map (Except.mapError .fault))) ∧
    (∃ (gs : List Group) (e : Option GroupError),
      reduce bs = gs.map .ok ++ e.toList.map .error ∧ gs.length ≤ bs.size ∧
      (gs.flatMap Group.parts).Nodup ∧
      ∀ g ∈ gs, (∀ i ∈ g.parts, i < bs.size) ∧ g.first ∈ g.parts ∧ g.last ∈ g.parts) ∧
    ∀ n i previous, (fresh bs).after n = some (reading bs (some i) previous) →
      (∃ g, bs.collect i = pure g) ∨ ∃ e : GroupError, bs.collect i = throw (.fault e) := by
  refine ⟨BlockChain.answer_fresh bs, ?_, fun n i previous h => ?_⟩
  · -- All parts of all groups stand on one path.
    obtain ⟨path, hnodup, hlt, hlen, gs, e, hreduce, hparts, hgs⟩ := reduce_groupsAlong bs
    refine ⟨gs, e, hreduce, ?_, hnodup.sublist hparts, fun g hg => ⟨fun i hi => ?_, ?_, ?_⟩⟩
    · refine (length_le_flatMap_parts fun g hg => ?_).trans (hparts.length_le.trans hlen)
      exact List.ne_nil_of_mem (List.mem_of_head? (hgs g hg).1)
    · exact hlt i (hparts.subset (List.mem_flatMap_of_mem hg hi))
    · exact List.mem_of_head? (hgs g hg).1
    · exact List.mem_of_getLast? (hgs g hg).2
  · obtain ⟨x, hx⟩ := BlockChain.exists_collect bs h
    cases x with
    | ok g => exact .inl ⟨g, hx⟩
    | error e => exact .inr ⟨e, hx⟩

end VhdlOutline
