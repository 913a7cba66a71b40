import VhdlOutline.Chain
import VhdlOutline.Token.Basic

/-!
# What chains hold

The elements and links of a chain after appending several elements and after changing the last one,
and the walk along right links: it passes every element in the order of the array
(`Chain.walk_of_isLinked`). Chains with right links are the same if their elements are
(`Chain.eq_of_isLinked`).
-/

namespace VhdlOutline

namespace Chain

variable {α : Type}

theorem get?_eq (c : Chain α) (i : Nat) : c.get? i = c.toList[i]? := by
  simp [get?, toList]

theorem isLinked_empty : (empty : Chain α).isLinked = true := rfl

@[simp] theorem toList_append (c : Chain α) (as : List α) :
    (c.append as).toList = c.toList ++ as := by
  induction as generalizing c with
  | nil => simp [append]
  | cons a as ih =>
    have h := ih (c.push a)
    simpa [append] using h

theorem isLinked_append {c : Chain α} (h : c.isLinked = true) (as : List α) :
    (c.append as).isLinked = true := by
  induction as generalizing c with
  | nil => exact h
  | cons a as ih => exact ih (isLinked_push h a)

theorem ofNodes_eq (xs : List (Linked α)) : ofNodes xs = ofList (xs.map Linked.item) := by
  have hpush : pushNode = fun (c : Chain α) (x : Linked α) => c.push x.item :=
    funext fun c => funext fun x => pushNode_eq c x
  rw [ofNodes, hpush, ofList, append, List.foldl_map]

theorem isLinked_ofNodes (xs : List (Linked α)) : (ofNodes xs).isLinked = true :=
  ofNodes_eq xs ▸ isLinked_append isLinked_empty _

theorem toList_ofNodes (xs : List (Linked α)) : (ofNodes xs).toList = xs.map Linked.item := by
  simp [ofNodes_eq, ofList]

@[simp] theorem size_modifyLast (c : Chain α) (f : α → α) : (c.modifyLast f).size = c.size := by
  simp [modifyLast, size]

theorem toList_modifyLast {c : Chain α} {as : List α} {a : α} (h : c.toList = as ++ [a])
    (f : α → α) : (c.modifyLast f).toList = as ++ [f a] := by
  have hn : c.nodes.size = as.length + 1 := by
    have := congrArg List.length h
    simpa [size] using this
  have hm : c.nodes.toList.map Linked.item = as ++ [a] := h
  apply List.ext_getElem?
  intro i
  have hi := congrArg (·[i]?) hm
  simp only [List.getElem?_map, Array.getElem?_toList] at hi
  simp only [modifyLast, toList, List.getElem?_map, Array.getElem?_toList, Array.getElem?_modify]
  by_cases hl : i = as.length
  · subst hl
    simp only [hn, Nat.add_sub_cancel, if_true, Option.map_map]
    have : (c.nodes[as.length]?.map Linked.item).map f = some (f a) := by simp [hi]
    simpa [Function.comp_def] using this
  · rw [if_neg (by omega), hi]
    by_cases hlt : i < as.length
    · rw [List.getElem?_append_left hlt, List.getElem?_append_left hlt]
    · rw [List.getElem?_eq_none (by simp; omega), List.getElem?_eq_none (by simp; omega)]

theorem isLinked_modifyLast {c : Chain α} (h : c.isLinked = true) (f : α → α) :
    (c.modifyLast f).isLinked = true := by
  rw [isLinked_iff] at h ⊢
  intro i x hx
  simp only [modifyLast, Array.getElem?_modify, size, Array.size_modify] at hx h ⊢
  split at hx
  · obtain ⟨y, hy, rfl⟩ := Option.map_eq_some_iff.1 hx
    exact h i y hy
  · exact h i x hx

/-- Right links leave no choice: a linked chain is known by its elements. -/
theorem eq_of_isLinked {c c' : Chain α} (h : c.isLinked = true) (h' : c'.isLinked = true)
    (hl : c.toList = c'.toList) : c = c' := by
  rw [isLinked_iff] at h h'
  have hsize : c.nodes.size = c'.nodes.size := by
    have := congrArg List.length hl
    simpa [size] using this
  obtain ⟨nodes⟩ := c
  obtain ⟨nodes'⟩ := c'
  congr 1
  refine Array.ext hsize fun i hi hi' => ?_
  obtain ⟨hp, hn⟩ := h i _ (Array.getElem?_eq_getElem hi)
  obtain ⟨hp', hn'⟩ := h' i _ (Array.getElem?_eq_getElem hi')
  have hitem : nodes[i].item = nodes'[i].item := by
    have := congrArg (·[i]?) hl
    simpa [toList, hi, hi'] using this
  have hsame : Chain.size ⟨nodes⟩ = Chain.size ⟨nodes'⟩ := hsize
  rw [hsame] at hn
  generalize nodes[i] = x at *
  generalize nodes'[i] = y at *
  obtain ⟨item, previous, next⟩ := x
  obtain ⟨item', previous', next'⟩ := y
  simp_all

/-! ## Walking along right links -/

/-- Along right links a walk passes the elements from `i` on in their order. -/
theorem walkFrom_of_isLinked {c : Chain α} (h : c.isLinked = true) {fuel i : Nat}
    (hi : i < c.size) (hf : c.size ≤ fuel + i) :
    c.walkFrom fuel i = (List.range' i (c.size - i), none) := by
  rw [isLinked_iff] at h
  induction fuel generalizing i with
  | zero => omega
  | succ fuel ih =>
    have hx : c.nodes[i]? = some c.nodes[i] := Array.getElem?_eq_getElem hi
    obtain ⟨-, hn⟩ := h i _ hx
    rw [walkFrom, hx, Option.bind_some, hn]
    by_cases hl : i + 1 = c.size
    · rw [indexAfter, if_pos hl, show c.size - i = 1 by omega]
      rfl
    · have hj : i + 1 < c.size := by omega
      have hy : c.nodes[i + 1]? = some c.nodes[i + 1] := Array.getElem?_eq_getElem hj
      obtain ⟨hp, -⟩ := h (i + 1) _ hy
      simp only [indexAfter, if_neg hl, hy, Option.bind_some, hp, indexBefore]
      rw [if_pos (by simp), ih hj (by omega), show c.size - i = (c.size - (i + 1)) + 1 by omega,
        List.range'_succ]

/-- Along right links the walk passes all elements in their order. -/
theorem walk_of_isLinked {c : Chain α} (h : c.isLinked = true) :
    c.walk = (List.range c.size, none) := by
  unfold walk
  split
  · simp [*]
  · rw [walkFrom_of_isLinked h (by omega) (by omega), List.range_eq_range', Nat.sub_zero]

end Chain

theorem TokenChain.range_eq (ts : TokenChain) (i j : Nat) :
    ts.range i j = (ts.toList.take (j + 1)).drop i := by
  simp [TokenChain.range, Chain.toList, List.map_drop, List.map_take, List.drop_take]

end VhdlOutline
