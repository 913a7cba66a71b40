import Mathlib.Data.List.Perm.Subperm
import Mathlib.Data.List.Range
import VhdlOutline.Proofs.Chain

/-!
# Following links that may be wrong

A chain whose links are arbitrary may lead nowhere or in circles. A walk is safe all the same if it
starts at an element without a link back, and goes on only where the next element links back: each
element passed is then one step further from the start along the links back (`Chain.Rooted`), and
the number of steps is determined by the element.

* `Chain.Trail` relates an element to the elements that such a walk passes from it on.
* `Chain.Rooted.exists_trail`: the walk comes to an end.
* `Chain.Trail.nodup`: it passes no element twice.
* `Chain.walk_of_root`: what `Chain.walk` lists.
-/

namespace VhdlOutline

namespace Chain

variable {α : Type} {c : Chain α} {i j m n : Nat} {x : Linked α} {path : List Nat}
  {broken : Option Nat}

/-! ## The way back -/

/-- Distinct elements of a chain are not more than there are. -/
theorem length_le_size {l : List Nat} (hnodup : l.Nodup) (h : ∀ i ∈ l, i < c.size) :
    l.length ≤ c.size := by
  have hsub : l ⊆ List.range c.size := fun i hi => List.mem_range.2 (h i hi)
  simpa using (hnodup.subperm hsub).length_le

/-- The links back from the element lead in `n` steps to one without a link back. -/
inductive Rooted (c : Chain α) : Nat → Nat → Prop
  | root {i : Nat} {x : Linked α} (hx : c.nodes[i]? = some x) (hp : x.previous = none) :
      Rooted c i 0
  | step {i j n : Nat} {x : Linked α} (hx : c.nodes[j]? = some x) (hp : x.previous = some i)
      (h : Rooted c i n) : Rooted c j (n + 1)

namespace Rooted

theorem unique (h : c.Rooted i n) (h' : c.Rooted i m) : n = m := by
  induction h generalizing m with
  | root hx hp =>
    cases h' with
    | root => rfl
    | step hx' hp' =>
      rw [hx] at hx'
      cases hx'
      rw [hp] at hp'
      cases hp'
  | step hx hp _ ih =>
    cases h' with
    | root hx' hp' =>
      rw [hx] at hx'
      cases hx'
      rw [hp] at hp'
      cases hp'
    | step hx' hp' h' =>
      rw [hx] at hx'
      cases hx'
      rw [hp] at hp'
      cases hp'
      rw [ih h']

theorem index_lt (h : c.Rooted i n) : i < c.size := by
  cases h with
  | root hx => exact (Array.getElem?_eq_some_iff.1 hx).1
  | step hx => exact (Array.getElem?_eq_some_iff.1 hx).1

/-- The elements on the way back. No two of them are the same number of steps away. -/
theorem exists_way (h : c.Rooted i n) :
    ∃ way : List Nat, way.length = n + 1 ∧ way.Nodup ∧ ∀ j ∈ way, ∃ m ≤ n, c.Rooted j m := by
  induction h with
  | @root i x hx hp => exact ⟨[i], rfl, by simp, by simpa using Rooted.root hx hp⟩
  | @step i j n x hx hp h ih =>
    obtain ⟨way, hlen, hnodup, hway⟩ := ih
    refine ⟨j :: way, by simp [hlen], List.nodup_cons.2 ⟨fun hj => ?_, hnodup⟩, ?_⟩
    · obtain ⟨m, hm, hj⟩ := hway j hj
      have := hj.unique (step hx hp h)
      omega
    · refine List.forall_mem_cons.2 ⟨⟨n + 1, Nat.le_refl _, step hx hp h⟩, fun k hk => ?_⟩
      obtain ⟨m, hm, hk⟩ := hway k hk
      exact ⟨m, by omega, hk⟩

/-- The way back is shorter than the chain. -/
theorem lt_size (h : c.Rooted i n) : n < c.size := by
  obtain ⟨way, hlen, hnodup, hway⟩ := h.exists_way
  have := length_le_size hnodup fun j hj => (hway j hj).elim fun _ hm => hm.2.index_lt
  omega

end Rooted

/-! ## The way on -/

/-- The links from the element `i` on lead along `path`, where each element links back to the one
before. They end there, or break off at an element `broken` that does not link back. -/
inductive Trail (c : Chain α) : Nat → List Nat → Option Nat → Prop
  | last {i : Nat} {x : Linked α} (hx : c.nodes[i]? = some x) (hn : x.next = none) :
      Trail c i [i] none
  | broken {i j : Nat} {x : Linked α} (hx : c.nodes[i]? = some x) (hn : x.next = some j)
      (hj : c.nodes[j]?.bind Linked.previous ≠ some i) : Trail c i [i] (some j)
  | step {i j : Nat} {x : Linked α} {path : List Nat} {broken : Option Nat}
      (hx : c.nodes[i]? = some x) (hn : x.next = some j)
      (hj : c.nodes[j]?.bind Linked.previous = some i) (h : Trail c j path broken) :
      Trail c i (i :: path) broken

theorem Rooted.next (h : c.Rooted i n) (hj : c.nodes[j]?.bind Linked.previous = some i) :
    c.Rooted j (n + 1) := by
  obtain ⟨x, hx, hp⟩ := Option.bind_eq_some_iff.1 hj
  exact .step hx hp h

/-- **The walk comes to an end**: each step leads further from the start. -/
theorem Rooted.exists_trail (h : c.Rooted i n) : ∃ path broken, c.Trail i path broken := by
  induction hd : c.size - n using Nat.strong_induction_on generalizing i n with
  | _ d ih =>
    obtain ⟨x, hx⟩ : ∃ x, c.nodes[i]? = some x := ⟨_, Array.getElem?_eq_getElem h.index_lt⟩
    cases hn : x.next with
    | none => exact ⟨_, _, .last hx hn⟩
    | some j =>
      by_cases hj : c.nodes[j]?.bind Linked.previous = some i
      · have hlt := h.lt_size
        obtain ⟨path, broken, htrail⟩ := ih _ (by omega) (h.next hj) rfl
        exact ⟨_, _, .step hx hn hj htrail⟩
      · exact ⟨_, _, .broken hx hn hj⟩

namespace Trail

/-- The elements passed are further from the start than the first. -/
theorem rooted (h : c.Trail i path broken) (hi : c.Rooted i n) :
    ∀ j ∈ path, ∃ m, n ≤ m ∧ c.Rooted j m := by
  induction h generalizing n with
  | last => simpa using ⟨n, Nat.le_refl n, hi⟩
  | broken => simpa using ⟨n, Nat.le_refl n, hi⟩
  | step hx hn hj _ ih =>
    refine List.forall_mem_cons.2 ⟨⟨n, Nat.le_refl n, hi⟩, fun k hk => ?_⟩
    obtain ⟨m, hm, hk⟩ := ih (hi.next hj) k hk
    exact ⟨m, by omega, hk⟩

/-- **No element is passed twice.** -/
theorem nodup (h : c.Trail i path broken) (hi : c.Rooted i n) : path.Nodup := by
  induction h generalizing n with
  | last => simp
  | broken => simp
  | @step i j x path broken hx hn hj h ih =>
    refine List.nodup_cons.2 ⟨fun hmem => ?_, ih (hi.next hj)⟩
    obtain ⟨m, hm, hi'⟩ := h.rooted (hi.next hj) i hmem
    have := hi.unique hi'
    omega

theorem index_lt (h : c.Trail i path broken) (hi : c.Rooted i n) : ∀ j ∈ path, j < c.size :=
  fun j hj => (h.rooted hi j hj).elim fun _ hm => hm.2.index_lt

theorem exists_cons (h : c.Trail i path broken) : ∃ tail, path = i :: tail := by
  cases h <;> exact ⟨_, rfl⟩

/-- With enough steps allowed the walk passes the trail and nothing else. -/
theorem walkFrom {fuel : Nat} (h : c.Trail i path broken) (hf : path.length ≤ fuel) :
    c.walkFrom fuel i = (path, broken) := by
  induction h generalizing fuel with
  | last hx hn =>
    obtain ⟨fuel, rfl⟩ := Nat.exists_eq_add_of_le' hf
    simp [Chain.walkFrom, hx, hn]
  | broken hx hn hj =>
    obtain ⟨fuel, rfl⟩ := Nat.exists_eq_add_of_le' hf
    simp [Chain.walkFrom, hx, hn, hj]
  | step hx hn hj _ ih =>
    obtain ⟨fuel, rfl⟩ := Nat.exists_eq_add_of_le' hf
    rw [List.length_cons, ← Nat.add_assoc, Chain.walkFrom]
    simp [hx, hn, hj, ih (Nat.le_add_left _ _)]

/-- What is left of a trail is one. -/
theorem drop {pre rest : List Nat} (h : c.Trail i path broken) (hpath : path = pre ++ j :: rest) :
    c.Trail j (j :: rest) broken := by
  induction pre generalizing i path with
  | nil =>
    obtain ⟨tail, rfl⟩ := h.exists_cons
    cases hpath
    exact h
  | cons k pre ih =>
    cases h with
    | last => simp at hpath
    | broken => simp at hpath
    | step _ _ _ h => exact ih h (List.cons.inj hpath).2

end Trail

/-- From an element without a link back the walk passes a trail. -/
theorem walk_of_root (hx : c.nodes[0]? = some x) (hp : x.previous = none) :
    ∃ path broken, c.walk = (path, broken) ∧ c.Trail 0 path broken ∧ path.Nodup ∧
      (∀ i ∈ path, i < c.size) ∧ path.length ≤ c.size := by
  have hroot : c.Rooted 0 0 := .root hx hp
  obtain ⟨path, broken, h⟩ := hroot.exists_trail
  have hlt := h.index_lt hroot
  have hlen := length_le_size (h.nodup hroot) hlt
  refine ⟨path, broken, ?_, h, h.nodup hroot, hlt, hlen⟩
  rw [walk, if_neg (Nat.ne_of_gt hroot.lt_size), h.walkFrom hlen]

end Chain

end VhdlOutline
