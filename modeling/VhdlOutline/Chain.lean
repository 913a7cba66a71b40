/-!
# Linked sequences

A sequence whose elements are kept in an array and carry links to their neighbours. Tokens, blocks
and groups are kept this way. Appending keeps the links right; a chain built from given links may
have any.

* `Chain.push` appends an element and links it to its predecessor, `Chain.pushNode` one that comes
  with links of its own.
* `Chain.isLinked` checks that every link leads to the neighbour in the array.
* `Chain.walk` follows the links from the first element on.
-/

namespace VhdlOutline

/-- An element with links to its neighbours. -/
structure Linked (α : Type) where
  item : α
  previous : Option Nat
  next : Option Nat
  deriving DecidableEq

/-- A sequence of linked elements. -/
structure Chain (α : Type) where
  nodes : Array (Linked α)
  deriving DecidableEq

namespace Chain

variable {α : Type}

/-- The chain without elements. -/
def empty : Chain α := ⟨#[]⟩

/-- The number of elements. -/
def size (c : Chain α) : Nat := c.nodes.size

/-- The elements in the order of the array. -/
def toList (c : Chain α) : List α := c.nodes.toList.map Linked.item

/-- An element by its index. -/
def get? (c : Chain α) (i : Nat) : Option α := c.nodes[i]?.map Linked.item

/-- The index before `i`. -/
def indexBefore (i : Nat) : Option Nat := if i = 0 then none else some (i - 1)

/-- The index after `i` in a chain of `n` elements. -/
def indexAfter (n i : Nat) : Option Nat := if i + 1 = n then none else some (i + 1)

/-- The index of the first element. -/
def first? (c : Chain α) : Option Nat := if c.size = 0 then none else some 0

/-- The index of the last element. -/
def last? (c : Chain α) : Option Nat := indexBefore c.size

/-- Append an element: it links back to the last one, which links on to it. -/
def push (c : Chain α) (a : α) : Chain α :=
  let n := c.nodes.size
  ⟨(c.nodes.modify (n - 1) fun x => { x with next := some n }).push ⟨a, indexBefore n, none⟩⟩

/-- Append an element that comes with links. They are replaced. -/
def pushNode (c : Chain α) (x : Linked α) : Chain α :=
  let n := c.nodes.size
  match c.nodes.back? with
  | some _ => ⟨(c.nodes.modify (n - 1) fun y => { y with next := some n }).push
      { x with previous := some (n - 1), next := none }⟩
  | none => ⟨c.nodes.push { x with previous := none, next := none }⟩

/-- Append several elements. -/
def append (c : Chain α) (as : List α) : Chain α := as.foldl push c

/-- A chain of the given elements. -/
def ofList (as : List α) : Chain α := empty.append as

/-- The chain that results when elements with links are appended in turn. -/
def ofNodes (xs : List (Linked α)) : Chain α := xs.foldl pushNode empty

/-- Change the element at index `i`, keeping its links. -/
def modify (c : Chain α) (i : Nat) (f : α → α) : Chain α :=
  ⟨c.nodes.modify i fun x => { x with item := f x.item }⟩

/-- Change the last element, keeping its links. -/
def modifyLast (c : Chain α) (f : α → α) : Chain α :=
  ⟨c.nodes.modify (c.nodes.size - 1) fun x => { x with item := f x.item }⟩

/-- Whether every element links to its neighbours in the array, and to nothing else. -/
def isLinked (c : Chain α) : Bool :=
  c.nodes.toList.zipIdx.all fun (x, i) =>
    x.previous == indexBefore i && x.next == indexAfter c.nodes.size i

/-- Follow the links from element `i` on, for at most `fuel` steps. The result lists the elements
passed, and the index at which the walk broke off because what stands there does not link back. -/
def walkFrom (c : Chain α) : (fuel i : Nat) → List Nat × Option Nat
  | 0, i => ([i], none)
  | fuel + 1, i =>
    match c.nodes[i]?.bind Linked.next with
    | none => ([i], none)
    | some j =>
      if c.nodes[j]?.bind Linked.previous = some i then
        let (path, broken) := c.walkFrom fuel j
        (i :: path, broken)
      else ([i], some j)

/-- Follow the links from the first element on. A walk that passes no element twice is over after as
many steps as there are elements. -/
def walk (c : Chain α) : List Nat × Option Nat :=
  if c.size = 0 then ([], none) else c.walkFrom c.size 0

/-- Follow the links back from element `i`, for at most `fuel` steps. -/
def walkBackFrom (c : Chain α) : (fuel i : Nat) → List Nat
  | 0, i => [i]
  | fuel + 1, i =>
    match c.nodes[i]?.bind Linked.previous with
    | none => [i]
    | some j => i :: c.walkBackFrom fuel j

/-- Follow the links back from the last element. -/
def walkBack (c : Chain α) : List Nat :=
  match c.last? with
  | none => []
  | some i => c.walkBackFrom c.size i

/-! ## What appending does -/

@[simp] theorem toList_empty : (empty : Chain α).toList = [] := rfl

@[simp] theorem length_toList (c : Chain α) : c.toList.length = c.size := by
  simp [toList, size]

@[simp] theorem size_push (c : Chain α) (a : α) : (c.push a).size = c.size + 1 := by
  simp [push, size]

@[simp] theorem toList_push (c : Chain α) (a : α) : (c.push a).toList = c.toList ++ [a] := by
  apply List.ext_getElem?
  intro i
  simp only [push, toList, List.getElem?_map, Array.getElem?_toList, Array.getElem?_push,
    Array.getElem?_modify, Array.size_modify, List.getElem?_append, List.length_map,
    Array.length_toList]
  grind

/-- The links that an element comes with do not matter. -/
theorem pushNode_eq (c : Chain α) (x : Linked α) : c.pushNode x = c.push x.item := by
  rcases Nat.eq_zero_or_pos c.nodes.size with h | h
  · have hnodes : c.nodes = #[] := Array.eq_empty_of_size_eq_zero h
    simp [pushNode, push, hnodes, indexBefore]
  · have hback : c.nodes.back? = some c.nodes[c.nodes.size - 1] := by simp [Array.back?]
    simp [pushNode, push, hback, indexBefore, Nat.ne_of_gt h]

theorem isLinked_iff (c : Chain α) :
    c.isLinked = true ↔ ∀ (i : Nat) (x : Linked α), c.nodes[i]? = some x →
      x.previous = indexBefore i ∧ x.next = indexAfter c.size i := by
  simp only [isLinked, List.all_eq_true, Bool.and_eq_true, beq_iff_eq, Prod.forall,
    List.mem_zipIdx_iff_getElem?, Array.getElem?_toList, size]
  exact ⟨fun h i x hx => h x i hx, fun h x i hx => h i x hx⟩

/-- Appending keeps the links right. -/
theorem isLinked_push {c : Chain α} (h : c.isLinked = true) (a : α) :
    (c.push a).isLinked = true := by
  rw [isLinked_iff] at h ⊢
  intro i x hx
  simp only [size, push, Array.size_push, Array.size_modify, Array.getElem?_push,
    Array.getElem?_modify] at hx h ⊢
  split at hx
  · cases hx
    simp_all [indexAfter]
  · obtain ⟨y, hy⟩ : ∃ y, c.nodes[i]? = some y := by grind
    have := h i y hy
    have hi := (Array.getElem?_eq_some_iff.1 hy).1
    grind [indexAfter]

end Chain

end VhdlOutline
