import VhdlOutline.Group.Basic

/-!
# Grouping blocks

Blocks are visited along their links. A fragment is grouped with the fragments of the same kind
after it, up to the first block that is neither one of them nor blank; the blanks after the last
fragment are left for the groups that follow.

* `reduce` lists the groups of a block chain, with the error that ends the list if there is one.
* `groupBlocks` is the chain of groups, or the error.
-/

namespace VhdlOutline

/-- A block with its index. -/
abbrev IndexedBlock := Nat × Block

/-- What follows a fragment. -/
structure Gathered where
  /-- The indices of the further fragments. -/
  parts : List Nat
  /-- The blocks after the last of them. -/
  rest : List IndexedBlock
  /-- The kind of the block that ended the search. -/
  found : Option BlockKind
  deriving DecidableEq

/-- Gather the fragments of the given kind. -/
def gather (kind : BlockKind) : List IndexedBlock → Gathered
  | [] => ⟨[], [], none⟩
  | (i, b) :: xs =>
    if b.isFragment ∧ b.kind = kind then
      let g := gather kind xs
      ⟨i :: g.parts, if g.parts.isEmpty then xs else g.rest, g.found⟩
    else if b.kind.isSkippable then gather kind xs
    else ⟨[], [], some b.kind⟩

theorem length_rest_gather_le (kind : BlockKind) (xs : List IndexedBlock) :
    (gather kind xs).rest.length ≤ xs.length := by
  fun_induction gather kind xs with
  | case1 => simp
  | case2 i b xs _ g ih =>
    simp only [List.length_cons]
    split
    · omega
    · exact Nat.le_succ_of_le ih
  | case3 i b xs _ _ ih => exact Nat.le_succ_of_le ih
  | case4 => simp

/-- The groups of the blocks `xs`, which follow a block of the kind `previous`. The walk along the
links ended after them, or broke off at the index `broken`. A group is known only once the link
after it has been followed. -/
def reduceFrom (broken : Option Nat) (previous : Option BlockKind) (xs : List IndexedBlock) :
    List (Except GroupError Group) :=
  match xs with
  | [] => if previous = some .endOfDocument then [] else [.error .missingEndOfDocument]
  | (i, b) :: xs =>
    if b.isFragment then
      let g := gather b.kind xs
      match g.found, broken with
      | none, some j => [.error (.brokenLink j)]
      | _, _ =>
        match g.parts.getLast? with
        | none => [.error (.lonelyFragment b.kind i g.found)]
        | some last =>
          .ok ⟨b.kind, i, last, i :: g.parts⟩ :: reduceFrom broken (some b.kind) g.rest
    else
      match xs, broken with
      | [], some j => [.error (.brokenLink j)]
      | xs, _ => .ok ⟨b.kind, i, i, [i]⟩ :: reduceFrom broken (some b.kind) xs
termination_by xs.length
decreasing_by
  · exact Nat.lt_succ_of_le (length_rest_gather_le b.kind xs)
  · simp

/-- The groups of a block chain. -/
def reduce (bs : BlockChain) : List (Except GroupError Group) :=
  match bs.nodes[0]? with
  | none => [.error .missingStartOfDocument]
  | some x =>
    if x.item.kind ≠ .startOfDocument then [.error .missingStartOfDocument]
    else if x.previous.isSome then [.error (.brokenLink 0)]
    else
      let (path, broken) := bs.walk
      reduceFrom broken none (path.filterMap fun i => (bs.get? i).map (i, ·))

/-- The groups of a block chain as a chain, or the error. -/
def groupBlocks (bs : BlockChain) : Except GroupError GroupChain :=
  (reduce bs).foldlM (fun gs g => g.map gs.push) Chain.empty

end VhdlOutline
