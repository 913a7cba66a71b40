import VhdlOutline.Diagnostic
import VhdlOutline.Document

/-!
# Groups

A group is a whole block again: a block that is not split, or all fragments of one that is, with the
blanks and comments between them.
-/

namespace VhdlOutline

/-- A block, or all fragments of a split one. -/
structure Group where
  kind : BlockKind
  /-- The index of the first block. -/
  first : Nat
  /-- The index of the last block. -/
  last : Nat
  /-- The indices of the fragments, in order. -/
  parts : List Nat
  deriving DecidableEq

/-- Whether the group has several fragments. -/
def Group.isSplit (g : Group) : Bool := 1 < g.parts.length

/-- A linked sequence of groups. -/
abbrev GroupChain := Chain Group

/-- Whether the groups in turn start at block `lo` and where the one before ended, and end before
block `hi`; and the parts of each start and end with it. -/
def groupsTile (lo : Nat) (gs : List Group) (hi : Nat) : Bool :=
  match gs with
  | [] => lo == hi
  | g :: gs =>
    g.first == lo && g.parts.head? == some g.first && g.parts.getLast? == some g.last &&
      groupsTile (g.last + 1) gs hi

/-- Whether the groups are linked, and reach from the first to the last of `n` blocks. -/
def GroupChain.covers (gs : GroupChain) (n : Nat) : Bool :=
  gs.isLinked && groupsTile 0 gs.toList n

/-- The source text of a group, with the blanks and comments between its fragments. -/
def Document.groupText (d : Document) (g : Group) : String :=
  match d.blocks.get? g.first, d.blocks.get? g.last with
  | some a, some b => d.tokens.text a.first b.last
  | _, _ => ""

/-- Why a sequence of blocks cannot be grouped. -/
inductive GroupError
  /-- A block is not linked to its neighbours. -/
  | brokenLink (block : Nat)
  | missingStartOfDocument
  | missingEndOfDocument
  /-- A fragment has no other part; `found` is the kind of the block that follows it instead. -/
  | lonelyFragment (kind : BlockKind) (block : Nat) (found : Option BlockKind)
  deriving DecidableEq

namespace GroupError

/-- The error in words. -/
def message : GroupError → String
  | .brokenLink i => s!"block BlockId({i}) is not linked to its neighbours"
  | .missingStartOfDocument => "block stream does not start with the start of document"
  | .missingEndOfDocument => "block stream does not end with the end of document"
  | .lonelyFragment kind i _ =>
    s!"fragment BlockId({i}) of a {kind.description} has no other part"

/-- The error for a reader. -/
def diagnostic (e : GroupError) : Diagnostic :=
  match e with
  | .lonelyFragment _ _ (some found) =>
    (Diagnostic.mk .bug e.message []).withNote s!"The fragment is followed by a {found.description}"
  | _ => ⟨.bug, e.message, []⟩

end GroupError

end VhdlOutline
