import VhdlOutline.Block.Kind
import VhdlOutline.Chain

/-!
# Blocks

A block is a run of tokens, given by the indices of its first and last token, with its kind. Where
comments or line breaks fall inside a block it is split into several, which share the kind.
-/

namespace VhdlOutline

/-- A run of tokens that forms one region of a construct, or a fragment of one. -/
structure Block where
  kind : BlockKind
  /-- The index of the first token. -/
  first : Nat
  /-- The index of the last token. -/
  last : Nat
  /-- Whether the block is one of several fragments. -/
  isFragment : Bool
  deriving DecidableEq

/-- A linked sequence of blocks. -/
abbrev BlockChain := Chain Block

/-- Whether the blocks cover the tokens from `lo` up to, but not including, `hi`: each in turn starts
where the one before it ended. -/
def tiles (lo : Nat) (bs : List Block) (hi : Nat) : Bool :=
  match bs with
  | [] => lo == hi
  | b :: bs => b.first == lo && b.first ≤ b.last && tiles (b.last + 1) bs hi

/-- Whether the blocks are linked, and cover the first `n` tokens in order. -/
def BlockChain.covers (bs : BlockChain) (n : Nat) : Bool :=
  bs.isLinked && tiles 0 bs.toList n

end VhdlOutline
