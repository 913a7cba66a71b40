import VhdlOutline.Block.Basic
import VhdlOutline.Outline.Naming

/-!
# Documents

The tokens of a source text together with the blocks made of them. What has been read of a document
that broke off is one too.
-/

namespace VhdlOutline

/-- The tokens and blocks of a source text. -/
structure Document where
  tokens : TokenChain
  blocks : BlockChain
  /-- The names after `end` that are not the construct's own. -/
  warnings : List NameMismatch
  deriving DecidableEq

namespace Document

/-- The tokens of a block. -/
def tokensOf (d : Document) (b : Block) : List Token := d.tokens.range b.first b.last

/-- The source text of a block. -/
def text (d : Document) (b : Block) : String := d.tokens.text b.first b.last

/-- The position of the first character of a token. -/
def firstPosition (d : Document) (i : Nat) : Position :=
  ((d.tokens.get? i).map Token.first).getD .unknown

/-- The position of the last character of a token. -/
def lastPosition (d : Document) (i : Nat) : Position :=
  ((d.tokens.get? i).map Token.last).getD .unknown

/-- The stretch of source text that a block covers. -/
def span (d : Document) (b : Block) : Span := ⟨d.firstPosition b.first, d.lastPosition b.last⟩

end Document

end VhdlOutline
