import VhdlOutline.Block.Basic
import VhdlOutline.Token.Basic

/-!
# Putting blocks together

A sheet holds the tokens read so far and the blocks made of them. The block under construction
begins at the token `start`. When a line break or comment interrupts it, what has been read of it
becomes a fragment that waits, together with the blanks and comments after it, until the block is
complete and its kind is known.

* `Sheet.close` completes the block with the current token, `Sheet.cut` before it.
* `Sheet.closeAside` makes a block of blanks or comments.
* `Sheet.interrupt` sets the block under construction aside.
* `assemble` is the list of blocks that one completion yields.
-/

namespace VhdlOutline

/-- A run of tokens that waits for the completion of a block. -/
structure Fragment where
  /-- The index of the first token. -/
  first : Nat
  /-- The index of the last token. -/
  last : Nat
  /-- The kind of a blank or comment between fragments. A fragment proper gets the kind of its
  block. -/
  kind? : Option BlockKind
  deriving DecidableEq

/-- The block of a fragment, for a block of the given kind that is split or not. -/
def Fragment.block (kind : BlockKind) (split : Bool) (f : Fragment) : Block :=
  match f.kind? with
  | some k => ⟨k, f.first, f.last, false⟩
  | none => ⟨kind, f.first, f.last, split⟩

/-- The blocks of a completed block: those of the fragments that waited for it, and of the tokens
after them. -/
def assemble (kind : BlockKind) (waiting : List Fragment) (rest : Option (Nat × Nat)) :
    List Block :=
  let fragments := waiting ++ (rest.map fun (first, last) => ⟨first, last, none⟩).toList
  let split := 1 < fragments.countP fun f => f.kind?.isNone
  fragments.map (Fragment.block kind split)

/-- The tokens read so far and the blocks made of them. -/
structure Sheet where
  tokens : TokenChain := Chain.empty
  blocks : BlockChain := Chain.empty
  /-- The fragments that wait for the block under construction, and what stands between them. -/
  waiting : List Fragment := []
  /-- The index of the first token of the block under construction. -/
  start : Nat := 0
  /-- The kind of the last block or waiting blank. There is none after a fragment proper. -/
  last? : Option BlockKind := none
  deriving DecidableEq

namespace Sheet

/-- The index of the current token. -/
def index (s : Sheet) : Nat := s.tokens.size - 1

/-- Read a token. -/
def push (s : Sheet) (t : Token) : Sheet := { s with tokens := s.tokens.push t }

/-- Settle the kind of the current token. -/
def settle (s : Sheet) (kind : TokenKind) : Sheet :=
  { s with tokens := s.tokens.modifyLast fun t => { t with kind } }

/-- Complete the block under construction, with the given tokens after its fragments. -/
def complete (s : Sheet) (kind : BlockKind) (rest : Option (Nat × Nat)) : Sheet :=
  let bs := assemble kind s.waiting rest
  { s with
    blocks := s.blocks.append bs
    waiting := []
    last? := (bs.getLast?.map Block.kind).or s.last? }

/-- Complete the block under construction with the current token as its last. -/
def close (s : Sheet) (kind : BlockKind) : Sheet :=
  { s.complete kind (some (s.start, s.index)) with start := s.index + 1 }

/-- Complete the block under construction before the current token, which begins the next one. -/
def cut (s : Sheet) (kind : BlockKind) : Sheet :=
  let rest := if s.start < s.index then some (s.start, s.index - 1) else none
  { s.complete kind rest with start := s.index }

/-- Make a block of blanks or comments. While fragments wait, it waits behind them. -/
def aside (s : Sheet) (kind : BlockKind) (first last : Nat) : Sheet :=
  if s.waiting.isEmpty then
    { s with blocks := s.blocks.push ⟨kind, first, last, false⟩, last? := some kind }
  else { s with waiting := s.waiting ++ [⟨first, last, some kind⟩], last? := some kind }

/-- Make a block of blanks or comments that ends with the current token. -/
def closeAside (s : Sheet) (kind : BlockKind) : Sheet :=
  { s.aside kind s.start s.index with start := s.index + 1 }

/-- Set aside what has been read of the block under construction. If that is nothing but spaces, they
are no part of the block. -/
def interrupt (s : Sheet) : Sheet :=
  if s.start < s.index then
    if (s.tokens.range s.start (s.index - 1)).all fun t => t.kind = .space then
      { s.aside .whitespace s.start (s.index - 1) with start := s.index }
    else
      { s with
        waiting := s.waiting ++ [⟨s.start, s.index - 1, none⟩]
        last? := none
        start := s.index }
  else s

/-- The kind of block that a token of blanks or comments forms. A line break right after another is
an empty line. -/
def triviaKind (s : Sheet) (kind : TokenKind) : BlockKind :=
  match kind with
  | .indentation => .indentation
  | .singleLineComment => .singleLineComment
  | .multiLineComment => .multiLineComment
  | .linebreak =>
    if s.last? = some .linebreak ∨ s.last? = some .emptyLine then .emptyLine else .linebreak
  | _ => .whitespace

end Sheet

end VhdlOutline
