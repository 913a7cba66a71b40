import VhdlOutline.Block.Sheet
import VhdlOutline.Word

/-!
# The desk of the engine

What the engine writes to: the tokens read so far, the blocks made of them, and the pieces of the
block under construction that have been set aside. Tokens and blocks go by their numbers, which are
kept in 32 bits. Where an operation would refer to a token that is not there, or to the number
before the first, it has no result.

* `Desk.emit` completes the block under construction with the current token, `Desk.emitBefore?`
  before it.
* `Desk.emitAside` makes a block of blanks or comments.
* `Desk.interrupt?` sets the block under construction aside.
-/

namespace VhdlOutline

/-- A piece set aside by an interruption. A piece without a kind belongs to the block under
construction. -/
structure Piece where
  first : UInt32
  last : UInt32
  kind? : Option BlockKind
  deriving DecidableEq

/-- What the engine writes to. -/
structure Desk where
  tokens : TokenChain := Chain.empty
  blocks : BlockChain := Chain.empty
  /-- The current token. -/
  token : UInt32 := 0
  /-- The first token of the block under construction. -/
  marker : Option UInt32 := none
  deferred : List Piece := []
  lastEmitted : Option BlockKind := none
  /-- The blocks that have been emitted and not handed out. -/
  fresh : List UInt32 := []
  deriving DecidableEq

/-- The closest token from number `i` backwards that is neither blank nor a comment. There is no
result if a link leads to a token that is not there. -/
def TokenChain.significant? (tokens : TokenChain) (i : Option Nat) : Option (Option Token) :=
  match i with
  | none => some none
  | some i => do
    let x ← tokens.nodes[i]?
    if x.item.kind.isTrivia then tokens |>.significant? x.previous else some (some x.item)
partial_fixpoint

namespace Desk

/-- Put the next token on the desk. -/
def push (d : Desk) (t : Token) : Desk :=
  { d with tokens := d.tokens.push t, token := .ofNat d.tokens.size }

/-- Begin a block with the current token, if none is under construction. -/
def mark (d : Desk) : Desk := { d with marker := d.marker.or (some d.token) }

/-- The current token. -/
def current? (d : Desk) : Option Token := d.tokens.get? d.token.toNat

/-- Change the kind of the current token. -/
def reclassify (d : Desk) (kind : TokenKind) : Desk :=
  { d with tokens := d.tokens.modify d.token.toNat fun t => { t with kind } }

/-- The closest token before the current one that is neither blank nor a comment. -/
def previousSignificant? (d : Desk) : Option (Option Token) := do
  let x ← d.tokens.nodes[d.token.toNat]?
  d.tokens.significant? x.previous

/-! ## Blocks -/

/-- Append a block. -/
def append (d : Desk) (kind : BlockKind) (first last : UInt32) (isFragment : Bool) : Desk :=
  { d with
    blocks := d.blocks.push ⟨kind, first.toNat, last.toNat, isFragment⟩
    lastEmitted := some kind
    fresh := d.fresh ++ [.ofNat d.blocks.size] }

/-- Append the block of a piece, for a block of the given kind that is split or not. -/
def appendPiece (kind : BlockKind) (isFragment : Bool) (d : Desk) (p : Piece) : Desk :=
  match p.kind? with
  | some k => d.append k p.first p.last false
  | none => d.append kind p.first p.last isFragment

/-- Complete the block under construction with the given tokens after its pieces. -/
def finish (d : Desk) (kind : BlockKind) (range : Option (UInt32 × UInt32)) : Desk :=
  if d.deferred.isEmpty then
    match range with
    | some (first, last) => d.append kind first last false
    | none => d
  else
    let parts := d.deferred.countP (fun p => p.kind?.isNone) + if range.isSome then 1 else 0
    let multiPart : Bool := 1 < parts
    let d := d.deferred.foldl (appendPiece kind multiPart) { d with deferred := [] }
    match range with
    | some (first, last) => d.append kind first last multiPart
    | none => d

/-- The first token of the block under construction, or the current token if there is none. -/
def start (d : Desk) : UInt32 := d.marker.getD d.token

/-- Complete the block under construction with the current token. -/
def emit (d : Desk) (kind : BlockKind) : Desk :=
  { d.finish kind (some (d.start, d.token)) with marker := none }

/-- Complete the block under construction before the current token, which begins the next one. -/
def emitBefore? (d : Desk) (kind : BlockKind) : Option Desk := do
  let range ← if d.start < d.token then (Word.pred32? d.token).map fun last => some (d.start, last)
    else some none
  some { d.finish kind range with marker := some d.token }

/-- Make a block of blanks or comments. While pieces are set aside, it is queued behind them. -/
def aside (d : Desk) (kind : BlockKind) (first last : UInt32) : Desk :=
  if d.deferred.isEmpty then d.append kind first last false
  else { d with deferred := d.deferred ++ [⟨first, last, some kind⟩], lastEmitted := some kind }

/-- Make a block of blanks or comments that ends with the current token. -/
def emitAside (d : Desk) (kind : BlockKind) : Desk :=
  { d.aside kind d.start d.token with marker := none }

/-- The kind of block that a blank or comment forms. A line break right after another is an empty
line. -/
def triviaKind? (d : Desk) (kind : TokenKind) : Option BlockKind :=
  match kind with
  | .space => some .whitespace
  | .indentation => some .indentation
  | .singleLineComment => some .singleLineComment
  | .multiLineComment => some .multiLineComment
  | .linebreak =>
    match d.lastEmitted with
    | some .linebreak | some .emptyLine => some .emptyLine
    | _ => some .linebreak
  | _ => none

/-- Whether the given tokens are all spaces. -/
def isBlank? (d : Desk) (first last : UInt32) : Option Bool :=
  (List.range' first.toNat (last.toNat + 1 - first.toNat)).allM fun i =>
    (d.tokens.get? i).map fun t => decide (t.kind = .space)

/-- Set the block under construction aside. If it is nothing but spaces so far, they are no part of
it. -/
def setAside? (d : Desk) : Option Desk :=
  match d.marker with
  | some first =>
    if first < d.token then do
      let last ← Word.pred32? d.token
      if ← d.isBlank? first last then some (d.aside .whitespace first last)
      else some { d with deferred := d.deferred ++ [⟨first, last, none⟩], lastEmitted := none }
    else some d
  | none => some d

/-- Let the current token interrupt the block under construction. -/
def interrupt? (d : Desk) : Option Desk :=
  d.setAside?.map fun d => { d with marker := some d.token }

end Desk

end VhdlOutline
