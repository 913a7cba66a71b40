import VhdlOutline.Document
import VhdlOutline.Outline.Machine

/-!
# Outlining on demand

A parser reads tokens only as far as it takes to deliver the next block. Blocks are delivered by
their index, in order and once each. After an error, the blocks that were complete before it are
still delivered, and nothing more is read.

* `Parser.next` delivers the next block.
* `outline` reads all tokens at once.
-/

namespace VhdlOutline

/-- An outline in progress. -/
structure Parser where
  /-- The tokens not read yet. -/
  input : List (Except LexError Token)
  machine : Machine
  /-- The number of blocks delivered. -/
  delivered : Nat := 0
  failed : Bool := false

namespace Parser

/-- A parser that has read nothing. -/
def start (input : List (Except LexError Token)) (options : Options) : Parser :=
  { input, machine := { options } }

/-- Read tokens until a block is complete, the document ends or an error occurs. -/
def pull (m : Machine) (delivered : Nat) :
    List (Except LexError Token) → Option (Except OutlineError Nat) × Parser
  | [] => (some (.error (.unexpectedEnd m.control.name)), ⟨[], m, delivered, true⟩)
  | .error e :: xs => (some (.error (.lexical e)), ⟨xs, m, delivered, true⟩)
  | .ok t :: xs =>
    match m.feed t with
    | (m, some e) => (some (.error e), ⟨xs, m, delivered, true⟩)
    | (m, none) =>
      if delivered < m.sheet.blocks.size then
        (some (.ok delivered), ⟨xs, m, delivered + 1, false⟩)
      else if m.done then (none, ⟨xs, m, delivered, false⟩)
      else pull m delivered xs

/-- Deliver the next block, or the error; nothing once there is nothing more. -/
def next (p : Parser) : Option (Except OutlineError Nat) × Parser :=
  if p.delivered < p.machine.sheet.blocks.size then
    (some (.ok p.delivered), { p with delivered := p.delivered + 1 })
  else if p.failed || p.machine.done then (none, p)
  else pull p.machine p.delivered p.input

end Parser

/-- The document of what a machine has read. -/
def Machine.document (m : Machine) : Document :=
  ⟨m.sheet.tokens, m.sheet.blocks, m.warnings.toList⟩

/-- The outline of a sequence of tokens. -/
def outline (tokens : List (Except LexError Token)) (options : Options) :
    Except OutlineError Document :=
  match Machine.run { options } tokens with
  | (m, none) => .ok m.document
  | (_, some e) => .error e

end VhdlOutline
