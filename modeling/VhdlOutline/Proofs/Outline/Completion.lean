import VhdlOutline.Outline.Machine

/-!
# The blocks that a run completes

A block is completed by one call of `Sheet.complete`, which labels and releases all of its
fragments. `Machine.completions` lists the completions of a run in order. It follows the machine
step by step and asks at every visit what the move that is made there completes, so that the run
itself need not keep a record. `logicalBlocks` are those of a whole outline.
-/

namespace VhdlOutline

/-- The completion of a block: its kind, the fragments that waited for it with what stands between
them, and the tokens after them. -/
structure Completion where
  kind : BlockKind
  waiting : List Fragment
  rest : Option (Nat × Nat)
  deriving DecidableEq

/-- The blocks that a completion yields. -/
def Completion.blocks (c : Completion) : List Block := assemble c.kind c.waiting c.rest

/-- The parts of the completed block: the blocks that a completion yields, without the blanks and
comments between them. -/
def Completion.parts (c : Completion) : List Block :=
  c.blocks.filter fun b => !b.kind.isSkippable

namespace Sheet

/-- The completion that ends the block under construction before the current token. -/
def cutCompletion (s : Sheet) (kind : BlockKind) : Completion :=
  ⟨kind, s.waiting, if s.start < s.index then some (s.start, s.index - 1) else none⟩

/-- The completion that ends the block under construction with the current token. -/
def closeCompletion (s : Sheet) (kind : BlockKind) : Completion :=
  ⟨kind, s.waiting, some (s.start, s.index)⟩

/-- End the block under construction before the current token, if a kind is given. -/
def cutBefore (s : Sheet) : Option BlockKind → Sheet
  | some kind => s.cut kind
  | none => s

/-- End the block under construction with the current token, if a kind is given. -/
def closeWith (s : Sheet) : Option BlockKind → Sheet
  | some kind => s.close kind
  | none => s

/-- Take the current token, with the kind it has been found to have. -/
def taking (s : Sheet) (before closing : Option BlockKind) (kind : TokenKind) : Sheet :=
  ((s.cutBefore before).settle kind).closeWith closing

/-- The completions of a move. -/
def completedBy (s : Sheet) : Move → List Completion
  | .take before closing _ =>
    (before.map s.cutCompletion).toList ++ (closing.map (s.cutBefore before).closeCompletion).toList
  | .pass before _ => (before.map s.cutCompletion).toList
  | .finish => [s.closeCompletion .endOfDocument]

end Sheet

namespace Machine

/-- Whether the current state itself reacts to the token `t`. -/
def reacts (m : Machine) (t : Token) : Bool :=
  !m.control.isAside && (!t.kind.isTrivia || m.control.state.trivia == .seen)

/-- The completions of a visit. -/
def completed (m : Machine) (t : Token) : List Completion :=
  if m.reacts t then
    match m.control.state.react m.sheet.index t with
    | .ok r =>
      if r.move = .finish ∧ m.control.stack ≠ [] then [] else m.sheet.completedBy r.move
    | .error _ => []
  else []

/-- The completions while the token `t` is handed from state to state. -/
def settleCompletions (m : Machine) (t : Token) : (n : Nat) → List Completion
  | 0 => []
  | n + 1 => m.completed t ++
    match m.visit t with
    | (m, .handedOn) => m.settleCompletions t n
    | _ => []

/-- The completions of reading a token. -/
def feedCompletions (m : Machine) (t : Token) : List Completion :=
  { m with sheet := m.sheet.push t }.settleCompletions t visitLimit

/-- The completions of a run. -/
def completions (m : Machine) : List (Except LexError Token) → List Completion
  | [] => []
  | x :: xs =>
    if m.done then []
    else match x with
      | .error _ => []
      | .ok t => m.feedCompletions t ++
        match m.feed t with
        | (m, none) => m.completions xs
        | (_, some _) => []

end Machine

/-- The blocks that outlining the tokens completes, each with all of its fragments. -/
def logicalBlocks (tokens : List (Except LexError Token)) (options : Options) : List Completion :=
  Machine.completions { options } tokens

end VhdlOutline
