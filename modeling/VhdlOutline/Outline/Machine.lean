import VhdlOutline.Block.Sheet
import VhdlOutline.Outline.Dispatch
import VhdlOutline.Outline.Error

/-!
# The outline machine

The machine feeds tokens to states and carries out their moves. A configuration has a control, which
is the current state and the stack of states to be resumed, and a sheet with the tokens and blocks
so far.

* `Machine.visit` lets the current state see a token once.
* `Machine.feed` reads a token: it is handed from state to state until one takes it.
* `Machine.run` reads tokens up to the end of the document or the first error.

Blanks and comments are dealt with here and not by the states. While they interrupt a block the
control is aside: the state is kept, and resumes with the first other token.
-/

namespace VhdlOutline

/-- The kind of a token once a state has taken it. The `begin` after declarations stays a word. -/
def State.reading (s : State) (t : Token) : TokenKind :=
  match s with
  | .expression .. => t.settledInExpression
  | .declarations _ => t.kind
  | _ => t.settled

/-- Options of an outline. -/
structure Options where
  /-- Take a name after `end` that is not the construct's own for an error. -/
  strictNames : Bool := false
  /-- Log every visit of a state at the level of other events. -/
  trace : Bool := false
  deriving DecidableEq

/-- The current state and those to be resumed. -/
structure Control where
  state : State := .documentStart
  /-- Whether blanks and comments interrupt the state. -/
  isAside : Bool := false
  /-- The states to be resumed, innermost first. -/
  stack : List State := []
  deriving DecidableEq

namespace Control

/-- The name of what goes on. -/
def name (c : Control) : String := if c.isAside then "comment::aside" else c.state.name

/-- Go on as a move says. -/
def follow (c : Control) (next : Next) : Except MachineFault Control :=
  match next with
  | .goto s => .ok { c with state := s }
  | .call resume sub => .ok { c with state := sub, stack := resume :: c.stack }
  | .return_ =>
    match c.stack with
    | [] => .error .returnWithoutCall
    | s :: stack => .ok { c with state := s, stack }

end Control

/-- Something that happened, for the log. -/
inductive Event
  /-- A state saw a token. -/
  | visit (state : String) (t : Token)
  | note (n : Note)
  | mismatch (m : NameMismatch)
  | endOfDocument
  deriving DecidableEq

/-- The configuration of an outline. -/
structure Machine where
  options : Options := {}
  control : Control := {}
  sheet : Sheet := {}
  /-- The mismatches of names so far. -/
  warnings : Array NameMismatch := #[]
  /-- Whether the end of the document has been read. -/
  done : Bool := false
  events : Array Event := #[]
  deriving DecidableEq

/-- What became of a token. -/
inductive Verdict
  | taken
  | handedOn
  | failed (e : OutlineError)
  deriving DecidableEq

namespace Machine

/-- Note an event. -/
def log (m : Machine) (e : Event) : Machine := { m with events := m.events.push e }

/-- Make a block of the current token, which is blank or a comment. -/
def trivium (m : Machine) (t : Token) : Machine :=
  { m with sheet := m.sheet.closeAside (m.sheet.triviaKind t.kind) }

/-- Let blanks or comments interrupt the current state. -/
def interrupt (m : Machine) : Machine :=
  { m with control.isAside := true, sheet := m.sheet.interrupt }

/-- End the block under construction before the current token, if a kind is given. -/
def cut (m : Machine) (before : Option BlockKind) : Machine :=
  match before with
  | some kind => { m with sheet := m.sheet.cut kind }
  | none => m

/-- End the block under construction with the current token, if a kind is given. -/
def close (m : Machine) (closing : Option BlockKind) : Machine :=
  match closing with
  | some kind => { m with sheet := m.sheet.close kind }
  | none => m

/-- Settle the kind of the current token as the current state reads it. -/
def settle (m : Machine) (t : Token) : Machine :=
  { m with sheet := m.sheet.settle (m.control.state.reading t) }

/-- Go on as a move says. -/
def follow (m : Machine) (next : Next) (verdict : Verdict) : Machine × Verdict :=
  match m.control.follow next with
  | .ok control => ({ m with control }, verdict)
  | .error fault => (m, .failed (.internal m.control.name fault))

/-- Report a mismatch of names, as a warning or as an error. -/
def mismatched (m : Machine) (x : Option NameMismatch) : Machine × Option OutlineError :=
  match x with
  | none => (m, none)
  | some x =>
    if m.options.strictNames then (m, some (.nameMismatch x))
    else ({ m with warnings := m.warnings.push x }.log (.mismatch x), none)

/-- Read the end of the document. -/
def finish (m : Machine) : Machine × Verdict :=
  if m.control.stack.isEmpty then
    (({ m with done := true }.close (some .endOfDocument)).log .endOfDocument, .taken)
  else (m, .failed (.internal m.control.name .openConstruct))

/-- Carry out a reaction to the token `t`. Blocks are completed before names are compared. -/
def perform (m : Machine) (t : Token) (r : Reaction) : Machine × Verdict :=
  let m := match r.note with
    | some n => m.log (.note n)
    | none => m
  match r.move with
  | .take before closing next =>
    match (((m.cut before).settle t).close closing).mismatched r.mismatch with
    | (m, some e) => (m, .failed e)
    | (m, none) => m.follow next .taken
  | .pass before next => (m.cut before).follow next .handedOn
  | .finish => m.finish

/-- Let the current state react to the token `t`. -/
def react (m : Machine) (t : Token) : Machine × Verdict :=
  match m.control.state.react m.sheet.index t with
  | .ok r => m.perform t r
  | .error c => (m, .failed (.refused t c))

/-- Show the token `t`, which has been put on the sheet, to whatever goes on. -/
def visit (m : Machine) (t : Token) : Machine × Verdict :=
  let m := m.log (.visit m.control.name t)
  if m.control.isAside then
    if t.kind.isTrivia then (m.trivium t, .taken)
    else ({ m with control.isAside := false }, .handedOn)
  else if t.kind.isTrivia then
    match m.control.state.trivia with
    | .apart => (m.trivium t, .taken)
    | .inside => if t.kind = .space then (m, .taken) else (m.interrupt, .handedOn)
    | .seen => m.react t
  else m.react t

/-- Hand the token `t` from state to state until it is taken, at most `n` times. -/
def settleToken (m : Machine) (t : Token) : (n : Nat) → Machine × Option OutlineError
  | 0 => (m, some (.internal m.control.name .endlessHandover))
  | n + 1 =>
    match m.visit t with
    | (m, .taken) => (m, none)
    | (m, .handedOn) => m.settleToken t n
    | (m, .failed e) => (m, some e)

/-- How many states may see a token. -/
def visitLimit : Nat := 64

/-- Read a token. The machine is returned even with an error, as far as it came. -/
def feed (m : Machine) (t : Token) : Machine × Option OutlineError :=
  { m with sheet := m.sheet.push t }.settleToken t visitLimit

/-- Read tokens up to the end of the document or the first error. -/
def run (m : Machine) : List (Except LexError Token) → Machine × Option OutlineError
  | [] => if m.done then (m, none) else (m, some (.unexpectedEnd m.control.name))
  | x :: xs =>
    if m.done then (m, none)
    else match x with
      | .error e => (m, some (.lexical e))
      | .ok t =>
        match m.feed t with
        | (m, none) => m.run xs
        | (m, some e) => (m, some e)

end Machine

end VhdlOutline
