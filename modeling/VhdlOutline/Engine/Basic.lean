import VhdlOutline.Engine.Desk
import VhdlOutline.Engine.Routine
import VhdlOutline.Outline.Machine

/-!
# The engine

The engine runs one routine after another. A routine looks at the current token and changes the
engine: it completes blocks, says which routine is next, or enters the machine of a nested construct
and leaves a frame on the stack to come back to. It may also ask for the token to be issued again.

* `Engine` is the state of the engine. What a routine needs to know of its construct is in
  `Tables`.
* `Action` is what a routine is made of. It may stop with an error, or because something is not
  there that the engine takes for granted; and then it stops for good.
-/

namespace VhdlOutline

/-- The tables of the construct that is being read. -/
structure Tables where
  region : Option RegionTable := none
  end_ : Option EndTable := none
  object : Option ObjectTable := none
  list : Option ListTable := none
  expression : Option ExpressionTable := none
  reference : Option ReferenceTable := none
  statement : Option StatementTable := none
  /-- The branch that statements belong to. -/
  body : Branch := .plain
  deriving DecidableEq

/-- What is resumed when a nested construct is complete. -/
structure Frame where
  routine : Routine
  counter : Int32
  context : Tables
  deriving DecidableEq

/-- The state of the engine. -/
structure Engine where
  desk : Desk := {}
  /-- The routine that is next. -/
  next : Routine := .documentStart
  /-- The routine that is running. -/
  running : Routine := .documentStart
  stack : List Frame := []
  /-- The depth of parentheses, or another count of the routine. -/
  counter : Int32 := 0
  /-- Whether the current expression or subtype has begun. -/
  content : Bool := false
  context : Tables := {}
  /-- The constructs that have been declared and not closed, innermost first. -/
  names : List Opening := []
  /-- The label of the statement that is being read. -/
  label : Option String := none
  /-- The name at the end that is being read. -/
  endName : Option UInt32 := none
  warnings : Array NameMismatch := #[]
  options : Options := {}
  /-- Whether the current token is to be issued again. -/
  reissue : Bool := false
  done : Bool := false
  deriving DecidableEq

/-- Why the engine stops. -/
inductive Stop
  | failed (e : OutlineError)
  /-- A token is not there, or a number does not fit its word. -/
  | panicked
  deriving DecidableEq

/-- A part of a routine. When it stops, the engine is left as it is. -/
abbrev Action := EStateM Stop Engine

namespace Action

/-! ## The current token -/

/-- Carry on with a result that may not be there. -/
def demand {α : Type} : Option α → Action α
  | some a => pure a
  | none => throw .panicked

/-- The current token. -/
def current : Action Token := do demand (← get).desk.current?

/-- Change the desk. -/
def onDesk (f : Desk → Desk) : Action Unit := modify fun e => { e with desk := f e.desk }

/-- Change the kind of the current token. -/
def reclassify (kind : TokenKind) : Action Unit := do
  let _ ← current
  onDesk fun d => d.reclassify kind

/-- Settle the current word as a keyword or an identifier. -/
def classifyWord : Action Unit := do
  let t ← current
  if t.kind = .word then
    match t.keyword? with
    | some k => reclassify (.keyword k)
    | none => reclassify .identifier
  else pure ()

/-- Settle the current word as an identifier. -/
def settleName : Action Unit := do
  if (← current).kind = .word then reclassify .identifier else pure ()

/-- Settle the current word as an identifier, and return its text. -/
def identifier : Action String := do
  settleName
  return (← current).text

/-! ## Errors -/

/-- Refuse the current token. -/
def complain {α : Type} (c : Complaint) : Action α := do throw (.failed (.refused (← current) c))

/-- Refuse the current token in favour of the given alternatives. -/
def refuse {α : Type} (alternatives : List String) : Action α := complain (.expected alternatives)

/-- Refuse the current token because its construct is not supported. -/
def notImplemented {α : Type} (what : String) : Action α := complain (.notImplemented what)

/-- Report an inconsistency of the engine. -/
def bug {α : Type} (fault : MachineFault) : Action α := do
  throw (.failed (.internal (← get).running.name fault))

/-- A table of the context, which is named for the case that it is not there. -/
def table {α : Type} (what : String) (f : Tables → Option α) : Action α := do
  match f (← get).context with
  | some x => pure x
  | none => bug (.missingTable what)

/-! ## Blocks -/

/-- Complete the block under construction with the current token. -/
def emit (kind : BlockKind) : Action Unit := onDesk fun d => d.emit kind

/-- Complete the block under construction before the current token. -/
def emitBefore (kind : BlockKind) : Action Unit := do
  let d ← demand ((← get).desk.emitBefore? kind)
  onDesk fun _ => d

/-! ## Where the engine goes on -/

/-- Say which routine is next. -/
def goto (r : Routine) : Action Unit := modify fun e => { e with next := r }

/-- Ask for the current token to be issued again. -/
def reissue : Action Unit := modify fun e => { e with reissue := true }

/-- Set the counter. -/
def setCounter (n : Int32) : Action Unit := modify fun e => { e with counter := n }

/-- Count on by `d`. -/
def count (d : Int) : Action Unit := do
  let n ← demand (Word.add32? (← get).counter d)
  setCounter n

/-- Say whether the current expression or subtype has begun. -/
def setContent (b : Bool) : Action Unit := modify fun e => { e with content := b }

/-- Set the label of the statement that is being read. -/
def setLabel (label : Option String) : Action Unit := modify fun e => { e with label }

/-- Change the context. -/
def onContext (f : Tables → Tables) : Action Unit :=
  modify fun e => { e with context := f e.context }

/-- Enter the machine that starts with `sub`, to come back to `resume`. -/
def push (resume sub : Routine) : Action Unit :=
  modify fun e => { e with
    stack := ⟨resume, e.counter, e.context⟩ :: e.stack
    counter := 0
    next := sub }

/-- Return from `n` nested machines. -/
def pop : Nat → Action Unit
  | 0 => pure ()
  | n + 1 => do
    match (← get).stack with
    | [] => bug .returnWithoutCall
    | f :: stack =>
      modify fun e => { e with
        stack
        next := f.routine
        counter := f.counter
        context := f.context }
      pop n

/-- Enter the machine that starts with `sub` at the current token, to come back to the routine that
is running. -/
def enter (sub : Routine) : Action Unit := do
  push (← get).running sub
  reissue

/-- Read an expression that starts at the current token, to come back to `resume` with the token
that ends it. -/
def pushExpression (resume : Routine) (x : ExpressionTable) : Action Unit := do
  push resume .expressionBody
  onContext fun c => { c with expression := some x }
  setContent false
  reissue

/-! ## Blanks and comments -/

/-- Let the current blank or comment interrupt the block under construction. -/
def interrupt : Action Unit := do
  let d ← demand (← get).desk.interrupt?
  onDesk fun _ => d
  push (← get).running .commentAside
  reissue

/-- Deal with a blank or comment inside a block. Returns whether the current token was one. -/
def absorbTrivia : Action Bool := do
  let t ← current
  match t.kind with
  | .space => pure true
  | .linebreak | .indentation | .singleLineComment | .multiLineComment => do
    interrupt
    pure true
  | _ => pure false

/-- Deal with a blank or comment between constructs. Returns whether the current token was one. -/
def regionTrivia : Action Bool := do
  let t ← current
  match (← get).desk.triviaKind? t.kind with
  | some kind => do
    onDesk fun d => d.emitAside kind
    pure true
  | none => pure false

/-- A routine inside a block. -/
def inside (body : Action Unit) : Action Unit := do
  if ← absorbTrivia then pure () else body

/-- A routine between constructs. -/
def apart (body : Action Unit) : Action Unit := do
  if ← regionTrivia then pure () else body

/-! ## Names -/

/-- Record a construct whose end may repeat its name. -/
def declare (k : Keyword) (name : Option String) : Action Unit :=
  modify fun e => { e with names := ⟨k, name⟩ :: e.names }

/-- Forget the innermost construct. -/
def undeclare : Action (Option Opening) := do
  let e ← get
  set { e with names := e.names.tail }
  return e.names.head?

/-- Compare the name at an end, which the token `found` spells, with that of the construct. -/
def checkName (declared : Opening) (found : UInt32) : Action Unit := do
  let t ← demand ((← get).desk.tokens.get? found.toNat)
  if declared.name.any (sameName · t.text) then pure ()
  else
    let m : NameMismatch := ⟨declared.keyword, declared.name, t.text, found.toNat, t.first⟩
    if (← get).options.strictNames then throw (.failed (.nameMismatch m))
    else modify fun e => { e with warnings := e.warnings.push m }

/-- Leave the innermost construct, and compare the name at its end with its own. -/
def closeName : Action Unit := do
  let declared ← undeclare
  let found := (← get).endName
  modify fun e => { e with endName := none }
  match found with
  | none => pure ()
  | some found =>
    match declared with
    | none => bug .undeclaredEnd
    | some declared => checkName declared found

end Action

end VhdlOutline
