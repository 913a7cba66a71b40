import VhdlOutline.Engine.Unit

/-!
# Routines for expressions and statements

Expressions, the simple statements and assignments, which have tables, the statements that start
with a name, and assertions and reports.
-/

namespace VhdlOutline

/-- Whether the token ends an expression, if it stands outside parentheses. -/
def ExpressionTable.ends (x : ExpressionTable) (t : Token) : Bool :=
  match t.kind with
  | .character c => c ∈ x.characters
  | _ => t.keyword?.any (· ∈ x.keywords)

/-- What ends an expression, in words. -/
def ExpressionTable.describe (x : ExpressionTable) : List String :=
  x.characters.map (fun c => s!"`{c}`") ++ x.keywords.map Keyword.phrase

namespace Action

/-! ## Expressions

The counter is the depth of parentheses. -/

/-- Settle a symbol as the operator that it stands for, if it does. -/
def settleOperator (o : Option Operator) : Action Unit :=
  match o with
  | some o => reclassify (.operator o)
  | none => pure ()

/-- Take a token of an expression that does not end it. -/
def expressionToken (x : ExpressionTable) (depth : Int32) (t : Token) : Action Unit :=
  match t.kind with
  | .endOfDocument => refuse x.describe
  | .character '(' => count 1
  | .character ')' => if 0 < depth then count (-1) else complain .unmatchedClose
  | .character ';' => if 0 < depth then complain .unclosedParenthesis else refuse x.describe
  | .compound .varAssign => complain .assignmentInExpression
  | .word => classifyWord
  | .character c => settleOperator (Operator.ofChar? c)
  | .compound s => settleOperator (Operator.ofCompound? s)
  | _ => pure ()

def expressionBody : Action Unit := inside do
  let x ← table "expression" Tables.expression
  let t ← current
  let depth := (← get).counter
  if depth = 0 ∧ x.ends t then
    if (← get).content then
      emitBefore x.kind
      pop 1
      reissue
    else refuse ["an expression"]
  else
    expressionToken x depth t
    setContent true

/-! ## Simple statements -/

def enterStatement (s : SimpleStatement) : Action Unit := do
  enter .statementStart
  onContext fun k => { k with statement := some s.table }

def statementStart : Action Unit := do
  let s ← table "statement" Tables.statement
  match s.keyword? with
  | some k => keyword k (goto .statementAfterKeyword)
  | none => bug .missingKeyword

/-- Refuse a token in front of the word that must precede the expression. -/
def refuseCondition (s : StatementTable) (k : Keyword) : Action Unit := do
  let n := (← get).counter
  refuse (["`;`", k.phrase] ++ (if s.loopLabel ∧ n = 0 then ["a loop label"] else []))

/-- Go on to the expression of a statement at the current token. -/
def statementExpression (s : StatementTable) : Action Unit := do
  match s.condition?, s.expression? with
  | some k, some _ =>
    if (← current).isKeyword k then
      classifyWord
      emit s.start
      goto .statementValue
    else refuseCondition s k
  | none, some x => do
    emitBefore s.start
    pushExpression .statementEnd x
  | some k, none => refuseCondition s k
  | none, none => refuse ["`;`"]

/-- The counter is 1 after a loop label. -/
def statementAfterKeyword : Action Unit := inside do
  let s ← table "statement" Tables.statement
  let t ← current
  if t.isChar ';' then
    if s.start = s.end_ then
      emit s.end_
      pop 1
    else
      emitBefore s.start
      emit s.end_
      pop 1
  else if s.loopLabel ∧ (← get).counter = 0 ∧ t.isName then
    let _ ← identifier
    setCounter 1
  else statementExpression s

def statementValue : Action Unit := do
  let s ← table "statement" Tables.statement
  match s.expression? with
  | some x => pushExpression .statementEnd x
  | none => bug .missingExpression

def statementEnd : Action Unit := do
  let s ← table "statement" Tables.statement
  semicolon s.end_

/-! ## Statements that start with a name -/

/-- Read a statement that starts with a name, after the given label. If the name turns out to be a
label itself, the machine returns after the colon, and the label stays in the block under
construction. -/
def enterTarget (label : Option String) : Action Unit := do
  enter .target
  setLabel label

def target : Action Unit := name "a name" fun _ => goto .afterHead

def afterHead : Action Unit := inside do
  if (← current).isChar ':' then
    if (← get).label.isSome then complain .secondLabel
    else
      match ← demand (← get).desk.previousSignificant? with
      | some t => do
        setLabel (some t.text)
        pop 1
      | none => bug .missingName
  else
    goto .targetRest
    reissue

/-- Go on to the assigned value. -/
def assignment (a : Assignment) : Action Unit := do
  setLabel none
  emit a.table.start
  onContext fun k => { k with statement := some a.table }
  goto .statementValue

/-- The counter is the depth of parentheses. -/
def targetRest : Action Unit := inside do
  let t ← current
  let depth := (← get).counter
  match t.kind with
  | .endOfDocument => refuse ["`;`", "`<=`", "`:=`"]
  | .character '(' => count 1
  | .character ')' => if 0 < depth then count (-1) else complain .unmatchedClose
  | .character ';' =>
    if 0 < depth then complain .unclosedParenthesis
    else do
      setLabel none
      emitBefore .procedureCall
      emit .procedureCallEnd
      pop 1
  | .compound .leq => if depth = 0 then assignment .signal else pure ()
  | .compound .varAssign => if depth = 0 then assignment .variable_ else pure ()
  | .word =>
    if depth = 0 ∧ (t.isKeyword .port ∨ t.isKeyword .generic) then
      notImplemented "component instantiation"
    else classifyWord
  | _ => pure ()

/-! ## Assertions and reports -/

def assertStart : Action Unit := keyword .assert (goto .assertAfterKeyword)

def assertAfterKeyword : Action Unit :=
  inside <| beforeExpression .assertStart .assertAfterCondition .assertCondition

def assertEnd : Action Unit := semicolon .assertEnd

/-- Take the word `severity`, or end the statement. -/
def severity (kind : BlockKind) (level : Routine) (end_ : Action Unit) : Action Unit := do
  if (← current).isKeyword .severity then
    classifyWord
    emit kind
    goto level
  else end_

def assertAfterMessage : Action Unit := severity .assertSeverity .assertLevel assertEnd

def assertAfterCondition : Action Unit := do
  if (← current).isKeyword .report then
    classifyWord
    emit .assertReport
    goto .assertMessage
  else assertAfterMessage

def assertMessage : Action Unit :=
  pushExpression .assertAfterMessage Expression.assertMessage.table

def assertLevel : Action Unit := pushExpression .assertEnd Expression.assertSeverity.table

def reportStart : Action Unit := keyword .report (goto .reportAfterKeyword)

def reportAfterKeyword : Action Unit :=
  inside <| beforeExpression .reportStart .reportAfterMessage .reportMessage

def reportEnd : Action Unit := semicolon .reportEnd

def reportAfterMessage : Action Unit := severity .reportSeverity .reportLevel reportEnd

def reportLevel : Action Unit := pushExpression .reportEnd Expression.reportSeverity.table

end Action

end VhdlOutline
