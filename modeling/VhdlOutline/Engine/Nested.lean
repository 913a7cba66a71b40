import VhdlOutline.Engine.Declaration
import VhdlOutline.Engine.Statement
import VhdlOutline.Outline.Dispatch

/-!
# Routines for nested constructs and regions

The ends of constructs, processes, if statements and loops, and the regions in which design units
and statements stand. The statements of a branch or of a loop are read in the frame of the whole, so
that their `end` ends it.
-/

namespace VhdlOutline.Action

/-! ## Ends -/

def endStart : Action Unit := keyword .end_ (goto .afterEnd)

/-- Finish an end at its semicolon. -/
def endFinish : Action Unit := do
  let c ← table "end" Tables.end_
  emit c.kind
  closeName
  pop 1

/-- Whether the token can be the name at an end. Operator functions are named by string literals. -/
def isEndName (t : Token) : Bool := t.isName || t.kind = .stringLiteral

/-- Take the name at an end. -/
def endName : Action Unit := do
  modify fun e => { e with endName := some e.desk.token }
  settleName
  goto .endAfterName

def afterEnd : Action Unit := inside do
  let c ← table "end" Tables.end_
  let t ← current
  if t.isKeyword c.keyword then
    classifyWord
    goto (if c.second?.isSome then .endAfterFirstKeyword else .endAfterKeyword)
  else if c.keywordRequired then refuse [c.keyword.phrase]
  else if t.isChar ';' then endFinish
  else if isEndName t then endName
  else refuse ["`;`", c.keyword.phrase, "a name"]

def endAfterFirstKeyword : Action Unit := inside do
  let c ← table "end" Tables.end_
  match c.second? with
  | some k => keyword k (goto .endAfterKeyword)
  | none => bug .missingSecondKeyword

def endAfterKeyword : Action Unit := inside do
  let t ← current
  if t.isChar ';' then endFinish
  else if isEndName t then endName
  else refuse ["`;`", "a name"]

def endAfterName : Action Unit := inside do
  if (← current).isChar ';' then endFinish else refuse ["`;`"]

/-! ## Processes -/

/-- A label, if there is one, becomes part of the first block of the process. -/
def enterProcess (label : Option String) : Action Unit := do
  enter .processStart
  declare .process label

def processStart : Action Unit := keyword .process (goto .processAfterKeyword)

def processAfterSensitivity : Action Unit := inside do
  if (← current).isKeyword .is then
    classifyWord
    emit .processName
    declarations .process
  else
    emitBefore .processName
    reissue
    declarations .process

def processAfterKeyword : Action Unit := inside do
  if (← current).isChar '(' then
    setCounter 1
    goto .processSensitivity
  else processAfterSensitivity

/-- The counter is the depth of parentheses. -/
def processSensitivity : Action Unit := inside do
  match (← current).kind with
  | .character '(' => count 1
  | .character ')' => do
    count (-1)
    if (← get).counter = 0 then goto .processAfterSensitivity else pure ()
  | .character ';' | .endOfDocument => refuse ["`)`"]
  | .word => classifyWord
  | _ => pure ()

/-! ## If statements -/

def enterIf (label : Option String) : Action Unit := do
  enter .ifStart
  declare .if_ label

def ifStart : Action Unit := keyword .if_ (goto .ifAfterKeyword)

def ifAfterKeyword : Action Unit := inside <| beforeExpression .ifStart .ifThen .ifCondition

/-- Go on to the statements of a branch. -/
def branch (kind : BlockKind) : Action Unit := keyword .then_ do
  emit kind
  onContext fun k => { k with end_ := some Construct.if_.endTable, body := .then_ }
  goto .sequentialRegion

def ifThen : Action Unit := branch .ifThen

def elsif : Action Unit := keyword .elsif (goto .elsifAfterKeyword)

def elsifAfterKeyword : Action Unit :=
  inside <| beforeExpression .elsIfStart .elsifThen .elsifCondition

def elsifThen : Action Unit := branch .elsIfThen

/-- Go on to the statements after `else`. -/
def elseBranch : Action Unit := do
  classifyWord
  emit .else_
  onContext fun k => { k with body := .else_ }

/-! ## Loops -/

def enterLoop (label : Option String) : Action Unit := do
  enter .loopStart
  declare .loop label

def loopBody : Action Unit := keyword .loop do
  emit .loopBegin
  onContext fun k => { k with end_ := some Construct.loop.endTable, body := .plain }
  goto .sequentialRegion

def loopStart : Action Unit := do
  match (← current).keyword? with
  | some .for_ => do
    classifyWord
    goto .forParameter
  | some .while => do
    classifyWord
    goto .whileAfterKeyword
  | some .loop => loopBody
  | _ => refuse [Keyword.for_.phrase, Keyword.while.phrase, Keyword.loop.phrase]

def forParameter : Action Unit := inside <| name "a loop parameter" fun _ => goto .forIn

def forIn : Action Unit := inside <| keyword .in_ (goto .forAfterIn)

def forAfterIn : Action Unit := inside <| beforeExpression .forStart .forAfterRange .forRange

def forAfterRange : Action Unit := do
  match (← current).keyword? with
  | some .to | some .downto => do
    classifyWord
    emit .loopDirection
    goto .loopBound
  | _ => loopBody

def loopBound : Action Unit := pushExpression .loopBody Expression.loopBound.table

def whileAfterKeyword : Action Unit :=
  inside <| beforeExpression .whileStart .loopBody .whileCondition

/-! ## The document -/

def documentStart : Action Unit := do
  if (← current).kind = .startOfDocument then
    emit .startOfDocument
    goto .documentRegion
  else refuse ["start of document"]

/-- Read the end of the document. -/
def documentEnd : Action Unit := do
  if (← get).stack.isEmpty then
    emit .endOfDocument
    modify fun e => { e with done := true }
  else bug .openConstruct

def documentRegion : Action Unit := apart do
  let t ← current
  if t.kind = .endOfDocument then documentEnd
  else
    setLabel none
    match t.keyword? with
    | some .library => enterReference .library
    | some .use => enterReference .use
    | some .context => enterReference .context
    | some .entity => enter .entityStart
    | some .architecture => enter .architectureStart
    | some .package => enter .packageStart
    | some .configuration => notImplemented "configuration declaration"
    | _ =>
      refuse ["LIBRARY", "USE", "CONTEXT", "ENTITY", "ARCHITECTURE", "PACKAGE", "end of document"]

/-! ## Statement parts -/

/-- A routine between statements, or after the label of one. The label is taken off. -/
def labelled (body : Option String → Action Unit) : Action Unit := do
  let label := (← get).label
  let next : Action Unit := do
    setLabel none
    body label
  if label.isSome then inside next else apart next

/-- Refuse a token between concurrent statements. -/
def refuseConcurrent (label : Option String) : Action Unit :=
  refuse ([Keyword.process.upper, Keyword.assert.upper, "a name"] ++
    (if label.isNone then [Keyword.end_.upper] else []))

/-- Enter the concurrent statement that the word `k` introduces. -/
def concurrentStatement (label : Option String) (k : Keyword) : Action Unit :=
  match k with
  | .process => enterProcess label
  | .assert => enter .assertStart
  | k =>
    match Outline.unsupportedConcurrent? k with
    | some what => notImplemented what
    | none => refuseConcurrent label

def concurrentRegion : Action Unit := labelled fun label => do
  let t ← current
  match t.keyword? with
  | some k =>
    if k = .end_ ∧ label.isNone then enterEnd else concurrentStatement label k
  | none => if t.isName then enterTarget label else refuseConcurrent label

/-- Refuse a token between sequential statements. -/
def refuseSequential (label : Option String) (body : Branch) : Action Unit :=
  refuse (["a statement", "a label"] ++
    (if label.isNone then
      (if body = .then_ then [Keyword.elsif.upper, Keyword.else_.upper] else []) ++
        [Keyword.end_.upper]
    else []))

/-- Enter a statement that starts with a name. -/
def sequentialTarget (label : Option String) (body : Branch) : Action Unit := do
  if (← current).isName then enterTarget label else refuseSequential label body

/-- Enter the sequential statement that the word `k` introduces. -/
def sequentialStatement (label : Option String) (body : Branch) (k : Keyword) : Action Unit :=
  match k with
  | .return => enterStatement .return_
  | .exit => enterStatement .exit
  | .next => enterStatement .next
  | .wait => enterStatement .wait
  | .null => enterStatement .null
  | .report => enter .reportStart
  | .assert => enter .assertStart
  | .if_ => enterIf label
  | .for_ | .while | .loop => enterLoop label
  | .case => notImplemented "case statement"
  | _ => sequentialTarget label body

def sequentialRegion : Action Unit := labelled fun label => do
  let body := (← get).context.body
  match (← current).keyword? with
  | some k =>
    if k = .end_ ∧ label.isNone then enterEnd
    else if k = .elsif ∧ label.isNone ∧ body = .then_ then
      goto .elsif
      reissue
    else if k = .else_ ∧ label.isNone ∧ body = .then_ then elseBranch
    else sequentialStatement label body k
  | none => sequentialTarget label body

/-! ## Interruptions -/

/-- Make blocks of blanks and comments, and come back with the first other token. -/
def commentAside : Action Unit := do
  let t ← current
  match (← get).desk.triviaKind? t.kind with
  | some kind => onDesk fun d => d.emitAside kind
  | none => do
    pop 1
    reissue

end VhdlOutline.Action
