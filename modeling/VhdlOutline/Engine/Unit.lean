import VhdlOutline.Engine.Basic

/-!
# Routines for design units and subprograms

The first lines of entities, architectures, packages and package bodies, procedures and functions;
and the subtypes that functions share with objects and interface items.
-/

namespace VhdlOutline.Action

/-! ## What many routines have in common -/

/-- Take the reserved word `k` and go on, or refuse the current token. -/
def keyword (k : Keyword) (body : Action Unit) : Action Unit := do
  if (← current).isKeyword k then
    classifyWord
    body
  else refuse [k.phrase]

/-- Take a name and go on with it, or refuse the current token. -/
def name (what : String) (body : String → Action Unit) : Action Unit := do
  if (← current).isName then
    let s ← identifier
    body s
  else refuse [what]

/-- Take a semicolon as the last token of a machine, or refuse the current token. -/
def semicolon (kind : BlockKind) : Action Unit := do
  if (← current).isChar ';' then
    emit kind
    pop 1
  else refuse ["`;`"]

/-- End a block before the current token, which starts an expression. -/
def beforeExpression (kind : BlockKind) (resume : Routine) (x : Expression) : Action Unit := do
  emitBefore kind
  pushExpression resume x.table

/-- Complete the first line of a construct, and go on to its declarations. -/
def declarations (c : Construct) : Action Unit := do
  onContext fun k => { k with region := some c.regionTable, end_ := some c.endTable }
  goto .declarativeRegion

/-! ## Entities -/

def entityStart : Action Unit := keyword .entity (goto .entityAfterKeyword)

def entityAfterKeyword : Action Unit := inside <| name "an entity name" fun s => do
  declare .entity (some s)
  goto .entityAfterName

def entityAfterName : Action Unit := inside <| keyword .is do
  emit .entityName
  declarations .entity

/-! ## Architectures -/

def architectureStart : Action Unit := keyword .architecture (goto .architectureAfterKeyword)

def architectureAfterKeyword : Action Unit := inside <| name "an architecture name" fun s => do
  declare .architecture (some s)
  goto .architectureAfterName

def architectureAfterName : Action Unit := inside <| keyword .of (goto .architectureAfterOf)

def architectureAfterOf : Action Unit :=
  inside <| name "an entity name" fun _ => goto .architectureAfterEntity

def architectureAfterEntity : Action Unit := inside <| keyword .is do
  emit .architectureName
  declarations .architecture

/-! ## Packages and package bodies -/

def packageStart : Action Unit := keyword .package (goto .packageAfterKeyword)

/-- Whether a package or a package body is read shows at the word after `package`. -/
def packageAfterKeyword : Action Unit := inside do
  let t ← current
  if t.isKeyword .body then
    classifyWord
    goto .bodyAfterKeyword
  else if t.isName then
    let s ← identifier
    declare .package (some s)
    goto .packageAfterName
  else refuse [Keyword.body.phrase, "a package name"]

def packageAfterName : Action Unit := inside <| keyword .is do
  emit .packageName
  onContext fun k =>
    { k with region := some Construct.package.regionTable, end_ := some Construct.package.endTable }
  goto .packageAfterIs

/-- An instantiation goes on with `new`. -/
def packageAfterIs : Action Unit := apart do
  if (← current).isKeyword .new then notImplemented "package instantiation"
  else
    goto .declarativeRegion
    reissue

def bodyAfterKeyword : Action Unit := inside <| name "a package name" fun s => do
  declare .package (some s)
  goto .bodyAfterName

def bodyAfterName : Action Unit := inside <| keyword .is do
  emit .packageBodyName
  declarations .packageBody

/-! ## Subtypes -/

/-- Note that a subtype has begun. -/
def subtypePart : Action Bool := do
  setContent true
  return true

/-- Take a token of a subtype, with the depth of parentheses in the counter. Returns whether the
current token belongs to it. -/
def subtypeIndication : Action Bool := do
  if ← absorbTrivia then pure true
  else
    let t ← current
    let depth := (← get).counter
    match t.kind with
    | .endOfDocument => refuse ["`;`"]
    | .character '(' => do
      count 1
      subtypePart
    | .character ')' =>
      if 0 < depth then do
        count (-1)
        subtypePart
      else if depth = 0 then pure false
      else subtypePart
    | .character ';' => if depth = 0 then pure false else complain .unclosedParenthesis
    | .compound .varAssign => if depth = 0 then pure false else subtypePart
    | .word =>
      if depth = 0 ∧ t.isKeyword .is then pure false
      else do
        classifyWord
        subtypePart
    | _ => subtypePart

/-! ## Procedures -/

/-- Finish the declaration of a subprogram at its semicolon. -/
def declarationEnd (kind : BlockKind) : Action Unit := do
  emit kind
  let _ ← undeclare
  pop 1

def procedureStart : Action Unit := keyword .procedure (goto .procedureName)

def procedureName : Action Unit := inside <| name "a procedure name" fun s => do
  declare .procedure (some s)
  goto .procedureAfterName

/-- Enter a list of parameters, to come back to `resume`. -/
def enterParameters (resume : Routine) : Action Unit := do
  push resume .listStart
  onContext fun k => { k with list := some InterfaceList.parameter.table }
  reissue

def procedureAfterName : Action Unit := inside do
  let t ← current
  if t.isChar '(' then
    emitBefore .procedureName
    enterParameters .procedureAfterParameters
  else if t.isKeyword .is then
    classifyWord
    emit .procedureName
    declarations .procedure
  else if t.isChar ';' then
    emitBefore .procedureName
    declarationEnd .procedureDeclarationEnd
  else refuse ["`(`", Keyword.is.phrase, "`;`"]

def procedureAfterParameters : Action Unit := inside do
  let t ← current
  if t.isKeyword .is then
    classifyWord
    emit .procedureIs
    declarations .procedure
  else if t.isChar ';' then declarationEnd .procedureDeclarationEnd
  else refuse [Keyword.is.phrase, "`;`"]

/-! ## Functions -/

def functionKeyword : Action Unit := inside <| keyword .function (goto .functionName)

def functionStart : Action Unit := do
  let t ← current
  match t.keyword? with
  | some .pure | some .impure => do
    classifyWord
    goto .functionKeyword
  | some .function => functionKeyword
  | _ => refuse [Keyword.function.phrase, Keyword.pure.phrase, Keyword.impure.phrase]

def functionName : Action Unit := inside do
  let t ← current
  if t.isName || t.kind = .stringLiteral then
    let s ← identifier
    declare .function (some s)
    goto .functionAfterName
  else refuse ["a function name", "an operator symbol"]

def functionAfterParameters : Action Unit := inside <| keyword .return do
  setCounter 0
  setContent false
  goto .returnType

def functionAfterName : Action Unit := inside do
  let t ← current
  if t.isChar '(' then
    emitBefore .functionName
    enterParameters .functionAfterParameters
  else if t.isKeyword .return then
    emitBefore .functionName
    functionAfterParameters
  else refuse ["`(`", Keyword.return.phrase]

def returnType : Action Unit := do
  if ← subtypeIndication then pure ()
  else if (← get).content then
    let t ← current
    if t.isKeyword .is then
      classifyWord
      emit .functionReturnType
      declarations .function
    else if t.isChar ';' then
      emitBefore .functionReturnType
      declarationEnd .functionDeclarationEnd
    else refuse [Keyword.is.phrase, "`;`"]
  else refuse ["a type mark"]

end VhdlOutline.Action
