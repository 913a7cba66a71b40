import VhdlOutline.Engine.Unit
import VhdlOutline.Outline.Declaration

/-!
# Routines for declarations

Reference clauses, object declarations, and interface lists, each with a table; and the region in
which the declarations of a construct stand.
-/

namespace VhdlOutline.Action

/-! ## Reference clauses

The counter is 1 after a part of a name, and 0 before one. -/

def enterReference (r : Reference) : Action Unit := do
  enter .referenceStart
  onContext fun k => { k with reference := some r.table }

def referenceStart : Action Unit := do
  let r ← table "reference" Tables.reference
  keyword r.keyword (goto .referenceAfterKeyword)

/-- Take a part of a name. -/
def nameSegment : Action Unit := do
  classifyWord
  setCounter 1

def referenceAfterKeyword : Action Unit := inside do
  let r ← table "reference" Tables.reference
  if (← current).isName then
    emitBefore r.start
    nameSegment
    goto .referenceName
  else refuse [s!"a name after {r.keyword.phrase}"]

def referenceName : Action Unit := inside do
  let r ← table "reference" Tables.reference
  let t ← current
  if (← get).counter = 0 then
    if t.isName || (r.selected && t.isKeyword .all) then nameSegment else refuse ["a name"]
  else if r.selected && t.isChar '.' then setCounter 0
  else if t.isChar ',' then
    emitBefore r.name
    emit r.delimiter
    goto .referenceAfterDelimiter
  else if t.isChar ';' then
    emitBefore r.name
    emit r.end_
    pop 1
  else if r.selected then refuse ["`.`", "`,`", "`;`"]
  else refuse ["`,`", "`;`"]

def referenceAfterDelimiter : Action Unit := inside do
  if (← current).isName then
    nameSegment
    goto .referenceName
  else refuse ["a name"]

/-! ## Objects

The counter is 1 after a name of the list, and 0 before one. -/

def enterObject (o : ObjectClass) : Action Unit := do
  enter .objectStart
  onContext fun k => { k with object := some o.table }

def objectStart : Action Unit := do
  let o ← table "object" Tables.object
  keyword o.keyword do
    setCounter 0
    goto (if o.keyword = .shared then .objectAfterShared else .objectNames)

def objectAfterShared : Action Unit := inside <| keyword .variable_ (goto .objectNames)

def objectNames : Action Unit := inside do
  let t ← current
  if (← get).counter = 0 then
    name "an object name" fun _ => setCounter 1
  else if t.isChar ',' then setCounter 0
  else if t.isChar ':' then
    setCounter 0
    setContent false
    goto .objectSubtype
  else refuse ["`,`", "`:`"]

def objectSubtype : Action Unit := do
  if ← subtypeIndication then pure ()
  else
    let o ← table "object" Tables.object
    if (← get).content then
      let t ← current
      if t.isChar ';' then
        emitBefore o.declaration
        emit o.end_
        pop 1
      else if t.isCompound .varAssign then
        emit o.declaration
        goto .objectDefault
      else refuse ["`;`", "`:=`"]
    else refuse ["a subtype indication"]

def objectDefault : Action Unit := do
  let o ← table "object" Tables.object
  pushExpression .objectEnd o.expression

def objectEnd : Action Unit := do
  let o ← table "object" Tables.object
  semicolon o.end_

/-! ## Interface lists -/

def enterList (l : InterfaceList) : Action Unit := do
  enter .listStart
  onContext fun k => { k with list := some l.table }

def listStart : Action Unit := do
  let l ← table "list" Tables.list
  match l.keyword? with
  | some k => keyword k (goto .listOpen)
  | none => do
    goto .listOpen
    reissue

def listOpen : Action Unit := inside do
  let l ← table "list" Tables.list
  if (← current).isChar '(' then
    emit l.open_
    goto .listItemStart
  else
    match l.keyword? with
    | some k => complain (.missingListOpen k)
    | none => refuse ["`(`"]

/-- Generic items that are known but not supported. -/
def unsupportedGenerics : List Keyword := [.procedure, .function, .pure, .impure, .package]

/-- Take the name that an item starts with. -/
def itemName (l : ListTable) : Action Unit := do
  if (← current).isName then
    let _ ← identifier
    setCounter 1
    goto .listNames
  else
    refuse (l.classes.map Keyword.upper ++
      (if l.typeItem?.isSome then [Keyword.type.upper] else []) ++ ["an interface name"])

def listItemStart : Action Unit := inside do
  let l ← table "list" Tables.list
  match (← current).keyword? with
  | some k =>
    if k = .type ∧ l.typeItem?.isSome then
      classifyWord
      goto .listTypeName
    else if l.keyword? = some .generic ∧ k ∈ unsupportedGenerics then
      notImplemented s!"generic {k.upper} declaration"
    else if k ∈ l.classes then
      classifyWord
      setCounter 0
      goto .listNames
    else itemName l
  | none => itemName l

/-- The counter is 1 after a name of the list, and 0 before one. -/
def listNames : Action Unit := inside do
  let t ← current
  if (← get).counter = 0 then
    name "an interface name" fun _ => setCounter 1
  else if t.isChar ',' then setCounter 0
  else if t.isChar ':' then
    setCounter 0
    goto .listMode
  else refuse ["`,`", "`:`"]

def listMode : Action Unit := inside do
  setContent false
  goto .listSubtype
  if (← current).keyword?.any (· ∈ InterfaceList.modes) then classifyWord else reissue

/-- Deal with the closing parenthesis of a list. -/
def closeList (l : ListTable) : Action Unit := do
  if l.semicolon then goto .listCloseSemicolon
  else
    emit l.close
    pop 1

def listSubtype : Action Unit := do
  if ← subtypeIndication then pure ()
  else
    let l ← table "list" Tables.list
    if (← get).content then
      let t ← current
      if t.isChar ';' then
        emitBefore l.item
        emit l.delimiter
        goto .listItemStart
      else if t.isChar ')' then
        emitBefore l.item
        closeList l
      else if t.isCompound .varAssign then
        emit l.item
        goto .listDefault
      else refuse ["`;`", "`)`", "`:=`"]
    else refuse ["a subtype indication"]

def listDefault : Action Unit := do
  let l ← table "list" Tables.list
  pushExpression .listAfterDefault l.default_

def listAfterDefault : Action Unit := do
  let l ← table "list" Tables.list
  let t ← current
  if t.isChar ';' then
    emit l.delimiter
    goto .listItemStart
  else if t.isChar ')' then closeList l
  else refuse ["`;`", "`)`"]

def listTypeName : Action Unit := inside <| name "a type name" fun _ => goto .listAfterTypeName

def listAfterTypeName : Action Unit := inside do
  let l ← table "list" Tables.list
  match l.typeItem? with
  | none => bug .missingTypeKind
  | some kind =>
    let t ← current
    if t.isChar ';' then
      emitBefore kind
      emit l.delimiter
      goto .listItemStart
    else if t.isChar ')' then
      emitBefore kind
      closeList l
    else refuse ["`;`", "`)`"]

def listCloseSemicolon : Action Unit := inside do
  let l ← table "list" Tables.list
  semicolon l.close

/-! ## Declarative regions -/

/-- Begin an end at the current token. -/
def enterEnd : Action Unit := do
  modify fun e => { e with endName := none }
  goto .endStart
  reissue

/-- Enter the machine of the declaration that the word `k` introduces. -/
def enterItem (k : Keyword) : Action Unit :=
  match k with
  | .generic => enterList .generic
  | .port => enterList .port
  | .constant => enterObject .constant
  | .signal => enterObject .signal
  | .variable_ => enterObject .variable_
  | .shared => enterObject .sharedVariable
  | .use => enterReference .use
  | .procedure => enter .procedureStart
  | .function | .pure | .impure => enter .functionStart
  | k => bug (.missingMachine k)

/-- Refuse a token between declarations. -/
def refuseDeclaration (r : RegionTable) : Action Unit :=
  refuse (r.items.map Keyword.upper ++
    (if r.begin?.isSome then [Keyword.begin.upper] else []) ++ [Keyword.end_.upper])

/-- Between declarations. The `begin` after them stays a word. -/
def declarativeRegion : Action Unit := apart do
  let r ← table "region" Tables.region
  setLabel none
  match (← current).keyword? with
  | some k =>
    if k ∈ r.items then enterItem k
    else if k = .begin ∧ r.begin?.isSome then
      match r.begin?, r.statements? with
      | some kind, some statements => do
        emit kind
        onContext fun c => { c with end_ := some r.end_, body := .plain }
        goto statements
      | _, _ => pure ()
    else if k = .end_ then
      onContext fun c => { c with end_ := some r.end_ }
      enterEnd
    else if k ∈ Outline.unsupportedDeclarations then notImplemented s!"{k.upper} declaration"
    else refuseDeclaration r
  | none => refuseDeclaration r

end VhdlOutline.Action
