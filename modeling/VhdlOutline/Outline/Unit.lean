import VhdlOutline.Outline.Reaction

/-!
# Design units and subprograms

The first lines of entities, architectures, packages and package bodies, procedures and functions:
what stands between the reserved word and the declarations.
-/

namespace VhdlOutline.Outline

/-! ## Design units -/

/-- The first line of an entity. -/
def entity (phase : EntityPhase) (t : Token) : Outcome :=
  match phase with
  | .start =>
    if t.isKeyword .entity then .take (.entity .afterKeyword)
    else .expected [Keyword.entity.phrase]
  | .afterKeyword =>
    if t.isName then
      .noting (.entering .entity (some t.text)) (.take (.entity (.afterName t.text)))
    else .expected ["an entity name"]
  | .afterName name =>
    if t.isKeyword .is then .close .entityName (.declarations ⟨.entity, some name⟩)
    else .expected [Keyword.is.phrase]

/-- The first line of an architecture. -/
def architecture (phase : ArchitecturePhase) (t : Token) : Outcome :=
  match phase with
  | .start =>
    if t.isKeyword .architecture then .take (.architecture .afterKeyword)
    else .expected [Keyword.architecture.phrase]
  | .afterKeyword =>
    if t.isName then
      .noting (.entering .architecture (some t.text)) (.take (.architecture (.afterName t.text)))
    else .expected ["an architecture name"]
  | .afterName name =>
    if t.isKeyword .of then .take (.architecture (.afterOf name))
    else .expected [Keyword.of.phrase]
  | .afterOf name =>
    if t.isName then .take (.architecture (.afterEntity name)) else .expected ["an entity name"]
  | .afterEntity name =>
    if t.isKeyword .is then .close .architectureName (.declarations ⟨.architecture, some name⟩)
    else .expected [Keyword.is.phrase]

/-- The first line of a package or a package body. Which of the two it is shows after the reserved
word. -/
def package (phase : PackagePhase) (t : Token) : Outcome :=
  match phase with
  | .start =>
    if t.isKeyword .package then .take (.package .afterKeyword)
    else .expected [Keyword.package.phrase]
  | .afterKeyword =>
    if t.isKeyword .body then .take (.package .bodyAfterKeyword)
    else if t.isName then
      .noting (.entering .package (some t.text)) (.take (.package (.afterName t.text)))
    else .expected [Keyword.body.phrase, "a package name"]
  | .afterName name =>
    if t.isKeyword .is then .close .packageName (.package (.afterIs name))
    else .expected [Keyword.is.phrase]
  | .afterIs name =>
    if t.isKeyword .new then .notImplemented "package instantiation"
    else .pass (.declarations ⟨.package, some name⟩)
  | .bodyAfterKeyword =>
    if t.isName then
      .noting (.entering .package (some t.text)) (.take (.package (.bodyAfterName t.text)))
    else .expected ["a package name"]
  | .bodyAfterName name =>
    if t.isKeyword .is then .close .packageBodyName (.declarations ⟨.packageBody, some name⟩)
    else .expected [Keyword.is.phrase]

/-! ## Subtypes

The subtype of an object, an interface item or a function result. -/

/-- What a token means in a subtype. -/
inductive SubtypeStep
  /-- The token belongs to it; the depth of parentheses after the token. -/
  | inside (depth : Nat)
  /-- The token ends it. -/
  | ended
  | refused (c : Complaint)
  deriving DecidableEq

/-- Read a token of a subtype. Outside parentheses it ends before a semicolon, a closing
parenthesis, an assignment symbol, or the word `is`. -/
def subtypeStep (depth : Nat) (t : Token) : SubtypeStep :=
  match t.kind with
  | .endOfDocument => .refused (.expected ["`;`"])
  | .character '(' => .inside (depth + 1)
  | .character ')' => if depth = 0 then .ended else .inside (depth - 1)
  | .character ';' => if depth = 0 then .ended else .refused .unclosedParenthesis
  | .compound .varAssign => if depth = 0 then .ended else .inside depth
  | .word => if depth = 0 ∧ t.isKeyword .is then .ended else .inside depth
  | _ => .inside depth

/-! ## Subprograms

Whether a subprogram is declared or defined shows at the semicolon or the `is` after its
specification. -/

/-- The specification of a procedure. -/
def procedure (phase : ProcedurePhase) (t : Token) : Outcome :=
  match phase with
  | .start =>
    if t.isKeyword .procedure then .take (.procedure .name)
    else .expected [Keyword.procedure.phrase]
  | .name =>
    if t.isName then
      .noting (.entering .procedure (some t.text)) (.take (.procedure (.afterName t.text)))
    else .expected ["a procedure name"]
  | .afterName name =>
    if t.isChar '(' then
      .cutCall .procedureName (.procedure (.afterParameters name)) (.interface .parameter .start)
    else if t.isKeyword .is then .close .procedureName (.declarations ⟨.procedure, some name⟩)
    else if t.isChar ';' then .cutCloseReturn .procedureName .procedureDeclarationEnd
    else .expected ["`(`", Keyword.is.phrase, "`;`"]
  | .afterParameters name =>
    if t.isKeyword .is then .close .procedureIs (.declarations ⟨.procedure, some name⟩)
    else if t.isChar ';' then .closeReturn .procedureDeclarationEnd
    else .expected [Keyword.is.phrase, "`;`"]

/-- The specification of a function, whose name may be an operator symbol in quotes. -/
def function (phase : FunctionPhase) (t : Token) : Outcome :=
  match phase with
  | .start =>
    if t.isKeyword .pure || t.isKeyword .impure then .take (.function .keyword)
    else if t.isKeyword .function then .take (.function .name)
    else .expected [Keyword.function.phrase, Keyword.pure.phrase, Keyword.impure.phrase]
  | .keyword =>
    if t.isKeyword .function then .take (.function .name)
    else .expected [Keyword.function.phrase]
  | .name =>
    if t.isName || t.kind = .stringLiteral then
      .noting (.entering .function (some t.text)) (.take (.function (.afterName t.text)))
    else .expected ["a function name", "an operator symbol"]
  | .afterName name =>
    if t.isChar '(' then
      .cutCall .functionName (.function (.afterParameters name)) (.interface .parameter .start)
    else if t.isKeyword .return then
      .cutTake .functionName (.function (.returnType name 0 false))
    else .expected ["`(`", Keyword.return.phrase]
  | .afterParameters name =>
    if t.isKeyword .return then .take (.function (.returnType name 0 false))
    else .expected [Keyword.return.phrase]
  | .returnType name depth begun =>
    match subtypeStep depth t with
    | .inside depth => .take (.function (.returnType name depth true))
    | .refused c => .error c
    | .ended =>
      if !begun then .expected ["a type mark"]
      else if t.isKeyword .is then
        .close .functionReturnType (.declarations ⟨.function, some name⟩)
      else if t.isChar ';' then .cutCloseReturn .functionReturnType .functionDeclarationEnd
      else .expected [Keyword.is.phrase, "`;`"]

end VhdlOutline.Outline
