import VhdlOutline.Outline.Unit

/-!
# Declarations

Library and use clauses, context references, object declarations, and interface lists; and the
region in which the declarations of a construct stand.
-/

namespace VhdlOutline.Outline

/-- A library clause, use clause or context reference. -/
def reference (r : Reference) (phase : ReferencePhase) (t : Token) : Outcome :=
  match phase with
  | .start =>
    if t.isKeyword r.keyword then .take (.reference r .afterKeyword)
    else .expected [r.keyword.phrase]
  | .afterKeyword =>
    if t.isName then .cutTake r.startKind (.reference r (.name true))
    else .expected [s!"a name after {r.keyword.phrase}"]
  | .name false =>
    if t.isName || (r.isSelected && t.isKeyword .all) then .take (.reference r (.name true))
    else .expected ["a name"]
  | .name true =>
    if r.isSelected && t.isChar '.' then .take (.reference r (.name false))
    else if t.isChar ',' then .cutClose r.nameKind r.delimiterKind (.reference r .afterDelimiter)
    else if t.isChar ';' then .cutCloseReturn r.nameKind r.endKind
    else if r.isSelected then .expected ["`.`", "`,`", "`;`"]
    else .expected ["`,`", "`;`"]
  | .afterDelimiter =>
    if t.isName then .take (.reference r (.name true)) else .expected ["a name"]

/-- The declaration of constants, signals or variables. -/
def object (o : ObjectClass) (phase : ObjectPhase) (t : Token) : Outcome :=
  match phase with
  | .start =>
    if t.isKeyword o.keyword then
      .take (.object o (if o = .sharedVariable then .afterShared else .names false))
    else .expected [o.keyword.phrase]
  | .afterShared =>
    if t.isKeyword .variable_ then .take (.object o (.names false))
    else .expected [Keyword.variable_.phrase]
  | .names false =>
    if t.isName then .take (.object o (.names true)) else .expected ["an object name"]
  | .names true =>
    if t.isChar ',' then .take (.object o (.names false))
    else if t.isChar ':' then .take (.object o (.subtype 0 false))
    else .expected ["`,`", "`:`"]
  | .subtype depth begun =>
    match subtypeStep depth t with
    | .inside depth => .take (.object o (.subtype depth true))
    | .refused c => .error c
    | .ended =>
      if !begun then .expected ["a subtype indication"]
      else if t.isChar ';' then .cutCloseReturn o.declarationKind o.endKind
      else if t.isCompound .varAssign then .close o.declarationKind (.object o .default_)
      else .expected ["`;`", "`:=`"]
  | .default_ => .call (.object o .end_) (.expression o.default_ 0 false)
  | .end_ => if t.isChar ';' then .closeReturn o.endKind else .expected ["`;`"]

/-! ## Interface lists -/

/-- End an interface list at its closing parenthesis, after a block that ends before it. -/
def closeList (l : InterfaceList) (before : BlockKind) : Outcome :=
  if l.endsWithSemicolon then .cutTake before (.interface l .closeSemicolon)
  else .cutCloseReturn before l.closeKind

/-- The start of an item of an interface list. -/
def itemStart (l : InterfaceList) (t : Token) : Outcome :=
  if l.typeKind?.isSome && t.isKeyword .type then .take (.interface l .typeName)
  else match t.keyword?.filter (· ∈ l.unsupported) with
    | some k => .notImplemented s!"generic {k.upper} declaration"
    | none =>
      if t.keyword?.any (· ∈ l.classes) then .take (.interface l (.names false))
      else if t.isName then .take (.interface l (.names true))
      else .expected (l.classes.map Keyword.upper ++
        (if l.typeKind?.isSome then [Keyword.type.upper] else []) ++ ["an interface name"])

/-- A generic clause, port clause or parameter list. -/
def interface (l : InterfaceList) (phase : InterfacePhase) (t : Token) : Outcome :=
  match phase with
  | .start =>
    match l.keyword? with
    | some k => if t.isKeyword k then .take (.interface l .open_) else .expected [k.phrase]
    | none => .pass (.interface l .open_)
  | .open_ =>
    if t.isChar '(' then .close l.openKind (.interface l .itemStart)
    else match l.keyword? with
      | some k => .error (.missingListOpen k)
      | none => .expected ["`(`"]
  | .itemStart => itemStart l t
  | .names false =>
    if t.isName then .take (.interface l (.names true)) else .expected ["an interface name"]
  | .names true =>
    if t.isChar ',' then .take (.interface l (.names false))
    else if t.isChar ':' then .take (.interface l .mode)
    else .expected ["`,`", "`:`"]
  | .mode =>
    if t.keyword?.any (· ∈ InterfaceList.modes) then .take (.interface l (.subtype 0 false))
    else .pass (.interface l (.subtype 0 false))
  | .subtype depth begun =>
    match subtypeStep depth t with
    | .inside depth => .take (.interface l (.subtype depth true))
    | .refused c => .error c
    | .ended =>
      if !begun then .expected ["a subtype indication"]
      else if t.isChar ';' then .cutClose l.itemKind l.delimiterKind (.interface l .itemStart)
      else if t.isChar ')' then closeList l l.itemKind
      else if t.isCompound .varAssign then .close l.itemKind (.interface l .default_)
      else .expected ["`;`", "`)`", "`:=`"]
  | .default_ => .call (.interface l .afterDefault) (.expression l.default_ 0 false)
  | .afterDefault =>
    if t.isChar ';' then .close l.delimiterKind (.interface l .itemStart)
    else if t.isChar ')' then
      if l.endsWithSemicolon then .take (.interface l .closeSemicolon)
      else .closeReturn l.closeKind
    else .expected ["`;`", "`)`"]
  | .typeName =>
    if t.isName then .take (.interface l .afterTypeName) else .expected ["a type name"]
  | .afterTypeName =>
    let kind := l.typeKind?.getD l.itemKind
    if t.isChar ';' then .cutClose kind l.delimiterKind (.interface l .itemStart)
    else if t.isChar ')' then closeList l kind
    else .expected ["`;`", "`)`"]
  | .closeSemicolon =>
    if t.isChar ';' then .closeReturn l.closeKind else .expected ["`;`"]

/-! ## Declarative regions -/

/-- Declarations that are known but not supported. -/
def unsupportedDeclarations : List Keyword :=
  [.alias, .attribute_, .component, .disconnect, .file, .for_, .group, .package, .subtype, .type]

/-- The machine for the declaration that a reserved word introduces. -/
def declarationState? : Keyword → Option State
  | .generic => some (.interface .generic .start)
  | .port => some (.interface .port .start)
  | .constant => some (.object .constant .start)
  | .signal => some (.object .signal .start)
  | .variable_ => some (.object .variable_ .start)
  | .shared => some (.object .sharedVariable .start)
  | .use => some (.reference .use .start)
  | .procedure => some (.procedure .start)
  | .function | .pure | .impure => some (.function .start)
  | _ => none

/-- Refuse a token between the declarations of a construct. -/
def refuseDeclaration (c : Construct) : Outcome :=
  .expected (c.items.map Keyword.upper ++
    (if c.begin?.isSome then [Keyword.begin.upper] else []) ++ [Keyword.end_.upper])

/-- Between the declarations of a construct. -/
def declarations (scope : Scope) (t : Token) : Outcome :=
  match t.keyword? with
  | none => refuseDeclaration scope.construct
  | some k =>
    match if k ∈ scope.construct.items then declarationState? k else none with
    | some s => .call (.declarations scope) s
    | none =>
      match k, scope.construct.begin? with
      | .begin, some (kind, rule) => .close kind (.statements (rule.part scope) none)
      | .end_, _ => .pass (.end_ scope .start)
      | _, _ =>
        if k ∈ unsupportedDeclarations then .notImplemented s!"{k.upper} declaration"
        else refuseDeclaration scope.construct

end VhdlOutline.Outline
