import VhdlOutline.Outline.Dispatch

/-!
# The transition table of the outline

`State.Allows s t move` says that the state `s` may answer the token `t` with `move`. The relation
lists the edges of all machines of the outline, each with the condition on the token under which it
is taken. Everything that is proved about runs rests on it: `State.allows_of_react` shows once that
the reactions of the states follow these edges, and a property of all moves is then a case analysis
of the table, with no machine opened again.
-/

namespace VhdlOutline

/-- The moves with which a state may answer a token. -/
inductive State.Allows : State → Token → Move → Prop
  -- The document.
  | documentStart {t} (h : t.kind = .startOfDocument) :
      Allows .documentStart t (.take none (some .startOfDocument) (.goto .documentRegion))
  | documentEnd {t} (h : t.kind = .endOfDocument) : Allows .documentRegion t .finish
  | documentReference {t} (r : Reference) (h : t.keyword? = some r.keyword) :
      Allows .documentRegion t (.pass none (.call .documentRegion (.reference r .start)))
  | documentEntity {t} (h : t.keyword? = some .entity) :
      Allows .documentRegion t (.pass none (.call .documentRegion (.entity .start)))
  | documentArchitecture {t} (h : t.keyword? = some .architecture) :
      Allows .documentRegion t (.pass none (.call .documentRegion (.architecture .start)))
  | documentPackage {t} (h : t.keyword? = some .package) :
      Allows .documentRegion t (.pass none (.call .documentRegion (.package .start)))
  -- Library clauses, use clauses and context references.
  | referenceKeyword {t r} (h : t.isKeyword r.keyword) :
      Allows (.reference r .start) t (.take none none (.goto (.reference r .afterKeyword)))
  | referenceHead {t r} (h : t.isName) :
      Allows (.reference r .afterKeyword) t
        (.take (some r.startKind) none (.goto (.reference r (.name true))))
  | referencePart {t r} (h : t.isName || (r.isSelected && t.isKeyword .all)) :
      Allows (.reference r (.name false)) t (.take none none (.goto (.reference r (.name true))))
  | referenceDot {t r} (h : r.isSelected && t.isChar '.') :
      Allows (.reference r (.name true)) t (.take none none (.goto (.reference r (.name false))))
  | referenceComma {t r} (h : t.isChar ',') :
      Allows (.reference r (.name true)) t
        (.take (some r.nameKind) (some r.delimiterKind) (.goto (.reference r .afterDelimiter)))
  | referenceEnd {t r} (h : t.isChar ';') :
      Allows (.reference r (.name true)) t (.take (some r.nameKind) (some r.endKind) .return_)
  | referenceNext {t r} (h : t.isName) :
      Allows (.reference r .afterDelimiter) t (.take none none (.goto (.reference r (.name true))))
  -- Entities, architectures and packages.
  | entityKeyword {t} (h : t.isKeyword .entity) :
      Allows (.entity .start) t (.take none none (.goto (.entity .afterKeyword)))
  | entityName {t} (h : t.isName) :
      Allows (.entity .afterKeyword) t (.take none none (.goto (.entity (.afterName t.text))))
  | entityIs {t name} (h : t.isKeyword .is) :
      Allows (.entity (.afterName name)) t
        (.take none (some .entityName) (.goto (.declarations ⟨.entity, some name⟩)))
  | architectureKeyword {t} (h : t.isKeyword .architecture) :
      Allows (.architecture .start) t (.take none none (.goto (.architecture .afterKeyword)))
  | architectureName {t} (h : t.isName) :
      Allows (.architecture .afterKeyword) t
        (.take none none (.goto (.architecture (.afterName t.text))))
  | architectureOf {t name} (h : t.isKeyword .of) :
      Allows (.architecture (.afterName name)) t
        (.take none none (.goto (.architecture (.afterOf name))))
  | architectureEntity {t name} (h : t.isName) :
      Allows (.architecture (.afterOf name)) t
        (.take none none (.goto (.architecture (.afterEntity name))))
  | architectureIs {t name} (h : t.isKeyword .is) :
      Allows (.architecture (.afterEntity name)) t
        (.take none (some .architectureName) (.goto (.declarations ⟨.architecture, some name⟩)))
  | packageKeyword {t} (h : t.isKeyword .package) :
      Allows (.package .start) t (.take none none (.goto (.package .afterKeyword)))
  | packageBody {t} (h : t.isKeyword .body) :
      Allows (.package .afterKeyword) t (.take none none (.goto (.package .bodyAfterKeyword)))
  | packageName {t} (h : t.isName) :
      Allows (.package .afterKeyword) t (.take none none (.goto (.package (.afterName t.text))))
  | packageIs {t name} (h : t.isKeyword .is) :
      Allows (.package (.afterName name)) t
        (.take none (some .packageName) (.goto (.package (.afterIs name))))
  | packageDeclarations {t name} (h : ¬ t.isKeyword .new) :
      Allows (.package (.afterIs name)) t (.pass none (.goto (.declarations ⟨.package, some name⟩)))
  | packageBodyName {t} (h : t.isName) :
      Allows (.package .bodyAfterKeyword) t
        (.take none none (.goto (.package (.bodyAfterName t.text))))
  | packageBodyIs {t name} (h : t.isKeyword .is) :
      Allows (.package (.bodyAfterName name)) t
        (.take none (some .packageBodyName) (.goto (.declarations ⟨.packageBody, some name⟩)))
  -- Procedures and functions.
  | procedureKeyword {t} (h : t.isKeyword .procedure) :
      Allows (.procedure .start) t (.take none none (.goto (.procedure .name)))
  | procedureName {t} (h : t.isName) :
      Allows (.procedure .name) t (.take none none (.goto (.procedure (.afterName t.text))))
  | procedureParameters {t name} (h : t.isChar '(') :
      Allows (.procedure (.afterName name)) t
        (.pass (some .procedureName)
          (.call (.procedure (.afterParameters name)) (.interface .parameter .start)))
  | procedureIs {t name} (h : t.isKeyword .is) :
      Allows (.procedure (.afterName name)) t
        (.take none (some .procedureName) (.goto (.declarations ⟨.procedure, some name⟩)))
  | procedureDeclared {t name} (h : t.isChar ';') :
      Allows (.procedure (.afterName name)) t
        (.take (some .procedureName) (some .procedureDeclarationEnd) .return_)
  | procedureParametersIs {t name} (h : t.isKeyword .is) :
      Allows (.procedure (.afterParameters name)) t
        (.take none (some .procedureIs) (.goto (.declarations ⟨.procedure, some name⟩)))
  | procedureParametersDeclared {t name} (h : t.isChar ';') :
      Allows (.procedure (.afterParameters name)) t
        (.take none (some .procedureDeclarationEnd) .return_)
  | functionPurity {t} (h : t.isKeyword .pure || t.isKeyword .impure) :
      Allows (.function .start) t (.take none none (.goto (.function .keyword)))
  | functionStart {t} (h : t.isKeyword .function) :
      Allows (.function .start) t (.take none none (.goto (.function .name)))
  | functionKeyword {t} (h : t.isKeyword .function) :
      Allows (.function .keyword) t (.take none none (.goto (.function .name)))
  | functionName {t} (h : t.isName || t.kind = .stringLiteral) :
      Allows (.function .name) t (.take none none (.goto (.function (.afterName t.text))))
  | functionParameters {t name} (h : t.isChar '(') :
      Allows (.function (.afterName name)) t
        (.pass (some .functionName)
          (.call (.function (.afterParameters name)) (.interface .parameter .start)))
  | functionReturn {t name} (h : t.isKeyword .return) :
      Allows (.function (.afterName name)) t
        (.take (some .functionName) none (.goto (.function (.returnType name 0 false))))
  | functionParametersReturn {t name} (h : t.isKeyword .return) :
      Allows (.function (.afterParameters name)) t
        (.take none none (.goto (.function (.returnType name 0 false))))
  | functionType {t name depth depth' begun} (h : Outline.subtypeStep depth t = .inside depth') :
      Allows (.function (.returnType name depth begun)) t
        (.take none none (.goto (.function (.returnType name depth' true))))
  | functionTypeIs {t name depth} (h : t.isKeyword .is) :
      Allows (.function (.returnType name depth true)) t
        (.take none (some .functionReturnType) (.goto (.declarations ⟨.function, some name⟩)))
  | functionTypeDeclared {t name depth} (h : t.isChar ';') :
      Allows (.function (.returnType name depth true)) t
        (.take (some .functionReturnType) (some .functionDeclarationEnd) .return_)
  -- Object declarations.
  | objectKeyword {t o} (h : t.isKeyword o.keyword) :
      Allows (.object o .start) t (.take none none
        (.goto (.object o (if o = .sharedVariable then .afterShared else .names false))))
  | objectVariable {t o} (h : t.isKeyword .variable_) :
      Allows (.object o .afterShared) t (.take none none (.goto (.object o (.names false))))
  | objectName {t o} (h : t.isName) :
      Allows (.object o (.names false)) t (.take none none (.goto (.object o (.names true))))
  | objectComma {t o} (h : t.isChar ',') :
      Allows (.object o (.names true)) t (.take none none (.goto (.object o (.names false))))
  | objectColon {t o} (h : t.isChar ':') :
      Allows (.object o (.names true)) t (.take none none (.goto (.object o (.subtype 0 false))))
  | objectType {t o depth depth' begun} (h : Outline.subtypeStep depth t = .inside depth') :
      Allows (.object o (.subtype depth begun)) t
        (.take none none (.goto (.object o (.subtype depth' true))))
  | objectTypeEnd {t o depth} (h : t.isChar ';') :
      Allows (.object o (.subtype depth true)) t
        (.take (some o.declarationKind) (some o.endKind) .return_)
  | objectAssign {t o depth} (h : t.isCompound .varAssign) :
      Allows (.object o (.subtype depth true)) t
        (.take none (some o.declarationKind) (.goto (.object o .default_)))
  | objectDefault {t o} :
      Allows (.object o .default_) t
        (.pass none (.call (.object o .end_) (.expression o.default_ 0 false)))
  | objectEnd {t o} (h : t.isChar ';') :
      Allows (.object o .end_) t (.take none (some o.endKind) .return_)
  -- Interface lists.
  | interfaceKeyword {t l k} (hk : l.keyword? = some k) (h : t.isKeyword k) :
      Allows (.interface l .start) t (.take none none (.goto (.interface l .open_)))
  | interfaceStart {t l} (hk : l.keyword? = none) :
      Allows (.interface l .start) t (.pass none (.goto (.interface l .open_)))
  | interfaceOpen {t l} (h : t.isChar '(') :
      Allows (.interface l .open_) t
        (.take none (some l.openKind) (.goto (.interface l .itemStart)))
  | interfaceType {t l kind} (hk : l.typeKind? = some kind) (h : t.isKeyword .type) :
      Allows (.interface l .itemStart) t (.take none none (.goto (.interface l .typeName)))
  | interfaceClass {t l} (h : t.keyword?.any (· ∈ l.classes)) :
      Allows (.interface l .itemStart) t (.take none none (.goto (.interface l (.names false))))
  | interfaceFirst {t l} (h : t.isName) :
      Allows (.interface l .itemStart) t (.take none none (.goto (.interface l (.names true))))
  | interfaceName {t l} (h : t.isName) :
      Allows (.interface l (.names false)) t (.take none none (.goto (.interface l (.names true))))
  | interfaceComma {t l} (h : t.isChar ',') :
      Allows (.interface l (.names true)) t (.take none none (.goto (.interface l (.names false))))
  | interfaceColon {t l} (h : t.isChar ':') :
      Allows (.interface l (.names true)) t (.take none none (.goto (.interface l .mode)))
  | interfaceMode {t l} (h : t.keyword?.any (· ∈ InterfaceList.modes)) :
      Allows (.interface l .mode) t (.take none none (.goto (.interface l (.subtype 0 false))))
  | interfaceNoMode {t l} (h : ¬ t.keyword?.any (· ∈ InterfaceList.modes)) :
      Allows (.interface l .mode) t (.pass none (.goto (.interface l (.subtype 0 false))))
  | interfaceSubtype {t l depth depth' begun} (h : Outline.subtypeStep depth t = .inside depth') :
      Allows (.interface l (.subtype depth begun)) t
        (.take none none (.goto (.interface l (.subtype depth' true))))
  | interfaceDelimiter {t l depth} (h : t.isChar ';') :
      Allows (.interface l (.subtype depth true)) t
        (.take (some l.itemKind) (some l.delimiterKind) (.goto (.interface l .itemStart)))
  | interfaceClose {t l depth} (hs : l.endsWithSemicolon = true) (h : t.isChar ')') :
      Allows (.interface l (.subtype depth true)) t
        (.take (some l.itemKind) none (.goto (.interface l .closeSemicolon)))
  | interfaceReturn {t l depth} (hs : l.endsWithSemicolon = false) (h : t.isChar ')') :
      Allows (.interface l (.subtype depth true)) t
        (.take (some l.itemKind) (some l.closeKind) .return_)
  | interfaceAssign {t l depth} (h : t.isCompound .varAssign) :
      Allows (.interface l (.subtype depth true)) t
        (.take none (some l.itemKind) (.goto (.interface l .default_)))
  | interfaceDefault {t l} :
      Allows (.interface l .default_) t
        (.pass none (.call (.interface l .afterDefault) (.expression l.default_ 0 false)))
  | defaultDelimiter {t l} (h : t.isChar ';') :
      Allows (.interface l .afterDefault) t
        (.take none (some l.delimiterKind) (.goto (.interface l .itemStart)))
  | defaultClose {t l} (hs : l.endsWithSemicolon = true) (h : t.isChar ')') :
      Allows (.interface l .afterDefault) t
        (.take none none (.goto (.interface l .closeSemicolon)))
  | defaultReturn {t l} (hs : l.endsWithSemicolon = false) (h : t.isChar ')') :
      Allows (.interface l .afterDefault) t (.take none (some l.closeKind) .return_)
  | typeName {t l} (h : t.isName) :
      Allows (.interface l .typeName) t (.take none none (.goto (.interface l .afterTypeName)))
  | typeDelimiter {t l} (h : t.isChar ';') :
      Allows (.interface l .afterTypeName) t
        (.take (some (l.typeKind?.getD l.itemKind)) (some l.delimiterKind)
          (.goto (.interface l .itemStart)))
  | typeClose {t l} (hs : l.endsWithSemicolon = true) (h : t.isChar ')') :
      Allows (.interface l .afterTypeName) t
        (.take (some (l.typeKind?.getD l.itemKind)) none (.goto (.interface l .closeSemicolon)))
  | typeReturn {t l} (hs : l.endsWithSemicolon = false) (h : t.isChar ')') :
      Allows (.interface l .afterTypeName) t
        (.take (some (l.typeKind?.getD l.itemKind)) (some l.closeKind) .return_)
  | interfaceSemicolon {t l} (h : t.isChar ';') :
      Allows (.interface l .closeSemicolon) t (.take none (some l.closeKind) .return_)
  -- Declarations and what ends them.
  | declaration {t scope k s} (hk : t.keyword? = some k) (hi : k ∈ scope.construct.items)
      (hs : Outline.declarationState? k = some s) :
      Allows (.declarations scope) t (.pass none (.call (.declarations scope) s))
  | declarationsBegin {t scope kind rule} (hb : scope.construct.begin? = some (kind, rule))
      (h : t.keyword? = some .begin) :
      Allows (.declarations scope) t
        (.take none (some kind) (.goto (.statements (rule.part scope) none)))
  | declarationsEnd {t scope} (h : t.keyword? = some .end_) :
      Allows (.declarations scope) t (.pass none (.goto (.end_ scope .start)))
  | endKeyword {t scope} (h : t.isKeyword .end_) :
      Allows (.end_ scope .start) t (.take none none (.goto (.end_ scope .afterEnd)))
  | endFirst {t scope k} (hk : scope.construct.secondKeyword? = some k)
      (h : t.isKeyword scope.construct.keyword) :
      Allows (.end_ scope .afterEnd) t (.take none none (.goto (.end_ scope .afterFirstKeyword)))
  | endOnly {t scope} (hk : scope.construct.secondKeyword? = none)
      (h : t.isKeyword scope.construct.keyword) :
      Allows (.end_ scope .afterEnd) t (.take none none (.goto (.end_ scope .afterKeyword)))
  | endSecond {t scope k} (hk : scope.construct.secondKeyword? = some k) (h : t.isKeyword k) :
      Allows (.end_ scope .afterFirstKeyword) t
        (.take none none (.goto (.end_ scope .afterKeyword)))
  | endNoSecond {t scope} (hk : scope.construct.secondKeyword? = none) :
      Allows (.end_ scope .afterFirstKeyword) t (.pass none (.goto (.end_ scope .afterKeyword)))
  | endName {t scope phase i} (hp : phase = .afterEnd ∨ phase = .afterKeyword)
      (h : Outline.isEndName t) :
      Allows (.end_ scope phase) t
        (.take none none (.goto (.end_ scope (.afterName ⟨t.text, i, t.first⟩))))
  | endSemicolon {t scope phase} (hp : phase ≠ .start) (h : t.isChar ';') :
      Allows (.end_ scope phase) t (.take none (some scope.construct.endKind) .return_)
  -- Expressions.
  | expressionToken {t x depth depth' begun}
      (h : Outline.expressionToken x depth t = .take (.expression x depth' true)) :
      Allows (.expression x depth begun) t (.take none none (.goto (.expression x depth' true)))
  | expressionEnd {t x} (h : Outline.endsExpression x t) :
      Allows (.expression x 0 true) t (.pass (some x.kind) .return_)
  -- Statement parts.
  | statementsTarget {t part label} (h : t.isName) :
      Allows (.statements part label) t (.pass none (.goto (.target part label .name)))
  | statementsEnd {t part} (h : t.keyword? = some .end_) :
      Allows (.statements part none) t (.pass none (.goto (.end_ part.scope .start)))
  | statementsProcess {t scope label} (h : t.keyword? = some .process) :
      Allows (.statements (.concurrent scope) label) t
        (.pass none (.call (.statements (.concurrent scope) none) (.process label .start)))
  | statementsAssert {t part label} (h : t.keyword? = some .assert) :
      Allows (.statements part label) t
        (.pass none (.call (.statements part none) (.assertion .start)))
  | statementsElsif {t scope} (h : t.keyword? = some .elsif) :
      Allows (.statements (.sequential scope .then_) none) t
        (.pass none (.goto (.ifStatement scope.name .elsif)))
  | statementsElse {t scope} (h : t.keyword? = some .else_) :
      Allows (.statements (.sequential scope .then_) none) t
        (.take none (some .else_) (.goto (.statements (.sequential scope .else_) none)))
  | statementsSimple {t scope branch label} (s : SimpleStatement)
      (h : t.keyword? = some s.keyword) :
      Allows (.statements (.sequential scope branch) label) t
        (.pass none (.call (.statements (.sequential scope branch) none) (.simple s .start)))
  | statementsReport {t scope branch label} (h : t.keyword? = some .report) :
      Allows (.statements (.sequential scope branch) label) t
        (.pass none (.call (.statements (.sequential scope branch) none) (.report .start)))
  | statementsIf {t scope branch label} (h : t.keyword? = some .if_) :
      Allows (.statements (.sequential scope branch) label) t
        (.pass none (.call (.statements (.sequential scope branch) none)
          (.ifStatement label .start)))
  | statementsLoop {t scope branch label}
      (h : t.keyword? = some .for_ ∨ t.keyword? = some .while ∨ t.keyword? = some .loop) :
      Allows (.statements (.sequential scope branch) label) t
        (.pass none (.call (.statements (.sequential scope branch) none) (.loop label .start)))
  -- Simple statements.
  | simpleKeyword {t s} (h : t.isKeyword s.keyword) :
      Allows (.simple s .start) t (.take none none (.goto (.simple s (.afterKeyword false))))
  | simpleWhole {t s labelled} (hs : s.startKind = s.endKind) (h : t.isChar ';') :
      Allows (.simple s (.afterKeyword labelled)) t (.take none (some s.endKind) .return_)
  | simpleBare {t s labelled} (hs : s.startKind ≠ s.endKind) (h : t.isChar ';') :
      Allows (.simple s (.afterKeyword labelled)) t
        (.take (some s.startKind) (some s.endKind) .return_)
  | simpleLabel {t s} (hs : s.isLoopControl) (h : t.isName) :
      Allows (.simple s (.afterKeyword false)) t
        (.take none none (.goto (.simple s (.afterKeyword true))))
  | simpleWhen {t s labelled} (hs : s.isLoopControl) (h : t.isKeyword .when) :
      Allows (.simple s (.afterKeyword labelled)) t
        (.take none (some s.startKind) (.goto (.simple s .value)))
  | simpleExpression {t s labelled x} (hs : s.isLoopControl = false) (hx : s.expression? = some x) :
      Allows (.simple s (.afterKeyword labelled)) t
        (.pass (some s.startKind) (.call (.simple s .end_) (.expression x 0 false)))
  | simpleValue {t s x} (hx : s.expression? = some x) :
      Allows (.simple s .value) t (.pass none (.call (.simple s .end_) (.expression x 0 false)))
  | simpleNoValue {t s} (hx : s.expression? = none) :
      Allows (.simple s .value) t (.pass none (.goto (.simple s .end_)))
  | simpleEnd {t s} (h : t.isChar ';') :
      Allows (.simple s .end_) t (.take none (some s.endKind) .return_)
  -- Statements that start with a name.
  | targetName {t part label} (h : t.isName) :
      Allows (.target part label .name) t
        (.take none none (.goto (.target part label (.afterHead t.text))))
  | targetLabel {t part head} (h : t.isChar ':') :
      Allows (.target part none (.afterHead head)) t
        (.take none none (.goto (.statements part (some head))))
  | targetRest {t part label head} (h : ¬ t.isChar ':') :
      Allows (.target part label (.afterHead head)) t
        (.pass none (.goto (.target part label (.rest 0))))
  | targetToken {t part label depth depth'}
      (h : Outline.targetRest part label depth t = .take (.target part label (.rest depth'))) :
      Allows (.target part label (.rest depth)) t
        (.take none none (.goto (.target part label (.rest depth'))))
  | targetCall {t part label} (h : t.kind = .character ';') :
      Allows (.target part label (.rest 0)) t
        (.take (some .procedureCall) (some .procedureCallEnd) (.goto (.statements part none)))
  | targetAssign {t part label} (a : Assignment)
      (h : t.kind = .compound .leq ∨ t.kind = .compound .varAssign) :
      Allows (.target part label (.rest 0)) t
        (.take none (some a.startKind) (.goto (.assignment a part .value)))
  | assignmentValue {t a part} :
      Allows (.assignment a part .value) t
        (.pass none (.call (.assignment a part .end_) (.expression a.expression 0 false)))
  | assignmentEnd {t a part} (h : t.isChar ';') :
      Allows (.assignment a part .end_) t
        (.take none (some a.endKind) (.goto (.statements part none)))
  -- Assertions and reports.
  | assertKeyword {t} (h : t.isKeyword .assert) :
      Allows (.assertion .start) t (.take none none (.goto (.assertion .afterKeyword)))
  | assertCondition {t} :
      Allows (.assertion .afterKeyword) t (.pass (some .assertStart)
        (.call (.assertion .afterCondition) (.expression .assertCondition 0 false)))
  | assertReport {t} (h : t.isKeyword .report) :
      Allows (.assertion .afterCondition) t
        (.take none (some .assertReport) (.goto (.assertion .message)))
  | assertMessage {t} :
      Allows (.assertion .message) t
        (.pass none (.call (.assertion .afterMessage) (.expression .assertMessage 0 false)))
  | assertSeverity {t phase} (hp : phase = .afterCondition ∨ phase = .afterMessage)
      (h : t.isKeyword .severity) :
      Allows (.assertion phase) t (.take none (some .assertSeverity) (.goto (.assertion .level)))
  | assertLevel {t} :
      Allows (.assertion .level) t
        (.pass none (.call (.assertion .end_) (.expression .assertSeverity 0 false)))
  | assertEnd {t phase} (hp : phase = .afterCondition ∨ phase = .afterMessage ∨ phase = .end_)
      (h : t.isChar ';') :
      Allows (.assertion phase) t (.take none (some .assertEnd) .return_)
  | reportKeyword {t} (h : t.isKeyword .report) :
      Allows (.report .start) t (.take none none (.goto (.report .afterKeyword)))
  | reportMessage {t} :
      Allows (.report .afterKeyword) t (.pass (some .reportStart)
        (.call (.report .afterMessage) (.expression .reportMessage 0 false)))
  | reportSeverity {t} (h : t.isKeyword .severity) :
      Allows (.report .afterMessage) t (.take none (some .reportSeverity) (.goto (.report .level)))
  | reportLevel {t} :
      Allows (.report .level) t
        (.pass none (.call (.report .end_) (.expression .reportSeverity 0 false)))
  | reportEnd {t phase} (hp : phase = .afterMessage ∨ phase = .end_) (h : t.isChar ';') :
      Allows (.report phase) t (.take none (some .reportEnd) .return_)
  -- Processes.
  | processKeyword {t label} (h : t.isKeyword .process) :
      Allows (.process label .start) t (.take none none (.goto (.process label .afterKeyword)))
  | processOpen {t label} (h : t.isChar '(') :
      Allows (.process label .afterKeyword) t
        (.take none none (.goto (.process label (.sensitivity 1))))
  | processToken {t label depth depth'}
      (h : Outline.process label (.sensitivity depth) t =
        .take (.process label (.sensitivity depth'))) :
      Allows (.process label (.sensitivity depth)) t
        (.take none none (.goto (.process label (.sensitivity depth'))))
  | processClose {t label} (h : t.kind = .character ')') :
      Allows (.process label (.sensitivity 1)) t
        (.take none none (.goto (.process label .afterSensitivity)))
  | processIs {t label phase} (hp : phase = .afterKeyword ∨ phase = .afterSensitivity)
      (h : t.isKeyword .is) :
      Allows (.process label phase) t
        (.take none (some .processName) (.goto (.declarations ⟨.process, label⟩)))
  | processDeclarations {t label phase} (hp : phase = .afterKeyword ∨ phase = .afterSensitivity)
      (h : ¬ t.isKeyword .is) :
      Allows (.process label phase) t
        (.pass (some .processName) (.goto (.declarations ⟨.process, label⟩)))
  -- If statements and loops.
  | ifKeyword {t label} (h : t.isKeyword .if_) :
      Allows (.ifStatement label .start) t
        (.take none none (.goto (.ifStatement label .afterKeyword)))
  | ifCondition {t label} :
      Allows (.ifStatement label .afterKeyword) t (.pass (some .ifStart)
        (.call (.ifStatement label .then_) (.expression .ifCondition 0 false)))
  | ifThen {t label} (h : t.isKeyword .then_) :
      Allows (.ifStatement label .then_) t
        (.take none (some .ifThen) (.goto (Outline.thenBranch label)))
  | elsifKeyword {t label} (h : t.isKeyword .elsif) :
      Allows (.ifStatement label .elsif) t
        (.take none none (.goto (.ifStatement label .elsifAfterKeyword)))
  | elsifCondition {t label} :
      Allows (.ifStatement label .elsifAfterKeyword) t (.pass (some .elsIfStart)
        (.call (.ifStatement label .elsifThen) (.expression .elsifCondition 0 false)))
  | elsifThen {t label} (h : t.isKeyword .then_) :
      Allows (.ifStatement label .elsifThen) t
        (.take none (some .elsIfThen) (.goto (Outline.thenBranch label)))
  | loopFor {t label} (h : t.isKeyword .for_) :
      Allows (.loop label .start) t (.take none none (.goto (.loop label .forParameter)))
  | loopWhile {t label} (h : t.isKeyword .while) :
      Allows (.loop label .start) t (.take none none (.goto (.loop label .whileAfterKeyword)))
  | loopParameter {t label} (h : t.isName) :
      Allows (.loop label .forParameter) t (.take none none (.goto (.loop label .forIn)))
  | loopIn {t label} (h : t.isKeyword .in_) :
      Allows (.loop label .forIn) t (.take none none (.goto (.loop label .forAfterIn)))
  | loopRange {t label} :
      Allows (.loop label .forAfterIn) t (.pass (some .forStart)
        (.call (.loop label .forAfterRange) (.expression .forRange 0 false)))
  | loopDirection {t label} (h : t.isKeyword .to || t.isKeyword .downto) :
      Allows (.loop label .forAfterRange) t
        (.take none (some .loopDirection) (.goto (.loop label .bound)))
  | loopBound {t label} :
      Allows (.loop label .bound) t
        (.pass none (.call (.loop label .body) (.expression .loopBound 0 false)))
  | loopCondition {t label} :
      Allows (.loop label .whileAfterKeyword) t (.pass (some .whileStart)
        (.call (.loop label .body) (.expression .whileCondition 0 false)))
  | loopBegin {t label phase} (hp : phase = .start ∨ phase = .forAfterRange ∨ phase = .body)
      (h : t.isKeyword .loop) :
      Allows (.loop label phase) t (.take none (some .loopBegin)
        (.goto (.statements (.sequential ⟨.loop, label⟩ .plain) none)))

/-! ## The reactions follow the table -/

namespace Outcome

/-- Whatever move the outcome holds, `P` is true of it. -/
def Ensures (P : Move → Prop) (o : Outcome) : Prop := ∀ r, o = .ok r → P r.move

variable {P : Move → Prop}

@[simp] theorem ensures_error (c : Complaint) : Ensures P (.error c) := by
  intro r h
  cases h

@[simp] theorem ensures_ok (r : Reaction) : Ensures P (.ok r) ↔ P r.move := by
  constructor
  · exact fun h => h r rfl
  · rintro h _ ⟨⟩
    exact h

@[simp] theorem ensures_noting (n : Note) (o : Outcome) : Ensures P (o.noting n) ↔ Ensures P o := by
  cases o <;> simp [noting, Except.map]

@[simp] theorem ensures_ite (p : Prop) [Decidable p] (a b : Outcome) :
    Ensures P (if p then a else b) ↔ (p → Ensures P a) ∧ (¬ p → Ensures P b) := by
  split <;> simp [*]

end Outcome

namespace State

open Outcome

section

attribute [local simp] expected notImplemented take close closeReturn cutTake cutClose
  cutCloseReturn Outcome.pass cutPass call cutCall cutReturn

theorem documentStart_allows (t : Token) :
    Ensures (Allows .documentStart t) (Outline.documentStart t) := by
  simpa [Outline.documentStart] using Allows.documentStart

theorem documentRegion_allows (t : Token) :
    Ensures (Allows .documentRegion t) (Outline.documentRegion t) := by
  unfold Outline.documentRegion
  split
  · simpa using Allows.documentEnd ‹_›
  · split <;> simp
    · exact .documentReference .library ‹_›
    · exact .documentReference .use ‹_›
    · exact .documentReference .context ‹_›
    · exact .documentEntity ‹_›
    · exact .documentArchitecture ‹_›
    · exact .documentPackage ‹_›

theorem reference_allows (r : Reference) (phase : ReferencePhase) (t : Token) :
    Ensures (Allows (.reference r phase) t) (Outline.reference r phase t) := by
  unfold Outline.reference
  split <;> simp only [ensures_ite]
  all_goals simp; grind [Allows]

theorem entity_allows (phase : EntityPhase) (t : Token) :
    Ensures (Allows (.entity phase) t) (Outline.entity phase t) := by
  unfold Outline.entity
  split <;> simp
  · exact .entityKeyword
  · exact .entityName
  · exact .entityIs

theorem architecture_allows (phase : ArchitecturePhase) (t : Token) :
    Ensures (Allows (.architecture phase) t) (Outline.architecture phase t) := by
  unfold Outline.architecture
  split <;> simp
  · exact .architectureKeyword
  · exact .architectureName
  · exact .architectureOf
  · exact .architectureEntity
  · exact .architectureIs

theorem package_allows (phase : PackagePhase) (t : Token) :
    Ensures (Allows (.package phase) t) (Outline.package phase t) := by
  unfold Outline.package
  split <;> simp
  · exact .packageKeyword
  · exact ⟨.packageBody, fun _ => .packageName⟩
  · exact .packageIs
  · exact fun h => .packageDeclarations (by simp [h])
  · exact .packageBodyName
  · exact .packageBodyIs

theorem procedure_allows (phase : ProcedurePhase) (t : Token) :
    Ensures (Allows (.procedure phase) t) (Outline.procedure phase t) := by
  unfold Outline.procedure
  split <;> simp
  · exact .procedureKeyword
  · exact .procedureName
  · exact ⟨.procedureParameters, fun _ => ⟨.procedureIs, fun _ => .procedureDeclared⟩⟩
  · exact ⟨.procedureParametersIs, fun _ => .procedureParametersDeclared⟩

theorem function_allows (phase : FunctionPhase) (t : Token) :
    Ensures (Allows (.function phase) t) (Outline.function phase t) := by
  unfold Outline.function
  split
  case h_6 name depth begun =>
    split <;> simp
    · exact .functionType ‹_›
    · rintro rfl
      exact ⟨.functionTypeIs, fun _ => .functionTypeDeclared⟩
  all_goals simp; grind [Allows]

theorem object_allows (o : ObjectClass) (phase : ObjectPhase) (t : Token) :
    Ensures (Allows (.object o phase) t) (Outline.object o phase t) := by
  unfold Outline.object
  split
  case h_5 depth begun =>
    split <;> simp
    · exact .objectType ‹_›
    · rintro rfl
      exact ⟨.objectTypeEnd, fun _ => .objectAssign⟩
  all_goals simp; grind [Allows]

theorem closeList_ensures {P : Move → Prop} {l : InterfaceList} {before : BlockKind}
    (hc : l.endsWithSemicolon = true →
      P (.take (some before) none (.goto (.interface l .closeSemicolon))))
    (hr : l.endsWithSemicolon = false → P (.take (some before) (some l.closeKind) .return_)) :
    Ensures P (Outline.closeList l before) := by
  simpa [Outline.closeList] using ⟨hc, hr⟩

theorem itemStart_allows (l : InterfaceList) (t : Token) :
    Ensures (Allows (.interface l .itemStart) t) (Outline.itemStart l t) := by
  unfold Outline.itemStart
  split
  · rename_i h
    obtain ⟨hk, ht⟩ := Bool.and_eq_true_iff.1 h
    obtain ⟨kind, hk⟩ := Option.isSome_iff_exists.1 hk
    simpa using .interfaceType hk ht
  · split
    · simp
    · simp only [ensures_ite]
      exact ⟨fun h => by simpa using .interfaceClass h,
        fun _ => ⟨fun h => by simpa using .interfaceFirst h, fun _ => by simp⟩⟩

theorem interface_allows (l : InterfaceList) (phase : InterfacePhase) (t : Token) :
    Ensures (Allows (.interface l phase) t) (Outline.interface l phase t) := by
  unfold Outline.interface
  split
  case h_1 =>
    split <;> simp
    · exact .interfaceKeyword ‹_›
    · exact .interfaceStart ‹_›
  case h_2 =>
    simp only [ensures_ite]
    refine ⟨fun h => by simpa using .interfaceOpen h, fun _ => ?_⟩
    split <;> simp
  case h_3 => exact itemStart_allows l t
  case h_7 depth begun =>
    split
    · simpa using .interfaceSubtype ‹_›
    · simp
    · simp only [ensures_ite]
      refine ⟨fun _ => by simp, fun h => ?_⟩
      obtain rfl : begun = true := by simpa using h
      refine ⟨fun h => by simpa using .interfaceDelimiter h, fun _ => ⟨fun h => ?_, fun _ => ?_⟩⟩
      · exact closeList_ensures (.interfaceClose · h) (.interfaceReturn · h)
      · exact ⟨fun h => by simpa using .interfaceAssign h, fun _ => by simp⟩
  case h_11 =>
    simp only [ensures_ite]
    refine ⟨fun h => by simpa using .typeDelimiter h, fun _ => ⟨fun h => ?_, fun _ => by simp⟩⟩
    exact closeList_ensures (.typeClose · h) (.typeReturn · h)
  all_goals simp; grind [Allows]

theorem declarations_allows (scope : Scope) (t : Token) :
    Ensures (Allows (.declarations scope) t) (Outline.declarations scope t) := by
  unfold Outline.declarations Outline.refuseDeclaration
  split
  · simp
  · rename_i k hk
    split
    · rename_i s hs
      split at hs
      · simpa using .declaration hk ‹_› hs
      · cases hs
    · split
      · rename_i kind rule hb _
        simpa using .declarationsBegin hb hk
      · simpa using .declarationsEnd hk
      · split <;> simp

theorem endFinish_allows {scope : Scope} {phase : EndPhase} {t : Token} (hp : phase ≠ .start)
    (h : t.isChar ';') (found : Option EndName) :
    Ensures (Allows (.end_ scope phase) t) (Outline.endFinish scope found) := by
  simpa [Outline.endFinish] using .endSemicolon hp h

theorem end_allows (scope : Scope) (phase : EndPhase) (i : Nat) (t : Token) :
    Ensures (Allows (.end_ scope phase) t) (Outline.end_ scope phase i t) := by
  unfold Outline.end_
  dsimp only
  split
  case h_1 => simpa using .endKeyword
  case h_2 =>
    simp only [ensures_ite]
    refine ⟨fun h => ?_, fun _ => ⟨fun _ => by simp, fun _ => ⟨fun h => ?_, fun _ => ⟨fun h => ?_,
      fun _ => by simp⟩⟩⟩⟩
    · cases hk : scope.construct.secondKeyword? with
      | none => simpa using .endOnly hk h
      | some k => simpa using .endFirst hk h
    · exact endFinish_allows (by simp) h _
    · simpa [Outline.endName] using .endName (.inl rfl) h
  case h_3 =>
    split
    · simpa using .endSecond ‹_›
    · simpa using .endNoSecond ‹_›
  case h_4 =>
    simp only [ensures_ite]
    refine ⟨fun h => endFinish_allows (by simp) h _, fun _ => ⟨fun h => ?_, fun _ => by simp⟩⟩
    simpa [Outline.endName] using .endName (.inr rfl) h
  case h_5 =>
    simp only [ensures_ite]
    exact ⟨fun h => endFinish_allows (by simp) h _, fun _ => by simp⟩

theorem expression_allows (x : Expression) (depth : Nat) (begun : Bool) (t : Token) :
    Ensures (Allows (.expression x depth begun) t) (Outline.expression x depth begun t) := by
  unfold Outline.expression
  split
  · rename_i h
    obtain ⟨rfl, h⟩ := h
    cases begun
    · simp
    · simpa using .expressionEnd h
  · -- A token that does not end the expression is taken or refused.
    have key : ∀ depth', Outline.expressionToken x depth t = .take (.expression x depth' true) →
        Allows (.expression x depth begun) t
          (.take none none (.goto (.expression x depth' true))) :=
      fun _ h => .expressionToken h
    unfold Outline.expressionToken at key ⊢
    split <;> simp_all

theorem concurrent_allows (scope : Scope) (label : Option String) (t : Token) :
    Ensures (Allows (.statements (.concurrent scope) label) t)
      (Outline.concurrent scope label t) := by
  unfold Outline.concurrent Outline.refuseConcurrent
  dsimp only
  split
  · simpa using .statementsTarget
  · rename_i k hk
    split
    · rename_i h
      obtain ⟨rfl, h⟩ := h
      obtain rfl : label = none := by simpa using h
      exact (ensures_ok _).2 (.statementsEnd hk)
    · split
      · simpa using .statementsProcess hk
      · simpa using .statementsAssert hk
      · split <;> simp

theorem sequentialEnd?_allows {scope : Scope} {branch : Branch} {k : Keyword} {t : Token}
    (hk : t.keyword? = some k) {o : Outcome} (h : Outline.sequentialEnd? scope branch k = some o) :
    Ensures (Allows (.statements (.sequential scope branch) none) t) o := by
  unfold Outline.sequentialEnd? at h
  split at h <;> cases h
  · exact (ensures_ok _).2 (.statementsEnd hk)
  · simpa using .statementsElsif hk
  · simpa using .statementsElse hk

theorem sequentialStatement?_allows {scope : Scope} {branch : Branch} {label : Option String}
    {k : Keyword} {t : Token} (hk : t.keyword? = some k) {o : Outcome}
    (h : Outline.sequentialStatement? (.sequential scope branch) label k = some o) :
    Ensures (Allows (.statements (.sequential scope branch) label) t) o := by
  unfold Outline.sequentialStatement? at h
  dsimp only at h
  split at h <;> cases h <;> simp
  · exact .statementsSimple .return_ hk
  · exact .statementsSimple .exit hk
  · exact .statementsSimple .next hk
  · exact .statementsSimple .wait hk
  · exact .statementsSimple .null hk
  · exact .statementsReport hk
  · exact .statementsAssert hk
  · exact .statementsIf hk
  · exact .statementsLoop (.inl hk)
  · exact .statementsLoop (.inr (.inl hk))
  · exact .statementsLoop (.inr (.inr hk))

theorem sequential_allows (scope : Scope) (branch : Branch) (label : Option String) (t : Token) :
    Ensures (Allows (.statements (.sequential scope branch) label) t)
      (Outline.sequential scope branch label t) := by
  unfold Outline.sequential Outline.refuseSequential
  dsimp only
  split
  · simpa using .statementsTarget
  · rename_i k hk
    cases he : (if label.isNone then Outline.sequentialEnd? scope branch k else none) with
    | some o =>
      obtain ⟨hl, he⟩ : label = none ∧ Outline.sequentialEnd? scope branch k = some o := by
        simpa using he
      subst hl
      simpa using sequentialEnd?_allows hk he
    | none =>
      cases hs : Outline.sequentialStatement? (.sequential scope branch) label k with
      | some o => simpa using sequentialStatement?_allows hk hs
      | none => simp

theorem simple_allows (s : SimpleStatement) (phase : SimplePhase) (t : Token) :
    Ensures (Allows (.simple s phase) t) (Outline.simple s phase t) := by
  unfold Outline.simple
  split
  case h_1 => simpa using .simpleKeyword
  case h_2 labelled =>
    unfold Outline.simpleAfterKeyword
    split
    · simp only [ensures_ite]
      exact ⟨fun hs => by simpa using .simpleWhole hs ‹_›,
        fun hs => by simpa using .simpleBare hs ‹_›⟩
    · split
      · simp
        refine ⟨?_, fun _ => .simpleWhen ‹_›⟩
        rintro rfl
        exact .simpleLabel ‹_›
      · rename_i hs
        split
        · exact (ensures_ok _).2 (.simpleExpression (by simpa using hs) ‹_›)
        · simp
  case h_3 =>
    split
    · simpa using .simpleValue ‹_›
    · simpa using .simpleNoValue ‹_›
  case h_4 => simpa using .simpleEnd

theorem target_allows (part : Part) (label : Option String) (phase : TargetPhase) (t : Token) :
    Ensures (Allows (.target part label phase) t) (Outline.target part label phase t) := by
  unfold Outline.target
  split
  case h_1 => simpa using .targetName
  case h_2 =>
    simp only [ensures_ite]
    refine ⟨fun h => ⟨fun _ => by simp, fun hl => ?_⟩, fun h => by simpa using .targetRest h⟩
    obtain rfl : label = none := by simpa using hl
    simpa using .targetLabel h
  case h_3 depth =>
    have key : ∀ depth', Outline.targetRest part label depth t =
        .take (.target part label (.rest depth')) → Allows (.target part label (.rest depth)) t
          (.take none none (.goto (.target part label (.rest depth')))) :=
      fun _ h => .targetToken h
    unfold Outline.targetRest at key ⊢
    split <;> simp_all
    all_goals grind [Allows]

theorem assignment_allows (a : Assignment) (part : Part) (phase : AssignmentPhase) (t : Token) :
    Ensures (Allows (.assignment a part phase) t) (Outline.assignment a part phase t) := by
  unfold Outline.assignment
  split <;> simp
  · exact .assignmentValue
  · exact .assignmentEnd

theorem assertion_allows (phase : AssertionPhase) (t : Token) :
    Ensures (Allows (.assertion phase) t) (Outline.assertion phase t) := by
  unfold Outline.assertion Outline.assertAfterMessage Outline.assertEnd
  split <;> simp
  all_goals grind [Allows]

theorem report_allows (phase : ReportPhase) (t : Token) :
    Ensures (Allows (.report phase) t) (Outline.report phase t) := by
  unfold Outline.report Outline.reportEnd
  split <;> simp
  all_goals grind [Allows]

theorem process_allows (label : Option String) (phase : ProcessPhase) (t : Token) :
    Ensures (Allows (.process label phase) t) (Outline.process label phase t) := by
  have key : ∀ depth depth', Outline.process label (.sensitivity depth) t =
      .take (.process label (.sensitivity depth')) → Allows (.process label (.sensitivity depth)) t
        (.take none none (.goto (.process label (.sensitivity depth')))) :=
    fun _ _ h => .processToken h
  unfold Outline.process Outline.processAfterSensitivity at *
  split
  case h_3 depth =>
    replace key := key depth
    split <;> simp_all
    all_goals grind [Allows]
  all_goals simp; grind [Allows]

theorem ifStatement_allows (label : Option String) (phase : IfPhase) (t : Token) :
    Ensures (Allows (.ifStatement label phase) t) (Outline.ifStatement label phase t) := by
  unfold Outline.ifStatement
  split <;> simp
  · exact .ifKeyword
  · exact .ifCondition
  · exact .ifThen
  · exact .elsifKeyword
  · exact .elsifCondition
  · exact .elsifThen

theorem loop_allows (label : Option String) (phase : LoopPhase) (t : Token) :
    Ensures (Allows (.loop label phase) t) (Outline.loop label phase t) := by
  unfold Outline.loop Outline.loopBody
  split <;> simp
  all_goals grind [Allows]

end

/-- **The reactions follow the table.** -/
theorem allows_of_react {s : State} {i : Nat} {t : Token} {r : Reaction}
    (h : s.react i t = .ok r) : s.Allows t r.move := by
  suffices Ensures (s.Allows t) (s.react i t) from this r h
  unfold react
  split
  · exact documentStart_allows t
  · exact documentRegion_allows t
  · exact reference_allows _ _ t
  · exact entity_allows _ t
  · exact architecture_allows _ t
  · exact package_allows _ t
  · exact procedure_allows _ t
  · exact function_allows _ t
  · exact process_allows _ _ t
  · exact declarations_allows _ t
  · exact concurrent_allows _ _ t
  · exact sequential_allows _ _ _ t
  · exact end_allows _ _ i t
  · exact object_allows _ _ t
  · exact interface_allows _ _ t
  · exact expression_allows _ _ _ t
  · exact simple_allows _ _ t
  · exact target_allows _ _ _ t
  · exact assignment_allows _ _ _ t
  · exact assertion_allows _ t
  · exact report_allows _ t
  · exact ifStatement_allows _ _ t
  · exact loop_allows _ _ t

end State

end VhdlOutline
