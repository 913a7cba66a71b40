import VhdlOutline.Block.Kind

/-!
# The grammar of block kinds

How blocks nest, as a grammar over their kinds. Whether blanks and comments split a block is not a
matter of the grammar.

* `Shape` are the right-hand sides of rules, in the extended form with options and repetitions.
* `Symbol.rule` are the rules.
* `Derives` are the words that shapes derive, from left to right: the shape at the front is
  replaced, or removed together with the kind it stands for.
-/

namespace VhdlOutline

/-- What a rule of the grammar defines. -/
inductive Symbol
  | document
  | declaration
  /-- A statement of an entity or architecture. -/
  | concurrent
  /-- A statement of a process, subprogram, branch or loop. -/
  | sequential
  deriving DecidableEq

/-- The right-hand side of a rule. -/
inductive Shape
  | block (kind : BlockKind)
  | ref (s : Symbol)
  /-- All of the shapes, in order. -/
  | seq (shapes : List Shape)
  /-- One of the shapes. -/
  | alt (shapes : List Shape)
  /-- The shape or nothing. -/
  | optional (shape : Shape)
  /-- The shape any number of times. -/
  | many (shape : Shape)

namespace Shape

instance : Coe BlockKind Shape := ⟨.block⟩

/-! ## Declarations -/

/-- A clause with names, such as `use a.b, c.d;`. -/
def clause (start name delimiter ending : BlockKind) : List Shape :=
  [start, name, .many (.seq [delimiter, name]), ending]

/-- The declaration of objects, with a value or without. -/
def object (declaration value ending : BlockKind) : List Shape :=
  [declaration, .optional value, ending]

/-- An item of a generic clause: a constant, with a value or without, or a type. -/
def genericItem : Shape :=
  .alt [
    .seq [.block .genericListInterfaceConstant, .optional (.block .genericListDefaultExpression)],
    .block .genericListInterfaceType]

/-- An item of a port clause. -/
def portItem : Shape :=
  .seq [.block .portListInterfaceSignal, .optional (.block .portListDefaultExpression)]

/-- An item of a parameter list. -/
def parameterItem : Shape :=
  .seq [.block .parameterListInterfaceObject, .optional (.block .parameterListDefaultExpression)]

/-- The items of an interface list after the first, and its end. -/
def moreItems (item : Shape) (delimiter close : BlockKind) : List Shape :=
  [.many (.seq [delimiter, item]), close]

/-- An interface list. -/
def interface (start : BlockKind) (item : Shape) (delimiter close : BlockKind) : List Shape :=
  start :: item :: moreItems item delimiter close

def genericClause : List Shape :=
  interface .genericListOpen genericItem .genericListDelimiter .genericListClose

def portClause : List Shape := interface .portListOpen portItem .portListDelimiter .portListClose

def parameterList : List Shape :=
  interface .parameterListOpen parameterItem .parameterListDelimiter .parameterListClose

/-- Declarations, and the end of the construct that they are in. -/
def region (ending : BlockKind) : List Shape := [.many (.ref .declaration), ending]

/-- Declarations, perhaps statements, and the end of the construct that they are in. -/
def body (start : BlockKind) (statement : Symbol) (ending : BlockKind) : List Shape :=
  [.many (.ref .declaration), .optional (.seq [start, .many (.ref statement)]), ending]

/-- A procedure body after the word `is`. -/
def procedureBody : List Shape := body .procedureBegin .sequential .procedureEnd

/-- A procedure after its parameters: declared or defined. -/
def procedureEnd : Shape :=
  .alt [.block .procedureDeclarationEnd, .seq (.block .procedureIs :: procedureBody)]

/-- A procedure. Without parameters, the word `is` belongs to the block with its name. -/
def procedure : List Shape :=
  [.block .procedureName, .alt [.block .procedureDeclarationEnd, .seq procedureBody,
    .seq (parameterList ++ [procedureEnd])]]

/-- A function body after the word `is`. -/
def functionBody : List Shape := body .functionBegin .sequential .functionEnd

/-- A function after its parameters. -/
def functionEnd : List Shape :=
  [.block .functionReturnType, .alt [.block .functionDeclarationEnd, .seq functionBody]]

/-- A function. -/
def function : List Shape :=
  .block .functionName :: .optional (.seq parameterList) :: functionEnd

/-! ## Statements -/

/-- A statement of a reserved word, an expression that may be missing and a semicolon. -/
def simple (start value ending : BlockKind) : Shape := .seq [start, .optional value, ending]

/-- An assignment. -/
def assignment (start value ending : BlockKind) : List Shape := [start, value, ending]

/-- The severity of an assertion, and its end. -/
def assertSeverity : List Shape :=
  [.optional (.seq [.block .assertSeverity, .block .assertSeverityLevel]), .block .assertEnd]

/-- An assertion. -/
def assertion : List Shape :=
  .block .assertStart :: .block .assertCondition ::
    .optional (.seq [.block .assertReport, .block .assertMessage]) :: assertSeverity

/-- The severity of a report statement, and its end. -/
def reportSeverity : List Shape :=
  [.optional (.seq [.block .reportSeverity, .block .reportSeverityLevel]), .block .reportEnd]

/-- A report statement. -/
def report : List Shape := .block .reportStart :: .block .reportMessage :: reportSeverity

/-- A procedure call. -/
def call : List Shape := [.block .procedureCall, .block .procedureCallEnd]

/-- A further branch with its condition. -/
def elsif : List Shape :=
  [.block .elsIfStart, .block .elsIfCondition, .block .elsIfThen, .many (.ref .sequential)]

/-- The branch without a condition. -/
def else_ : Shape := .seq [.block .else_, .many (.ref .sequential)]

/-- An if statement after the statements of a branch with a condition. -/
def moreBranches : List Shape := [.many (.seq elsif), .optional else_, .block .ifEnd]

/-- An if statement. -/
def ifStatement : List Shape :=
  .block .ifStart :: .block .ifCondition :: .block .ifThen :: .many (.ref .sequential) ::
    moreBranches

/-- The direction and second bound of the range of a loop. -/
def direction : Shape := .seq [.block .loopDirection, .block .loopBound]

/-- The statements of a loop. -/
def loopBody : List Shape := [.block .loopBegin, .many (.ref .sequential), .block .loopEnd]

/-- A loop, with a range, with a condition, or with neither. -/
def loop : List Shape :=
  .optional (.alt [.seq [.block .forStart, .block .forRange, .optional direction],
    .seq [.block .whileStart, .block .whileCondition]]) :: loopBody

/-! ## The rules -/

/-- The statements of both sorts. -/
def commonStatements : List Shape :=
  [.seq assertion,
    .seq (assignment .signalAssignment .signalAssignmentExpression .signalAssignmentEnd),
    .seq (assignment .variableAssignment .variableAssignmentExpression .variableAssignmentEnd),
    .seq call]

/-- A design unit, or a clause before one. -/
def designUnit : Shape :=
  .alt [.seq (clause .libraryStart .libraryReferenceName .libraryDelimiter .libraryEnd),
    .seq (clause .useStart .useReferenceName .useDelimiter .useEnd),
    .seq (clause .contextStart .contextReferenceName .contextDelimiter .contextEnd),
    .seq (.block .entityName :: body .entityBegin .concurrent .entityEnd),
    .seq (.block .architectureName :: body .architectureBegin .concurrent .architectureEnd),
    .seq (.block .packageName :: region .packageEnd),
    .seq (.block .packageBodyName :: region .packageBodyEnd)]

/-- A declaration. -/
def declaration : Shape :=
  .alt [.seq (object .constantDeclaration .constantDefaultExpression .constantDeclarationEnd),
    .seq (object .signalDeclaration .signalDefaultExpression .signalDeclarationEnd),
    .seq (object .variableDeclaration .variableDefaultExpression .variableDeclarationEnd),
    .seq (object .sharedVariableDeclaration .variableDefaultExpression .variableDeclarationEnd),
    .seq (clause .useStart .useReferenceName .useDelimiter .useEnd),
    .seq genericClause, .seq portClause, .seq procedure, .seq function]

/-- A statement of an entity or architecture. -/
def concurrentStatement : Shape :=
  .alt (.seq (.block .processName :: body .processBegin .sequential .processEnd) ::
    commonStatements)

/-- A statement of a process, subprogram, branch or loop. -/
def sequentialStatement : Shape :=
  .alt (simple .returnStart .returnExpression .returnEnd ::
    simple .exitStart .exitCondition .exitEnd :: simple .nextStart .nextCondition .nextEnd ::
    simple .waitStart .waitCondition .waitEnd :: .block .nullStatement :: .seq report ::
    .seq ifStatement :: .seq loop :: commonStatements)

end Shape

/-- The rules of the grammar. -/
def Symbol.rule : Symbol → Shape
  | .document => .seq [.block .startOfDocument, .many Shape.designUnit, .block .endOfDocument]
  | .declaration => Shape.declaration
  | .concurrent => Shape.concurrentStatement
  | .sequential => Shape.sequentialStatement

/-- The sequences of kinds that a sequence of shapes derives. -/
inductive Derives : List Shape → List BlockKind → Prop
  | nil : Derives [] []
  | block {kind : BlockKind} {rest : List Shape} {ks : List BlockKind} (h : Derives rest ks) :
      Derives (.block kind :: rest) (kind :: ks)
  | ref {s : Symbol} {rest : List Shape} {ks : List BlockKind} (h : Derives (s.rule :: rest) ks) :
      Derives (.ref s :: rest) ks
  | seq {shapes rest : List Shape} {ks : List BlockKind} (h : Derives (shapes ++ rest) ks) :
      Derives (.seq shapes :: rest) ks
  | alt {shape : Shape} {shapes rest : List Shape} {ks : List BlockKind} (hs : shape ∈ shapes)
      (h : Derives (shape :: rest) ks) : Derives (.alt shapes :: rest) ks
  | without {shape : Shape} {rest : List Shape} {ks : List BlockKind} (h : Derives rest ks) :
      Derives (.optional shape :: rest) ks
  | with_ {shape : Shape} {rest : List Shape} {ks : List BlockKind}
      (h : Derives (shape :: rest) ks) : Derives (.optional shape :: rest) ks
  | done {shape : Shape} {rest : List Shape} {ks : List BlockKind} (h : Derives rest ks) :
      Derives (.many shape :: rest) ks
  | more {shape : Shape} {rest : List Shape} {ks : List BlockKind}
      (h : Derives (shape :: .many shape :: rest) ks) : Derives (.many shape :: rest) ks

/-- What follows may be replaced by anything that derives at least as much. -/
theorem Derives.append_mono {front rest rest' : List Shape} {ks : List BlockKind}
    (h : Derives (front ++ rest) ks) (hr : ∀ {ks}, Derives rest ks → Derives rest' ks) :
    Derives (front ++ rest') ks := by
  generalize hs : front ++ rest = shapes at h
  induction h generalizing front with
  | nil =>
    obtain ⟨rfl, rfl⟩ := List.append_eq_nil_iff.1 hs
    exact hr .nil
  | block h ih =>
    cases front with
    | nil =>
      obtain rfl : rest = _ := hs
      exact hr (.block h)
    | cons shape front =>
      obtain ⟨rfl, rfl⟩ := List.cons.inj hs
      exact .block (ih rfl)
  | ref h ih =>
    cases front with
    | nil =>
      obtain rfl : rest = _ := hs
      exact hr (.ref h)
    | cons shape front =>
      obtain ⟨rfl, rfl⟩ := List.cons.inj hs
      exact .ref (@ih (_ :: front) rfl)
  | seq h ih =>
    cases front with
    | nil =>
      obtain rfl : rest = _ := hs
      exact hr (.seq h)
    | cons shape front =>
      obtain ⟨rfl, rfl⟩ := List.cons.inj hs
      refine .seq ?_
      have := ih (List.append_assoc ..)
      rwa [List.append_assoc] at this
  | alt hmem h ih =>
    cases front with
    | nil =>
      obtain rfl : rest = _ := hs
      exact hr (.alt hmem h)
    | cons shape front =>
      obtain ⟨rfl, rfl⟩ := List.cons.inj hs
      exact .alt hmem (@ih (_ :: front) rfl)
  | without h ih =>
    cases front with
    | nil =>
      obtain rfl : rest = _ := hs
      exact hr (.without h)
    | cons shape front =>
      obtain ⟨rfl, rfl⟩ := List.cons.inj hs
      exact .without (ih rfl)
  | with_ h ih =>
    cases front with
    | nil =>
      obtain rfl : rest = _ := hs
      exact hr (.with_ h)
    | cons shape front =>
      obtain ⟨rfl, rfl⟩ := List.cons.inj hs
      exact .with_ (@ih (_ :: front) rfl)
  | done h ih =>
    cases front with
    | nil =>
      obtain rfl : rest = _ := hs
      exact hr (.done h)
    | cons shape front =>
      obtain ⟨rfl, rfl⟩ := List.cons.inj hs
      exact .done (ih rfl)
  | more h ih =>
    cases front with
    | nil =>
      obtain rfl : rest = _ := hs
      exact hr (.more h)
    | cons shape front =>
      obtain ⟨rfl, rfl⟩ := List.cons.inj hs
      exact .more (@ih (_ :: _ :: front) rfl)

end VhdlOutline
