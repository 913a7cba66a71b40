import VhdlOutline.Block.Kind
import VhdlOutline.Token.Keyword

/-!
# The constructs of the language

What the outline knows about each construct: the reserved words that introduce it, and the kinds of
the blocks it is made of.

* `Construct` has an `end` of its own, `Scope` is one that is open, with its name.
* `Reference`, `ObjectClass` and `InterfaceList` are the declarations, `SimpleStatement` and
  `Assignment` the statements that need no machine of their own.
* `Expression` is an expression by the place it stands in, which says what ends it.
-/

namespace VhdlOutline

/-! ## Constructs with an end -/

/-- A construct that ends with `end`. -/
inductive Construct
  | entity
  | architecture
  | package
  | packageBody
  | procedure
  | function
  | process
  | if_
  | loop
  deriving DecidableEq

/-- How the statements of a construct are read. -/
inductive StatementRule
  /-- The statements of an entity or architecture, which run side by side. -/
  | concurrent
  /-- The statements of a process or subprogram, which run one after the other. -/
  | sequential
  deriving DecidableEq

namespace Construct

/-- The reserved word of the construct, which may follow its `end`. -/
def keyword : Construct → Keyword
  | .entity => .entity
  | .architecture => .architecture
  | .package | .packageBody => .package
  | .procedure => .procedure
  | .function => .function
  | .process => .process
  | .if_ => .if_
  | .loop => .loop

/-- A word that must follow the reserved word after `end`. -/
def secondKeyword? : Construct → Option Keyword
  | .packageBody => some .body
  | _ => none

/-- Whether the reserved word must follow `end`. -/
def keywordRequired : Construct → Bool
  | .process | .if_ | .loop => true
  | _ => false

/-- The kind of the block from `end` to the semicolon. -/
def endKind : Construct → BlockKind
  | .entity => .entityEnd
  | .architecture => .architectureEnd
  | .package => .packageEnd
  | .packageBody => .packageBodyEnd
  | .procedure => .procedureEnd
  | .function => .functionEnd
  | .process => .processEnd
  | .if_ => .ifEnd
  | .loop => .loopEnd

/-- The words that introduce the declarations of the construct, in the order in which messages list
them. -/
def items : Construct → List Keyword
  | .entity =>
    [.generic, .port, .constant, .signal, .shared, .use, .procedure, .function, .pure, .impure]
  | .architecture => [.constant, .signal, .shared, .use, .procedure, .function, .pure, .impure]
  | .package =>
    [.generic, .constant, .signal, .shared, .use, .procedure, .function, .pure, .impure]
  | .packageBody => [.constant, .shared, .use, .procedure, .function, .pure, .impure]
  | .procedure | .function =>
    [.constant, .variable_, .use, .procedure, .function, .pure, .impure]
  | .process => [.constant, .variable_, .shared, .use, .procedure, .function, .pure, .impure]
  | .if_ | .loop => []

/-- The kind of the `begin` after the declarations, and how the statements after it are read. -/
def begin? : Construct → Option (BlockKind × StatementRule)
  | .entity => some (.entityBegin, .concurrent)
  | .architecture => some (.architectureBegin, .concurrent)
  | .procedure => some (.procedureBegin, .sequential)
  | .function => some (.functionBegin, .sequential)
  | .process => some (.processBegin, .sequential)
  | .package | .packageBody | .if_ | .loop => none

end Construct

/-- An open construct and its name, or the label of the statement it is, if it has one. -/
structure Scope where
  construct : Construct
  name : Option String
  deriving DecidableEq

/-- The branches of an if statement, as far as they decide what may follow. -/
inductive Branch
  /-- No branch of an if statement. -/
  | plain
  /-- The statements after `then`, which `elsif` or `else` may follow. -/
  | then_
  /-- The statements after `else`. -/
  | else_
  deriving DecidableEq

/-- The statement part of an open construct. -/
inductive Part
  | concurrent (scope : Scope)
  | sequential (scope : Scope) (branch : Branch)
  deriving DecidableEq

/-- The statement part that `begin` opens. -/
def StatementRule.part (rule : StatementRule) (scope : Scope) : Part :=
  match rule with
  | .concurrent => .concurrent scope
  | .sequential => .sequential scope .plain

/-- The construct that a statement part belongs to. -/
def Part.scope : Part → Scope
  | .concurrent scope => scope
  | .sequential scope _ => scope

/-! ## Expressions -/

/-- An expression, by the place it stands in. -/
inductive Expression
  | genericDefault | portDefault | parameterDefault | constantDefault | signalDefault
  | variableDefault | ifCondition | elsifCondition | forRange | loopBound | whileCondition
  | returnValue | exitCondition | nextCondition | waitCondition | reportMessage | reportSeverity
  | assertCondition | assertMessage | assertSeverity | assignedVariable | assignedSignal
  deriving DecidableEq

namespace Expression

/-- The kind of the block that the expression forms. -/
def kind : Expression → BlockKind
  | .genericDefault => .genericListDefaultExpression
  | .portDefault => .portListDefaultExpression
  | .parameterDefault => .parameterListDefaultExpression
  | .constantDefault => .constantDefaultExpression
  | .signalDefault => .signalDefaultExpression
  | .variableDefault => .variableDefaultExpression
  | .ifCondition => .ifCondition
  | .elsifCondition => .elsIfCondition
  | .forRange => .forRange
  | .loopBound => .loopBound
  | .whileCondition => .whileCondition
  | .returnValue => .returnExpression
  | .exitCondition => .exitCondition
  | .nextCondition => .nextCondition
  | .waitCondition => .waitCondition
  | .reportMessage => .reportMessage
  | .reportSeverity => .reportSeverityLevel
  | .assertCondition => .assertCondition
  | .assertMessage => .assertMessage
  | .assertSeverity => .assertSeverityLevel
  | .assignedVariable => .variableAssignmentExpression
  | .assignedSignal => .signalAssignmentExpression

/-- The characters that end the expression. -/
def closers : Expression → List Char
  | .genericDefault | .portDefault | .parameterDefault => [';', ')']
  | .ifCondition | .elsifCondition | .forRange | .loopBound | .whileCondition => []
  | _ => [';']

/-- The reserved words that end the expression. -/
def closingWords : Expression → List Keyword
  | .ifCondition | .elsifCondition => [.then_]
  | .forRange => [.to, .downto, .loop]
  | .loopBound | .whileCondition => [.loop]
  | .reportMessage | .assertMessage => [.severity]
  | .assertCondition => [.report, .severity]
  | _ => []

end Expression

/-! ## Declarations -/

/-- A clause that refers to libraries, packages or contexts. -/
inductive Reference
  | library
  | use
  | context
  deriving DecidableEq

namespace Reference

/-- The reserved word of the clause. -/
def keyword : Reference → Keyword
  | .library => .library
  | .use => .use
  | .context => .context

/-- The kind of the block with the reserved word. -/
def startKind : Reference → BlockKind
  | .library => .libraryStart
  | .use => .useStart
  | .context => .contextStart

/-- The kind of a name. -/
def nameKind : Reference → BlockKind
  | .library => .libraryReferenceName
  | .use => .useReferenceName
  | .context => .contextReferenceName

/-- The kind of the comma between names. -/
def delimiterKind : Reference → BlockKind
  | .library => .libraryDelimiter
  | .use => .useDelimiter
  | .context => .contextDelimiter

/-- The kind of the semicolon. -/
def endKind : Reference → BlockKind
  | .library => .libraryEnd
  | .use => .useEnd
  | .context => .contextEnd

/-- Whether names may have several parts, as in `ieee.numeric_std.all`. -/
def isSelected : Reference → Bool
  | .library => false
  | .use | .context => true

end Reference

/-- A class of declared objects. -/
inductive ObjectClass
  | constant
  | signal
  | variable_
  | sharedVariable
  deriving DecidableEq

namespace ObjectClass

/-- The reserved word that starts the declaration. -/
def keyword : ObjectClass → Keyword
  | .constant => .constant
  | .signal => .signal
  | .variable_ => .variable_
  | .sharedVariable => .shared

/-- The kind of the block with the names and the subtype. -/
def declarationKind : ObjectClass → BlockKind
  | .constant => .constantDeclaration
  | .signal => .signalDeclaration
  | .variable_ => .variableDeclaration
  | .sharedVariable => .sharedVariableDeclaration

/-- The value after `:=`. -/
def default_ : ObjectClass → Expression
  | .constant => .constantDefault
  | .signal => .signalDefault
  | .variable_ | .sharedVariable => .variableDefault

/-- The kind of the semicolon. -/
def endKind : ObjectClass → BlockKind
  | .constant => .constantDeclarationEnd
  | .signal => .signalDeclarationEnd
  | .variable_ | .sharedVariable => .variableDeclarationEnd

end ObjectClass

/-- A parenthesized list of what a construct exchanges with its surroundings. -/
inductive InterfaceList
  | generic
  | port
  | parameter
  deriving DecidableEq

namespace InterfaceList

/-- The reserved word in front of the list. A parameter list has none. -/
def keyword? : InterfaceList → Option Keyword
  | .generic => some .generic
  | .port => some .port
  | .parameter => none

/-- The kind of the opening parenthesis with what stands before it. -/
def openKind : InterfaceList → BlockKind
  | .generic => .genericListOpen
  | .port => .portListOpen
  | .parameter => .parameterListOpen

/-- The kind of an item. -/
def itemKind : InterfaceList → BlockKind
  | .generic => .genericListInterfaceConstant
  | .port => .portListInterfaceSignal
  | .parameter => .parameterListInterfaceObject

/-- The kind of an item that is a type, where the list admits types. -/
def typeKind? : InterfaceList → Option BlockKind
  | .generic => some .genericListInterfaceType
  | .port | .parameter => none

/-- The value after `:=`. -/
def default_ : InterfaceList → Expression
  | .generic => .genericDefault
  | .port => .portDefault
  | .parameter => .parameterDefault

/-- The kind of the semicolon between items. -/
def delimiterKind : InterfaceList → BlockKind
  | .generic => .genericListDelimiter
  | .port => .portListDelimiter
  | .parameter => .parameterListDelimiter

/-- The kind of the closing parenthesis with what follows it. -/
def closeKind : InterfaceList → BlockKind
  | .generic => .genericListClose
  | .port => .portListClose
  | .parameter => .parameterListClose

/-- Whether a semicolon follows the closing parenthesis. -/
def endsWithSemicolon : InterfaceList → Bool
  | .generic | .port => true
  | .parameter => false

/-- The words for object classes that may precede the names of an item. -/
def classes : InterfaceList → List Keyword
  | .generic => [.constant]
  | .port => [.signal]
  | .parameter => [.constant, .signal, .variable_, .file]

/-- The words that introduce items the list admits but the outline does not support. -/
def unsupported : InterfaceList → List Keyword
  | .generic => [.procedure, .function, .pure, .impure, .package]
  | .port | .parameter => []

/-- The words for modes, which may follow the colon of an item. -/
def modes : List Keyword := [.in_, .out, .inout, .buffer, .linkage]

end InterfaceList

/-! ## Statements -/

/-- A statement of a reserved word, an expression that may be missing, and a semicolon. -/
inductive SimpleStatement
  | return_
  | exit
  | next
  | wait
  | null
  deriving DecidableEq

namespace SimpleStatement

/-- The reserved word of the statement. -/
def keyword : SimpleStatement → Keyword
  | .return_ => .return
  | .exit => .exit
  | .next => .next
  | .wait => .wait
  | .null => .null

/-- The kind of the block with the reserved word. -/
def startKind : SimpleStatement → BlockKind
  | .return_ => .returnStart
  | .exit => .exitStart
  | .next => .nextStart
  | .wait => .waitStart
  | .null => .nullStatement

/-- The kind of the semicolon, or of the whole statement where that is one block. -/
def endKind : SimpleStatement → BlockKind
  | .return_ => .returnEnd
  | .exit => .exitEnd
  | .next => .nextEnd
  | .wait => .waitEnd
  | .null => .nullStatement

/-- The expression of the statement. -/
def expression? : SimpleStatement → Option Expression
  | .return_ => some .returnValue
  | .exit => some .exitCondition
  | .next => some .nextCondition
  | .wait => some .waitCondition
  | .null => none

/-- Whether `when` precedes the expression, and a loop label may follow the reserved word. -/
def isLoopControl : SimpleStatement → Bool
  | .exit | .next => true
  | .return_ | .wait | .null => false

end SimpleStatement

/-- The two forms of assignment. -/
inductive Assignment
  | signal
  | variable_
  deriving DecidableEq

namespace Assignment

/-- The kind of the target with the assignment symbol. -/
def startKind : Assignment → BlockKind
  | .signal => .signalAssignment
  | .variable_ => .variableAssignment

/-- The assigned value. -/
def expression : Assignment → Expression
  | .signal => .assignedSignal
  | .variable_ => .assignedVariable

/-- The kind of the semicolon. -/
def endKind : Assignment → BlockKind
  | .signal => .signalAssignmentEnd
  | .variable_ => .variableAssignmentEnd

end Assignment

end VhdlOutline
