/-!
# Kinds of blocks

Every block is one region of some construct of the language, or a piece of blank text or comment.
The kind says which.
-/

namespace VhdlOutline

/-- What a block is. -/
inductive BlockKind
  -- The sentinels.
  | startOfDocument | endOfDocument
  -- Blanks and comments.
  | whitespace | linebreak | emptyLine | indentation | singleLineComment | multiLineComment
  -- Library and use clauses, context references.
  | libraryStart | libraryReferenceName | libraryDelimiter | libraryEnd | useStart
  | useReferenceName | useDelimiter | useEnd | contextStart | contextReferenceName
  | contextDelimiter | contextEnd
  -- Design units.
  | entityName | entityBegin | entityEnd | architectureName | architectureBegin | architectureEnd
  | packageName | packageEnd | packageBodyName | packageBodyEnd
  -- Interface lists.
  | genericListOpen | genericListInterfaceConstant | genericListInterfaceType
  | genericListDefaultExpression | genericListDelimiter | genericListClose | portListOpen
  | portListInterfaceSignal | portListDefaultExpression | portListDelimiter | portListClose
  | parameterListOpen | parameterListInterfaceObject | parameterListDefaultExpression
  | parameterListDelimiter | parameterListClose
  -- Object declarations.
  | constantDeclaration | constantDefaultExpression | constantDeclarationEnd | signalDeclaration
  | signalDefaultExpression | signalDeclarationEnd | variableDeclaration
  | variableDefaultExpression | variableDeclarationEnd | sharedVariableDeclaration
  -- Subprograms and processes.
  | procedureName | procedureIs | procedureDeclarationEnd | procedureBegin | procedureEnd
  | functionName | functionReturnType | functionDeclarationEnd | functionBegin | functionEnd
  | processName | processBegin | processEnd
  -- Simple statements.
  | returnStart | returnExpression | returnEnd | exitStart | exitCondition | exitEnd | nextStart
  | nextCondition | nextEnd | reportStart | reportMessage | reportSeverity | reportSeverityLevel
  | reportEnd | assertStart | assertCondition | assertReport | assertMessage | assertSeverity
  | assertSeverityLevel | assertEnd | nullStatement | waitStart | waitCondition | waitEnd
  -- If statements and loops.
  | ifStart | ifCondition | ifThen | elsIfStart | elsIfCondition | elsIfThen | else_ | ifEnd
  | forStart | forRange | loopDirection | loopBound | whileStart | whileCondition | loopBegin
  | loopEnd
  -- Statements that start with a name.
  | variableAssignment | variableAssignmentExpression | variableAssignmentEnd | signalAssignment
  | signalAssignmentExpression | signalAssignmentEnd | procedureCall | procedureCallEnd
  deriving DecidableEq

namespace BlockKind

/-- All kinds. -/
def values : List BlockKind := [
  .startOfDocument, .endOfDocument, .whitespace, .linebreak, .emptyLine, .indentation,
  .singleLineComment, .multiLineComment, .libraryStart, .libraryReferenceName, .libraryDelimiter,
  .libraryEnd, .useStart, .useReferenceName, .useDelimiter, .useEnd, .contextStart,
  .contextReferenceName, .contextDelimiter, .contextEnd, .entityName, .entityBegin, .entityEnd,
  .architectureName, .architectureBegin, .architectureEnd, .packageName, .packageEnd,
  .packageBodyName, .packageBodyEnd, .genericListOpen, .genericListInterfaceConstant,
  .genericListInterfaceType, .genericListDefaultExpression, .genericListDelimiter,
  .genericListClose, .portListOpen, .portListInterfaceSignal, .portListDefaultExpression,
  .portListDelimiter, .portListClose, .parameterListOpen, .parameterListInterfaceObject,
  .parameterListDefaultExpression, .parameterListDelimiter, .parameterListClose,
  .constantDeclaration, .constantDefaultExpression, .constantDeclarationEnd, .signalDeclaration,
  .signalDefaultExpression, .signalDeclarationEnd, .variableDeclaration,
  .variableDefaultExpression, .variableDeclarationEnd, .sharedVariableDeclaration, .procedureName,
  .procedureIs, .procedureDeclarationEnd, .procedureBegin, .procedureEnd, .functionName,
  .functionReturnType, .functionDeclarationEnd, .functionBegin, .functionEnd, .processName,
  .processBegin, .processEnd, .returnStart, .returnExpression, .returnEnd, .exitStart,
  .exitCondition, .exitEnd, .nextStart, .nextCondition, .nextEnd, .reportStart, .reportMessage,
  .reportSeverity, .reportSeverityLevel, .reportEnd, .assertStart, .assertCondition,
  .assertReport, .assertMessage, .assertSeverity, .assertSeverityLevel, .assertEnd,
  .nullStatement, .waitStart, .waitCondition, .waitEnd, .ifStart, .ifCondition, .ifThen,
  .elsIfStart, .elsIfCondition, .elsIfThen, .else_, .ifEnd, .forStart, .forRange, .loopDirection,
  .loopBound, .whileStart, .whileCondition, .loopBegin, .loopEnd, .variableAssignment,
  .variableAssignmentExpression, .variableAssignmentEnd, .signalAssignment,
  .signalAssignmentExpression, .signalAssignmentEnd, .procedureCall, .procedureCallEnd]

/-- The kind in words. -/
def description : BlockKind → String
  | .startOfDocument => "start of document"
  | .endOfDocument => "end of document"
  | .whitespace => "whitespace"
  | .linebreak => "line break"
  | .emptyLine => "empty line"
  | .indentation => "indentation"
  | .singleLineComment => "single-line comment"
  | .multiLineComment => "multi-line comment"
  | .libraryStart => "library clause"
  | .libraryReferenceName => "library name"
  | .libraryDelimiter => "library delimiter"
  | .libraryEnd => "library clause end"
  | .useStart => "use clause"
  | .useReferenceName => "use clause name"
  | .useDelimiter => "use clause delimiter"
  | .useEnd => "use clause end"
  | .contextStart => "context reference"
  | .contextReferenceName => "context name"
  | .contextDelimiter => "context delimiter"
  | .contextEnd => "context reference end"
  | .entityName => "entity declaration"
  | .entityBegin => "entity statement part"
  | .entityEnd => "entity end"
  | .architectureName => "architecture body"
  | .architectureBegin => "architecture statement part"
  | .architectureEnd => "architecture end"
  | .packageName => "package declaration"
  | .packageEnd => "package end"
  | .packageBodyName => "package body"
  | .packageBodyEnd => "package body end"
  | .genericListOpen => "generic clause"
  | .genericListInterfaceConstant => "generic constant"
  | .genericListInterfaceType => "generic type"
  | .genericListDefaultExpression => "generic default"
  | .genericListDelimiter => "generic delimiter"
  | .genericListClose => "generic clause end"
  | .portListOpen => "port clause"
  | .portListInterfaceSignal => "port signal"
  | .portListDefaultExpression => "port default"
  | .portListDelimiter => "port delimiter"
  | .portListClose => "port clause end"
  | .parameterListOpen => "parameter list"
  | .parameterListInterfaceObject => "parameter"
  | .parameterListDefaultExpression => "parameter default"
  | .parameterListDelimiter => "parameter delimiter"
  | .parameterListClose => "parameter list end"
  | .constantDeclaration => "constant declaration"
  | .constantDefaultExpression => "constant value"
  | .constantDeclarationEnd => "constant declaration end"
  | .signalDeclaration => "signal declaration"
  | .signalDefaultExpression => "signal default"
  | .signalDeclarationEnd => "signal declaration end"
  | .variableDeclaration => "variable declaration"
  | .variableDefaultExpression => "variable default"
  | .variableDeclarationEnd => "variable declaration end"
  | .sharedVariableDeclaration => "shared variable declaration"
  | .procedureName => "procedure specification"
  | .procedureIs => "procedure body"
  | .procedureDeclarationEnd => "procedure declaration end"
  | .procedureBegin => "procedure statement part"
  | .procedureEnd => "procedure end"
  | .functionName => "function specification"
  | .functionReturnType => "function return type"
  | .functionDeclarationEnd => "function declaration end"
  | .functionBegin => "function statement part"
  | .functionEnd => "function end"
  | .processName => "process statement"
  | .processBegin => "process statement part"
  | .processEnd => "process end"
  | .returnStart => "return statement"
  | .returnExpression => "return value"
  | .returnEnd => "return statement end"
  | .exitStart => "exit statement"
  | .exitCondition => "exit condition"
  | .exitEnd => "exit statement end"
  | .nextStart => "next statement"
  | .nextCondition => "next condition"
  | .nextEnd => "next statement end"
  | .reportStart => "report statement"
  | .reportMessage => "report message"
  | .reportSeverity => "report severity"
  | .reportSeverityLevel => "report severity level"
  | .reportEnd => "report statement end"
  | .assertStart => "assertion"
  | .assertCondition => "assertion condition"
  | .assertReport => "assertion report"
  | .assertMessage => "assertion message"
  | .assertSeverity => "assertion severity"
  | .assertSeverityLevel => "assertion severity level"
  | .assertEnd => "assertion end"
  | .nullStatement => "null statement"
  | .waitStart => "wait statement"
  | .waitCondition => "wait condition"
  | .waitEnd => "wait statement end"
  | .ifStart => "if statement"
  | .ifCondition => "if condition"
  | .ifThen => "if branch"
  | .elsIfStart => "elsif clause"
  | .elsIfCondition => "elsif condition"
  | .elsIfThen => "elsif branch"
  | .else_ => "else branch"
  | .ifEnd => "if statement end"
  | .forStart => "for loop"
  | .forRange => "loop range"
  | .loopDirection => "loop direction"
  | .loopBound => "loop bound"
  | .whileStart => "while loop"
  | .whileCondition => "while condition"
  | .loopBegin => "loop body"
  | .loopEnd => "loop end"
  | .variableAssignment => "variable assignment"
  | .variableAssignmentExpression => "assigned value"
  | .variableAssignmentEnd => "variable assignment end"
  | .signalAssignment => "signal assignment"
  | .signalAssignmentExpression => "assigned waveform"
  | .signalAssignmentEnd => "signal assignment end"
  | .procedureCall => "procedure call"
  | .procedureCallEnd => "procedure call end"

/-- The name under which a serialized document writes the kind. -/
def tag : BlockKind → String
  | .startOfDocument => "StartOfDocument"
  | .endOfDocument => "EndOfDocument"
  | .whitespace => "Whitespace"
  | .linebreak => "Linebreak"
  | .emptyLine => "EmptyLine"
  | .indentation => "Indentation"
  | .singleLineComment => "SingleLineComment"
  | .multiLineComment => "MultiLineComment"
  | .libraryStart => "LibraryStart"
  | .libraryReferenceName => "LibraryReferenceName"
  | .libraryDelimiter => "LibraryDelimiter"
  | .libraryEnd => "LibraryEnd"
  | .useStart => "UseStart"
  | .useReferenceName => "UseReferenceName"
  | .useDelimiter => "UseDelimiter"
  | .useEnd => "UseEnd"
  | .contextStart => "ContextStart"
  | .contextReferenceName => "ContextReferenceName"
  | .contextDelimiter => "ContextDelimiter"
  | .contextEnd => "ContextEnd"
  | .entityName => "EntityName"
  | .entityBegin => "EntityBegin"
  | .entityEnd => "EntityEnd"
  | .architectureName => "ArchitectureName"
  | .architectureBegin => "ArchitectureBegin"
  | .architectureEnd => "ArchitectureEnd"
  | .packageName => "PackageName"
  | .packageEnd => "PackageEnd"
  | .packageBodyName => "PackageBodyName"
  | .packageBodyEnd => "PackageBodyEnd"
  | .genericListOpen => "GenericListOpen"
  | .genericListInterfaceConstant => "GenericListInterfaceConstant"
  | .genericListInterfaceType => "GenericListInterfaceType"
  | .genericListDefaultExpression => "GenericListDefaultExpression"
  | .genericListDelimiter => "GenericListDelimiter"
  | .genericListClose => "GenericListClose"
  | .portListOpen => "PortListOpen"
  | .portListInterfaceSignal => "PortListInterfaceSignal"
  | .portListDefaultExpression => "PortListDefaultExpression"
  | .portListDelimiter => "PortListDelimiter"
  | .portListClose => "PortListClose"
  | .parameterListOpen => "ParameterListOpen"
  | .parameterListInterfaceObject => "ParameterListInterfaceObject"
  | .parameterListDefaultExpression => "ParameterListDefaultExpression"
  | .parameterListDelimiter => "ParameterListDelimiter"
  | .parameterListClose => "ParameterListClose"
  | .constantDeclaration => "ConstantDeclaration"
  | .constantDefaultExpression => "ConstantDefaultExpression"
  | .constantDeclarationEnd => "ConstantDeclarationEnd"
  | .signalDeclaration => "SignalDeclaration"
  | .signalDefaultExpression => "SignalDefaultExpression"
  | .signalDeclarationEnd => "SignalDeclarationEnd"
  | .variableDeclaration => "VariableDeclaration"
  | .variableDefaultExpression => "VariableDefaultExpression"
  | .variableDeclarationEnd => "VariableDeclarationEnd"
  | .sharedVariableDeclaration => "SharedVariableDeclaration"
  | .procedureName => "ProcedureName"
  | .procedureIs => "ProcedureIs"
  | .procedureDeclarationEnd => "ProcedureDeclarationEnd"
  | .procedureBegin => "ProcedureBegin"
  | .procedureEnd => "ProcedureEnd"
  | .functionName => "FunctionName"
  | .functionReturnType => "FunctionReturnType"
  | .functionDeclarationEnd => "FunctionDeclarationEnd"
  | .functionBegin => "FunctionBegin"
  | .functionEnd => "FunctionEnd"
  | .processName => "ProcessName"
  | .processBegin => "ProcessBegin"
  | .processEnd => "ProcessEnd"
  | .returnStart => "ReturnStart"
  | .returnExpression => "ReturnExpression"
  | .returnEnd => "ReturnEnd"
  | .exitStart => "ExitStart"
  | .exitCondition => "ExitCondition"
  | .exitEnd => "ExitEnd"
  | .nextStart => "NextStart"
  | .nextCondition => "NextCondition"
  | .nextEnd => "NextEnd"
  | .reportStart => "ReportStart"
  | .reportMessage => "ReportMessage"
  | .reportSeverity => "ReportSeverity"
  | .reportSeverityLevel => "ReportSeverityLevel"
  | .reportEnd => "ReportEnd"
  | .assertStart => "AssertStart"
  | .assertCondition => "AssertCondition"
  | .assertReport => "AssertReport"
  | .assertMessage => "AssertMessage"
  | .assertSeverity => "AssertSeverity"
  | .assertSeverityLevel => "AssertSeverityLevel"
  | .assertEnd => "AssertEnd"
  | .nullStatement => "NullStatement"
  | .waitStart => "WaitStart"
  | .waitCondition => "WaitCondition"
  | .waitEnd => "WaitEnd"
  | .ifStart => "IfStart"
  | .ifCondition => "IfCondition"
  | .ifThen => "IfThen"
  | .elsIfStart => "ElsIfStart"
  | .elsIfCondition => "ElsIfCondition"
  | .elsIfThen => "ElsIfThen"
  | .else_ => "Else"
  | .ifEnd => "IfEnd"
  | .forStart => "ForStart"
  | .forRange => "ForRange"
  | .loopDirection => "LoopDirection"
  | .loopBound => "LoopBound"
  | .whileStart => "WhileStart"
  | .whileCondition => "WhileCondition"
  | .loopBegin => "LoopBegin"
  | .loopEnd => "LoopEnd"
  | .variableAssignment => "VariableAssignment"
  | .variableAssignmentExpression => "VariableAssignmentExpression"
  | .variableAssignmentEnd => "VariableAssignmentEnd"
  | .signalAssignment => "SignalAssignment"
  | .signalAssignmentExpression => "SignalAssignmentExpression"
  | .signalAssignmentEnd => "SignalAssignmentEnd"
  | .procedureCall => "ProcedureCall"
  | .procedureCallEnd => "ProcedureCallEnd"

/-- The kind with the given name. -/
def ofTag? (name : String) : Option BlockKind :=
  values.find? fun k => k.tag == name

/-- Blank text and comments. They may stand between the fragments of a split block. -/
def isSkippable : BlockKind → Bool
  | .whitespace | .linebreak | .emptyLine | .indentation | .singleLineComment
  | .multiLineComment => true
  | _ => false

/-- Comments of both forms. -/
def isComment : BlockKind → Bool
  | .singleLineComment | .multiLineComment => true
  | _ => false

theorem mem_values (k : BlockKind) : k ∈ values := by
  cases k <;> decide

end BlockKind

end VhdlOutline
