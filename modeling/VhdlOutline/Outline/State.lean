import VhdlOutline.Outline.Naming

/-!
# The states of the outline

The outline is a stack machine: a state says what is being read, and the stack below it what is
resumed afterwards. A state carries whatever it needs to know: the construct it belongs to, the
names and labels still to be compared, the depth of parentheses.

* `State.name` is the name of a state in messages and in the log.
* `State.trivia` says what becomes of blanks and comments in a state.
-/

namespace VhdlOutline

/-- The course of a library clause, use clause or context reference. -/
inductive ReferencePhase
  | start
  | afterKeyword
  /-- In a name, whose last part has been read or not. -/
  | name (complete : Bool)
  | afterDelimiter
  deriving DecidableEq

/-- The course of the first line of an entity. -/
inductive EntityPhase
  | start
  | afterKeyword
  | afterName (name : String)
  deriving DecidableEq

/-- The course of the first line of an architecture. -/
inductive ArchitecturePhase
  | start
  | afterKeyword
  | afterName (name : String)
  | afterOf (name : String)
  | afterEntity (name : String)
  deriving DecidableEq

/-- The course of the first line of a package or package body. -/
inductive PackagePhase
  | start
  | afterKeyword
  | afterName (name : String)
  /-- Before the first declaration, where `new` would make it an instantiation. -/
  | afterIs (name : String)
  | bodyAfterKeyword
  | bodyAfterName (name : String)
  deriving DecidableEq

/-- The course of the specification of a procedure. -/
inductive ProcedurePhase
  | start
  | name
  | afterName (name : String)
  | afterParameters (name : String)
  deriving DecidableEq

/-- The course of the specification of a function. -/
inductive FunctionPhase
  | start
  | keyword
  | name
  | afterName (name : String)
  | afterParameters (name : String)
  /-- In the return type: the depth of parentheses, and whether anything has been read. -/
  | returnType (name : String) (depth : Nat) (begun : Bool)
  deriving DecidableEq

/-- The course of the first line of a process. -/
inductive ProcessPhase
  | start
  | afterKeyword
  /-- In the sensitivity list: the depth of parentheses. -/
  | sensitivity (depth : Nat)
  | afterSensitivity
  deriving DecidableEq

/-- The course of an end. -/
inductive EndPhase
  | start
  | afterEnd
  | afterFirstKeyword
  | afterKeyword
  | afterName (name : EndName)
  deriving DecidableEq

/-- The course of an object declaration. -/
inductive ObjectPhase
  | start
  | afterShared
  /-- In the list of names, after a name or not. -/
  | names (complete : Bool)
  /-- In the subtype: the depth of parentheses, and whether anything has been read. -/
  | subtype (depth : Nat) (begun : Bool)
  | default_
  | end_
  deriving DecidableEq

/-- The course of an interface list. -/
inductive InterfacePhase
  | start
  | open_
  | itemStart
  /-- In the names of an item, after a name or not. -/
  | names (complete : Bool)
  | mode
  /-- In the subtype of an item: the depth of parentheses, and whether anything has been read. -/
  | subtype (depth : Nat) (begun : Bool)
  | default_
  | afterDefault
  | typeName
  | afterTypeName
  | closeSemicolon
  deriving DecidableEq

/-- The course of a simple statement. -/
inductive SimplePhase
  | start
  /-- After the reserved word, with a loop label or not. -/
  | afterKeyword (labelled : Bool)
  | value
  | end_
  deriving DecidableEq

/-- The course of a statement that starts with a name. -/
inductive TargetPhase
  | name
  /-- After the name, which may turn out to be a label. -/
  | afterHead (head : String)
  /-- In the rest of the target or call: the depth of parentheses. -/
  | rest (depth : Nat)
  deriving DecidableEq

/-- The course of an assignment after its symbol. -/
inductive AssignmentPhase
  | value
  | end_
  deriving DecidableEq

/-- The course of an assertion. -/
inductive AssertionPhase
  | start
  | afterKeyword
  | afterCondition
  | message
  | afterMessage
  | level
  | end_
  deriving DecidableEq

/-- The course of a report statement. -/
inductive ReportPhase
  | start
  | afterKeyword
  | afterMessage
  | level
  | end_
  deriving DecidableEq

/-- The course of the conditions of an if statement. -/
inductive IfPhase
  | start
  | afterKeyword
  | then_
  | elsif
  | elsifAfterKeyword
  | elsifThen
  deriving DecidableEq

/-- The course of the first line of a loop. -/
inductive LoopPhase
  | start
  | forParameter
  | forIn
  | forAfterIn
  | forAfterRange
  | bound
  | whileAfterKeyword
  | body
  deriving DecidableEq

/-- What is being read. -/
inductive State
  /-- Before the start of the document. -/
  | documentStart
  /-- Between design units. -/
  | documentRegion
  | reference (r : Reference) (phase : ReferencePhase)
  | entity (phase : EntityPhase)
  | architecture (phase : ArchitecturePhase)
  | package (phase : PackagePhase)
  | procedure (phase : ProcedurePhase)
  | function (phase : FunctionPhase)
  | process (label : Option String) (phase : ProcessPhase)
  /-- Between the declarations of a construct. -/
  | declarations (scope : Scope)
  /-- Between the statements of a construct, or after the label of one. -/
  | statements (part : Part) (label : Option String)
  | end_ (scope : Scope) (phase : EndPhase)
  | object (o : ObjectClass) (phase : ObjectPhase)
  | interface (l : InterfaceList) (phase : InterfacePhase)
  /-- In an expression: the depth of parentheses, and whether anything has been read. -/
  | expression (x : Expression) (depth : Nat) (begun : Bool)
  | simple (s : SimpleStatement) (phase : SimplePhase)
  | target (part : Part) (label : Option String) (phase : TargetPhase)
  | assignment (a : Assignment) (part : Part) (phase : AssignmentPhase)
  | assertion (phase : AssertionPhase)
  | report (phase : ReportPhase)
  | ifStatement (label : Option String) (phase : IfPhase)
  | loop (label : Option String) (phase : LoopPhase)
  deriving DecidableEq

namespace State

/-- The name of a state. -/
def name : State → String
  | .documentStart => "document::start"
  | .documentRegion => "region"
  | .reference _ .start => "start"
  | .reference _ .afterKeyword => "after_keyword"
  | .reference _ (.name _) => "name"
  | .reference _ .afterDelimiter => "after_delimiter"
  | .entity .start => "start"
  | .entity .afterKeyword => "after_keyword"
  | .entity (.afterName _) => "after_name"
  | .architecture .start => "start"
  | .architecture .afterKeyword => "after_keyword"
  | .architecture (.afterName _) => "after_name"
  | .architecture (.afterOf _) => "after_of"
  | .architecture (.afterEntity _) => "after_entity"
  | .package .start => "start"
  | .package .afterKeyword => "after_keyword"
  | .package (.afterName _) => "after_name"
  | .package (.afterIs _) => "after_is"
  | .package .bodyAfterKeyword => "body_after_keyword"
  | .package (.bodyAfterName _) => "body_after_name"
  | .procedure .start => "procedure_start"
  | .procedure .name => "procedure_name"
  | .procedure (.afterName _) => "procedure_after_name"
  | .procedure (.afterParameters _) => "procedure_after_parameters"
  | .function .start => "function_start"
  | .function .keyword => "function_keyword"
  | .function .name => "function_name"
  | .function (.afterName _) => "function_after_name"
  | .function (.afterParameters _) => "function_after_parameters"
  | .function (.returnType ..) => "return_type"
  | .process _ .start => "start"
  | .process _ .afterKeyword => "after_keyword"
  | .process _ (.sensitivity _) => "sensitivity"
  | .process _ .afterSensitivity => "after_sensitivity"
  | .declarations _ => "region::declarative"
  | .statements (.concurrent _) _ => "concurrent::region"
  | .statements (.sequential ..) _ => "sequential::region"
  | .end_ _ .start => "start"
  | .end_ _ .afterEnd => "after_end"
  | .end_ _ .afterFirstKeyword => "after_first_keyword"
  | .end_ _ .afterKeyword => "after_keyword"
  | .end_ _ (.afterName _) => "after_name"
  | .object _ .start => "start"
  | .object _ .afterShared => "after_shared"
  | .object _ (.names _) => "names"
  | .object _ (.subtype ..) => "subtype"
  | .object _ .default_ => "default"
  | .object _ .end_ => "end"
  | .interface _ .start => "start"
  | .interface _ .open_ => "open"
  | .interface _ .itemStart => "item_start"
  | .interface _ (.names _) => "names"
  | .interface _ .mode => "mode"
  | .interface _ (.subtype ..) => "subtype"
  | .interface _ .default_ => "default"
  | .interface _ .afterDefault => "after_default"
  | .interface _ .typeName => "type_name"
  | .interface _ .afterTypeName => "after_type_name"
  | .interface _ .closeSemicolon => "close_semicolon"
  | .expression .. => "expression::body"
  | .simple _ .start => "start"
  | .simple _ (.afterKeyword _) => "after_keyword"
  | .simple _ .value => "value"
  | .simple _ .end_ => "end"
  | .target _ _ .name => "target"
  | .target _ _ (.afterHead _) => "after_head"
  | .target _ _ (.rest _) => "target_rest"
  | .assignment _ _ .value => "value"
  | .assignment _ _ .end_ => "end"
  | .assertion .start => "assert_start"
  | .assertion .afterKeyword => "assert_after_keyword"
  | .assertion .afterCondition => "assert_after_condition"
  | .assertion .message => "assert_message"
  | .assertion .afterMessage => "assert_after_message"
  | .assertion .level => "assert_level"
  | .assertion .end_ => "assert_end"
  | .report .start => "report_start"
  | .report .afterKeyword => "report_after_keyword"
  | .report .afterMessage => "report_after_message"
  | .report .level => "report_level"
  | .report .end_ => "report_end"
  | .ifStatement _ .start => "if_start"
  | .ifStatement _ .afterKeyword => "if_after_keyword"
  | .ifStatement _ .then_ => "if_then"
  | .ifStatement _ .elsif => "control::elsif"
  | .ifStatement _ .elsifAfterKeyword => "elsif_after_keyword"
  | .ifStatement _ .elsifThen => "elsif_then"
  | .loop _ .start => "loop_start"
  | .loop _ .forParameter => "for_parameter"
  | .loop _ .forIn => "for_in"
  | .loop _ .forAfterIn => "for_after_in"
  | .loop _ .forAfterRange => "for_after_range"
  | .loop _ .bound => "bound"
  | .loop _ .whileAfterKeyword => "while_after_keyword"
  | .loop _ .body => "loop_body"

end State

/-- What becomes of blanks and comments. -/
inductive TriviaRule
  /-- Each of them forms a block of its own. -/
  | apart
  /-- Spaces join the block under construction; all others interrupt it. -/
  | inside
  /-- The state sees them like any other token. -/
  | seen
  deriving DecidableEq

/-- What becomes of blanks and comments in a state. They are seen only by states that are entered
with a token they know, or that hand any token on. -/
def State.trivia : State → TriviaRule
  | .documentRegion | .declarations _ | .package (.afterIs _) | .statements _ none => .apart
  | .documentStart | .reference _ .start | .entity .start | .architecture .start | .package .start
  | .procedure .start | .function .start | .process _ .start | .end_ _ .start
  | .object _ .start | .object _ .default_ | .object _ .end_
  | .interface _ .start | .interface _ .default_ | .interface _ .afterDefault
  | .simple _ .start | .simple _ .value | .simple _ .end_
  | .target _ _ .name | .assignment ..
  | .assertion .start | .assertion .afterCondition | .assertion .message
  | .assertion .afterMessage | .assertion .level | .assertion .end_
  | .report .start | .report .afterMessage | .report .level | .report .end_
  | .ifStatement _ .start | .ifStatement _ .then_ | .ifStatement _ .elsif
  | .ifStatement _ .elsifThen
  | .loop _ .start | .loop _ .forAfterRange | .loop _ .bound | .loop _ .body => .seen
  | _ => .inside

end VhdlOutline
