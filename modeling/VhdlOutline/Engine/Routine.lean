import VhdlOutline.Outline.Construct

/-!
# Routines and their tables

The engine reads a document by routines, each of which looks at the current token. A routine that
serves several constructs finds what it has to know about the one it is reading in a table.

* `Routine` lists the routines, and `Routine.name` is the name of a routine in messages.
* The tables of a construct are made of what `Outline/Construct.lean` says about it.
-/

namespace VhdlOutline

/-- A routine of the engine. -/
inductive Routine
  | documentStart | documentRegion
  | referenceStart | referenceAfterKeyword | referenceName | referenceAfterDelimiter
  | entityStart | entityAfterKeyword | entityAfterName
  | architectureStart | architectureAfterKeyword | architectureAfterName | architectureAfterOf
  | architectureAfterEntity
  | packageStart | packageAfterKeyword | packageAfterName | packageAfterIs | bodyAfterKeyword
  | bodyAfterName
  | procedureStart | procedureName | procedureAfterName | procedureAfterParameters
  | functionStart | functionKeyword | functionName | functionAfterName | functionAfterParameters
  | returnType
  | processStart | processAfterKeyword | processSensitivity | processAfterSensitivity
  | declarativeRegion | concurrentRegion | sequentialRegion
  | endStart | afterEnd | endAfterFirstKeyword | endAfterKeyword | endAfterName
  | objectStart | objectAfterShared | objectNames | objectSubtype | objectDefault | objectEnd
  | listStart | listOpen | listItemStart | listNames | listMode | listSubtype | listDefault
  | listAfterDefault | listTypeName | listAfterTypeName | listCloseSemicolon
  | expressionBody
  | statementStart | statementAfterKeyword | statementValue | statementEnd
  | target | afterHead | targetRest
  | assertStart | assertAfterKeyword | assertAfterCondition | assertMessage | assertAfterMessage
  | assertLevel | assertEnd
  | reportStart | reportAfterKeyword | reportAfterMessage | reportLevel | reportEnd
  | ifStart | ifAfterKeyword | ifThen | elsif | elsifAfterKeyword | elsifThen
  | loopStart | forParameter | forIn | forAfterIn | forAfterRange | loopBound | whileAfterKeyword
  | loopBody
  | commentAside
  deriving DecidableEq

/-- The name of a routine. Names are those within a machine, unless the routine serves others. -/
def Routine.name : Routine → String
  | .documentStart => "document::start"
  | .documentRegion => "region"
  | .referenceStart | .entityStart | .architectureStart | .packageStart | .processStart | .endStart
  | .objectStart | .listStart | .statementStart => "start"
  | .referenceAfterKeyword | .entityAfterKeyword | .architectureAfterKeyword
  | .packageAfterKeyword | .processAfterKeyword | .endAfterKeyword
  | .statementAfterKeyword => "after_keyword"
  | .referenceName => "name"
  | .referenceAfterDelimiter => "after_delimiter"
  | .entityAfterName | .architectureAfterName | .packageAfterName | .endAfterName => "after_name"
  | .architectureAfterOf => "after_of"
  | .architectureAfterEntity => "after_entity"
  | .packageAfterIs => "after_is"
  | .bodyAfterKeyword => "body_after_keyword"
  | .bodyAfterName => "body_after_name"
  | .procedureStart => "procedure_start"
  | .procedureName => "procedure_name"
  | .procedureAfterName => "procedure_after_name"
  | .procedureAfterParameters => "procedure_after_parameters"
  | .functionStart => "function_start"
  | .functionKeyword => "function_keyword"
  | .functionName => "function_name"
  | .functionAfterName => "function_after_name"
  | .functionAfterParameters => "function_after_parameters"
  | .returnType => "return_type"
  | .processSensitivity => "sensitivity"
  | .processAfterSensitivity => "after_sensitivity"
  | .declarativeRegion => "region::declarative"
  | .concurrentRegion => "concurrent::region"
  | .sequentialRegion => "sequential::region"
  | .afterEnd => "after_end"
  | .endAfterFirstKeyword => "after_first_keyword"
  | .objectAfterShared => "after_shared"
  | .objectNames | .listNames => "names"
  | .objectSubtype | .listSubtype => "subtype"
  | .objectDefault | .listDefault => "default"
  | .objectEnd | .statementEnd => "end"
  | .listOpen => "open"
  | .listItemStart => "item_start"
  | .listMode => "mode"
  | .listAfterDefault => "after_default"
  | .listTypeName => "type_name"
  | .listAfterTypeName => "after_type_name"
  | .listCloseSemicolon => "close_semicolon"
  | .expressionBody => "expression::body"
  | .statementValue => "value"
  | .target => "target"
  | .afterHead => "after_head"
  | .targetRest => "target_rest"
  | .assertStart => "assert_start"
  | .assertAfterKeyword => "assert_after_keyword"
  | .assertAfterCondition => "assert_after_condition"
  | .assertMessage => "assert_message"
  | .assertAfterMessage => "assert_after_message"
  | .assertLevel => "assert_level"
  | .assertEnd => "assert_end"
  | .reportStart => "report_start"
  | .reportAfterKeyword => "report_after_keyword"
  | .reportAfterMessage => "report_after_message"
  | .reportLevel => "report_level"
  | .reportEnd => "report_end"
  | .ifStart => "if_start"
  | .ifAfterKeyword => "if_after_keyword"
  | .ifThen => "if_then"
  | .elsif => "control::elsif"
  | .elsifAfterKeyword => "elsif_after_keyword"
  | .elsifThen => "elsif_then"
  | .loopStart => "loop_start"
  | .forParameter => "for_parameter"
  | .forIn => "for_in"
  | .forAfterIn => "for_after_in"
  | .forAfterRange => "for_after_range"
  | .loopBound => "bound"
  | .whileAfterKeyword => "while_after_keyword"
  | .loopBody => "loop_body"
  | .commentAside => "comment::aside"

/-! ## Tables -/

/-- How a construct ends. -/
structure EndTable where
  kind : BlockKind
  keyword : Keyword
  /-- A word that must follow the first. -/
  second? : Option Keyword
  /-- Whether the word must be given. -/
  keywordRequired : Bool
  deriving DecidableEq

/-- The declarations of a construct, and how it goes on after them. -/
structure RegionTable where
  items : List Keyword
  /-- The kind of `begin`, for a construct with statements. -/
  begin? : Option BlockKind
  /-- The routine that reads the statements. -/
  statements? : Option Routine
  end_ : EndTable
  deriving DecidableEq

/-- The kind of an expression, and the tokens that end it. -/
structure ExpressionTable where
  kind : BlockKind
  characters : List Char
  keywords : List Keyword
  deriving DecidableEq

/-- The blocks of a reference clause. -/
structure ReferenceTable where
  keyword : Keyword
  start : BlockKind
  name : BlockKind
  delimiter : BlockKind
  end_ : BlockKind
  /-- Whether names may have several parts. -/
  selected : Bool
  deriving DecidableEq

/-- The blocks of an object declaration. -/
structure ObjectTable where
  keyword : Keyword
  declaration : BlockKind
  expression : ExpressionTable
  end_ : BlockKind
  deriving DecidableEq

/-- The blocks and items of an interface list. -/
structure ListTable where
  keyword? : Option Keyword
  open_ : BlockKind
  item : BlockKind
  /-- The kind of items that are types, where the list admits them. -/
  typeItem? : Option BlockKind
  default_ : ExpressionTable
  delimiter : BlockKind
  close : BlockKind
  /-- Whether a semicolon follows the closing parenthesis. -/
  semicolon : Bool
  /-- The classes that may precede the names of an item. -/
  classes : List Keyword
  deriving DecidableEq

/-- A statement of a start, an expression that may be missing, and an end. -/
structure StatementTable where
  /-- The word that starts the statement. Assignments have none. -/
  keyword? : Option Keyword
  start : BlockKind
  expression? : Option ExpressionTable
  /-- A word that must precede the expression. -/
  condition? : Option Keyword
  /-- Whether a loop label may follow the word. -/
  loopLabel : Bool
  end_ : BlockKind
  deriving DecidableEq

def Construct.endTable (c : Construct) : EndTable :=
  ⟨c.endKind, c.keyword, c.secondKeyword?, c.keywordRequired⟩

/-- The routine that reads statements. -/
def StatementRule.routine : StatementRule → Routine
  | .concurrent => .concurrentRegion
  | .sequential => .sequentialRegion

def Construct.regionTable (c : Construct) : RegionTable :=
  ⟨c.items, c.begin?.map Prod.fst, c.begin?.map (·.2.routine), c.endTable⟩

def Expression.table (x : Expression) : ExpressionTable := ⟨x.kind, x.closers, x.closingWords⟩

def Reference.table (r : Reference) : ReferenceTable :=
  ⟨r.keyword, r.startKind, r.nameKind, r.delimiterKind, r.endKind, r.isSelected⟩

def ObjectClass.table (o : ObjectClass) : ObjectTable :=
  ⟨o.keyword, o.declarationKind, o.default_.table, o.endKind⟩

def InterfaceList.table (l : InterfaceList) : ListTable :=
  ⟨l.keyword?, l.openKind, l.itemKind, l.typeKind?, l.default_.table, l.delimiterKind, l.closeKind,
    l.endsWithSemicolon, l.classes⟩

def SimpleStatement.table (s : SimpleStatement) : StatementTable :=
  ⟨some s.keyword, s.startKind, s.expression?.map Expression.table,
    if s.isLoopControl then some .when else none, s.isLoopControl, s.endKind⟩

def Assignment.table (a : Assignment) : StatementTable :=
  ⟨none, a.startKind, some a.expression.table, none, false, a.endKind⟩

end VhdlOutline
