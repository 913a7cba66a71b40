import VhdlOutline.Engine.Nested

/-!
# Running the engine

* `Engine.step` feeds the engine a token, which is issued again as often as the routines ask for it,
  up to a limit.
* `Feed.next` reads tokens until a block is complete, and hands it out.
-/

namespace VhdlOutline

/-- What a routine does. -/
def Routine.action : Routine → Action Unit
  | .documentStart => Action.documentStart
  | .documentRegion => Action.documentRegion
  | .referenceStart => Action.referenceStart
  | .referenceAfterKeyword => Action.referenceAfterKeyword
  | .referenceName => Action.referenceName
  | .referenceAfterDelimiter => Action.referenceAfterDelimiter
  | .entityStart => Action.entityStart
  | .entityAfterKeyword => Action.entityAfterKeyword
  | .entityAfterName => Action.entityAfterName
  | .architectureStart => Action.architectureStart
  | .architectureAfterKeyword => Action.architectureAfterKeyword
  | .architectureAfterName => Action.architectureAfterName
  | .architectureAfterOf => Action.architectureAfterOf
  | .architectureAfterEntity => Action.architectureAfterEntity
  | .packageStart => Action.packageStart
  | .packageAfterKeyword => Action.packageAfterKeyword
  | .packageAfterName => Action.packageAfterName
  | .packageAfterIs => Action.packageAfterIs
  | .bodyAfterKeyword => Action.bodyAfterKeyword
  | .bodyAfterName => Action.bodyAfterName
  | .procedureStart => Action.procedureStart
  | .procedureName => Action.procedureName
  | .procedureAfterName => Action.procedureAfterName
  | .procedureAfterParameters => Action.procedureAfterParameters
  | .functionStart => Action.functionStart
  | .functionKeyword => Action.functionKeyword
  | .functionName => Action.functionName
  | .functionAfterName => Action.functionAfterName
  | .functionAfterParameters => Action.functionAfterParameters
  | .returnType => Action.returnType
  | .processStart => Action.processStart
  | .processAfterKeyword => Action.processAfterKeyword
  | .processSensitivity => Action.processSensitivity
  | .processAfterSensitivity => Action.processAfterSensitivity
  | .declarativeRegion => Action.declarativeRegion
  | .concurrentRegion => Action.concurrentRegion
  | .sequentialRegion => Action.sequentialRegion
  | .endStart => Action.endStart
  | .afterEnd => Action.afterEnd
  | .endAfterFirstKeyword => Action.endAfterFirstKeyword
  | .endAfterKeyword => Action.endAfterKeyword
  | .endAfterName => Action.endAfterName
  | .objectStart => Action.objectStart
  | .objectAfterShared => Action.objectAfterShared
  | .objectNames => Action.objectNames
  | .objectSubtype => Action.objectSubtype
  | .objectDefault => Action.objectDefault
  | .objectEnd => Action.objectEnd
  | .listStart => Action.listStart
  | .listOpen => Action.listOpen
  | .listItemStart => Action.listItemStart
  | .listNames => Action.listNames
  | .listMode => Action.listMode
  | .listSubtype => Action.listSubtype
  | .listDefault => Action.listDefault
  | .listAfterDefault => Action.listAfterDefault
  | .listTypeName => Action.listTypeName
  | .listAfterTypeName => Action.listAfterTypeName
  | .listCloseSemicolon => Action.listCloseSemicolon
  | .expressionBody => Action.expressionBody
  | .statementStart => Action.statementStart
  | .statementAfterKeyword => Action.statementAfterKeyword
  | .statementValue => Action.statementValue
  | .statementEnd => Action.statementEnd
  | .target => Action.target
  | .afterHead => Action.afterHead
  | .targetRest => Action.targetRest
  | .assertStart => Action.assertStart
  | .assertAfterKeyword => Action.assertAfterKeyword
  | .assertAfterCondition => Action.assertAfterCondition
  | .assertMessage => Action.assertMessage
  | .assertAfterMessage => Action.assertAfterMessage
  | .assertLevel => Action.assertLevel
  | .assertEnd => Action.assertEnd
  | .reportStart => Action.reportStart
  | .reportAfterKeyword => Action.reportAfterKeyword
  | .reportAfterMessage => Action.reportAfterMessage
  | .reportLevel => Action.reportLevel
  | .reportEnd => Action.reportEnd
  | .ifStart => Action.ifStart
  | .ifAfterKeyword => Action.ifAfterKeyword
  | .ifThen => Action.ifThen
  | .elsif => Action.elsif
  | .elsifAfterKeyword => Action.elsifAfterKeyword
  | .elsifThen => Action.elsifThen
  | .loopStart => Action.loopStart
  | .forParameter => Action.forParameter
  | .forIn => Action.forIn
  | .forAfterIn => Action.forAfterIn
  | .forAfterRange => Action.forAfterRange
  | .loopBound => Action.loopBound
  | .whileAfterKeyword => Action.whileAfterKeyword
  | .loopBody => Action.loopBody
  | .commentAside => Action.commentAside

namespace Action

/-- Run the next routine, and those that ask for the token again, at most `n` in all. -/
def issue : (n : Nat) → Action Unit
  | 0 => bug .endlessHandover
  | n + 1 => do
    modify fun e => { e with reissue := false, running := e.next }
    (← get).running.action
    if (← get).reissue then
      onDesk Desk.mark
      issue n
    else pure ()

/-- How many routines may be shown a token. -/
def issueLimit : Nat := 64

/-- Feed the engine a token. -/
def step (t : Token) : Action Unit := do
  onDesk fun d => (d.push t).mark
  issue issueLimit

end Action

/-- An engine with the tokens that it has not read. -/
structure Feed where
  input : List (Except LexError Token)
  engine : Engine
  failed : Bool := false

namespace Feed

/-- An engine that has read nothing. -/
def start (input : List (Except LexError Token)) (options : Options) : Feed :=
  { input, engine := { options } }

/-- Hand out a block, or read on until there is one. There is no result if the engine panics. -/
def pull (e : Engine) (failed : Bool) (input : List (Except LexError Token)) :
    Option (Option (Except OutlineError UInt32) × Feed) :=
  match e.desk.fresh with
  | id :: fresh => some (some (.ok id), ⟨input, { e with desk := { e.desk with fresh } }, failed⟩)
  | [] =>
    if failed || e.done then some (none, ⟨input, e, failed⟩)
    else
      match input with
      | [] => some (some (.error (.unexpectedEnd e.next.name)), ⟨[], e, true⟩)
      | .error x :: xs => some (some (.error (.lexical x)), ⟨xs, e, true⟩)
      | .ok t :: xs =>
        match (Action.step t).run e with
        | .ok () e => pull e false xs
        | .error (.failed x) e => some (some (.error x), ⟨xs, e, true⟩)
        | .error .panicked _ => none

/-- The next block, or the error; nothing once there is nothing more. -/
def next (f : Feed) : Option (Option (Except OutlineError UInt32) × Feed) :=
  pull f.engine f.failed f.input

end Feed

end VhdlOutline
