import VhdlOutline.Engine.Run
import VhdlOutline.Proofs.Engine.Desk
import VhdlOutline.Proofs.Outline.Consistency

/-!
# Where the engine is

A state of the machine says what is being read and carries all it needs to know. The engine has the
routine of the state, and keeps what the state carries in its registers and in the tables of its
context. `Engine.At` says that the engine stands where the machine has a state and a stack: the
registers hold what the state carries, and the frames what the states on the stack do.

A statement that starts with a name is read by the machine in the place of the statement part, and
by the engine in a frame of its own (`State.below`).
-/

namespace VhdlOutline

namespace State

/-- The routine that reads a state. -/
def routine : State → Routine
  | .documentStart => .documentStart
  | .documentRegion => .documentRegion
  | .reference _ .start => .referenceStart
  | .reference _ .afterKeyword => .referenceAfterKeyword
  | .reference _ (.name _) => .referenceName
  | .reference _ .afterDelimiter => .referenceAfterDelimiter
  | .entity .start => .entityStart
  | .entity .afterKeyword => .entityAfterKeyword
  | .entity (.afterName _) => .entityAfterName
  | .architecture .start => .architectureStart
  | .architecture .afterKeyword => .architectureAfterKeyword
  | .architecture (.afterName _) => .architectureAfterName
  | .architecture (.afterOf _) => .architectureAfterOf
  | .architecture (.afterEntity _) => .architectureAfterEntity
  | .package .start => .packageStart
  | .package .afterKeyword => .packageAfterKeyword
  | .package (.afterName _) => .packageAfterName
  | .package (.afterIs _) => .packageAfterIs
  | .package .bodyAfterKeyword => .bodyAfterKeyword
  | .package (.bodyAfterName _) => .bodyAfterName
  | .procedure .start => .procedureStart
  | .procedure .name => .procedureName
  | .procedure (.afterName _) => .procedureAfterName
  | .procedure (.afterParameters _) => .procedureAfterParameters
  | .function .start => .functionStart
  | .function .keyword => .functionKeyword
  | .function .name => .functionName
  | .function (.afterName _) => .functionAfterName
  | .function (.afterParameters _) => .functionAfterParameters
  | .function (.returnType ..) => .returnType
  | .process _ .start => .processStart
  | .process _ .afterKeyword => .processAfterKeyword
  | .process _ (.sensitivity _) => .processSensitivity
  | .process _ .afterSensitivity => .processAfterSensitivity
  | .declarations _ => .declarativeRegion
  | .statements (.concurrent _) _ => .concurrentRegion
  | .statements (.sequential ..) _ => .sequentialRegion
  | .end_ _ .start => .endStart
  | .end_ _ .afterEnd => .afterEnd
  | .end_ _ .afterFirstKeyword => .endAfterFirstKeyword
  | .end_ _ .afterKeyword => .endAfterKeyword
  | .end_ _ (.afterName _) => .endAfterName
  | .object _ .start => .objectStart
  | .object _ .afterShared => .objectAfterShared
  | .object _ (.names _) => .objectNames
  | .object _ (.subtype ..) => .objectSubtype
  | .object _ .default_ => .objectDefault
  | .object _ .end_ => .objectEnd
  | .interface _ .start => .listStart
  | .interface _ .open_ => .listOpen
  | .interface _ .itemStart => .listItemStart
  | .interface _ (.names _) => .listNames
  | .interface _ .mode => .listMode
  | .interface _ (.subtype ..) => .listSubtype
  | .interface _ .default_ => .listDefault
  | .interface _ .afterDefault => .listAfterDefault
  | .interface _ .typeName => .listTypeName
  | .interface _ .afterTypeName => .listAfterTypeName
  | .interface _ .closeSemicolon => .listCloseSemicolon
  | .expression .. => .expressionBody
  | .simple _ .start => .statementStart
  | .simple _ (.afterKeyword _) => .statementAfterKeyword
  | .simple _ .value | .assignment _ _ .value => .statementValue
  | .simple _ .end_ | .assignment _ _ .end_ => .statementEnd
  | .target _ _ .name => .target
  | .target _ _ (.afterHead _) => .afterHead
  | .target _ _ (.rest _) => .targetRest
  | .assertion .start => .assertStart
  | .assertion .afterKeyword => .assertAfterKeyword
  | .assertion .afterCondition => .assertAfterCondition
  | .assertion .message => .assertMessage
  | .assertion .afterMessage => .assertAfterMessage
  | .assertion .level => .assertLevel
  | .assertion .end_ => .assertEnd
  | .report .start => .reportStart
  | .report .afterKeyword => .reportAfterKeyword
  | .report .afterMessage => .reportAfterMessage
  | .report .level => .reportLevel
  | .report .end_ => .reportEnd
  | .ifStatement _ .start => .ifStart
  | .ifStatement _ .afterKeyword => .ifAfterKeyword
  | .ifStatement _ .then_ => .ifThen
  | .ifStatement _ .elsif => .elsif
  | .ifStatement _ .elsifAfterKeyword => .elsifAfterKeyword
  | .ifStatement _ .elsifThen => .elsifThen
  | .loop _ .start => .loopStart
  | .loop _ .forParameter => .forParameter
  | .loop _ .forIn => .forIn
  | .loop _ .forAfterIn => .forAfterIn
  | .loop _ .forAfterRange => .forAfterRange
  | .loop _ .bound => .loopBound
  | .loop _ .whileAfterKeyword => .whileAfterKeyword
  | .loop _ .body => .loopBody

theorem name_routine (s : State) : s.routine.name = s.name := by
  unfold routine name
  split <;> rfl

/-- What the engine counts in a state: open parentheses, or whether a name or label has been
read. -/
def count? : State → Option Nat
  | .reference _ (.name complete) | .object _ (.names complete) | .interface _ (.names complete)
  | .simple _ (.afterKeyword complete) => some complete.toNat
  | .object _ .afterShared | .interface _ .mode | .simple _ .start
  | .target _ _ .name | .target _ _ (.afterHead _) => some 0
  | .function (.returnType _ depth _) | .process _ (.sensitivity depth)
  | .object _ (.subtype depth _) | .interface _ (.subtype depth _) | .expression _ depth _
  | .target _ _ (.rest depth) => some depth
  | _ => none

/-- The tables that the routine of a state, and those after it, look up. -/
def Needs (s : State) (c : Tables) : Prop :=
  match s with
  | .reference r _ => c.reference = some r.table
  | .package (.afterIs _) => c.region = some Construct.package.regionTable
  | .declarations scope => c.region = some scope.construct.regionTable
  | .statements (.concurrent scope) _ | .end_ scope _ =>
    c.end_ = some scope.construct.endTable
  | .statements (.sequential scope branch) _ =>
    c.end_ = some scope.construct.endTable ∧ c.body = branch
  | .object o _ => c.object = some o.table
  | .interface l _ => c.list = some l.table
  | .expression x _ _ => c.expression = some x.table
  | .simple s _ => c.statement = some s.table
  | .assignment a _ _ => c.statement = some a.table
  | _ => True

/-- The states that the engine resumes, over and above the stack, once the state is through. -/
def below : State → List State
  | .target part _ _ | .assignment _ part _ => [.statements part none]
  | _ => []

/-- The label that has been read for the statement in a state. -/
def label? : State → Option String
  | .statements _ label | .target _ label _ => label
  | _ => none

/-- Whether anything of the subtype or expression in a state has been read. -/
def begun? : State → Option Bool
  | .function (.returnType _ _ begun) | .object _ (.subtype _ begun)
  | .interface _ (.subtype _ begun) | .expression _ _ begun => some begun
  | _ => none

/-- The token with the name at the end of a construct is remembered by its number. -/
def Ends (s : State) (i : Option UInt32) : Prop :=
  match s with
  | .end_ _ (.afterName found) => i.map UInt32.toNat = some found.index
  | .end_ _ _ => i = none
  | _ => True

end State

/-- The frame resumes the state. -/
structure Frame.Suits (f : Frame) (s : State) : Prop where
  routine : f.routine = s.routine
  counts : ∀ n, s.count? = some n → f.counter.toInt = n
  needs : s.Needs f.context

theorem Frame.Suits.plain {f : Frame} {s : State} (routine : f.routine = s.routine)
    (count : s.count? = none) (needs : s.Needs f.context) : f.Suits s :=
  ⟨routine, fun _ hn => absurd (count.symm.trans hn) (by simp), needs⟩

theorem Frame.Suits.counting {f : Frame} {s : State} {d : Nat} (routine : f.routine = s.routine)
    (count : s.count? = some d) (counter : f.counter.toInt = d) (needs : s.Needs f.context) :
    f.Suits s :=
  ⟨routine, fun _ hn => Option.some.inj (count.symm.trans hn) ▸ counter, needs⟩

namespace Engine

/-- The registers of the engine hold what the state carries. -/
structure Suits (e : Engine) (s : State) : Prop where
  frame : Frame.Suits ⟨e.next, e.counter, e.context⟩ s
  label : e.label = s.label?
  begun : ∀ b, s.begun? = some b → e.content = b
  endName : s.Ends e.endName

/-- The engine stands where the machine has the state `s` and the stack `stack`. -/
structure At (e : Engine) (s : State) (stack : List State) : Prop where
  suits : e.Suits s
  frames : List.Forall₂ Frame.Suits e.stack (s.below ++ stack.flatMap fun s => s :: s.below)

section Suits

variable {e : Engine} {s : State} {d : Nat} {b : Bool}

/-- A state that carries neither a count nor the beginning of an expression. -/
theorem Suits.plain (routine : e.next = s.routine) (count : s.count? = none)
    (needs : s.Needs e.context) (label : e.label = s.label?) (begun : s.begun? = none)
    (endName : s.Ends e.endName) : e.Suits s :=
  ⟨.plain routine count needs, label, fun _ hb => absurd (begun.symm.trans hb) (by simp), endName⟩

/-- A state that carries a count. -/
theorem Suits.counting (routine : e.next = s.routine) (count : s.count? = some d)
    (counter : e.counter.toInt = d) (needs : s.Needs e.context) (label : e.label = s.label?)
    (begun : s.begun? = none) (endName : s.Ends e.endName) : e.Suits s :=
  ⟨.counting routine count counter needs, label,
    fun _ hb => absurd (begun.symm.trans hb) (by simp), endName⟩

/-- A state in the midst of an expression or a subtype. -/
theorem Suits.reading (routine : e.next = s.routine) (count : s.count? = some d)
    (counter : e.counter.toInt = d) (needs : s.Needs e.context) (label : e.label = s.label?)
    (begun : s.begun? = some b) (content : e.content = b) (endName : s.Ends e.endName) :
    e.Suits s :=
  ⟨.counting routine count counter needs, label,
    fun _ hb => Option.some.inj (begun.symm.trans hb) ▸ content, endName⟩

end Suits

end Engine

end VhdlOutline
