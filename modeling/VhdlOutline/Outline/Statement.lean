import VhdlOutline.Outline.Reaction

/-!
# Expressions and statements

An expression reaches up to the first token outside parentheses that ends it; what ends it depends
on where it stands. The statements here are the simple ones, assertions and reports, and those that
start with a name: labels, assignments and procedure calls.
-/

namespace VhdlOutline.Outline

/-! ## Expressions -/

/-- Whether the token ends the expression, if it stands outside parentheses. -/
def endsExpression (x : Expression) (t : Token) : Bool :=
  match t.kind with
  | .character c => c ∈ x.closers
  | _ => t.keyword?.any (· ∈ x.closingWords)

/-- What ends the expression, in words. -/
def closersText (x : Expression) : List String :=
  x.closers.map (fun c => s!"`{c}`") ++ x.closingWords.map Keyword.phrase

/-- A token of an expression that does not end it. -/
def expressionToken (x : Expression) (depth : Nat) (t : Token) : Outcome :=
  match t.kind with
  | .endOfDocument => .expected (closersText x)
  | .character '(' => .take (.expression x (depth + 1) true)
  | .character ')' =>
    if depth = 0 then .error .unmatchedClose else .take (.expression x (depth - 1) true)
  | .character ';' =>
    if depth = 0 then .expected (closersText x) else .error .unclosedParenthesis
  | .compound .varAssign => .error .assignmentInExpression
  | _ => .take (.expression x depth true)

/-- A token of an expression, or the token after it. -/
def expression (x : Expression) (depth : Nat) (begun : Bool) (t : Token) : Outcome :=
  if depth = 0 ∧ endsExpression x t then
    if begun then .cutReturn x.kind else .expected ["an expression"]
  else expressionToken x depth t

/-! ## Simple statements -/

/-- After the reserved word of a simple statement, and after a loop label if there is one. -/
def simpleAfterKeyword (s : SimpleStatement) (labelled : Bool) (t : Token) : Outcome :=
  if t.isChar ';' then
    if s.startKind = s.endKind then .closeReturn s.endKind
    else .cutCloseReturn s.startKind s.endKind
  else if s.isLoopControl then
    if !labelled && t.isName then .take (.simple s (.afterKeyword true))
    else if t.isKeyword .when then .close s.startKind (.simple s .value)
    else .expected (["`;`", Keyword.when.phrase] ++ (if labelled then [] else ["a loop label"]))
  else match s.expression? with
    | some x => .cutCall s.startKind (.simple s .end_) (.expression x 0 false)
    | none => .expected ["`;`"]

/-- A statement of a reserved word, an expression that may be missing, and a semicolon. -/
def simple (s : SimpleStatement) (phase : SimplePhase) (t : Token) : Outcome :=
  match phase with
  | .start =>
    if t.isKeyword s.keyword then .take (.simple s (.afterKeyword false))
    else .expected [s.keyword.phrase]
  | .afterKeyword labelled => simpleAfterKeyword s labelled t
  | .value =>
    match s.expression? with
    | some x => .call (.simple s .end_) (.expression x 0 false)
    | none => .pass (.simple s .end_)
  | .end_ => if t.isChar ';' then .closeReturn s.endKind else .expected ["`;`"]

/-! ## Statements that start with a name -/

/-- The rest of an assignment target or procedure call. -/
def targetRest (part : Part) (label : Option String) (depth : Nat) (t : Token) : Outcome :=
  match t.kind with
  | .endOfDocument => .expected ["`;`", "`<=`", "`:=`"]
  | .character '(' => .take (.target part label (.rest (depth + 1)))
  | .character ')' =>
    if depth = 0 then .error .unmatchedClose else .take (.target part label (.rest (depth - 1)))
  | .character ';' =>
    if depth = 0 then .cutClose .procedureCall .procedureCallEnd (.statements part none)
    else .error .unclosedParenthesis
  | .compound .leq =>
    if depth = 0 then .close Assignment.signal.startKind (.assignment .signal part .value)
    else .take (.target part label (.rest depth))
  | .compound .varAssign =>
    if depth = 0 then .close Assignment.variable_.startKind (.assignment .variable_ part .value)
    else .take (.target part label (.rest depth))
  | .word =>
    if depth = 0 ∧ (t.isKeyword .port ∨ t.isKeyword .generic) then
      .notImplemented "component instantiation"
    else .take (.target part label (.rest depth))
  | _ => .take (.target part label (.rest depth))

/-- A statement that starts with a name, in a statement part and after a label, if there is one. A
name before a colon is itself the label of the statement that follows; it stays in the block under
construction. -/
def target (part : Part) (label : Option String) (phase : TargetPhase) (t : Token) : Outcome :=
  match phase with
  | .name =>
    if t.isName then .take (.target part label (.afterHead t.text)) else .expected ["a name"]
  | .afterHead head =>
    if t.isChar ':' then
      if label.isSome then .error .secondLabel
      else .noting (.label head) (.take (.statements part (some head)))
    else .pass (.target part label (.rest 0))
  | .rest depth => targetRest part label depth t

/-- An assignment after its symbol. -/
def assignment (a : Assignment) (part : Part) (phase : AssignmentPhase) (t : Token) : Outcome :=
  match phase with
  | .value => .call (.assignment a part .end_) (.expression a.expression 0 false)
  | .end_ => if t.isChar ';' then .close a.endKind (.statements part none) else .expected ["`;`"]

/-! ## Assertions and reports -/

/-- The end of an assertion. -/
def assertEnd (t : Token) : Outcome :=
  if t.isChar ';' then .closeReturn .assertEnd else .expected ["`;`"]

/-- An assertion after its message, or where the message is missing. -/
def assertAfterMessage (t : Token) : Outcome :=
  if t.isKeyword .severity then .close .assertSeverity (.assertion .level) else assertEnd t

/-- An assertion: a condition, a message and a severity, of which the last two may be missing. -/
def assertion (phase : AssertionPhase) (t : Token) : Outcome :=
  match phase with
  | .start =>
    if t.isKeyword .assert then .take (.assertion .afterKeyword)
    else .expected [Keyword.assert.phrase]
  | .afterKeyword =>
    .cutCall .assertStart (.assertion .afterCondition) (.expression .assertCondition 0 false)
  | .afterCondition =>
    if t.isKeyword .report then .close .assertReport (.assertion .message)
    else assertAfterMessage t
  | .message => .call (.assertion .afterMessage) (.expression .assertMessage 0 false)
  | .afterMessage => assertAfterMessage t
  | .level => .call (.assertion .end_) (.expression .assertSeverity 0 false)
  | .end_ => assertEnd t

/-- The end of a report statement. -/
def reportEnd (t : Token) : Outcome :=
  if t.isChar ';' then .closeReturn .reportEnd else .expected ["`;`"]

/-- A report statement: a message, and a severity that may be missing. -/
def report (phase : ReportPhase) (t : Token) : Outcome :=
  match phase with
  | .start =>
    if t.isKeyword .report then .take (.report .afterKeyword)
    else .expected [Keyword.report.phrase]
  | .afterKeyword =>
    .cutCall .reportStart (.report .afterMessage) (.expression .reportMessage 0 false)
  | .afterMessage =>
    if t.isKeyword .severity then .close .reportSeverity (.report .level) else reportEnd t
  | .level => .call (.report .end_) (.expression .reportSeverity 0 false)
  | .end_ => reportEnd t

end VhdlOutline.Outline
