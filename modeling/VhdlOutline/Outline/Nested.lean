import VhdlOutline.Outline.Reaction

/-!
# Processes, if statements, loops, and their ends

These statements contain statements. The statements of a branch or of a loop are read in place, so
that their `end` is the end of the whole.
-/

namespace VhdlOutline.Outline

/-! ## Ends

In the forms `end;`, `end KEYWORD;`, `end NAME;` and `end KEYWORD NAME;`. -/

/-- Whether the token can be the name at an end. Operator functions are named by string literals. -/
def isEndName (t : Token) : Bool := t.isName || t.kind = .stringLiteral

/-- Finish an end at its semicolon. -/
def endFinish (scope : Scope) (found : Option EndName) : Outcome :=
  .ok {
    move := .take none (some scope.construct.endKind) .return_
    mismatch := found.bind scope.mismatch? }

/-- The name at an end, which is token number `i`. -/
def endName (scope : Scope) (i : Nat) (t : Token) : Outcome :=
  .take (.end_ scope (.afterName ⟨t.text, i, t.first⟩))

/-- The end of a construct. The token is number `i`. -/
def end_ (scope : Scope) (phase : EndPhase) (i : Nat) (t : Token) : Outcome :=
  let c := scope.construct
  match phase with
  | .start =>
    if t.isKeyword .end_ then .take (.end_ scope .afterEnd) else .expected [Keyword.end_.phrase]
  | .afterEnd =>
    if t.isKeyword c.keyword then
      .take (.end_ scope (if c.secondKeyword?.isSome then .afterFirstKeyword else .afterKeyword))
    else if c.keywordRequired then .expected [c.keyword.phrase]
    else if t.isChar ';' then endFinish scope none
    else if isEndName t then endName scope i t
    else .expected ["`;`", c.keyword.phrase, "a name"]
  | .afterFirstKeyword =>
    match c.secondKeyword? with
    | some k => if t.isKeyword k then .take (.end_ scope .afterKeyword) else .expected [k.phrase]
    | none => .pass (.end_ scope .afterKeyword)
  | .afterKeyword =>
    if t.isChar ';' then endFinish scope none
    else if isEndName t then endName scope i t
    else .expected ["`;`", "a name"]
  | .afterName found =>
    if t.isChar ';' then endFinish scope (some found) else .expected ["`;`"]

/-! ## Processes -/

/-- The end of the first line of a process: the word `is`, or whatever comes instead. -/
def processAfterSensitivity (label : Option String) (t : Token) : Outcome :=
  if t.isKeyword .is then .close .processName (.declarations ⟨.process, label⟩)
  else .cutPass .processName (.declarations ⟨.process, label⟩)

/-- The first line of a process. -/
def process (label : Option String) (phase : ProcessPhase) (t : Token) : Outcome :=
  match phase with
  | .start =>
    if t.isKeyword .process then .take (.process label .afterKeyword)
    else .expected [Keyword.process.phrase]
  | .afterKeyword =>
    if t.isChar '(' then .take (.process label (.sensitivity 1))
    else processAfterSensitivity label t
  | .sensitivity depth =>
    match t.kind with
    | .character '(' => .take (.process label (.sensitivity (depth + 1)))
    | .character ')' =>
      if depth = 1 then .take (.process label .afterSensitivity)
      else .take (.process label (.sensitivity (depth - 1)))
    | .character ';' | .endOfDocument => .expected ["`)`"]
    | _ => .take (.process label (.sensitivity depth))
  | .afterSensitivity => processAfterSensitivity label t

/-! ## If statements and loops -/

/-- The statements of a branch. -/
def thenBranch (label : Option String) : State :=
  .statements (.sequential ⟨.if_, label⟩ .then_) none

/-- The conditions of an if statement. -/
def ifStatement (label : Option String) (phase : IfPhase) (t : Token) : Outcome :=
  match phase with
  | .start =>
    if t.isKeyword .if_ then .take (.ifStatement label .afterKeyword)
    else .expected [Keyword.if_.phrase]
  | .afterKeyword =>
    .cutCall .ifStart (.ifStatement label .then_) (.expression .ifCondition 0 false)
  | .then_ =>
    if t.isKeyword .then_ then .close .ifThen (thenBranch label)
    else .expected [Keyword.then_.phrase]
  | .elsif =>
    if t.isKeyword .elsif then .take (.ifStatement label .elsifAfterKeyword)
    else .expected [Keyword.elsif.phrase]
  | .elsifAfterKeyword =>
    .cutCall .elsIfStart (.ifStatement label .elsifThen) (.expression .elsifCondition 0 false)
  | .elsifThen =>
    if t.isKeyword .then_ then .close .elsIfThen (thenBranch label)
    else .expected [Keyword.then_.phrase]

/-- The word that opens the body of a loop. -/
def loopBody (label : Option String) (t : Token) : Outcome :=
  if t.isKeyword .loop then
    .close .loopBegin (.statements (.sequential ⟨.loop, label⟩ .plain) none)
  else .expected [Keyword.loop.phrase]

/-- The first line of a loop. -/
def loop (label : Option String) (phase : LoopPhase) (t : Token) : Outcome :=
  match phase with
  | .start =>
    if t.isKeyword .for_ then .take (.loop label .forParameter)
    else if t.isKeyword .while then .take (.loop label .whileAfterKeyword)
    else if t.isKeyword .loop then loopBody label t
    else .expected [Keyword.for_.phrase, Keyword.while.phrase, Keyword.loop.phrase]
  | .forParameter =>
    if t.isName then .take (.loop label .forIn) else .expected ["a loop parameter"]
  | .forIn =>
    if t.isKeyword .in_ then .take (.loop label .forAfterIn) else .expected [Keyword.in_.phrase]
  | .forAfterIn =>
    .cutCall .forStart (.loop label .forAfterRange) (.expression .forRange 0 false)
  | .forAfterRange =>
    if t.isKeyword .to || t.isKeyword .downto then .close .loopDirection (.loop label .bound)
    else loopBody label t
  | .bound => .call (.loop label .body) (.expression .loopBound 0 false)
  | .whileAfterKeyword =>
    .cutCall .whileStart (.loop label .body) (.expression .whileCondition 0 false)
  | .body => loopBody label t

end VhdlOutline.Outline
