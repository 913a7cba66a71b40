import VhdlOutline.Outline.Declaration
import VhdlOutline.Outline.Nested
import VhdlOutline.Outline.Statement

/-!
# Regions, and the reaction of every state

Between design units and between statements the next token decides what is read. `State.react`
gathers the reactions of all states.
-/

namespace VhdlOutline

namespace Outline

/-! ## The document -/

/-- Before the start of the document. -/
def documentStart (t : Token) : Outcome :=
  if t.kind = .startOfDocument then .close .startOfDocument .documentRegion
  else .expected ["start of document"]

/-- Between design units. -/
def documentRegion (t : Token) : Outcome :=
  if t.kind = .endOfDocument then .ok { move := .finish }
  else match t.keyword? with
    | some .library => .call .documentRegion (.reference .library .start)
    | some .use => .call .documentRegion (.reference .use .start)
    | some .context => .call .documentRegion (.reference .context .start)
    | some .entity => .call .documentRegion (.entity .start)
    | some .architecture => .call .documentRegion (.architecture .start)
    | some .package => .call .documentRegion (.package .start)
    | some .configuration => .notImplemented "configuration declaration"
    | _ => .expected ["LIBRARY", "USE", "CONTEXT", "ENTITY", "ARCHITECTURE", "PACKAGE",
        "end of document"]

/-! ## Statement parts -/

/-- Concurrent statements that are known but not supported. -/
def unsupportedConcurrent? : Keyword → Option String
  | .block => some "block statement"
  | .case => some "case generate statement"
  | .component => some "component instantiation"
  | .configuration => some "configuration instantiation"
  | .entity => some "entity instantiation"
  | .for_ => some "for generate statement"
  | .if_ => some "if generate statement"
  | .postponed => some "postponed statement"
  | .with_ => some "selected signal assignment"
  | _ => none

/-- Refuse a token between concurrent statements. -/
def refuseConcurrent (label : Option String) : Outcome :=
  .expected ([Keyword.process.upper, Keyword.assert.upper, "a name"] ++
    (if label.isNone then [Keyword.end_.upper] else []))

/-- Between the statements of an entity or architecture, or after the label of one. -/
def concurrent (scope : Scope) (label : Option String) (t : Token) : Outcome :=
  let part := Part.concurrent scope
  match t.keyword? with
  | none =>
    if t.isName then .pass (.target part label .name) else refuseConcurrent label
  | some k =>
    if k = .end_ ∧ label.isNone then .pass (.end_ scope .start)
    else match k with
      | .process =>
        .noting (.entering .process label)
          (.call (.statements part none) (.process label .start))
      | .assert => .call (.statements part none) (.assertion .start)
      | k => match unsupportedConcurrent? k with
        | some what => .notImplemented what
        | none => refuseConcurrent label

/-- Refuse a token between sequential statements. -/
def refuseSequential (branch : Branch) (label : Option String) : Outcome :=
  .expected (["a statement", "a label"] ++
    (if label.isSome then []
    else (if branch = .then_ then [Keyword.elsif.upper, Keyword.else_.upper] else []) ++
      [Keyword.end_.upper]))

/-- The words that continue or end a list of sequential statements. A label cannot precede them. -/
def sequentialEnd? (scope : Scope) (branch : Branch) (k : Keyword) : Option Outcome :=
  match k, branch with
  | .end_, _ => some (.pass (.end_ scope .start))
  | .elsif, .then_ => some (.pass (.ifStatement scope.name .elsif))
  | .else_, .then_ => some (.close .else_ (.statements (.sequential scope .else_) none))
  | _, _ => none

/-- The statements that a reserved word introduces. -/
def sequentialStatement? (part : Part) (label : Option String) (k : Keyword) : Option Outcome :=
  let call := Outcome.call (.statements part none)
  match k with
  | .return => some (call (.simple .return_ .start))
  | .exit => some (call (.simple .exit .start))
  | .next => some (call (.simple .next .start))
  | .wait => some (call (.simple .wait .start))
  | .null => some (call (.simple .null .start))
  | .report => some (call (.report .start))
  | .assert => some (call (.assertion .start))
  | .if_ => some (.noting (.entering .if_ label) (call (.ifStatement label .start)))
  | .for_ | .while | .loop => some (.noting (.entering .loop label) (call (.loop label .start)))
  | .case => some (.notImplemented "case statement")
  | _ => none

/-- Between the statements of a process, subprogram, branch or loop, or after the label of one. -/
def sequential (scope : Scope) (branch : Branch) (label : Option String) (t : Token) : Outcome :=
  let part := Part.sequential scope branch
  match t.keyword? with
  | none =>
    if t.isName then .pass (.target part label .name) else refuseSequential branch label
  | some k =>
    let ending := if label.isNone then sequentialEnd? scope branch k else none
    (ending.or (sequentialStatement? part label k)).getD (refuseSequential branch label)

end Outline

/-- The reaction of a state to a token, which is number `i`. -/
def State.react (s : State) (i : Nat) (t : Token) : Outcome :=
  match s with
  | .documentStart => Outline.documentStart t
  | .documentRegion => Outline.documentRegion t
  | .reference r phase => Outline.reference r phase t
  | .entity phase => Outline.entity phase t
  | .architecture phase => Outline.architecture phase t
  | .package phase => Outline.package phase t
  | .procedure phase => Outline.procedure phase t
  | .function phase => Outline.function phase t
  | .process label phase => Outline.process label phase t
  | .declarations scope => Outline.declarations scope t
  | .statements (.concurrent scope) label => Outline.concurrent scope label t
  | .statements (.sequential scope branch) label => Outline.sequential scope branch label t
  | .end_ scope phase => Outline.end_ scope phase i t
  | .object o phase => Outline.object o phase t
  | .interface l phase => Outline.interface l phase t
  | .expression x depth begun => Outline.expression x depth begun t
  | .simple s phase => Outline.simple s phase t
  | .target part label phase => Outline.target part label phase t
  | .assignment a part phase => Outline.assignment a part phase t
  | .assertion phase => Outline.assertion phase t
  | .report phase => Outline.report phase t
  | .ifStatement label phase => Outline.ifStatement label phase t
  | .loop label phase => Outline.loop label phase t

end VhdlOutline
