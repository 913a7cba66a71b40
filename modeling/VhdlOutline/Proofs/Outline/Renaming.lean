import VhdlOutline.Proofs.Outline.Abreast

/-!
# Names are passed on

A state looks at a word only to see whether it is reserved. It keeps the names of constructs and the
labels of statements, but does nothing with them except to compare them at an end.

* `State.rename`, `Token.rename`: the state or token with other names.
* `State.react_rename`: a state with other names reacts to a token with another name in the same
  way, up to the names it passes on and the outcome of the comparison.
* `outline_rename`: where a mismatch of names is no error, the outline of tokens with other names
  has the same blocks, or fails in the same way.
-/

namespace VhdlOutline

/-- Reserved words stay what they are, and no other text becomes one. -/
def KeepsWords (f : String → String) : Prop := ∀ text, Keyword.find? (f text) = Keyword.find? text

section Rename

variable (f : String → String)

/-- The token with another text. -/
def Token.rename (t : Token) : Token := { t with text := f t.text }

def Scope.rename (scope : Scope) : Scope := { scope with name := scope.name.map f }

def Part.rename : Part → Part
  | .concurrent scope => .concurrent (scope.rename f)
  | .sequential scope branch => .sequential (scope.rename f) branch

def EndName.rename (found : EndName) : EndName := { found with text := f found.text }

/-- The state with other names and labels. -/
def State.rename : State → State
  | .entity (.afterName name) => .entity (.afterName (f name))
  | .architecture (.afterName name) => .architecture (.afterName (f name))
  | .architecture (.afterOf name) => .architecture (.afterOf (f name))
  | .architecture (.afterEntity name) => .architecture (.afterEntity (f name))
  | .package (.afterName name) => .package (.afterName (f name))
  | .package (.afterIs name) => .package (.afterIs (f name))
  | .package (.bodyAfterName name) => .package (.bodyAfterName (f name))
  | .procedure (.afterName name) => .procedure (.afterName (f name))
  | .procedure (.afterParameters name) => .procedure (.afterParameters (f name))
  | .function (.afterName name) => .function (.afterName (f name))
  | .function (.afterParameters name) => .function (.afterParameters (f name))
  | .function (.returnType name depth begun) => .function (.returnType (f name) depth begun)
  | .process label phase => .process (label.map f) phase
  | .declarations scope => .declarations (scope.rename f)
  | .statements part label => .statements (part.rename f) (label.map f)
  | .end_ scope (.afterName found) => .end_ (scope.rename f) (.afterName (found.rename f))
  | .end_ scope phase => .end_ (scope.rename f) phase
  | .target part label (.afterHead head) =>
    .target (part.rename f) (label.map f) (.afterHead (f head))
  | .target part label phase => .target (part.rename f) (label.map f) phase
  | .assignment a part phase => .assignment a (part.rename f) phase
  | .ifStatement label phase => .ifStatement (label.map f) phase
  | .loop label phase => .loop (label.map f) phase
  | s => s

def Next.rename : Next → Next
  | .goto s => .goto (s.rename f)
  | .call resume sub => .call (resume.rename f) (sub.rename f)
  | .return_ => .return_

def Move.rename : Move → Move
  | .take before closing next => .take before closing (next.rename f)
  | .pass before next => .pass before (next.rename f)
  | .finish => .finish

def Note.rename : Note → Note
  | .entering k name => .entering k (name.map f)
  | .label name => .label (f name)

/-- The reaction with other names. It is not said whether names match. -/
def Reaction.rename (r : Reaction) : Reaction :=
  ⟨r.move.rename f, r.note.map (Note.rename f), none⟩

def Outcome.rename (o : Outcome) : Outcome := o.map (Reaction.rename f)

/-- The outcome without what is said about names. -/
def Outcome.unmatched (o : Outcome) : Outcome := o.map fun r => { r with mismatch := none }

theorem Outcome.rename_ite (p : Prop) [Decidable p] (o o' : Outcome) :
    (if p then o else o').rename f = if p then o.rename f else o'.rename f :=
  apply_ite (Outcome.rename f) p o o'

end Rename

variable {f : String → String}

theorem Outcome.unmatched_rename (o : Outcome) : (o.rename f).unmatched = o.rename f := by
  cases o <;> rfl

/-! ## Tokens -/

namespace Token

variable (hf : KeepsWords f) (t : Token)
include hf

theorem keyword?_rename : (t.rename f).keyword? = t.keyword? := by
  simp only [Token.keyword?, Token.rename, hf t.text]

theorem isKeyword_rename (k : Keyword) : (t.rename f).isKeyword k = t.isKeyword k := by
  simp only [Token.isKeyword, t.keyword?_rename hf]

theorem isName_rename : (t.rename f).isName = t.isName := by
  simp only [Token.isName, Token.rename, hf t.text]

theorem settled_rename : (t.rename f).settled = t.settled := by
  simp only [Token.settled, Token.rename, hf t.text]

theorem settledInExpression_rename : (t.rename f).settledInExpression = t.settledInExpression := by
  simp only [Token.settledInExpression, t.settled_rename hf]
  rfl

end Token

/-! ## Reactions -/

namespace State

@[simp] theorem name_rename (s : State) : (s.rename f).name = s.name := by
  cases s with
  | statements part _ => cases part <;> rfl
  | entity phase | architecture phase | package phase | procedure phase | function phase
  | process _ phase | end_ _ phase | target _ _ phase | assignment _ _ phase
  | ifStatement _ phase | loop _ phase => cases phase <;> rfl
  | _ => rfl

@[simp] theorem trivia_rename (s : State) : (s.rename f).trivia = s.trivia := by
  cases s with
  | statements _ label => cases label <;> rfl
  | entity phase | architecture phase | package phase | procedure phase | function phase
  | process _ phase | end_ _ phase | target _ _ phase | assignment _ _ phase
  | ifStatement _ phase | loop _ phase => cases phase <;> rfl
  | _ => rfl

theorem reading_rename (hf : KeepsWords f) (s : State) (t : Token) :
    (s.rename f).reading (t.rename f) = s.reading t := by
  have hsettled := t.settled_rename hf
  cases s with
  | expression => exact t.settledInExpression_rename hf
  | declarations => rfl
  | entity phase | architecture phase | package phase | procedure phase | function phase
  | process _ phase | end_ _ phase | target _ _ phase | assignment _ _ phase
  | ifStatement _ phase | loop _ phase => cases phase <;> exact hsettled
  | _ => exact hsettled

end State

namespace Outline

theorem rename_declarationState? {k : Keyword} {s : State} (h : declarationState? k = some s) :
    s.rename f = s := by
  unfold declarationState? at h
  split at h <;> cases h <;> rfl

theorem sequentialEnd?_rename (scope : Scope) (branch : Branch) (k : Keyword) :
    sequentialEnd? (scope.rename f) branch k =
      (sequentialEnd? scope branch k).map (Outcome.rename f) := by
  unfold sequentialEnd?
  split <;> rfl

theorem sequentialStatement?_rename (part : Part) (label : Option String) (k : Keyword) :
    sequentialStatement? (part.rename f) (label.map f) k =
      (sequentialStatement? part label k).map (Outcome.rename f) := by
  unfold sequentialStatement?
  dsimp only
  split <;> rfl

section Tokens

variable (hf : KeepsWords f) (t : Token)
include hf

/-! ### States without names -/

omit hf in
theorem documentStart_rename : documentStart (t.rename f) = (documentStart t).rename f := by
  simp only [documentStart, Outcome.rename_ite]
  rfl

theorem subtypeStep_rename (depth : Nat) :
    subtypeStep depth (t.rename f) = subtypeStep depth t := by
  simp only [subtypeStep, t.isKeyword_rename hf]
  rfl

theorem documentRegion_rename :
    documentRegion (t.rename f) = (documentRegion t).rename f := by
  have hkind : (t.rename f).kind = t.kind := rfl
  simp only [documentRegion, hkind, t.keyword?_rename hf]
  repeat' split
  all_goals rfl

theorem reference_rename (r : Reference) (phase : ReferencePhase) :
    reference r phase (t.rename f) = (reference r phase t).rename f := by
  cases phase with
  | name complete =>
    cases complete <;>
      simp only [reference, t.isKeyword_rename hf, t.isName_rename hf, Outcome.rename_ite] <;>
      rfl
  | _ =>
    simp only [reference, t.isKeyword_rename hf, t.isName_rename hf, Outcome.rename_ite]
    rfl

theorem object_rename (o : ObjectClass) (phase : ObjectPhase) :
    object o phase (t.rename f) = (object o phase t).rename f := by
  cases phase with
  | start =>
    simp only [object, t.isKeyword_rename hf]
    repeat' split
    all_goals rfl
  | names complete =>
    cases complete <;> simp only [object, t.isName_rename hf, Outcome.rename_ite] <;> rfl
  | subtype depth begun =>
    simp only [object, subtypeStep_rename hf]
    cases subtypeStep depth t with
    | ended =>
      simp only [Outcome.rename_ite]
      rfl
    | _ => rfl
  | _ =>
    simp only [object, t.isKeyword_rename hf, Outcome.rename_ite]
    rfl

theorem itemStart_rename (l : InterfaceList) :
    itemStart l (t.rename f) = (itemStart l t).rename f := by
  simp only [itemStart, t.isKeyword_rename hf, t.isName_rename hf, t.keyword?_rename hf]
  cases t.keyword?.filter (· ∈ l.unsupported) <;>
    simp only [Outcome.rename_ite] <;>
    rfl

omit hf in
theorem closeList_rename (l : InterfaceList) (before : BlockKind) :
    (closeList l before).rename f = closeList l before := by
  simp only [closeList, Outcome.rename_ite]
  rfl

theorem interface_rename (l : InterfaceList) (phase : InterfacePhase) :
    interface l phase (t.rename f) = (interface l phase t).rename f := by
  cases phase with
  | start | open_ =>
    simp only [interface, t.isKeyword_rename hf]
    cases l.keyword? <;> simp only [Outcome.rename_ite] <;> rfl
  | itemStart => exact itemStart_rename hf t l
  | names complete =>
    cases complete <;> simp only [interface, t.isName_rename hf, Outcome.rename_ite] <;> rfl
  | subtype depth begun =>
    simp only [interface, subtypeStep_rename hf]
    cases subtypeStep depth t with
    | ended =>
      simp only [Outcome.rename_ite, closeList_rename]
      rfl
    | _ => rfl
  | _ =>
    simp only [interface, t.keyword?_rename hf, t.isName_rename hf, Outcome.rename_ite,
      closeList_rename]
    rfl

theorem endsExpression_rename (x : Expression) :
    endsExpression x (t.rename f) = endsExpression x t := by
  simp only [endsExpression, t.keyword?_rename hf]
  rfl

omit hf in
theorem expressionToken_rename (x : Expression) (depth : Nat) :
    expressionToken x depth (t.rename f) = (expressionToken x depth t).rename f := by
  have hkind : (t.rename f).kind = t.kind := rfl
  simp only [expressionToken, hkind]
  repeat' split
  all_goals rfl

theorem expression_rename (x : Expression) (depth : Nat) (begun : Bool) :
    expression x depth begun (t.rename f) = (expression x depth begun t).rename f := by
  simp only [expression, endsExpression_rename hf, expressionToken_rename, Outcome.rename_ite]
  rfl

theorem simple_rename (s : SimpleStatement) (phase : SimplePhase) :
    simple s phase (t.rename f) = (simple s phase t).rename f := by
  simp only [simple, simpleAfterKeyword, t.isKeyword_rename hf, t.isName_rename hf]
  cases phase with
  | afterKeyword labelled =>
    cases s.expression? <;> simp only [Outcome.rename_ite] <;> rfl
  | value => cases s.expression? <;> rfl
  | _ =>
    simp only [Outcome.rename_ite]
    rfl

theorem assertion_rename (phase : AssertionPhase) :
    assertion phase (t.rename f) = (assertion phase t).rename f := by
  cases phase <;>
    simp only [assertion, assertAfterMessage, assertEnd, t.isKeyword_rename hf,
      Outcome.rename_ite] <;>
    rfl

theorem report_rename (phase : ReportPhase) :
    report phase (t.rename f) = (report phase t).rename f := by
  cases phase <;>
    simp only [report, reportEnd, t.isKeyword_rename hf, Outcome.rename_ite] <;>
    rfl

/-! ### States with names -/

-- The cases of `rename` overlap, so its equations are costly: they are derived here, once for all
-- the lemmas below.
attribute [local simp] State.rename

theorem entity_rename (phase : EntityPhase) (i : Nat) :
    ((State.entity phase).rename f).react i (t.rename f) = (entity phase t).rename f := by
  cases phase <;>
    simp only [State.rename, State.react, entity, t.isKeyword_rename hf, t.isName_rename hf,
      Outcome.rename_ite] <;>
    rfl

theorem architecture_rename (phase : ArchitecturePhase) (i : Nat) :
    ((State.architecture phase).rename f).react i (t.rename f) =
      (architecture phase t).rename f := by
  cases phase <;>
    simp only [State.rename, State.react, architecture, t.isKeyword_rename hf,
      t.isName_rename hf, Outcome.rename_ite] <;>
    rfl

theorem package_rename (phase : PackagePhase) (i : Nat) :
    ((State.package phase).rename f).react i (t.rename f) = (package phase t).rename f := by
  cases phase <;>
    simp only [State.rename, State.react, package, t.isKeyword_rename hf, t.isName_rename hf,
      Outcome.rename_ite] <;>
    rfl

theorem procedure_rename (phase : ProcedurePhase) (i : Nat) :
    ((State.procedure phase).rename f).react i (t.rename f) = (procedure phase t).rename f := by
  cases phase <;>
    simp only [State.rename, State.react, procedure, t.isKeyword_rename hf, t.isName_rename hf,
      Outcome.rename_ite] <;>
    rfl

theorem function_rename (phase : FunctionPhase) (i : Nat) :
    ((State.function phase).rename f).react i (t.rename f) = (function phase t).rename f := by
  cases phase with
  | returnType name depth begun =>
    simp only [State.rename, State.react, function, t.isKeyword_rename hf,
      subtypeStep_rename hf]
    cases subtypeStep depth t with
    | ended =>
      simp only [Outcome.rename_ite]
      rfl
    | _ => rfl
  | _ =>
    simp only [State.rename, State.react, function, t.isKeyword_rename hf, t.isName_rename hf,
      Outcome.rename_ite]
    rfl

theorem process_rename (label : Option String) (phase : ProcessPhase) :
    process (label.map f) phase (t.rename f) = (process label phase t).rename f := by
  have hkind : (t.rename f).kind = t.kind := rfl
  cases phase with
  | sensitivity depth =>
    simp only [process, hkind]
    repeat' split
    all_goals rfl
  | _ =>
    simp only [process, processAfterSensitivity, t.isKeyword_rename hf, Outcome.rename_ite]
    rfl

theorem declarations_rename (scope : Scope) :
    declarations (scope.rename f) (t.rename f) = (declarations scope t).rename f := by
  have hconstruct : (scope.rename f).construct = scope.construct := rfl
  simp only [declarations, t.keyword?_rename hf, hconstruct]
  cases t.keyword? with
  | none => rfl
  | some k =>
    dsimp only
    cases hs : if k ∈ scope.construct.items then declarationState? k else none with
    | some s =>
      have hself : s.rename f = s := by
        split at hs
        · exact rename_declarationState? hs
        · cases hs
      show _ = Outcome.call ((State.declarations scope).rename f) (s.rename f)
      rw [hself]
      rfl
    | none =>
      dsimp only
      split
      · rename_i rule _
        cases rule <;> rfl
      · rfl
      · rw [Outcome.rename_ite]
        rfl

theorem concurrent_rename (scope : Scope) (label : Option String) :
    concurrent (scope.rename f) (label.map f) (t.rename f) =
      (concurrent scope label t).rename f := by
  simp only [concurrent, t.keyword?_rename hf, t.isName_rename hf, refuseConcurrent,
    Option.isNone_map]
  repeat' split
  all_goals rfl

theorem sequential_rename (scope : Scope) (branch : Branch) (label : Option String) :
    sequential (scope.rename f) branch (label.map f) (t.rename f) =
      (sequential scope branch label t).rename f := by
  have hpart : Part.sequential (scope.rename f) branch = (Part.sequential scope branch).rename f :=
    rfl
  simp only [sequential, t.keyword?_rename hf, t.isName_rename hf, refuseSequential,
    Option.isNone_map, Option.isSome_map, hpart]
  cases t.keyword? with
  | none =>
    rw [Outcome.rename_ite]
    rfl
  | some k =>
    dsimp only
    rw [sequentialEnd?_rename, sequentialStatement?_rename]
    generalize sequentialStatement? _ label k = o
    cases label with
    | none => cases sequentialEnd? scope branch k <;> cases o <;> rfl
    | some _ => cases o <;> rfl

/-- The end of a construct may compare its name with another one, which is left out here. -/
theorem end_rename (scope : Scope) (phase : EndPhase) (i : Nat) :
    (((State.end_ scope phase).rename f).react i (t.rename f)).unmatched =
      (end_ scope phase i t).rename f := by
  have hname : isEndName (t.rename f) = isEndName t := by
    rw [isEndName, t.isName_rename hf]
    rfl
  have hconstruct : (scope.rename f).construct = scope.construct := rfl
  have hchar : (t.rename f).isChar ';' = t.isChar ';' := rfl
  cases phase <;>
    simp only [State.rename, State.react, end_, t.isKeyword_rename hf, hname, hconstruct, hchar]
  all_goals
    repeat' split
    all_goals rfl

theorem target_rename (part : Part) (label : Option String) (phase : TargetPhase) (i : Nat) :
    ((State.target part label phase).rename f).react i (t.rename f) =
      (target part label phase t).rename f := by
  have hkind : (t.rename f).kind = t.kind := rfl
  cases phase with
  | rest depth =>
    simp only [State.rename, State.react, target, targetRest, hkind, t.isKeyword_rename hf]
    repeat' split
    all_goals rfl
  | _ =>
    simp only [State.rename, State.react, target, t.isName_rename hf, Option.isSome_map,
      Outcome.rename_ite]
    rfl

theorem ifStatement_rename (label : Option String) (phase : IfPhase) :
    ifStatement (label.map f) phase (t.rename f) = (ifStatement label phase t).rename f := by
  cases phase <;>
    simp only [ifStatement, t.isKeyword_rename hf, Outcome.rename_ite] <;>
    rfl

theorem loop_rename (label : Option String) (phase : LoopPhase) :
    loop (label.map f) phase (t.rename f) = (loop label phase t).rename f := by
  cases phase <;>
    simp only [loop, loopBody, t.isKeyword_rename hf, t.isName_rename hf, Outcome.rename_ite] <;>
    rfl

end Tokens

theorem assignment_rename (a : Assignment) (part : Part) (phase : AssignmentPhase) (t : Token) :
    assignment a (part.rename f) phase (t.rename f) = (assignment a part phase t).rename f := by
  cases phase <;> simp only [assignment, Outcome.rename_ite] <;> rfl

end Outline

/-- **Names are passed on.** A state with other names reacts to a token with another name in the
same way, except that names may match that did not, or the other way round. -/
theorem State.react_rename (hf : KeepsWords f) (s : State) (i : Nat) (t : Token) :
    ((s.rename f).react i (t.rename f)).unmatched = (s.react i t).rename f := by
  have hsame {o o' : Outcome} (h : o' = o.rename f) : o'.unmatched = o.rename f :=
    h ▸ Outcome.unmatched_rename o
  cases s with
  | documentStart => exact hsame (Outline.documentStart_rename t)
  | documentRegion => exact hsame (Outline.documentRegion_rename hf t)
  | reference r phase => exact hsame (Outline.reference_rename hf t r phase)
  | entity phase => exact hsame (Outline.entity_rename hf t phase i)
  | architecture phase => exact hsame (Outline.architecture_rename hf t phase i)
  | package phase => exact hsame (Outline.package_rename hf t phase i)
  | procedure phase => exact hsame (Outline.procedure_rename hf t phase i)
  | function phase => exact hsame (Outline.function_rename hf t phase i)
  | process label phase => exact hsame (Outline.process_rename hf t label phase)
  | declarations scope => exact hsame (Outline.declarations_rename hf t scope)
  | statements part label =>
    cases part with
    | concurrent scope => exact hsame (Outline.concurrent_rename hf t scope label)
    | sequential scope branch => exact hsame (Outline.sequential_rename hf t scope branch label)
  | end_ scope phase => exact Outline.end_rename hf t scope phase i
  | object o phase => exact hsame (Outline.object_rename hf t o phase)
  | interface l phase => exact hsame (Outline.interface_rename hf t l phase)
  | expression x depth begun => exact hsame (Outline.expression_rename hf t x depth begun)
  | simple s phase => exact hsame (Outline.simple_rename hf t s phase)
  | target part label phase => exact hsame (Outline.target_rename hf t part label phase i)
  | assignment a part phase => exact hsame (Outline.assignment_rename a part phase t)
  | assertion phase => exact hsame (Outline.assertion_rename hf t phase)
  | report phase => exact hsame (Outline.report_rename hf t phase)
  | ifStatement label phase => exact hsame (Outline.ifStatement_rename hf t label phase)
  | loop label phase => exact hsame (Outline.loop_rename hf t label phase)

/-! ## Runs -/

/-- The state `s'` is `s` with other names. -/
def State.Renamed (f : String → String) (s s' : State) : Prop := s' = s.rename f

theorem State.corresponds_renamed : State.Corresponds (State.Renamed f) where
  name {s s'} h := by
    rw [h]
    exact s.name_rename
  trivia {s s'} h := by
    rw [h]
    exact s.trivia_rename

theorem Next.alike_rename (next : Next) : next.Alike (State.Renamed f) (next.rename f) := by
  cases next with
  | goto s => exact .goto rfl
  | call resume sub => exact .call rfl rfl
  | return_ => exact .return_

theorem Move.alike_rename (move : Move) : move.Alike (State.Renamed f) (move.rename f) := by
  cases move with
  | take before closing next => exact .take before closing next.alike_rename
  | pass before next => exact .pass before next.alike_rename
  | finish => exact .finish

theorem Outcome.alike_rename {o o' : Outcome} (h : o'.unmatched = o.rename f) :
    o.Alike (State.Renamed f) False o' := by
  cases o with
  | error c =>
    cases o' with
    | error c' =>
      cases h
      exact .refused c
    | ok r' => cases h
  | ok r =>
    cases o' with
    | error c' => cases h
    | ok r' =>
      obtain ⟨move', note', x'⟩ := r'
      cases h
      exact .ok r.move.alike_rename nofun

/-- The error with other names. -/
def OutlineError.rename (f : String → String) : OutlineError → OutlineError
  | .refused t c => .refused (t.rename f) c
  | e => e

theorem OutlineError.rename_eq_self {e : OutlineError} (h : e.token? = none) : e.rename f = e := by
  cases e with
  | refused => cases h
  | _ => rfl

namespace Machine

variable {m m' k : Machine} {ts : List Token} {t : Token} {e : Option OutlineError}

/-- The machine `m'` has read the tokens of `m` with other names, and has made the same of them. -/
structure Renamed (f : String → String) (m m' : Machine) : Prop where
  abreast : m.Abreast (State.Renamed f) False m'
  tokens : m'.sheet.tokens.toList = m.sheet.tokens.toList.map (Token.rename f)

theorem Renamed.settleToken (hf : KeepsWords f) {n : Nat} (h : m.Renamed f m')
    (ht : m.sheet.tokens.toList = ts ++ [t]) (hr : m.settleToken t n = (k, e)) :
    ∃ k', m'.settleToken (t.rename f) n = (k', e.map (OutlineError.rename f)) ∧
      (e = none → k.Renamed f k') := by
  have ht' : m'.sheet.tokens.toList = ts.map (Token.rename f) ++ [t.rename f] := by
    rw [h.tokens, ht, List.map_append]
    rfl
  have hspace : List.Forall₂ (fun u u' : Token => (u'.kind = .space ↔ u.kind = .space)) ts
      (ts.map (Token.rename f)) := by
    rw [List.forall₂_map_right_iff, List.forall₂_same]
    exact fun u _ => .rfl
  induction n generalizing m m' with
  | zero =>
    cases hr
    refine ⟨m', ?_, by simp⟩
    rw [Machine.settleToken, h.abreast.control.name State.corresponds_renamed]
    rfl
  | succ n ih =>
    have hvisit := h.abreast.visit State.corresponds_renamed ht ht' hspace rfl (fun _ => rfl)
      fun _ _ => by
        rw [h.abreast.control.state]
        exact Outcome.alike_rename (State.react_rename hf _ _ _)
    rw [Machine.settleToken] at hr ⊢
    generalize m.visit t = r at hr hvisit
    generalize m'.visit (t.rename f) = r' at hvisit
    cases hvisit with
    | @absorbed k₁ k₁' h₁ hm hm' =>
      cases hr
      exact ⟨k₁', rfl, fun _ => ⟨h₁, by rw [hm, hm', h.tokens]⟩⟩
    | @settled k₁ k₁' h₁ hm hm' =>
      cases hr
      refine ⟨k₁', rfl, fun _ => ⟨h₁, ?_⟩⟩
      rw [hm, hm', Sheet.toList_tokens_settle ht, Sheet.toList_tokens_settle ht',
        h.abreast.control.state, State.reading_rename hf, List.map_append]
      rfl
    | handedOn h₁ hm hm' =>
      exact ih ⟨h₁, by rw [hm, hm', h.tokens]⟩ (by rw [hm, ht]) hr (by rw [hm', ht'])
    | refused c =>
      cases hr
      exact ⟨_, rfl, by simp⟩
    | failed he =>
      cases hr
      exact ⟨_, by rw [Option.map_some, OutlineError.rename_eq_self he], by simp⟩

/-- **A run over tokens with other names** goes the same way, if mismatches of names are no
errors. -/
theorem Renamed.run (hf : KeepsWords f) {xs : List (Except LexError Token)} (h : m.Renamed f m')
    (hr : m.run xs = (k, e)) :
    ∃ k', m'.run (xs.map (Except.map (Token.rename f))) = (k', e.map (OutlineError.rename f)) ∧
      (e = none → k.Renamed f k') := by
  induction xs generalizing m m' with
  | nil =>
    have hname := h.abreast.control.name State.corresponds_renamed
    rw [Machine.run] at hr
    rw [List.map_nil, Machine.run, h.abreast.done, hname]
    cases hd : m.done with
    | true =>
      rw [if_pos hd] at hr
      cases hr
      exact ⟨m', rfl, fun _ => h⟩
    | false =>
      rw [if_neg (by simp [hd])] at hr
      cases hr
      exact ⟨m', rfl, by simp⟩
  | cons x xs ih =>
    simp only [Machine.run] at hr
    simp only [List.map_cons, Machine.run, h.abreast.done]
    cases hd : m.done with
    | true =>
      rw [if_pos hd] at hr
      cases hr
      exact ⟨m', rfl, fun _ => h⟩
    | false =>
      rw [if_neg (by simp [hd])] at hr
      cases x with
      | error l =>
        cases hr
        exact ⟨m', rfl, by simp⟩
      | ok t =>
        dsimp only at hr
        generalize hfeed : m.feed t = r at hr
        obtain ⟨k₁, e₁⟩ := r
        have hpush : Renamed f { m with sheet := m.sheet.push t }
            { m' with sheet := m'.sheet.push (t.rename f) } :=
          ⟨h.abreast.push t (t.rename f), by simp [Sheet.push, h.tokens]⟩
        obtain ⟨k₁', hk₁', h₁⟩ := hpush.settleToken hf (m.sheet.tokens.toList_push t) hfeed
        have hfeed' : m'.feed (t.rename f) = (k₁', e₁.map (OutlineError.rename f)) := hk₁'
        simp only [Except.map, hfeed', Bool.false_eq_true, if_false]
        cases e₁ with
        | none => exact ih (h₁ rfl) hr
        | some e₁ =>
          cases hr
          exact ⟨k₁', rfl, by simp⟩

end Machine

/-- **The outline does not depend on names**, unless names are strict. -/
theorem outline_rename (hf : KeepsWords f) {options : Options} (hs : options.strictNames = false)
    (xs : List (Except LexError Token)) :
    (∃ d d', outline xs options = .ok d ∧
      outline (xs.map (Except.map (Token.rename f))) options = .ok d' ∧
      d'.tokens.toList = d.tokens.toList.map (Token.rename f) ∧ d'.blocks = d.blocks) ∨
    ∃ e, outline xs options = .error e ∧
      outline (xs.map (Except.map (Token.rename f))) options = .error (e.rename f) := by
  have hstart : Machine.Renamed f { options } { options } :=
    ⟨⟨rfl, fun h => absurd h (by simp [hs]), ⟨rfl, rfl, .nil⟩, rfl, nofun, rfl⟩, rfl⟩
  unfold outline
  generalize hr : Machine.run { options } xs = r
  obtain ⟨m, e⟩ := r
  obtain ⟨m', hr', hm⟩ := hstart.run hf hr
  rw [hr']
  cases e with
  | none =>
    have hm := hm rfl
    refine .inl ⟨_, _, rfl, rfl, hm.tokens, ?_⟩
    show m'.sheet.blocks = m.sheet.blocks
    rw [hm.abreast.sheet]
    rfl
  | some e => exact .inr ⟨e, rfl, rfl⟩

end VhdlOutline
