import VhdlOutline.Proofs.Outline.Lookups

/-!
# Constructs that are open

A construct is opened when its name is read, or, for a statement, when its reserved word is seen,
and a note tells so. It is closed by its end, or by the semicolon after the specification of a
subprogram without a body. Meanwhile every state that belongs to it carries its name.

* `State.opening?` is the construct that a state belongs to, and `Control.openings` lists those of
  the current state and of the states on the stack.
* `Reaction.openings` opens and closes constructs as the notes and moves of a reaction say, and
  knows nothing of states.
* `Control.openings_follow` shows that both agree: the constructs on the stack are those that have
  been opened and not closed.
-/

namespace VhdlOutline

def Scope.opening (scope : Scope) : Opening := ⟨scope.construct.keyword, scope.name⟩

/-- The construct that a state belongs to, if it has been opened. Declarations and statements that
have no end of their own belong to none. -/
def State.opening? : State → Option Opening
  | .entity (.afterName name) => some ⟨.entity, some name⟩
  | .architecture (.afterName name) | .architecture (.afterOf name)
  | .architecture (.afterEntity name) => some ⟨.architecture, some name⟩
  | .package (.afterName name) | .package (.afterIs name) | .package (.bodyAfterName name) =>
    some ⟨.package, some name⟩
  | .procedure (.afterName name) | .procedure (.afterParameters name) =>
    some ⟨.procedure, some name⟩
  | .function (.afterName name) | .function (.afterParameters name)
  | .function (.returnType name _ _) => some ⟨.function, some name⟩
  | .process label _ => some ⟨.process, label⟩
  | .declarations scope | .end_ scope _ => some scope.opening
  | .statements part _ | .target part _ _ | .assignment _ part _ => some part.scope.opening
  | .ifStatement label _ => some ⟨.if_, label⟩
  | .loop label _ => some ⟨.loop, label⟩
  | _ => none

/-- The constructs that are open, innermost first. -/
def Control.openings (c : Control) : List Opening :=
  (c.state :: c.stack).filterMap State.opening?

/-! ## What reactions open and close -/

/-- The kinds of blocks that close a construct. -/
def BlockKind.isConstructEnd : BlockKind → Bool
  | .entityEnd | .architectureEnd | .packageEnd | .packageBodyEnd | .procedureEnd | .functionEnd
  | .processEnd | .ifEnd | .loopEnd | .procedureDeclarationEnd | .functionDeclarationEnd => true
  | _ => false

/-- Whether a move closes a construct. -/
def Move.closesConstruct : Move → Bool
  | .take _ (some kind) .return_ => kind.isConstructEnd
  | _ => false

/-- The construct that a reaction opens. -/
def Reaction.opening? (r : Reaction) : Option Opening :=
  match r.note with
  | some (.entering k name) => some ⟨k, name⟩
  | _ => none

/-- The open constructs after a reaction. -/
def Reaction.openings (r : Reaction) (os : List Opening) : List Opening :=
  match r.opening? with
  | some o => o :: os
  | none => if r.move.closesConstruct then os.tail else os

/-! ## The notes of the reactions

A note announces a construct exactly where the move leads into it from outside. -/

/-- The construct that a move of the state `s` leads into. -/
def State.entered? (s : State) : Move → Option Opening
  | .take _ _ (.goto s') => if s.opening?.isNone then s'.opening? else none
  | .pass _ (.call _ sub) => sub.opening?
  | _ => none

/-- The reaction announces the construct it leads into, and compares names only at an end. -/
def State.Announces (s : State) (r : Reaction) : Prop :=
  r.opening? = s.entered? r.move ∧
    ∀ x, r.mismatch = some x → ∃ scope phase,
      s = .end_ scope phase ∧ r.move = .take none (some scope.construct.endKind) .return_

namespace Outcome

/-- Whatever reaction the outcome holds, `P` is true of it. -/
def Holds (P : Reaction → Prop) (o : Outcome) : Prop := ∀ r, o = .ok r → P r

variable {P : Reaction → Prop}

@[simp] theorem holds_error (c : Complaint) : Holds P (.error c) := by
  intro r h
  cases h

@[simp] theorem holds_ok (r : Reaction) : Holds P (.ok r) ↔ P r := by
  constructor
  · exact fun h => h r rfl
  · rintro h _ ⟨⟩
    exact h

@[simp] theorem holds_ite (p : Prop) [Decidable p] (a b : Outcome) :
    Holds P (if p then a else b) ↔ (p → Holds P a) ∧ (¬ p → Holds P b) := by
  split <;> simp [*]

@[simp] theorem holds_noting (n : Note) (o : Outcome) :
    Holds P (o.noting n) ↔ Holds (fun r => P { r with note := some n }) o := by
  cases o <;> simp [noting, Except.map]

end Outcome

namespace State

open Outcome

section

attribute [local simp] expected notImplemented take close closeReturn cutTake cutClose
  cutCloseReturn Outcome.pass cutPass call cutCall cutReturn Announces entered? opening?
  Reaction.opening?

theorem documentStart_announces (t : Token) :
    Holds (Announces .documentStart) (Outline.documentStart t) := by
  simp [Outline.documentStart]

theorem documentRegion_announces (t : Token) :
    Holds (Announces .documentRegion) (Outline.documentRegion t) := by
  unfold Outline.documentRegion
  split
  · simp
  · split <;> simp

theorem reference_announces (r : Reference) (phase : ReferencePhase) (t : Token) :
    Holds (Announces (.reference r phase)) (Outline.reference r phase t) := by
  unfold Outline.reference
  split <;> simp

theorem entity_announces (phase : EntityPhase) (t : Token) :
    Holds (Announces (.entity phase)) (Outline.entity phase t) := by
  unfold Outline.entity
  split <;> simp

theorem architecture_announces (phase : ArchitecturePhase) (t : Token) :
    Holds (Announces (.architecture phase)) (Outline.architecture phase t) := by
  unfold Outline.architecture
  split <;> simp

theorem package_announces (phase : PackagePhase) (t : Token) :
    Holds (Announces (.package phase)) (Outline.package phase t) := by
  unfold Outline.package
  split <;> simp

theorem procedure_announces (phase : ProcedurePhase) (t : Token) :
    Holds (Announces (.procedure phase)) (Outline.procedure phase t) := by
  unfold Outline.procedure
  split <;> simp

theorem function_announces (phase : FunctionPhase) (t : Token) :
    Holds (Announces (.function phase)) (Outline.function phase t) := by
  unfold Outline.function
  split
  case h_6 => split <;> simp
  all_goals simp

theorem object_announces (o : ObjectClass) (phase : ObjectPhase) (t : Token) :
    Holds (Announces (.object o phase)) (Outline.object o phase t) := by
  unfold Outline.object
  split
  case h_5 => split <;> simp
  all_goals simp

theorem interface_announces (l : InterfaceList) (phase : InterfacePhase) (t : Token) :
    Holds (Announces (.interface l phase)) (Outline.interface l phase t) := by
  unfold Outline.interface Outline.itemStart Outline.closeList
  split
  case h_1 => split <;> simp
  case h_2 =>
    simp only [holds_ite]
    exact ⟨fun _ => by simp, fun _ => by split <;> simp⟩
  case h_3 =>
    simp only [holds_ite]
    exact ⟨fun _ => by simp, fun _ => by split <;> simp⟩
  case h_7 => split <;> simp
  all_goals simp

theorem declarationState?_opening {k : Keyword} {s : State}
    (h : Outline.declarationState? k = some s) : s.opening? = none := by
  unfold Outline.declarationState? at h
  split at h <;> cases h <;> rfl

theorem declarations_announces (scope : Scope) (t : Token) :
    Holds (Announces (.declarations scope)) (Outline.declarations scope t) := by
  unfold Outline.declarations Outline.refuseDeclaration
  split
  · simp
  · split
    · rename_i hs
      split at hs
      · exact (holds_ok _).2 ⟨(declarationState?_opening hs).symm, by simp⟩
      · cases hs
    · split
      · simp
      · simp
      · split <;> simp

theorem end_announces (scope : Scope) (phase : EndPhase) (i : Nat) (t : Token) :
    Holds (Announces (.end_ scope phase)) (Outline.end_ scope phase i t) := by
  unfold Outline.end_ Outline.endFinish Outline.endName
  dsimp only
  split
  case h_3 => split <;> simp
  all_goals simp

theorem expression_announces (x : Expression) (depth : Nat) (begun : Bool) (t : Token) :
    Holds (Announces (.expression x depth begun)) (Outline.expression x depth begun t) := by
  unfold Outline.expression Outline.expressionToken
  split
  · simp
  · split <;> simp

theorem concurrent_announces (scope : Scope) (label : Option String) (t : Token) :
    Holds (Announces (.statements (.concurrent scope) label))
      (Outline.concurrent scope label t) := by
  unfold Outline.concurrent Outline.refuseConcurrent
  dsimp only
  split
  · simp
  · split
    · simp
    · split
      · simp
      · simp
      · split <;> simp

theorem sequentialEnd?_announces {scope : Scope} {branch : Branch} {k : Keyword} {o : Outcome}
    (h : Outline.sequentialEnd? scope branch k = some o) (label : Option String) :
    Holds (Announces (.statements (.sequential scope branch) label)) o := by
  unfold Outline.sequentialEnd? at h
  split at h <;> cases h <;> simp

theorem sequentialStatement?_announces {scope : Scope} {branch : Branch} {label : Option String}
    {k : Keyword} {o : Outcome}
    (h : Outline.sequentialStatement? (.sequential scope branch) label k = some o) :
    Holds (Announces (.statements (.sequential scope branch) label)) o := by
  unfold Outline.sequentialStatement? at h
  dsimp only at h
  split at h <;> cases h <;> simp

theorem sequential_announces (scope : Scope) (branch : Branch) (label : Option String)
    (t : Token) :
    Holds (Announces (.statements (.sequential scope branch) label))
      (Outline.sequential scope branch label t) := by
  unfold Outline.sequential Outline.refuseSequential
  dsimp only
  split
  · simp
  · rename_i k _
    cases he : (if label.isNone then Outline.sequentialEnd? scope branch k else none) with
    | some o =>
      obtain ⟨-, he⟩ : label = none ∧ Outline.sequentialEnd? scope branch k = some o := by
        simpa using he
      simpa only [Option.some_or, Option.getD_some] using sequentialEnd?_announces he label
    | none =>
      cases hs : Outline.sequentialStatement? (.sequential scope branch) label k with
      | some o =>
        simpa only [Option.none_or, Option.getD_some] using sequentialStatement?_announces hs
      | none => simp

theorem simple_announces (s : SimpleStatement) (phase : SimplePhase) (t : Token) :
    Holds (Announces (.simple s phase)) (Outline.simple s phase t) := by
  unfold Outline.simple
  split
  case h_2 =>
    unfold Outline.simpleAfterKeyword
    split
    · simp
    · split
      · simp
      · split <;> simp
  case h_3 => split <;> simp
  all_goals simp

theorem target_announces (part : Part) (label : Option String) (phase : TargetPhase) (t : Token) :
    Holds (Announces (.target part label phase)) (Outline.target part label phase t) := by
  unfold Outline.target Outline.targetRest
  split
  case h_3 => split <;> simp
  all_goals simp

theorem assignment_announces (a : Assignment) (part : Part) (phase : AssignmentPhase)
    (t : Token) :
    Holds (Announces (.assignment a part phase)) (Outline.assignment a part phase t) := by
  unfold Outline.assignment
  split <;> simp

theorem assertion_announces (phase : AssertionPhase) (t : Token) :
    Holds (Announces (.assertion phase)) (Outline.assertion phase t) := by
  unfold Outline.assertion Outline.assertAfterMessage Outline.assertEnd
  split <;> simp

theorem report_announces (phase : ReportPhase) (t : Token) :
    Holds (Announces (.report phase)) (Outline.report phase t) := by
  unfold Outline.report Outline.reportEnd
  split <;> simp

theorem process_announces (label : Option String) (phase : ProcessPhase) (t : Token) :
    Holds (Announces (.process label phase)) (Outline.process label phase t) := by
  unfold Outline.process Outline.processAfterSensitivity
  split
  case h_3 => split <;> simp
  all_goals simp

theorem ifStatement_announces (label : Option String) (phase : IfPhase) (t : Token) :
    Holds (Announces (.ifStatement label phase)) (Outline.ifStatement label phase t) := by
  unfold Outline.ifStatement
  split <;> simp

theorem loop_announces (label : Option String) (phase : LoopPhase) (t : Token) :
    Holds (Announces (.loop label phase)) (Outline.loop label phase t) := by
  unfold Outline.loop Outline.loopBody
  split <;> simp

end

/-- **A reaction announces the construct it leads into.** -/
theorem announces_of_react {s : State} {i : Nat} {t : Token} {r : Reaction}
    (h : s.react i t = .ok r) : s.Announces r := by
  suffices Holds s.Announces (s.react i t) from this r h
  unfold react
  split
  · exact documentStart_announces t
  · exact documentRegion_announces t
  · exact reference_announces _ _ t
  · exact entity_announces _ t
  · exact architecture_announces _ t
  · exact package_announces _ t
  · exact procedure_announces _ t
  · exact function_announces _ t
  · exact process_announces _ _ t
  · exact declarations_announces _ t
  · exact concurrent_announces _ _ t
  · exact sequential_announces _ _ _ t
  · exact end_announces _ _ i t
  · exact object_announces _ _ t
  · exact interface_announces _ _ t
  · exact expression_announces _ _ _ t
  · exact simple_announces _ _ t
  · exact target_announces _ _ _ t
  · exact assignment_announces _ _ _ t
  · exact assertion_announces _ t
  · exact report_announces _ t
  · exact ifStatement_announces _ _ t
  · exact loop_announces _ _ t

/-! ## Where the moves lead -/

/-- Within a construct a taken token leads to a state of the same construct. -/
theorem Allows.opening?_take {s s' : State} {t : Token} {before closing : Option BlockKind}
    (h : s.Allows t (.take before closing (.goto s'))) (ho : s.opening? ≠ none) :
    s'.opening? = s.opening? := by
  cases h with
  | @declarationsBegin _ _ _ rule => cases rule <;> rfl
  | _ => first | rfl | exact absurd rfl ho

theorem Allows.opening?_pass {s s' : State} {t : Token} {before : Option BlockKind}
    (h : s.Allows t (.pass before (.goto s'))) (hg : s.isGrounded = true) :
    s'.opening? = s.opening? := by
  cases h with
  | statementsElsif =>
    -- The branches are those of an if statement.
    have hc : _ = Construct.if_ := of_decide_eq_true hg
    simp [opening?, Scope.opening, Part.scope, hc, Construct.keyword]
  | _ => rfl

/-- What is resumed belongs to the construct of the caller. -/
theorem Allows.opening?_resume {s resume sub : State} {t : Token} {before : Option BlockKind}
    (h : s.Allows t (.pass before (.call resume sub))) : resume.opening? = s.opening? := by
  cases h <;> rfl

/-- A token that is taken calls no other state. -/
theorem Allows.not_take_call {s resume sub : State} {t : Token}
    {before closing : Option BlockKind} :
    ¬ s.Allows t (.take before closing (.call resume sub)) := by
  rintro ⟨⟩

/-- A state returns with the token that closes its construct, if it belongs to one. -/
theorem Allows.closesConstruct {s : State} {t : Token} {before closing : Option BlockKind}
    (h : s.Allows t (.take before closing .return_)) :
    (Move.take before closing .return_).closesConstruct = s.opening?.isSome := by
  cases h with
  | @endSemicolon _ scope =>
    simp only [Move.closesConstruct, opening?, Option.isSome_some]
    cases scope.construct <;> rfl
  | @referenceEnd _ r => cases r <;> rfl
  | @objectTypeEnd _ o => cases o <;> rfl
  | @objectEnd _ o => cases o <;> rfl
  | @interfaceReturn _ l => cases l <;> rfl
  | @defaultReturn _ l => cases l <;> rfl
  | @typeReturn _ l => cases l <;> rfl
  | @interfaceSemicolon _ l => cases l <;> rfl
  | @simpleWhole _ s => cases s <;> rfl
  | @simpleBare _ s => cases s <;> rfl
  | @simpleEnd _ s => cases s <;> rfl
  | _ => rfl

theorem Allows.opening?_pass_return {s : State} {t : Token} {before : Option BlockKind}
    (h : s.Allows t (.pass before .return_)) : s.opening? = none := by
  cases h
  rfl

end State

/-! ## Both accounts of the open constructs agree -/

theorem Control.openings_eq (c : Control) :
    c.openings = c.state.opening?.toList ++ c.stack.filterMap State.opening? := by
  rw [openings, List.filterMap_cons]
  cases c.state.opening? <;> rfl

/-- **The constructs of the states are those that have been opened and not closed.** -/
theorem Control.openings_follow {c c' : Control} {i : Nat} {t : Token} {r : Reaction} {next : Next}
    (hr : c.state.react i t = .ok r) (hg : c.state.isGrounded = true)
    (hn : r.move.next? = some next) (hc : c.follow next = .ok c') :
    c'.openings = r.openings c.openings := by
  obtain ⟨s, aside, stack⟩ := c
  have hallows := State.allows_of_react hr
  have ho := (State.announces_of_react hr).1
  obtain ⟨move, note, x⟩ := r
  simp only [openings_eq, Reaction.openings, ho]
  cases move with
  | take before closing next' =>
    cases hn
    cases next with
    | goto s' =>
      cases hc
      cases hs : s.opening? with
      | none => cases hs' : s'.opening? <;> simp [State.entered?, Move.closesConstruct, hs, hs']
      | some o =>
        have hs' := hallows.opening?_take (by simp [hs])
        simp [State.entered?, Move.closesConstruct, hs, hs']
    | call resume sub => exact absurd hallows State.Allows.not_take_call
    | return_ =>
      cases stack with
      | nil => cases hc
      | cons s' stack =>
        cases hc
        have hclose := hallows.closesConstruct
        rw [← openings_eq]
        cases hs : s.opening? <;> simp [State.entered?, hclose, hs, openings]
  | pass before next' =>
    cases hn
    cases next with
    | goto s' =>
      cases hc
      simp [State.entered?, Move.closesConstruct, hallows.opening?_pass hg]
    | call resume sub =>
      cases hc
      have hresume := hallows.opening?_resume
      cases hs : sub.opening? <;> cases hs' : s.opening? <;>
        simp_all [State.entered?, Move.closesConstruct]
    | return_ =>
      cases stack with
      | nil => cases hc
      | cons s' stack =>
        cases hc
        rw [← openings_eq]
        simp [State.entered?, Move.closesConstruct, hallows.opening?_pass_return, openings]
  | finish => cases hn

end VhdlOutline
