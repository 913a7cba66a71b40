import VhdlOutline.Proofs.Outline.Lookups
import VhdlOutline.Proofs.Outline.Pairing

/-!
# Names that states carry

The first block of a construct says its name or label, and the state that reads it carries the name
along. From then on the name is kept by the states of the construct and by those on the stack, until
its end is read.

* `State.Recites`: the name, label or end name that a state carries is the one in the block under
  construction. Every move keeps this (`State.Allows.recites_take`, `State.Allows.recites_pass`).
* `State.Nests`: a move opens and closes constructs in the stack of states just as the blocks that
  it completes do by their kinds (`State.Allows.nests`).
-/

namespace VhdlOutline

/-! ## What states know of the block under construction -/

/-- The name at an end, once it has been read. -/
def EndPhase.found? : EndPhase → Option EndName
  | .afterName found => some found
  | _ => none

namespace State

/-- The construct whose first block is under construction, with its name as far as it has been
read. -/
def heading? : State → Option Scope
  | .entity (.afterName name) => some ⟨.entity, some name⟩
  | .entity _ => some ⟨.entity, none⟩
  | .architecture .start | .architecture .afterKeyword => some ⟨.architecture, none⟩
  | .architecture (.afterName name) | .architecture (.afterOf name)
  | .architecture (.afterEntity name) => some ⟨.architecture, some name⟩
  | .package .start | .package .afterKeyword => some ⟨.package, none⟩
  | .package (.afterName name) => some ⟨.package, some name⟩
  | .package .bodyAfterKeyword => some ⟨.packageBody, none⟩
  | .package (.bodyAfterName name) => some ⟨.packageBody, some name⟩
  | .procedure .start | .procedure .name => some ⟨.procedure, none⟩
  | .procedure (.afterName name) => some ⟨.procedure, some name⟩
  | .function .start | .function .keyword | .function .name => some ⟨.function, none⟩
  | .function (.afterName name) => some ⟨.function, some name⟩
  | .process label _ => some ⟨.process, label⟩
  | .ifStatement label .start | .ifStatement label .afterKeyword => some ⟨.if_, label⟩
  | .loop label .start | .loop label .forParameter | .loop label .forIn | .loop label .forAfterIn
  | .loop label .whileAfterKeyword => some ⟨.loop, label⟩
  | _ => none

/-- The name or label that the state carries is the one in the block under construction, of which
`p` has been read. -/
def Recites (s : State) (p : List Token) : Prop :=
  match s with
  | .statements _ label | .target _ label .name => labelIn p = label ∧ (label = none → p = [])
  | .target _ label (.afterHead head) => labelIn p = label.or (some head)
  | .end_ _ phase => designatorsIn p = (phase.found?.map EndName.text).toList
  | s => ∀ scope, s.heading? = some scope → scope.construct.nameIn p = scope.name

end State

/-- What the state that goes on carries is in the block under construction. A state that is resumed
finds none. -/
def Next.Recites (p : List Token) : Next → Prop
  | .goto s => s.Recites p
  | .call _ sub => sub.Recites p
  | .return_ => p = []

namespace State

variable {s : State} {t : Token} {p : List Token}

theorem recites_of_heading? (hr : s.Recites p) {scope : Scope} (h : s.heading? = some scope) :
    scope.construct.nameIn p = scope.name := by
  unfold Recites at hr
  split at hr
  all_goals first | exact hr scope h | cases h

section

attribute [local simp] Next.Recites Recites heading? reading Construct.nameIn Construct.isStatement
  designatorsIn_append labelIn_append EndPhase.found?

/-- A token that is taken brings the state the name that it is. -/
theorem Allows.recites_take {before closing : Option BlockKind} {next : Next}
    (h : s.Allows t (.take before closing next)) (hp : s.Recites p)
    (hb : s.posture = .begun → p ≠ []) :
    next.Recites (if closing.isSome then []
      else (if before.isSome then [] else p) ++ [{ t with kind := s.reading t }]) := by
  cases h with
  | entityName h | architectureName h | packageName h | packageBodyName h | procedureName h =>
    have hd := Token.isDesignator_settled (t := t) (by simp [h])
    simp_all [designatorsIn_singleton]
  | functionName h =>
    have hd := Token.isDesignator_settled h
    simp_all [designatorsIn_singleton]
  | architectureEntity => simp_all
  | functionPurity h =>
    have hd : ({ t with kind := t.settled } : Token).isDesignator = false := by
      rcases Bool.or_eq_true_iff.1 h with h | h <;> exact Token.not_isDesignator_of_isKeyword h
    simp_all [designatorsIn_eq_nil]
  | entityKeyword h | architectureKeyword h | architectureOf h | packageKeyword h | packageBody h
  | procedureKeyword h | functionStart h | functionKeyword h | processKeyword h | ifKeyword h
  | loopFor h | loopWhile h | loopIn h | endKeyword h | endFirst _ h | endOnly _ h
  | endSecond _ h =>
    have hd := Token.not_isDesignator_of_isKeyword h
    simp_all [designatorsIn_eq_nil]
  | processOpen h =>
    have hd := Token.not_isDesignator_of_isChar h
    simp_all
  | processToken | processClose | loopParameter =>
    simp_all [labelIn_append_of_ne_nil (hb rfl)]
  | @targetName _ _ label h =>
    have hd := Token.isDesignator_settled (t := t) (by simp [h])
    cases label with
    | none => simp_all [labelIn]
    | some label =>
      have hne : p ≠ [] := by
        rintro rfl
        simp [labelIn] at hp
      simp_all [labelIn_append_of_ne_nil hne]
  | targetLabel h =>
    have hd := Token.not_isDesignator_of_isChar h
    simp_all
  | endName hphase h =>
    have hd := Token.isDesignator_settled h
    rcases hphase with rfl | rfl <;> simp_all [designatorsIn_singleton]
  | @objectKeyword _ o => cases o <;> simp
  | @declarationsBegin _ _ _ rule => cases rule <;> simp [labelIn]
  | _ => simp [labelIn, Outline.thenBranch]

/-- A token that is handed on finds the name where it was. -/
theorem Allows.recites_pass {before : Option BlockKind} {next : Next}
    (h : s.Allows t (.pass before next)) (hp : s.Recites p) (hc : s.posture = .clean → p = []) :
    next.Recites (if before.isSome then [] else p) := by
  cases h with
  | documentEntity | documentArchitecture | documentPackage | declarationsEnd | statementsEnd =>
    simp [hc rfl, designatorsIn]
  | declaration _ _ hs =>
    unfold Outline.declarationState? at hs
    split at hs <;> cases hs <;> simp [hc rfl, designatorsIn]
  | _ => simp_all

end

/-- What is resumed carries the name of no block under construction. -/
theorem recites_of_isFrame (h : s.isFrame) : s.Recites [] := by
  unfold isFrame at h
  split at h <;> cases h <;> simp [Recites, heading?, labelIn]

theorem recites_of_isAfterExpression (h : s.isAfterExpression) : s.Recites [] := by
  unfold isAfterExpression at h
  split at h <;> cases h <;> simp [Recites, heading?]

theorem recites_follow {c c' : Control} {next : Next} (hf : Fits c.state c.stack)
    (hc : c.follow next = .ok c') (hn : next.Recites p) : c'.state.Recites p := by
  have harrives := hf.arrives hc
  generalize c'.state = s' at harrives ⊢
  cases harrives with
  | goto | call => exact hn
  | document => rintro _ ⟨⟩
  | frame _ h =>
    obtain rfl : p = [] := hn
    exact recites_of_isFrame h
  | expression _ h =>
    obtain rfl : p = [] := hn
    exact recites_of_isAfterExpression h

/-! ## Constructs whose first block is complete -/

/-- The construct that a state belongs to, if the block that opens it is complete, and whether the
word that begins the body of a loop is still to come. -/
def opened? : State → Option (Scope × Bool)
  | .package (.afterIs name) => some (⟨.package, some name⟩, false)
  | .procedure (.afterParameters name) => some (⟨.procedure, some name⟩, false)
  | .function (.afterParameters name) | .function (.returnType name _ _) =>
    some (⟨.function, some name⟩, false)
  | .declarations scope | .end_ scope _ => some (scope, false)
  | .statements part _ | .target part _ _ | .assignment _ part _ => some (part.scope, false)
  | .ifStatement _ .start | .ifStatement _ .afterKeyword => none
  | .ifStatement label _ => some (⟨.if_, label⟩, false)
  | .loop label .forAfterRange | .loop label .bound | .loop label .body =>
    some (⟨.loop, label⟩, true)
  | _ => none

end State

/-- The constructs of the states that a move leads to, innermost first. -/
def Next.opened : Next → List (Scope × Bool)
  | .goto s => s.opened?.toList
  | .call resume sub => sub.opened?.toList ++ resume.opened?.toList
  | .return_ => []

/-- The constructs of all states, innermost first. -/
def Control.opened (c : Control) : List (Scope × Bool) :=
  (c.state :: c.stack).filterMap State.opened?

theorem Control.opened_eq (c : Control) :
    c.opened = c.state.opened?.toList ++ c.stack.filterMap State.opened? := by
  rw [opened, List.filterMap_cons]
  cases c.state.opened? <;> rfl

theorem Control.opened_follow {c c' : Control} {next : Next} (h : c.follow next = .ok c') :
    c'.opened = next.opened ++ c.stack.filterMap State.opened? := by
  obtain ⟨s, aside, stack⟩ := c
  cases next with
  | goto s' =>
    cases h
    exact opened_eq _
  | call resume sub =>
    cases h
    rw [opened_eq, Next.opened, List.append_assoc, List.filterMap_cons]
    cases resume.opened? <;> rfl
  | return_ =>
    cases stack with
    | nil => cases h
    | cons s' stack =>
      cases h
      rfl

namespace State

/-- What a move of the state `s` does to the constructs that are open, next to what the blocks of
the given kinds do that it completes: the constructs on the right take the place of the one of
`s`. -/
inductive Nests (s : State) : List BlockKind → List (Scope × Bool) → Prop
  | inner {ks : List BlockKind} (hk : ∀ k ∈ ks, k.bracket = .inner) : Nests s ks s.opened?.toList
  | opening {k : BlockKind} {scope : Scope} {awaitsBody : Bool} (ho : s.opened? = none)
      (hs : s.heading? = some scope) (hk : k.bracket = .opening scope.construct awaitsBody) :
      Nests s [k] [(scope, awaitsBody)]
  /-- A subprogram without a body is opened and dropped at once. -/
  | declared {k k' : BlockKind} {c : Construct} {awaitsBody : Bool} (ho : s.opened? = none)
      (hk : k.bracket = .opening c awaitsBody) (hk' : k'.bracket = .dropping) : Nests s [k, k'] []
  | loop {k : BlockKind} {scope : Scope} (ho : s.opened? = none) (hx : s.isExpression = false)
      (hs : s.heading? = some scope) (hc : scope.construct = .loop) (hk : k.bracket = .body) :
      Nests s [k] [(scope, false)]
  | body {k : BlockKind} {scope : Scope} (ho : s.opened? = some (scope, true))
      (hk : k.bracket = .body) : Nests s [k] [(scope, false)]
  | closing {scope : Scope} {phase : EndPhase} (hs : s = .end_ scope phase) :
      Nests s [scope.construct.endKind] []
  | dropping {ks : List BlockKind} {k : BlockKind} (ho : s.opened?.isSome = true)
      (hks : ∀ k ∈ ks, k.bracket = .inner) (hk : k.bracket = .dropping) : Nests s (ks ++ [k]) []

variable {s : State} {t : Token}

theorem Nests.plain : s.Nests [] s.opened?.toList :=
  .inner (List.forall_mem_nil _)

theorem declarationState?_opened {k : Keyword} (h : Outline.declarationState? k = some s) :
    s.opened? = none := by
  unfold Outline.declarationState? at h
  split at h <;> cases h <;> rfl

/-- **Blocks nest as the states do.** -/
theorem Allows.nests {move : Move} {next : Next} (h : s.Allows t move)
    (hn : move.next? = some next) (hg : s.isGrounded = true) : s.Nests move.kinds next.opened := by
  cases h with
  | documentEnd => cases hn
  | entityIs | architectureIs | packageIs | packageBodyIs | procedureParameters | procedureIs
  | functionParameters | functionReturn | ifCondition | loopRange | loopCondition =>
    cases hn
    exact .opening rfl rfl rfl
  | processIs hp | processDeclarations hp =>
    cases hn
    rcases hp with rfl | rfl <;> exact .opening rfl rfl rfl
  | procedureDeclared =>
    cases hn
    exact .declared rfl rfl rfl
  | procedureParametersDeclared =>
    cases hn
    exact @Nests.dropping _ [] _ rfl (List.forall_mem_nil _) rfl
  | functionTypeDeclared =>
    cases hn
    exact @Nests.dropping _ [.functionReturnType] _ rfl (by simp [BlockKind.bracket]) rfl
  | loopBegin hp =>
    cases hn
    rcases hp with rfl | rfl | rfl
    · exact .loop rfl rfl rfl rfl rfl
    · exact .body rfl rfl
    · exact .body rfl rfl
  | endSemicolon =>
    cases hn
    exact .closing rfl
  | declaration _ _ hs =>
    cases hn
    rw [Next.opened, declarationState?_opened hs]
    exact .plain
  | @declarationsBegin _ scope _ rule hb =>
    cases hn
    have hscope : (rule.part scope).scope = scope := by cases rule <;> rfl
    rw [Next.opened, opened?, hscope]
    exact .inner (by simp [Move.kinds, Construct.bracket_beginKind hb])
  | @statementsElsif _ scope =>
    -- The branches are those of an if statement.
    cases hn
    obtain ⟨c, name⟩ := scope
    obtain rfl : c = .if_ := of_decide_eq_true hg
    exact .plain
  | _ =>
    cases hn
    exact .inner (by simp [Move.kinds] <;> decide)

/-- The first block of a construct does not end with a designator. -/
theorem Allows.not_isDesignator_of_close {k : BlockKind} {next : Next}
    (h : s.Allows t (.take none (some k) next)) {scope : Scope} (hs : s.heading? = some scope) :
    ({ t with kind := s.reading t } : Token).isDesignator = false := by
  cases h with
  | entityIs h | architectureIs h | packageIs h | packageBodyIs h | procedureIs h | processIs _ h
  | loopBegin _ h => exact Token.not_isDesignator_of_isKeyword h
  | _ => cases hs

/-- The constructs of the states to be resumed have a body, unless an expression is read. -/
theorem Frames.not_awaitsBody {stack : List State} (h : Frames stack) :
    ∀ x ∈ stack.filterMap opened?, x.2 = false := by
  induction h with
  | base => nofun
  | @cons s stack hs _ ih =>
    intro x hx
    rw [List.filterMap_cons] at hx
    unfold isFrame at hs
    split at hs <;> cases hs
    all_goals
      rcases List.mem_cons.1 hx with rfl | hx
      · rfl
      · exact ih x hx

theorem Fits.not_awaitsBody {stack : List State} (h : Fits s stack) (hx : s.isExpression = false) :
    ∀ x ∈ stack.filterMap opened?, x.2 = false := by
  cases h with
  | outer => nofun
  | inner _ _ hs => exact hs.not_awaitsBody
  | expression => cases hx

/-- No state calls an end or returns to one. -/
theorem Fits.goto_of_end {c c' : Control} (hf : Fits c.state c.stack) {move : Move} {next : Next}
    (h : c.state.Allows t move) (hn : move.next? = some next) (hc : c.follow next = .ok c')
    {scope : Scope} {phase : EndPhase} (hs : c'.state = .end_ scope phase) :
    next = .goto (.end_ scope phase) := by
  have harrives := hf.arrives hc
  rw [hs] at harrives
  generalize c.state = s at h harrives
  cases harrives with
  | goto => rfl
  | call =>
    cases h with
    | declaration _ _ hd =>
      cases hn
      unfold Outline.declarationState? at hd
      split at hd <;> cases hd
    | _ => cases hn
  | frame _ h | expression _ h => cases h

/-- The mismatch that an end reports, where it ends. -/
theorem mismatch_of_react_end {scope : Scope} {phase : EndPhase} {i : Nat} {r : Reaction}
    (h : (State.end_ scope phase).react i t = .ok r) :
    r.mismatch = phase.found?.bind scope.mismatch? := by
  simp only [react, Outline.end_, Outline.endFinish, Outline.endName] at h
  repeat' split at h
  all_goals cases h <;> rfl

end State

end VhdlOutline
