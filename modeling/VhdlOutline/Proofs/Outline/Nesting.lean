import VhdlOutline.Proofs.Outline.Grammar
import VhdlOutline.Proofs.Outline.Parts

/-!
# Blocks nest as the grammar says

`State.remaining` is what a construct still lacks in a state, as shapes of the grammar. What a state
and the stack below it lack completes the blocks so far to a sentence: every move keeps this, since
what is lacking afterwards, put behind the kinds that the move completes, was lacking before
(`State.Allows.derives`). So the blocks of a document are a sentence of the grammar
(`outline_wellNested`).
-/

namespace VhdlOutline

open Shape

/-! ## The grammar in terms of constructs

The grammar names kinds of blocks. The outline finds them in the tables of its constructs. -/

/-- A clause with names. -/
def Reference.clause (r : Reference) : List Shape :=
  Shape.clause r.startKind r.nameKind r.delimiterKind r.endKind

/-- The declaration of objects of a class. -/
def ObjectClass.shape (o : ObjectClass) : List Shape :=
  Shape.object o.declarationKind o.default_.kind o.endKind

namespace InterfaceList

/-- An item of the list. -/
def item : InterfaceList → Shape
  | .generic => genericItem
  | .port => portItem
  | .parameter => parameterItem

/-- The items of the list after the first, and its end. -/
def moreItems (l : InterfaceList) : List Shape :=
  Shape.moreItems l.item l.delimiterKind l.closeKind

/-- The whole list. -/
def shape (l : InterfaceList) : List Shape := l.openKind :: l.item :: l.moreItems

end InterfaceList

/-- The statements that a rule reads. -/
def StatementRule.symbol : StatementRule → Symbol
  | .concurrent => .concurrent
  | .sequential => .sequential

/-- A construct after its first line: its declarations, its statements and its end. -/
def Construct.body (c : Construct) : List Shape :=
  .many (.ref .declaration) ::
    ((c.begin?.map fun (kind, rule) =>
      .optional (.seq [.block kind, .many (.ref rule.symbol)])).toList ++ [.block c.endKind])

/-- A simple statement, which may be a single block. -/
def SimpleStatement.shape (s : SimpleStatement) : Shape :=
  match s.expression? with
  | some x => Shape.simple s.startKind x.kind s.endKind
  | none => s.endKind

/-- An assignment. -/
def Assignment.shape (a : Assignment) : List Shape :=
  Shape.assignment a.startKind a.expression.kind a.endKind

theorem designUnit_eq :
    designUnit = .alt [.seq (Reference.clause .library), .seq (Reference.clause .use),
      .seq (Reference.clause .context), .seq (.block .entityName :: Construct.body .entity),
      .seq (.block .architectureName :: Construct.body .architecture),
      .seq (.block .packageName :: Construct.body .package),
      .seq (.block .packageBodyName :: Construct.body .packageBody)] :=
  rfl

theorem rule_declaration :
    Symbol.declaration.rule = .alt [.seq (ObjectClass.shape .constant),
      .seq (ObjectClass.shape .signal), .seq (ObjectClass.shape .variable_),
      .seq (ObjectClass.shape .sharedVariable), .seq (Reference.clause .use),
      .seq (InterfaceList.shape .generic), .seq (InterfaceList.shape .port), .seq procedure,
      .seq function] :=
  rfl

theorem commonStatements_eq :
    commonStatements = [.seq assertion, .seq (Assignment.shape .signal),
      .seq (Assignment.shape .variable_), .seq call] :=
  rfl

theorem rule_sequential :
    Symbol.sequential.rule = .alt (SimpleStatement.shape .return_ :: SimpleStatement.shape .exit ::
      SimpleStatement.shape .next :: SimpleStatement.shape .wait :: SimpleStatement.shape .null ::
      .seq report :: .seq ifStatement :: .seq loop :: commonStatements) :=
  rfl

/-! ## What is lacking -/

/-- The statements of a statement part. -/
def Part.symbol : Part → Symbol
  | .concurrent _ => .concurrent
  | .sequential .. => .sequential

/-- What follows the statements of a statement part. Only after a branch of an if statement there
may be others. -/
def Part.ending : Part → Shape
  | .sequential scope .then_ =>
    .alt [.seq [.optional Shape.else_, scope.construct.endKind], .seq moreBranches]
  | part => part.scope.construct.endKind

/-- What a statement part still lacks. -/
def Part.remaining (part : Part) : List Shape := [.many (.ref part.symbol), part.ending]

/-- What a construct still lacks in a state. -/
def State.remaining : State → List Shape
  | .documentStart => [.block .startOfDocument, .many designUnit, .block .endOfDocument]
  | .documentRegion => [.many designUnit, .block .endOfDocument]
  | .reference r .start | .reference r .afterKeyword => r.clause
  | .reference r _ => r.clause.tail
  | .entity _ => .block .entityName :: Construct.body .entity
  | .architecture _ => .block .architectureName :: Construct.body .architecture
  | .package .start | .package .afterKeyword =>
    [.alt [.seq (.block .packageName :: Construct.body .package),
      .seq (.block .packageBodyName :: Construct.body .packageBody)]]
  | .package (.afterName _) => .block .packageName :: Construct.body .package
  | .package (.afterIs _) => Construct.body .package
  | .package _ => .block .packageBodyName :: Construct.body .packageBody
  | .procedure (.afterParameters _) => [procedureEnd]
  | .procedure _ => Shape.procedure
  | .function (.afterParameters _) | .function (.returnType ..) => functionEnd
  | .function _ => Shape.function
  | .process _ _ => .block .processName :: Construct.body .process
  | .declarations scope => scope.construct.body
  | .statements part _ | .target part _ _ => part.remaining
  | .end_ scope _ => [scope.construct.endKind]
  | .object o .default_ => [o.default_.kind, o.endKind]
  | .object o .end_ => [o.endKind]
  | .object o _ => o.shape
  | .interface l .start | .interface l .open_ => l.shape
  | .interface l .default_ => l.default_.kind :: l.moreItems
  | .interface l .afterDefault => l.moreItems
  | .interface l .closeSemicolon => [l.closeKind]
  | .interface l _ => l.item :: l.moreItems
  | .expression x _ _ => [x.kind]
  | .simple s .value => (s.expression?.map fun x => .block x.kind).toList ++ [.block s.endKind]
  | .simple s .end_ => [s.endKind]
  | .simple s _ => [s.shape]
  | .assignment a part .value => a.expression.kind :: a.endKind :: part.remaining
  | .assignment a part .end_ => a.endKind :: part.remaining
  | .assertion .start | .assertion .afterKeyword => Shape.assertion
  | .assertion .afterCondition => Shape.assertion.drop 2
  | .assertion .message => .block .assertMessage :: assertSeverity
  | .assertion .afterMessage => assertSeverity
  | .assertion .level => [.block .assertSeverityLevel, .block .assertEnd]
  | .assertion .end_ => [.block .assertEnd]
  | .report .start | .report .afterKeyword => Shape.report
  | .report .afterMessage => reportSeverity
  | .report .level => [.block .reportSeverityLevel, .block .reportEnd]
  | .report .end_ => [.block .reportEnd]
  | .ifStatement _ .start | .ifStatement _ .afterKeyword => Shape.ifStatement
  | .ifStatement _ .then_ => Shape.ifStatement.drop 2
  | .ifStatement _ .elsif | .ifStatement _ .elsifAfterKeyword => Shape.elsif ++ moreBranches
  | .ifStatement _ .elsifThen => Shape.elsif.drop 2 ++ moreBranches
  | .loop _ .start => Shape.loop
  | .loop _ .forParameter | .loop _ .forIn | .loop _ .forAfterIn =>
    .block .forStart :: .block .forRange :: .optional direction :: loopBody
  | .loop _ .forAfterRange => .optional direction :: loopBody
  | .loop _ .bound => .block .loopBound :: loopBody
  | .loop _ .whileAfterKeyword => .block .whileStart :: .block .whileCondition :: loopBody
  | .loop _ .body => loopBody

/-- What is lacking once a move has led on, up to the end of the construct that it was made in. -/
def Next.remaining : Next → List Shape
  | .goto s => s.remaining
  | .call resume sub => sub.remaining ++ resume.remaining
  | .return_ => []

/-- What is lacking after a move. -/
def Move.remaining : Move → List Shape
  | .take _ _ next | .pass _ next => next.remaining
  | .finish => []

variable {rest : List Shape} {ks : List BlockKind}

/-! ## Ways to derive -/

namespace Derives

/-- One alternative, written out. -/
theorem choose (shapes : List Shape) {options : List Shape} (hs : .seq shapes ∈ options)
    (h : Derives (shapes ++ rest) ks) : Derives (.alt options :: rest) ks :=
  .alt hs (.seq h)

/-- A design unit before the rest of the document. -/
theorem unit (shapes : List Shape) {options : List Shape} (hd : designUnit = .alt options)
    (hs : .seq shapes ∈ options) (h : Derives (shapes ++ .many designUnit :: rest) ks) :
    Derives (.many designUnit :: rest) ks := by
  have := choose shapes hs h
  rw [← hd] at this
  exact .more this

/-- A declaration before the rest of a construct. -/
theorem declaration (shapes : List Shape) {options : List Shape}
    (hr : Symbol.declaration.rule = .alt options) (hs : .seq shapes ∈ options) {c : Construct}
    (h : Derives (shapes ++ c.body ++ rest) ks) : Derives (c.body ++ rest) ks := by
  rw [List.append_assoc] at h
  have := choose shapes hs h
  rw [← hr] at this
  exact .more (.ref this)

/-- A construct may have no further declarations and no statements. -/
theorem endBody {c : Construct} (h : Derives (.block c.endKind :: rest) ks) :
    Derives (c.body ++ rest) ks := by
  refine .done ?_
  cases c.begin? with
  | none => exact h
  | some => exact .without h

/-- The statements of a construct follow its declarations. -/
theorem beginBody {scope : Scope} {kind : BlockKind} {rule : StatementRule}
    (hb : scope.construct.begin? = some (kind, rule))
    (h : Derives ((rule.part scope).remaining ++ rest) ks) :
    Derives (scope.construct.body ++ rest) (kind :: ks) := by
  refine .done ?_
  rw [hb]
  refine .with_ (.seq (.block ?_))
  cases rule <;> exact h

/-- An item of an interface list with a value, or without. -/
theorem itemSeq {l : InterfaceList} (h : Derives (.optional l.default_.kind :: rest) ks) :
    Derives (l.item :: rest) (l.itemKind :: ks) := by
  cases l with
  | generic => exact .alt List.mem_cons_self (.seq (.block h))
  | port | parameter => exact .seq (.block h)

/-- An item of an interface list without a value. -/
theorem item {l : InterfaceList} {kind : BlockKind}
    (hk : kind = l.itemKind ∨ kind = l.typeKind?.getD l.itemKind) (h : Derives rest ks) :
    Derives (l.item :: rest) (kind :: ks) := by
  have hitem : Derives (l.item :: rest) (l.itemKind :: ks) := itemSeq (.without h)
  rcases hk with rfl | rfl
  · exact hitem
  · cases l with
    | generic => exact .alt (List.mem_cons_of_mem _ List.mem_cons_self) (.block h)
    | port | parameter => exact hitem

theorem delimiter {l : InterfaceList} (h : Derives (l.item :: l.moreItems ++ rest) ks) :
    Derives (l.moreItems ++ rest) (l.delimiterKind :: ks) :=
  .more (.seq (.block h))

theorem closeList {l : InterfaceList} (h : Derives rest ks) :
    Derives (l.moreItems ++ rest) (l.closeKind :: ks) :=
  .done (.block h)

/-- A statement before the rest of a statement part. -/
theorem statement {part : Part} (shape : Shape) {options : List Shape}
    (hr : part.symbol.rule = .alt options) (hs : shape ∈ options)
    (h : Derives (shape :: (part.remaining ++ rest)) ks) : Derives (part.remaining ++ rest) ks := by
  have := Derives.alt hs h
  rw [← hr] at this
  exact .more (.ref this)

/-- A statement that both sorts of statement parts admit. -/
theorem commonStatement {part : Part} (shapes : List Shape) (hs : .seq shapes ∈ commonStatements)
    (h : Derives (shapes ++ (part.remaining ++ rest)) ks) :
    Derives (part.remaining ++ rest) ks := by
  have hseq : Derives (.seq shapes :: (part.remaining ++ rest)) ks := .seq h
  cases part with
  | concurrent scope => exact statement _ rfl (List.mem_cons_of_mem _ hs) hseq
  | sequential scope branch =>
    exact statement _ rfl (by simp only [List.mem_cons]; tauto) hseq

/-- A statement part may have no further statements. -/
theorem endStatements {part : Part} (h : Derives (.block part.scope.construct.endKind :: rest) ks) :
    Derives (part.remaining ++ rest) ks := by
  refine .done ?_
  match part with
  | .concurrent scope => exact h
  | .sequential scope .plain => exact h
  | .sequential scope .else_ => exact h
  | .sequential scope .then_ =>
    exact choose [.optional Shape.else_, scope.construct.endKind] List.mem_cons_self (.without h)

/-- In an if statement, what follows a branch is the rest of the if statement. -/
theorem branches {label : Option String}
    (h : Derives ((Part.sequential ⟨.if_, label⟩ .then_).remaining ++ rest) ks) :
    Derives (.many (.ref .sequential) :: (moreBranches ++ rest)) ks := by
  refine @append_mono [.many (.ref .sequential)] _ _ _ h ?_
  intro ks h
  cases h with
  | alt hs h =>
    rcases List.mem_cons.1 hs with rfl | hs
    · cases h with
      | seq h => exact .done h
    · obtain rfl := List.mem_singleton.1 hs
      cases h with
      | seq h => exact h

end Derives

/-- A move completes a first part of what was lacking. -/
theorem State.Allows.derives {s : State} {t : Token} {move : Move} (h : s.Allows t move)
    (hm : Derives (move.remaining ++ rest) ks) :
    Derives (s.remaining ++ rest) (move.kinds ++ ks) := by
  cases h with
  -- The document.
  | documentEnd => exact .done (.block hm)
  | documentReference r =>
    refine .unit r.clause designUnit_eq ?_ hm
    cases r <;> simp
  | documentEntity =>
    exact .unit (.block .entityName :: Construct.body .entity) designUnit_eq (by simp) hm
  | documentArchitecture =>
    exact .unit (.block .architectureName :: Construct.body .architecture) designUnit_eq (by simp)
      hm
  | documentPackage =>
    cases hm with
    | alt hs h => exact .more (.alt (List.mem_append_right [_, _, _, _, _] hs) h)
  | referenceComma => exact .block (.more (.seq (.block hm)))
  | referenceEnd => exact .block (.done (.block hm))
  -- Packages and subprograms.
  | packageName => exact .choose (.block .packageName :: Construct.body .package) (by simp) hm
  | packageBody =>
    exact .choose (.block .packageBodyName :: Construct.body .packageBody) (by simp) hm
  | procedureParameters =>
    exact .block (.choose (parameterList ++ [procedureEnd]) (by simp) hm)
  | procedureIs => exact .block (.choose procedureBody (by simp) hm)
  | procedureDeclared => exact .block (.alt (by simp) (.block hm))
  | procedureParametersIs =>
    exact .choose (.block .procedureIs :: procedureBody) (by simp) (.block hm)
  | procedureParametersDeclared => exact .alt List.mem_cons_self (.block hm)
  | functionParameters => exact .block (.with_ (.seq hm))
  | functionReturn => exact .block (.without hm)
  | functionTypeIs => exact .block (.choose functionBody (by simp) hm)
  | functionTypeDeclared => exact .block (.alt List.mem_cons_self (.block hm))
  -- Objects and interface lists.
  | @objectKeyword _ o => cases o <;> exact hm
  | objectTypeEnd => exact .block (.without (.block hm))
  | objectAssign => exact .block (.with_ hm)
  | interfaceDelimiter => exact .item (.inl rfl) (.delimiter hm)
  | interfaceClose => exact .item (.inl rfl) (.done hm)
  | interfaceReturn => exact .item (.inl rfl) (.closeList hm)
  | interfaceAssign => exact .itemSeq (.with_ hm)
  | defaultDelimiter => exact .delimiter hm
  | defaultClose => exact .done hm
  | defaultReturn => exact .closeList hm
  | typeDelimiter => exact .item (.inr rfl) (.delimiter hm)
  | typeClose => exact .item (.inr rfl) (.done hm)
  | typeReturn => exact .item (.inr rfl) (.closeList hm)
  -- Declarations and statements.
  | @declaration _ _ k _ _ _ hs =>
    cases k <;> cases hs
    all_goals first
      | exact .declaration (ObjectClass.shape _) rule_declaration (by simp) hm
      | exact .declaration (Reference.clause _) rule_declaration (by simp) hm
      | exact .declaration (InterfaceList.shape _) rule_declaration (by simp) hm
      | exact .declaration Shape.procedure rule_declaration (by simp) hm
      | exact .declaration Shape.function rule_declaration (by simp) hm
  | declarationsBegin hb => exact .beginBody hb hm
  | declarationsEnd => exact .endBody hm
  | statementsEnd => exact .endStatements hm
  | statementsProcess => exact .statement _ rfl List.mem_cons_self (.seq hm)
  | statementsAssert => exact .commonStatement Shape.assertion (by simp [commonStatements_eq]) hm
  | statementsElsif => exact .done (.choose moreBranches (by simp) (.more (.seq hm)))
  | statementsElse =>
    exact .done (.choose [.optional Shape.else_, _] List.mem_cons_self
      (.with_ (.seq (.block hm))))
  | statementsSimple s =>
    refine .statement s.shape rule_sequential ?_ hm
    cases s <;> simp
  | statementsReport => exact .statement (.seq Shape.report) rfl (by simp) (.seq hm)
  | statementsIf => exact .statement (.seq Shape.ifStatement) rfl (by simp) (.seq hm)
  | statementsLoop => exact .statement (.seq Shape.loop) rfl (by simp) (.seq hm)
  -- Simple statements, assertions and reports.
  | @simpleWhole _ s _ hs => cases s <;> first | exact .block hm | cases hs
  | @simpleBare _ s _ hs =>
    cases s <;> first | exact .seq (.block (.without (.block hm))) | exact absurd rfl hs
  | @simpleWhen _ s _ hs => cases s <;> first | exact .seq (.block (.with_ hm)) | cases hs
  | @simpleExpression _ s _ _ _ hx => cases s <;> cases hx <;> exact .seq (.block (.with_ hm))
  | @simpleValue _ s _ hx => cases s <;> cases hx <;> exact hm
  | @simpleNoValue _ s hx =>
    cases s <;> cases hx
    exact hm
  | targetCall =>
    exact .commonStatement Shape.call (by simp [commonStatements_eq]) (.block (.block hm))
  | targetAssign a =>
    refine .commonStatement a.shape ?_ (.block hm)
    cases a <;> simp [commonStatements_eq]
  | assertReport | reportSeverity | loopDirection => exact .with_ (.seq (.block hm))
  | assertSeverity hp =>
    rcases hp with rfl | rfl
    · exact .without (.with_ (.seq (.block hm)))
    · exact .with_ (.seq (.block hm))
  | assertEnd hp =>
    rcases hp with rfl | rfl | rfl
    · exact .without (.without (.block hm))
    · exact .without (.block hm)
    · exact .block hm
  | reportEnd hp =>
    rcases hp with rfl | rfl
    · exact .without (.block hm)
    · exact .block hm
  -- If statements and loops.
  | ifThen | elsifThen => exact .block (.branches hm)
  | loopFor =>
    exact .with_ (.choose [.block .forStart, .block .forRange, .optional direction] (by simp) hm)
  | loopWhile =>
    exact .with_ (.choose [.block .whileStart, .block .whileCondition] (by simp) hm)
  | loopBegin hp =>
    rcases hp with rfl | rfl | rfl
    · exact .without (.block hm)
    · exact .without (.block hm)
    · exact .block hm
  | _ => first | exact hm | exact .block hm

/-! ## Runs -/

/-- What a control still lacks: its state, and then the states to be resumed. -/
def Control.remaining (c : Control) : List Shape :=
  c.state.remaining ++ c.stack.flatMap State.remaining

theorem Control.remaining_follow {c c' : Control} {next : Next} (h : c.follow next = .ok c') :
    c'.remaining = next.remaining ++ c.stack.flatMap State.remaining := by
  obtain ⟨state, aside, stack⟩ := c
  cases next with
  | goto => cases h; rfl
  | call =>
    cases h
    simp [remaining, Next.remaining]
  | return_ =>
    cases stack with
    | nil => cases h
    | cons s stack =>
      cases h
      rfl

namespace Machine

/-- What is lacking completes the blocks so far to a document. -/
def Nests (m : Machine) (cs : List Completion) : Prop :=
  ∀ ks, (if m.done then ks = [] else Derives m.control.remaining ks) →
    Derives [.ref .document] (cs.map Completion.kind ++ ks)

theorem nests_start (options : Options) : ({ options } : Machine).Nests [] :=
  fun _ h => .ref (.seq h)

variable {m m' : Machine} {t : Token} {cs : List Completion}

/-- A move of the current state, made good for what was lacking. -/
theorem Nests.move (h : m.Nests cs) (hd : m.done = false) {move : Move}
    (hs : m.control.state.Allows t move) {ks : List BlockKind}
    (hks : Derives (move.remaining ++ m.control.stack.flatMap State.remaining) ks) :
    Derives [.ref .document] ((cs ++ m.sheet.completedBy move).map Completion.kind ++ ks) := by
  rw [List.map_append, Sheet.kinds_completedBy, List.append_assoc]
  refine h _ ?_
  rw [hd]
  exact hs.derives hks

theorem Nests.turn (h : m.Nests cs) (hf : State.Fits m.control.state m.control.stack)
    (hd : m.done = false) {ds : List Completion} {v : Verdict} (hm : Turn m t ds m' v)
    (hv : ∀ e, v ≠ .failed e) : m'.Nests (cs ++ ds) := by
  cases hm with
  | trivium _ _ hm | resume _ _ hm | absorb _ _ _ hm | interrupt _ _ _ hm =>
    unfold Nests at h ⊢
    rw [hm.control, hm.done, List.append_nil]
    exact h
  | take _ _ hr _ hc hm | pass _ _ hr hc hm =>
    intro ks hks
    rw [hm.done, hd, hm.control, Control.remaining_follow hc] at hks
    exact h.move hd (State.allows_of_react hr) hks
  | finish _ _ hr hm =>
    have hs := State.allows_of_react hr
    intro ks hks
    rw [hm.done] at hks
    obtain rfl : ks = [] := hks
    refine h.move hd hs ?_
    have hstate := hs.eq_documentRegion_of_finish.1
    rw [hf.stack_eq_nil (by rw [hstate]; rfl)]
    exact .nil
  | mismatch | refuse => exact absurd rfl (hv _)

theorem kept_nests : Kept fun m _ cs => m.Nests cs where
  push _ h := h
  handedOn h _ hd hm hp := hp.turn h.fits hd hm (by simp)
  taken h _ hd hm _ hp := hp.turn h.fits hd hm (by simp)

end Machine

/-! ## The blocks of a document -/

/-- The blocks spell the kinds: each kind stands for one block that is whole, or for two or more
fragments. -/
inductive Spells : List BlockKind → List Block → Prop
  | nil : Spells [] []
  | whole {ks : List BlockKind} {bs : List Block} (b : Block) (hb : b.isFragment = false)
      (h : Spells ks bs) : Spells (b.kind :: ks) (b :: bs)
  | split {kind : BlockKind} {ks : List BlockKind} {bs fragments : List Block}
      (hn : 2 ≤ fragments.length) (hf : ∀ b ∈ fragments, b.kind = kind ∧ b.isFragment = true)
      (h : Spells ks bs) : Spells (kind :: ks) (fragments ++ bs)

theorem spells_parts {cs : List Completion} (h : ∀ c ∈ cs, c.IsWhole) :
    Spells (cs.map Completion.kind) (cs.flatMap Completion.parts) := by
  induction cs with
  | nil => exact .nil
  | cons c cs ih =>
    have hc := h c List.mem_cons_self
    have hcs := ih fun c hc => h c (List.mem_cons_of_mem _ hc)
    rw [List.map_cons, List.flatMap_cons]
    by_cases hn : 1 < c.parts.length
    · refine .split hn (fun b hb => ?_) hcs
      obtain ⟨hk, hf⟩ := hc.of_mem_parts hb
      exact ⟨hk, by simpa [hn] using hf⟩
    · obtain ⟨b, hb⟩ : ∃ b, c.parts = [b] := by
        rw [← List.length_eq_one_iff]
        have := List.length_pos_iff.2 hc.parts_ne_nil
        omega
      obtain ⟨hk, hf⟩ := hc.of_mem_parts (b := b) (by simp [hb])
      rw [hb, ← hk]
      exact .whole b (by simpa [hn] using hf) hcs

/-- **Blocks are well nested.** Blanks and comments aside, the blocks of an outline spell a document
of the grammar. -/
theorem outline_wellNested {tokens : List (Except LexError Token)} {options : Options}
    {d : Document} (h : outline tokens options = .ok d) :
    ∃ ks, Derives [.ref .document] ks ∧ Spells ks d.proper := by
  obtain ⟨hparts, hwhole, -⟩ := outline_parts h
  obtain ⟨m, hrun, rfl⟩ := outline_ok h
  obtain ⟨_, _, _, -, -, -, -, -, hnests⟩ :=
    Machine.run_induction Machine.kept_nests (Machine.sound_start options) rfl rfl
      (Machine.nests_start options) hrun
  refine ⟨(logicalBlocks tokens options).map Completion.kind, ?_, ?_⟩
  · have hks := hnests [] (by rw [Machine.done_of_run hrun]; rfl)
    rwa [List.nil_append, List.append_nil] at hks
  · rw [hparts]
    exact spells_parts hwhole

/-- A procedure with an if statement in it, and with a statement that a comment splits. -/
theorem outline_wellNested_split : ∃ d,
    outline (tokenize "package p is procedure q is begin if a then null/**/; end if; end; end;")
      { strictNames := true } = .ok d ∧
    ∃ ks, Derives [.ref .document] ks ∧ Spells ks d.proper := by
  have hok : (outline
      (tokenize "package p is procedure q is begin if a then null/**/; end if; end; end;")
      { strictNames := true }).isOk = true := by
    decide +kernel
  generalize hr : outline
    (tokenize "package p is procedure q is begin if a then null/**/; end if; end; end;")
    { strictNames := true } = r at hok
  cases r with
  | error e => cases hok
  | ok d => exact ⟨d, rfl, outline_wellNested hr⟩

end VhdlOutline
