import VhdlOutline.Proofs.Engine.Unit

/-!
# Answers at declarations

The routines for reference clauses, objects and interface lists find the tables that they ask for,
and answer as the machine does. So does the routine between declarations, which enters them.
-/

namespace VhdlOutline

open VhdlOutline.Action

namespace Engine

variable {e : Engine} {s : State} {stack : List State} {ts : List Token} {t : Token}

/-! ## Reference clauses -/

theorem run_nameSegment (h : e.desk.Faces t) :
    nameSegment.run e = .ok () { e.settled t with counter := 1 } := by
  rw [nameSegment, bind_classifyWord h]
  rfl

theorem Ready.reference {r : Reference} {phase : ReferencePhase}
    (h : e.Ready (.reference r phase) stack ts t)
    (ht : t.kind.isTrivia = true → (State.reference r phase).trivia = .seen) :
    e.Answers (.reference r phase) stack t (Outline.reference r phase t)
      ((State.reference r phase).routine.action.run e) := by
  have hr : e.context.reference = some r.table := h.needs
  cases phase with
  | start =>
    change e.Answers _ _ _ _ (Action.referenceStart.run e)
    rw [Action.referenceStart, bind_table hr]
    exact h.keyword fun _ => h.take rfl (.plain rfl rfl hr h.label rfl trivial) rfl rfl rfl
  | afterKeyword =>
    refine h.inside rfl ht ?_
    rw [bind_table hr, bind_current h.faces]
    refine .ite (fun _ => ?_) fun _ => h.refuse
    rw [bind_emitBefore, run_bind_of_eq (run_nameSegment (h.faces.cut _))]
    exact h.take rfl (.counting rfl rfl rfl hr h.label rfl trivial) rfl rfl rfl
  | name complete =>
    have hc := counter_eq_zero_iff (h.counter rfl)
    refine h.inside rfl ht ?_
    rw [bind_table hr, bind_current h.faces, bind_get]
    cases complete with
    | false =>
      rw [if_pos (hc.2 rfl)]
      refine .ite (fun _ => ?_) fun _ => h.refuse
      rw [run_nameSegment h.faces]
      exact h.take rfl (.counting h.next rfl rfl hr h.label rfl trivial) rfl rfl rfl
    | true =>
      rw [if_neg (mt hc.1 (by simp))]
      refine .ite (fun hdot => ?_) fun _ => .ite (fun hcomma => ?_) fun _ =>
        .ite (fun hend => ?_) fun _ => .ite (fun _ => h.refuse) fun _ => h.refuse
      · have hdot : t.isChar '.' = true := (Bool.and_eq_true_iff.1 hdot).2
        exact h.take (h.faces.taking_eq _ _ (Token.settled_of_isChar hdot))
          (.counting h.next rfl rfl hr h.label rfl trivial) rfl rfl rfl
      · rw [bind_emitBefore]
        exact h.take (h.faces.taking_eq _ _ (Token.settled_of_isChar hcomma))
          (.plain rfl rfl hr h.label rfl trivial) rfl rfl rfl
      · rw [bind_emitBefore, bind_emit]
        exact h.takeReturn rfl rfl (h.faces.taking_eq _ _ (Token.settled_of_isChar hend)) rfl
          h.label (by cases r <;> rfl)
  | afterDelimiter =>
    refine h.inside rfl ht ?_
    rw [bind_current h.faces]
    refine .ite (fun _ => ?_) fun _ => h.refuse
    rw [run_bind_of_eq (run_nameSegment h.faces)]
    exact h.take rfl (.counting rfl rfl rfl hr h.label rfl trivial) rfl rfl rfl

/-! ## Objects -/

theorem Ready.object {o : ObjectClass} {phase : ObjectPhase}
    (h : e.Ready (.object o phase) stack ts t)
    (ht : t.kind.isTrivia = true → (State.object o phase).trivia = .seen) :
    e.Answers (.object o phase) stack t (Outline.object o phase t)
      ((State.object o phase).routine.action.run e) := by
  have ho : e.context.object = some o.table := h.needs
  cases phase with
  | start =>
    change e.Answers _ _ _ _ (Action.objectStart.run e)
    rw [Action.objectStart, bind_table ho]
    refine h.keyword fun _ => ?_
    cases o <;>
      exact h.take rfl (.counting rfl rfl rfl ho h.label rfl trivial) rfl rfl rfl
  | afterShared =>
    exact h.inside rfl ht <| h.keyword fun _ =>
      h.take rfl (.counting rfl rfl (h.counter rfl) ho h.label rfl trivial) rfl rfl rfl
  | names complete =>
    have hc := counter_eq_zero_iff (h.counter rfl)
    refine h.inside rfl ht ?_
    rw [bind_current h.faces, bind_get]
    cases complete with
    | false =>
      rw [if_pos (hc.2 rfl)]
      exact h.name fun _ =>
        h.take rfl (.counting h.next rfl rfl ho h.label rfl trivial) rfl rfl rfl
    | true =>
      rw [if_neg (mt hc.1 (by simp))]
      refine .ite (fun hcomma => ?_) fun _ => .ite (fun hcolon => ?_) fun _ => h.refuse
      · exact h.take (h.faces.taking_eq _ _ (Token.settled_of_isChar hcomma))
          (.counting h.next rfl rfl ho h.label rfl trivial) rfl rfl rfl
      · exact h.take (h.faces.taking_eq _ _ (Token.settled_of_isChar hcolon))
          (.reading rfl rfl rfl ho h.label rfl rfl trivial) rfl rfl rfl
  | subtype depth begun =>
    refine h.subtype rfl ht rfl h.depth_lt (fun d c hc => ?_) ?_
    · exact h.take rfl (.reading h.next rfl hc ho h.label rfl rfl trivial) rfl rfl rfl
    · rw [bind_table ho, bind_get, h.content rfl]
      cases begun with
      | false => exact h.refuse
      | true =>
        change e.Answers _ _ _ (if t.isChar ';' then _ else _) ((current >>= _).run e)
        rw [bind_current h.faces]
        refine .ite (fun hend => ?_) fun _ => .ite (fun hassign => ?_) fun _ => h.refuse
        · rw [bind_emitBefore, bind_emit]
          exact h.takeReturn rfl rfl (h.faces.taking_eq _ _ (Token.settled_of_isChar hend)) rfl
            h.label (by cases o <;> rfl)
        · exact h.take (h.faces.taking_eq none _ (Token.settled_of_isCompound hassign))
            (.plain rfl rfl ho h.label rfl trivial) rfl rfl rfl
  | default_ =>
    change e.Answers _ _ _ _ (Action.objectDefault.run e)
    rw [Action.objectDefault, bind_table ho]
    exact h.pushExpression rfl rfl ho rfl rfl
  | end_ =>
    change e.Answers _ _ _ _ (Action.objectEnd.run e)
    rw [Action.objectEnd, bind_table ho]
    exact h.semicolon rfl rfl rfl rfl (by cases o <;> rfl)

/-! ## Interface lists -/

/-- The closing parenthesis ends a list, or its last but one block. -/
theorem Ready.closeList {l : InterfaceList} {phase : InterfacePhase}
    (h : e.Ready (.interface l phase) stack ts t) (hend : t.isChar ')')
    {before : Option BlockKind} :
    e.Answers (.interface l phase) stack t
      (if l.endsWithSemicolon then
        .ok ⟨.take before none (.goto (.interface l .closeSemicolon)), none, none⟩
      else .ok ⟨.take before (some l.closeKind) .return_, none, none⟩)
      ((Action.closeList l.table).run { e with desk := e.desk.cutBefore before }) := by
  refine .ite (fun _ => ?_) fun _ => ?_
  · exact h.take (h.faces.taking_eq _ none (Token.settled_of_isChar hend))
      (.plain rfl rfl h.needs h.label rfl trivial) rfl rfl rfl
  · rw [bind_emit]
    exact h.takeReturn rfl rfl (h.faces.taking_eq _ _ (Token.settled_of_isChar hend)) rfl
      h.label (by cases l <;> rfl)

/-- An item starts with a name. -/
theorem Ready.itemName {l : InterfaceList} (h : e.Ready (.interface l .itemStart) stack ts t) :
    e.Answers (.interface l .itemStart) stack t
      (if t.isName then .take (.interface l (.names true))
      else .expected (l.classes.map Keyword.upper ++
        (if l.typeKind?.isSome then [Keyword.type.upper] else []) ++ ["an interface name"]))
      ((Action.itemName l.table).run e) := by
  rw [Action.itemName, bind_current h.faces]
  refine .ite (fun hname => ?_) fun _ => h.refuse
  rw [bind_identifier h.faces (Token.settled_of_isName hname)]
  exact h.take rfl (.counting rfl rfl rfl h.needs h.label rfl trivial) rfl rfl rfl

theorem mem_unsupported_iff {l : InterfaceList} {k : Keyword} :
    k ∈ l.unsupported ↔ l.table.keyword? = some .generic ∧ k ∈ unsupportedGenerics := by
  cases l <;> simp [InterfaceList.unsupported, InterfaceList.table, InterfaceList.keyword?,
    unsupportedGenerics]

theorem Ready.itemStart {l : InterfaceList} (h : e.Ready (.interface l .itemStart) stack ts t)
    (ht : t.kind.isTrivia = true → (State.interface l .itemStart).trivia = .seen) :
    e.Answers (.interface l .itemStart) stack t (Outline.itemStart l t)
      (Action.listItemStart.run e) := by
  have hl : e.context.list = some l.table := h.needs
  refine h.inside rfl ht ?_
  rw [bind_table hl, bind_current h.faces, Outline.itemStart, Token.isKeyword]
  cases t.keyword? with
  | none =>
    rw [if_neg (by simp)]
    exact h.itemName
  | some k =>
    by_cases htype : l.typeKind?.isSome && decide (some k = some .type)
    · obtain ⟨hsome, hk⟩ : l.typeKind?.isSome ∧ k = .type := by simpa using htype
      dsimp only
      rw [if_pos htype, if_pos ⟨hk, hsome⟩, bind_classifyWord h.faces]
      exact h.take rfl (.plain rfl rfl hl h.label rfl trivial) rfl rfl rfl
    · have hno : ¬ (k = .type ∧ l.table.typeItem?.isSome) := by
        rintro ⟨rfl, hsome⟩
        exact htype (Bool.and_eq_true_iff.2 ⟨hsome, by simp⟩)
      dsimp only
      rw [if_neg htype, if_neg hno, Option.filter_some]
      by_cases hun : k ∈ l.unsupported
      · rw [if_pos (by simpa using hun), if_pos (mem_unsupported_iff.1 hun)]
        exact h.notImplemented
      · rw [if_neg (by simpa using hun), if_neg (mt mem_unsupported_iff.2 hun)]
        dsimp only
        rw [Option.any_some]
        by_cases hclass : k ∈ l.classes
        · rw [if_pos (by simpa using hclass), if_pos (show k ∈ l.table.classes from hclass),
            bind_classifyWord h.faces]
          exact h.take rfl (.counting rfl rfl rfl hl h.label rfl trivial) rfl rfl rfl
        · rw [if_neg (by simpa using hclass), if_neg (show k ∉ l.table.classes from hclass)]
          exact h.itemName

theorem Ready.interface {l : InterfaceList} {phase : InterfacePhase}
    (h : e.Ready (.interface l phase) stack ts t)
    (ht : t.kind.isTrivia = true → (State.interface l phase).trivia = .seen) :
    e.Answers (.interface l phase) stack t (Outline.interface l phase t)
      ((State.interface l phase).routine.action.run e) := by
  have hl : e.context.list = some l.table := h.needs
  cases phase with
  | start =>
    change e.Answers _ _ _ _ (Action.listStart.run e)
    rw [Action.listStart, bind_table hl]
    cases l with
    | generic | port =>
      exact h.keyword fun _ => h.take rfl (.plain rfl rfl hl h.label rfl trivial) rfl rfl rfl
    | parameter => exact h.pass rfl (.plain rfl rfl hl h.label rfl trivial) rfl rfl rfl
  | open_ =>
    refine h.inside rfl ht ?_
    rw [bind_table hl, bind_current h.faces]
    refine .ite (fun hopen => ?_) fun _ => ?_
    · exact h.take (h.faces.taking_eq none _ (Token.settled_of_isChar hopen))
        (.plain rfl rfl hl h.label rfl trivial) rfl rfl rfl
    · cases l with
      | generic | port => exact h.complain
      | parameter => exact h.refuse
  | itemStart => exact h.itemStart ht
  | names complete =>
    have hc := counter_eq_zero_iff (h.counter rfl)
    refine h.inside rfl ht ?_
    rw [bind_current h.faces, bind_get]
    cases complete with
    | false =>
      rw [if_pos (hc.2 rfl)]
      exact h.name fun _ =>
        h.take rfl (.counting h.next rfl rfl hl h.label rfl trivial) rfl rfl rfl
    | true =>
      rw [if_neg (mt hc.1 (by simp))]
      refine .ite (fun hcomma => ?_) fun _ => .ite (fun hcolon => ?_) fun _ => h.refuse
      · exact h.take (h.faces.taking_eq none none (Token.settled_of_isChar hcomma))
          (.counting h.next rfl rfl hl h.label rfl trivial) rfl rfl rfl
      · exact h.take (h.faces.taking_eq none none (Token.settled_of_isChar hcolon))
          (.counting rfl rfl rfl hl h.label rfl trivial) rfl rfl rfl
  | mode =>
    have hf : ({ e with content := false, next := .listSubtype } : Engine).desk.Faces t := h.faces
    refine h.inside rfl ht ?_
    change e.Answers _ _ _ _ ((current >>= _).run { e with content := false, next := .listSubtype })
    rw [bind_current hf]
    refine .ite (fun _ => ?_) fun _ => ?_
    · rw [run_classifyWord hf]
      exact h.take rfl (.reading rfl rfl (h.counter rfl) hl h.label rfl rfl trivial) rfl rfl rfl
    · exact h.pass rfl (.reading rfl rfl (h.counter rfl) hl h.label rfl rfl trivial) rfl rfl rfl
  | subtype depth begun =>
    refine h.subtype rfl ht rfl h.depth_lt (fun d c hc => ?_) ?_
    · exact h.take rfl (.reading h.next rfl hc hl h.label rfl rfl trivial) rfl rfl rfl
    · rw [bind_table hl, bind_get, h.content rfl]
      cases begun with
      | false => exact h.refuse
      | true =>
        change e.Answers _ _ _ (if t.isChar ';' then _ else _) ((current >>= _).run e)
        rw [bind_current h.faces]
        refine .ite (fun hend => ?_) fun _ => .ite (fun hclose => ?_) fun _ =>
          .ite (fun hassign => ?_) fun _ => h.refuse
        · rw [bind_emitBefore]
          exact h.take (h.faces.taking_eq (some _) (some _) (Token.settled_of_isChar hend))
            (.plain rfl rfl hl h.label rfl trivial) rfl rfl rfl
        · rw [bind_emitBefore]
          exact h.closeList hclose
        · exact h.take (h.faces.taking_eq none _ (Token.settled_of_isCompound hassign))
            (.plain rfl rfl hl h.label rfl trivial) rfl rfl rfl
  | default_ =>
    change e.Answers _ _ _ _ (Action.listDefault.run e)
    rw [Action.listDefault, bind_table hl]
    exact h.pushExpression rfl rfl hl rfl rfl
  | afterDefault =>
    change e.Answers _ _ _ _ (Action.listAfterDefault.run e)
    rw [Action.listAfterDefault, bind_table hl, bind_current h.faces]
    refine .ite (fun hend => ?_) fun _ => .ite (fun hclose => ?_) fun _ => h.refuse
    · exact h.take (h.faces.taking_eq none _ (Token.settled_of_isChar hend))
        (.plain rfl rfl hl h.label rfl trivial) rfl rfl rfl
    · exact h.closeList hclose
  | typeName =>
    exact h.inside rfl ht <| h.name fun _ =>
      h.take rfl (.plain rfl rfl hl h.label rfl trivial) rfl rfl rfl
  | afterTypeName =>
    refine h.inside rfl ht ?_
    rw [bind_table hl]
    have hg := h.grounded
    cases l with
    | generic =>
      change e.Answers _ _ _ _ ((current >>= _).run e)
      rw [bind_current h.faces]
      refine .ite (fun hend => ?_) fun _ => .ite (fun hclose => ?_) fun _ => h.refuse
      · rw [bind_emitBefore]
        exact h.take (h.faces.taking_eq (some _) (some _) (Token.settled_of_isChar hend))
          (.plain rfl rfl hl h.label rfl trivial) rfl rfl rfl
      · rw [bind_emitBefore]
        exact h.closeList hclose
    | port | parameter => cases hg
  | closeSemicolon =>
    refine h.inside rfl ht ?_
    rw [bind_table hl]
    exact h.semicolon rfl rfl rfl rfl (by cases l <;> rfl)

/-! ## Declarative regions -/

/-- Every declaration that the construct admits has a machine. -/
theorem Ready.enterItem {scope : Scope} (h : e.Ready (.declarations scope) stack ts t) {k : Keyword}
    {sub : State} (hs : Outline.declarationState? k = some sub) :
    e.Answers (.declarations scope) stack t (.call (.declarations scope) sub)
      ((Action.enterItem k).run e) := by
  have hframe : Frame.Suits ⟨e.running, e.counter, e.context⟩ (.declarations scope) :=
    .plain h.running rfl h.needs
  unfold Outline.declarationState? at hs
  split at hs <;> cases hs <;>
    first
    | exact h.call rfl (.plain rfl rfl rfl h.label rfl trivial) hframe rfl rfl rfl rfl
    | exact h.call rfl (.plain rfl rfl trivial h.label rfl trivial) hframe rfl rfl rfl rfl

theorem Ready.refuseDeclaration {scope : Scope} (h : e.Ready (.declarations scope) stack ts t) :
    e.Answers (.declarations scope) stack t (Outline.refuseDeclaration scope.construct)
      ((Action.refuseDeclaration scope.construct.regionTable).run e) := by
  have hbegin : scope.construct.regionTable.begin?.isSome = scope.construct.begin?.isSome := by
    simp [Construct.regionTable]
  rw [Outline.refuseDeclaration, ← hbegin]
  exact h.refuse

/-- The statements of a construct begin. The `begin` stays a word. -/
theorem Ready.begin {scope : Scope} (h : e.Ready (.declarations scope) stack ts t)
    {kind : BlockKind} {rule : StatementRule} :
    e.Answers (.declarations scope) stack t (.close kind (.statements (rule.part scope) none))
      ((do
        emit kind
        onContext fun c => { c with end_ := some scope.construct.endTable, body := .plain }
        goto rule.routine : Action Unit).run e) := by
  have hdesk := h.faces.taking_eq none (some kind) rfl
  cases rule with
  | concurrent => exact h.take hdesk (.plain rfl rfl rfl h.label rfl trivial) rfl rfl rfl
  | sequential =>
    exact h.take hdesk (.plain rfl rfl ⟨rfl, rfl⟩ h.label rfl trivial) rfl rfl rfl

theorem Ready.declarations {scope : Scope} (h : e.Ready (.declarations scope) stack ts t)
    (ht : t.kind.isTrivia = true → (State.declarations scope).trivia = .seen) :
    e.Answers (.declarations scope) stack t (Outline.declarations scope t)
      ((State.declarations scope).routine.action.run e) := by
  have hr : e.context.region = some scope.construct.regionTable := h.needs
  refine h.apart rfl ht ?_
  rw [bind_table hr, h.bind_setLabel rfl, bind_current h.faces, Outline.declarations]
  cases t.keyword? with
  | none => exact h.refuseDeclaration
  | some k =>
    dsimp only
    by_cases hitem : k ∈ scope.construct.items
    · have hg := h.grounded
      simp only [State.isGrounded, Bool.and_eq_true, List.all_eq_true] at hg
      obtain ⟨sub, hs⟩ := Option.isSome_iff_exists.1 (hg.2 k hitem)
      rw [if_pos hitem, hs, if_pos (show k ∈ scope.construct.regionTable.items from hitem)]
      exact h.enterItem hs
    · rw [if_neg hitem, if_neg (show k ∉ scope.construct.regionTable.items from hitem)]
      dsimp only
      split
      · rename_i kind rule hb
        simp only [Construct.regionTable, hb]
        exact h.begin
      · exact h.pass rfl (.plain rfl rfl rfl h.label rfl rfl) rfl rfl rfl
      · rename_i k _ _ hend hbegin
        have hno : ¬ (k = .begin ∧ scope.construct.regionTable.begin?.isSome) := by
          rintro ⟨rfl, hsome⟩
          obtain ⟨⟨kind, rule⟩, hb⟩ : ∃ p, scope.construct.begin? = some p := by
            simpa [Construct.regionTable, Option.isSome_iff_exists] using hsome
          exact hbegin kind rule rfl hb
        rw [if_neg hno, if_neg hend]
        exact .ite (fun _ => h.notImplemented) fun _ => h.refuseDeclaration

end Engine

end VhdlOutline
