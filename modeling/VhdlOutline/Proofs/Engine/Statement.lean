import VhdlOutline.Proofs.Engine.Unit

/-!
# Answers at expressions and statements

The routines for expressions, for simple statements and for statements that start with a name answer
as the machine does. A name before a colon is found again as the last token before it.
-/

namespace VhdlOutline

namespace Token

variable {t : Token}

theorem settledInExpression_character {c : Char} (hk : t.kind = .character c) :
    t.settledInExpression = ((Operator.ofChar? c).map .operator).getD t.kind := by
  cases ho : Operator.ofChar? c <;> simp [settledInExpression, hk, ho]

theorem settledInExpression_compound {s : Compound} (hk : t.kind = .compound s) :
    t.settledInExpression = ((Operator.ofCompound? s).map .operator).getD t.kind := by
  cases ho : Operator.ofCompound? s <;> simp [settledInExpression, hk, ho]

end Token

open VhdlOutline.Action

namespace Engine

variable {e : Engine} {s : State} {stack : List State} {ts : List Token} {t : Token}

/-! ## Expressions -/

/-- A token of an expression is settled as the expression reads it. -/
theorem run_settleOperator (h : e.desk.Faces t) {o : Option Operator} {kind : TokenKind}
    (ho : kind = (o.map TokenKind.operator).getD t.kind) :
    (settleOperator o).run e = .ok () { e with desk := e.desk.reclassify kind } := by
  cases o with
  | none =>
    have hself : { e with desk := e.desk.reclassify t.kind } = e := by rw [h.reclassify_self]
    rw [ho, Option.map_none, Option.getD_none, hself]
    rfl
  | some o =>
    rw [ho]
    exact run_reclassify h _

theorem Ready.expressionToken {x : Expression} {depth : Nat} {begun : Bool}
    (h : e.Ready (.expression x depth begun) stack ts t) :
    e.Answers (.expression x depth begun) stack t (Outline.expressionToken x depth t)
      ((Action.expressionToken x.table e.counter t >>= fun _ => setContent true).run e) := by
  have hx : e.context.expression = some x.table := h.needs
  have hpos := counter_pos_iff (h.counter rfl)
  -- The engine goes on in the expression with another depth.
  have hpart {d : Nat} {c : Int32} {desk : Desk} (hc : c.toInt = d)
      (hd : e.desk.reclassify t.settledInExpression = desk) :
      e.Answers (.expression x depth begun) stack t (.take (.expression x d true))
        ((setContent true).run { e with desk, counter := c }) :=
    h.take hd (.reading h.next rfl hc hx h.label rfl rfl trivial) rfl rfl rfl
  -- A symbol that is no operator keeps its kind.
  have hself (hk : t.settledInExpression = t.kind) :
      e.desk.reclassify t.settledInExpression = e.desk := by rw [hk, h.faces.reclassify_self]
  unfold Outline.expressionToken Action.expressionToken
  generalize hk : t.kind = kind
  split
  · change e.Answers _ _ _ _ ((Action.complain _ >>= fun _ => setContent true).run e)
    rw [bind_complain h.faces]
    exact .refuse rfl rfl
  · obtain ⟨c, hv, hrun⟩ := h.count_up rfl h.depth_lt
    change e.Answers _ _ _ _ ((count 1 >>= fun _ => setContent true).run e)
    rw [run_bind_of_eq hrun]
    exact hpart hv (hself (by simp [Token.settledInExpression, hk, Operator.ofChar?]))
  · change e.Answers _ _ _ _ (((if 0 < e.counter then count (-1)
      else Action.complain .unmatchedClose) >>= fun _ => setContent true).run e)
    by_cases h0 : depth = 0
    · rw [if_pos h0, if_neg (mt hpos.1 (by omega)), bind_complain h.faces]
      exact .refuse rfl rfl
    · obtain ⟨c, hv, hrun⟩ := h.count_down rfl (Nat.pos_of_ne_zero h0) h.depth_lt
      rw [if_neg h0, if_pos (hpos.2 (Nat.pos_of_ne_zero h0)), run_bind_of_eq hrun]
      exact hpart hv (hself (by simp [Token.settledInExpression, hk, Operator.ofChar?]))
  · change e.Answers _ _ _ _ (((if 0 < e.counter then Action.complain .unclosedParenthesis
      else Action.complain (.expected x.table.describe)) >>= fun _ => setContent true).run e)
    by_cases h0 : depth = 0
    · rw [if_pos h0, if_neg (mt hpos.1 (by omega)), bind_complain h.faces]
      exact .refuse rfl rfl
    · rw [if_neg h0, if_pos (hpos.2 (Nat.pos_of_ne_zero h0)), bind_complain h.faces]
      exact .refuse rfl rfl
  · change e.Answers _ _ _ _ ((Action.complain _ >>= fun _ => setContent true).run e)
    rw [bind_complain h.faces]
    exact .refuse rfl rfl
  · split
    any_goals contradiction
    · rw [bind_classifyWord h.faces]
      exact hpart (h.counter rfl) (by simp [Token.settledInExpression, hk])
    · rw [run_bind_of_eq (run_settleOperator h.faces (Token.settledInExpression_character hk))]
      exact hpart (h.counter rfl) rfl
    · rw [run_bind_of_eq (run_settleOperator h.faces (Token.settledInExpression_compound hk))]
      exact hpart (h.counter rfl) rfl
    · refine hpart (h.counter rfl) (hself ?_)
      simp_all [Token.settledInExpression, Token.settled_of_ne_word]

theorem Ready.expression {x : Expression} {depth : Nat} {begun : Bool}
    (h : e.Ready (.expression x depth begun) stack ts t)
    (ht : t.kind.isTrivia = true → (State.expression x depth begun).trivia = .seen) :
    e.Answers (.expression x depth begun) stack t (Outline.expression x depth begun t)
      (Action.expressionBody.run e) := by
  have hx : e.context.expression = some x.table := h.needs
  have hzero := counter_eq_zero_iff (h.counter rfl)
  refine h.inside rfl ht ?_
  rw [bind_table hx, bind_current h.faces, bind_get, Outline.expression]
  by_cases hend : depth = 0 ∧ Outline.endsExpression x t
  · rw [if_pos hend, if_pos (show e.counter = 0 ∧ x.table.ends t from ⟨hzero.2 hend.1, hend.2⟩),
      bind_get, h.content rfl]
    cases begun with
    | false => exact h.refuse
    | true =>
      change e.Answers _ _ _ _
        ((emitBefore x.kind >>= fun _ => pop 1 >>= fun _ => Action.reissue).run e)
      rw [bind_emitBefore]
      exact h.passReturn rfl rfl rfl
  · rw [if_neg hend, if_neg fun hc : e.counter = 0 ∧ x.table.ends t => hend ⟨hzero.1 hc.1, hc.2⟩]
    exact h.expressionToken

/-! ## Simple statements -/

/-- The word `when` precedes the condition of a loop control statement. -/
theorem Ready.whenExpression {s : SimpleStatement} {labelled : Bool}
    (h : e.Ready (.simple s (.afterKeyword labelled)) stack ts t) (hloop : s.isLoopControl) :
    e.Answers (.simple s (.afterKeyword labelled)) stack t
      (if t.isKeyword .when then .close s.startKind (.simple s .value)
      else .expected (["`;`", Keyword.when.phrase] ++ (if labelled then [] else ["a loop label"])))
      ((statementExpression s.table).run e) := by
  have hs : e.context.statement = some s.table := h.needs
  have hzero := counter_eq_zero_iff (h.counter rfl)
  have hrun : (statementExpression s.table).run e =
      (if t.isKeyword .when then do
        classifyWord
        emit s.startKind
        goto .statementValue
      else refuseCondition s.table .when).run e := by
    cases s with
    | exit | next => exact bind_current h.faces
    | return_ | wait | null => cases hloop
  rw [hrun]
  refine .ite (fun _ => ?_) fun _ => ?_
  · rw [bind_classifyWord h.faces]
    exact h.take rfl (.plain rfl rfl hs h.label rfl trivial) rfl rfl rfl
  · have hlist : (if s.table.loopLabel ∧ e.counter = 0 then ["a loop label"] else []) =
        if labelled then [] else ["a loop label"] := by
      rw [show s.table.loopLabel = true from hloop]
      cases labelled <;> simp [hzero]
    rw [refuseCondition, bind_get, ← hlist]
    exact h.refuse

theorem Ready.simpleAfterKeyword {s : SimpleStatement} {labelled : Bool}
    (h : e.Ready (.simple s (.afterKeyword labelled)) stack ts t)
    (ht : t.kind.isTrivia = true → (State.simple s (.afterKeyword labelled)).trivia = .seen) :
    e.Answers (.simple s (.afterKeyword labelled)) stack t (Outline.simpleAfterKeyword s labelled t)
      (Action.statementAfterKeyword.run e) := by
  have hs : e.context.statement = some s.table := h.needs
  have hzero := counter_eq_zero_iff (h.counter rfl)
  refine h.inside rfl ht ?_
  rw [bind_table hs, bind_current h.faces]
  refine .ite (fun hend => .ite (fun _ => ?_) fun _ => ?_) fun _ => ?_
  · rw [bind_emit]
    exact h.takeReturn rfl rfl (h.faces.taking_eq _ _ (Token.settled_of_isChar hend)) rfl h.label
      (by cases s <;> rfl)
  · rw [bind_emitBefore, bind_emit]
    exact h.takeReturn rfl rfl (h.faces.taking_eq _ _ (Token.settled_of_isChar hend)) rfl h.label
      (by cases s <;> rfl)
  · rw [bind_get]
    by_cases hloop : s.isLoopControl
    · rw [if_pos hloop]
      by_cases hlabel : labelled = false ∧ t.isName
      · rw [if_pos (by simpa using hlabel), if_pos ⟨hloop, hzero.2 (by simp [hlabel.1]), hlabel.2⟩,
          bind_identifier h.faces (Token.settled_of_isName hlabel.2)]
        exact h.take rfl (.counting h.next rfl rfl hs h.label rfl trivial) rfl rfl rfl
      · have hno : ¬ (s.table.loopLabel ∧ e.counter = 0 ∧ t.isName) := fun hc =>
          hlabel ⟨by simpa using hzero.1 hc.2.1, hc.2.2⟩
        rw [if_neg (by simpa using hlabel), if_neg hno]
        exact h.whenExpression hloop
    · rw [if_neg hloop, if_neg fun hc => hloop hc.1]
      cases s with
      | return_ | wait => exact h.beforeExpression rfl rfl hs rfl rfl
      | null => exact h.refuse
      | exit | next => exact absurd rfl hloop

theorem Ready.simple {s : SimpleStatement} {phase : SimplePhase}
    (h : e.Ready (.simple s phase) stack ts t)
    (ht : t.kind.isTrivia = true → (State.simple s phase).trivia = .seen) :
    e.Answers (.simple s phase) stack t (Outline.simple s phase t)
      ((State.simple s phase).routine.action.run e) := by
  have hs : e.context.statement = some s.table := h.needs
  cases phase with
  | start =>
    change e.Answers _ _ _ _ (Action.statementStart.run e)
    rw [Action.statementStart, bind_table hs]
    exact h.keyword fun _ =>
      h.take rfl (.counting rfl rfl (h.counter rfl) hs h.label rfl trivial) rfl rfl rfl
  | afterKeyword labelled => exact h.simpleAfterKeyword ht
  | value =>
    have hg := h.grounded
    change e.Answers _ _ _ _ (Action.statementValue.run e)
    rw [Action.statementValue, bind_table hs]
    cases s with
    | return_ | exit | next | wait => exact h.pushExpression rfl rfl hs rfl rfl
    | null => cases hg
  | end_ =>
    change e.Answers _ _ _ _ (Action.statementEnd.run e)
    rw [Action.statementEnd, bind_table hs]
    exact h.semicolon rfl rfl rfl rfl (by cases s <;> rfl)

/-! ## Statements that start with a name -/

/-- An assignment symbol is taken, and the engine goes on to the assigned value. -/
theorem Ready.enterAssignment {part : Part} {label : Option String} {depth : Nat}
    (h : e.Ready (.target part label (.rest depth)) stack ts t) (ht : t.settled = t.kind)
    (a : Assignment) :
    e.Answers (.target part label (.rest depth)) stack t
      (.close a.startKind (.assignment a part .value)) ((Action.assignment a).run e) :=
  h.take (h.faces.taking_eq none _ ht) (.plain rfl rfl rfl rfl rfl trivial) rfl rfl rfl

theorem Ready.targetRest {part : Part} {label : Option String} {depth : Nat}
    (h : e.Ready (.target part label (.rest depth)) stack ts t)
    (ht : t.kind.isTrivia = true → (State.target part label (.rest depth)).trivia = .seen) :
    e.Answers (.target part label (.rest depth)) stack t (Outline.targetRest part label depth t)
      (Action.targetRest.run e) := by
  have hzero := counter_eq_zero_iff (h.counter rfl)
  have hpos := (counter_pos_iff (h.counter rfl)).trans Nat.pos_iff_ne_zero
  -- The engine goes on in the target with another depth.
  have hpart {d : Nat} {c : Int32} {desk : Desk} (hc : c.toInt = d)
      (hd : e.desk.reclassify t.settled = desk) :
      e.Answers (.target part label (.rest depth)) stack t (.take (.target part label (.rest d)))
        (.ok () { e with desk, counter := c }) :=
    h.take hd (.counting h.next rfl hc trivial h.label rfl trivial) rfl rfl rfl
  have hset (hk : t.kind ≠ .word) : t.settled = t.kind := Token.settled_of_ne_word hk
  have hself (hk : t.kind ≠ .word) : e.desk.reclassify t.settled = e.desk := by
    rw [hset hk, h.faces.reclassify_self]
  refine h.inside rfl ht ?_
  rw [bind_current h.faces, bind_get, Outline.targetRest]
  generalize hk : t.kind = kind
  split
  · exact h.refuse
  · obtain ⟨c, hv, hrun⟩ := h.count_up rfl h.depth_lt
    change e.Answers _ _ _ _ ((count 1).run e)
    rw [hrun]
    exact hpart hv (hself (by simp [hk]))
  · refine .ite_not hpos (fun _ => h.complain) fun h0 => ?_
    obtain ⟨c, hv, hrun⟩ := h.count_down rfl (Nat.pos_of_ne_zero h0) h.depth_lt
    rw [hrun]
    exact hpart hv (hself (by simp [hk]))
  · refine .ite_not hpos (fun _ => ?_) fun _ => h.complain
    change e.Answers _ _ _ _ ((emitBefore .procedureCall >>= fun _ =>
      emit .procedureCallEnd >>= fun _ => pop 1).run { e with label := none })
    rw [bind_emitBefore, bind_emit]
    exact h.takeBack rfl (h.faces.taking_eq _ _ (hset (by simp [hk]))) rfl rfl rfl
  · exact .ite_iff hzero (fun _ => h.enterAssignment (hset (by simp [hk])) .signal)
      fun _ => hpart (h.counter rfl) (hself (by simp [hk]))
  · exact .ite_iff hzero (fun _ => h.enterAssignment (hset (by simp [hk])) .variable_)
      fun _ => hpart (h.counter rfl) (hself (by simp [hk]))
  · refine .ite_iff (and_congr_left' hzero) (fun _ => h.notImplemented) fun _ => ?_
    rw [run_classifyWord h.faces]
    exact hpart (h.counter rfl) rfl
  · rename_i hword
    have hpure := hpart (h.counter rfl) (hself (hk ▸ hword))
    repeat' split
    all_goals first | contradiction | exact hpure

theorem Ready.target {part : Part} {label : Option String} {phase : TargetPhase}
    (h : e.Ready (.target part label phase) stack ts t)
    (ht : t.kind.isTrivia = true → (State.target part label phase).trivia = .seen) :
    e.Answers (.target part label phase) stack t (Outline.target part label phase t)
      ((State.target part label phase).routine.action.run e) := by
  cases phase with
  | name =>
    exact h.name fun _ =>
      h.take rfl (.counting rfl rfl (h.counter rfl) trivial h.label rfl trivial) rfl rfl rfl
  | afterHead head =>
    refine h.inside rfl ht ?_
    rw [bind_current h.faces]
    refine .ite (fun hcolon => ?_) fun _ => ?_
    · rw [bind_get, h.label]
      refine .ite (fun _ => h.complain) fun _ => ?_
      obtain ⟨u, hu, htext⟩ := Option.map_eq_some_iff.1 h.recalls
      rw [bind_get,
        run_bind_of_eq (run_demand (h.faces.previousSignificant? h.tokens h.linked)), hu]
      exact h.takeBack rfl (h.faces.taking_eq none none (Token.settled_of_isChar hcolon)) rfl
        (congrArg some htext) rfl
    · exact h.pass rfl (.counting rfl rfl (h.counter rfl) trivial h.label rfl trivial) rfl rfl rfl
  | rest depth => exact h.targetRest ht

/-- An assignment ends like a simple statement, and goes back to the statement part. -/
theorem Ready.assignment {a : Assignment} {part : Part} {phase : AssignmentPhase}
    (h : e.Ready (.assignment a part phase) stack ts t) :
    e.Answers (.assignment a part phase) stack t (Outline.assignment a part phase t)
      ((State.assignment a part phase).routine.action.run e) := by
  have ha : e.context.statement = some a.table := h.needs
  cases phase with
  | value =>
    change e.Answers _ _ _ _ (Action.statementValue.run e)
    rw [Action.statementValue, bind_table ha]
    exact h.pushExpression rfl rfl ha rfl rfl
  | end_ =>
    change e.Answers _ _ _ _ (Action.statementEnd.run e)
    rw [Action.statementEnd, bind_table ha, Action.semicolon, bind_current h.faces]
    refine .ite (fun hend => ?_) fun _ => h.refuse
    rw [bind_emit]
    exact h.takeBack rfl (h.faces.taking_eq none _ (Token.settled_of_isChar hend)) rfl h.label rfl

/-! ## Assertions and reports -/

theorem Ready.assertEnd {phase : AssertionPhase} (h : e.Ready (.assertion phase) stack ts t) :
    e.Answers (.assertion phase) stack t (Outline.assertEnd t) (Action.assertEnd.run e) :=
  h.semicolon rfl rfl rfl rfl rfl

theorem Ready.assertAfterMessage {phase : AssertionPhase}
    (h : e.Ready (.assertion phase) stack ts t) :
    e.Answers (.assertion phase) stack t (Outline.assertAfterMessage t)
      (Action.assertAfterMessage.run e) := by
  rw [Action.assertAfterMessage, Action.severity, bind_current h.faces]
  refine .ite (fun _ => ?_) fun _ => h.assertEnd
  rw [bind_classifyWord h.faces]
  exact h.take rfl (.plain rfl rfl trivial h.label rfl trivial) rfl rfl rfl

theorem Ready.assertion {phase : AssertionPhase} (h : e.Ready (.assertion phase) stack ts t)
    (ht : t.kind.isTrivia = true → (State.assertion phase).trivia = .seen) :
    e.Answers (.assertion phase) stack t (Outline.assertion phase t)
      ((State.assertion phase).routine.action.run e) := by
  cases phase with
  | start =>
    exact h.keyword fun _ =>
      h.take rfl (.plain rfl rfl trivial h.label rfl trivial) rfl rfl rfl
  | afterKeyword => exact h.inside rfl ht <| h.beforeExpression rfl rfl trivial rfl rfl
  | afterCondition =>
    change e.Answers _ _ _ _ (Action.assertAfterCondition.run e)
    rw [Action.assertAfterCondition, bind_current h.faces]
    refine .ite (fun _ => ?_) fun _ => h.assertAfterMessage
    rw [bind_classifyWord h.faces]
    exact h.take rfl (.plain rfl rfl trivial h.label rfl trivial) rfl rfl rfl
  | message | level => exact h.pushExpression rfl rfl trivial rfl rfl
  | afterMessage => exact h.assertAfterMessage
  | end_ => exact h.assertEnd

theorem Ready.report {phase : ReportPhase} (h : e.Ready (.report phase) stack ts t)
    (ht : t.kind.isTrivia = true → (State.report phase).trivia = .seen) :
    e.Answers (.report phase) stack t (Outline.report phase t)
      ((State.report phase).routine.action.run e) := by
  cases phase with
  | start =>
    exact h.keyword fun _ =>
      h.take rfl (.plain rfl rfl trivial h.label rfl trivial) rfl rfl rfl
  | afterKeyword => exact h.inside rfl ht <| h.beforeExpression rfl rfl trivial rfl rfl
  | afterMessage =>
    change e.Answers _ _ _ _ (Action.reportAfterMessage.run e)
    rw [Action.reportAfterMessage, Action.severity, bind_current h.faces]
    refine .ite (fun _ => ?_) fun _ => h.semicolon rfl rfl rfl rfl rfl
    rw [bind_classifyWord h.faces]
    exact h.take rfl (.plain rfl rfl trivial h.label rfl trivial) rfl rfl rfl
  | level => exact h.pushExpression rfl rfl trivial rfl rfl
  | end_ => exact h.semicolon rfl rfl rfl rfl rfl

end Engine

end VhdlOutline
