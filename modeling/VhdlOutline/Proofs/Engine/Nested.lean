import VhdlOutline.Proofs.Engine.Declaration
import VhdlOutline.Proofs.Engine.Statement

/-!
# Answers at nested constructs and regions

The routines for ends, processes, if statements and loops, and for the regions in which design units
and statements stand, answer as the machine does. The construct that an end belongs to has been
declared, and the name at the end is the token that was read for it.

`Engine.Ready.answers` gathers the answers of all routines.
-/

namespace VhdlOutline

open VhdlOutline.Action

namespace Engine

variable {e : Engine} {s : State} {stack : List State} {ts : List Token} {t : Token}

/-! ## Ends -/

/-- An end without a name leaves the innermost construct. -/
theorem run_closeName_none (h : e.endName = none) :
    closeName.run e = .ok () { e with names := e.names.tail } := by
  cases e
  cases h
  rfl

/-- The name at an end is compared with that of the innermost construct. -/
theorem run_closeName {scope : Scope} {os : List Opening} {i : UInt32} {u : Token}
    (hn : e.names = scope.opening :: os) (hi : e.endName = some i)
    (hu : e.desk.tokens.get? i.toNat = some u) :
    closeName.run e =
      match scope.mismatch? ⟨u.text, i.toNat, u.first⟩ with
      | none => .ok () { e with names := os, endName := none }
      | some x =>
        if e.options.strictNames then
          .error (.failed (.nameMismatch x)) { e with names := os, endName := none }
        else .ok () { e with names := os, endName := none, warnings := e.warnings.push x } := by
  have hu' : ({ e with names := os, endName := none } : Engine).desk.tokens.get? i.toNat = some u :=
    hu
  have hcheck : closeName.run e =
      (checkName scope.opening i).run { e with names := os, endName := none } := by
    cases e
    cases hn
    cases hi
    rfl
  rw [hcheck, checkName, bind_get, run_bind_of_eq (run_demand hu'), Scope.mismatch?]
  change ((if scope.name.any (sameName · u.text) then _ else _ : Action Unit).run _) = _
  by_cases hsame : scope.name.any (sameName · u.text)
  · rw [if_pos hsame, if_pos hsame]
    rfl
  · rw [if_neg hsame, if_neg hsame]
    dsimp only
    rw [bind_get]
    split
    · rfl
    · rfl

theorem run_endFinish {scope : Scope} (h : e.context.end_ = some scope.construct.endTable) :
    endFinish.run e = (closeName >>= fun _ => pop 1).run
      { e with desk := e.desk.emit scope.construct.endKind } := by
  rw [endFinish, bind_table h]
  rfl

/-- An end closes its construct, whether or not there is a name. -/
theorem openings_endFinish {c : Construct} {x : Option NameMismatch} {os : List Opening} :
    Reaction.openings ⟨.take none (some c.endKind) .return_, none, x⟩ os = os.tail := by
  cases c <;> rfl

theorem Ready.endFinish {scope : Scope} {phase : EndPhase}
    (h : e.Ready (.end_ scope phase) stack ts t) (hend : t.isChar ';') (hi : e.endName = none) :
    e.Answers (.end_ scope phase) stack t (Outline.endFinish scope none)
      (Action.endFinish.run e) := by
  have hclose := run_closeName_none (e := { e with desk := e.desk.emit scope.construct.endKind }) hi
  rw [run_endFinish h.needs, run_bind_of_eq hclose]
  exact h.takeReturn rfl rfl (h.faces.taking_eq none _ (Token.settled_of_isChar hend)) rfl h.label
    (by rw [openings_endFinish]; rfl)

/-- The token is taken, and the engine returns with a warning. -/
theorem Ready.warnReturn {e' : Engine} {before closing : Option BlockKind} {note : Option Note}
    {x : NameMismatch} (h : e.Ready s stack ts t) (below : s.below = [])
    (inner : s.isOuter = false) (strict : e.options.strictNames = false)
    (desk : e.desk.taking before closing (s.reading t) = e'.desk) (frames : e'.stack = e.stack)
    (label : e'.label = none)
    (ledger : e'.ledger =
      (Reaction.openings ⟨.take before closing .return_, note, some x⟩ e.names, e.warnings.push x,
        e.options, e.done, e.reissue)) :
    e.Answers s stack t (.ok ⟨.take before closing .return_, note, some x⟩)
      ((pop 1).run e') := by
  obtain ⟨f, fs, hstack, hlands⟩ := h.exists_frame below inner
  rw [run_pop (frames.trans hstack)]
  exact .warn strict desk.symm (hlands _ label) (h.reissue ▸ ledger)

/-- The name at an end is found where it was read. -/
theorem Ready.endFinish_name {scope : Scope} {found : EndName}
    (h : e.Ready (.end_ scope (.afterName found)) stack ts t) (hend : t.isChar ';') :
    e.Answers (.end_ scope (.afterName found)) stack t (Outline.endFinish scope (some found))
      (Action.endFinish.run e) := by
  obtain ⟨i, hi, hindex⟩ := Option.map_eq_some_iff.1 h.here.suits.endName
  obtain ⟨u, hu, htext, hfirst⟩ := h.recalls
  have htoken : (e.desk.emit scope.construct.endKind).tokens.get? i.toNat = some u := by
    have hlt := (List.getElem?_eq_some_iff.1 hu).1
    have htokens : (e.desk.emit scope.construct.endKind).tokens = e.desk.tokens :=
      congrArg Sheet.tokens (h.faces.sheet_emit _)
    rw [htokens, Chain.get?_eq, h.tokens, hindex, List.getElem?_append_left hlt, hu]
  have hclose := run_closeName (e := { e with desk := e.desk.emit scope.construct.endKind })
    h.openings hi htoken
  rw [htext, hfirst, hindex] at hclose
  have hdesk := h.faces.taking_eq none (some scope.construct.endKind)
    (Token.settled_of_isChar hend)
  rw [run_endFinish h.needs, Outline.endFinish, Option.bind_some]
  cases hm : scope.mismatch? found with
  | none =>
    rw [hm] at hclose
    rw [run_bind_of_eq hclose]
    exact h.takeReturn rfl rfl hdesk rfl h.label (by rw [openings_endFinish, h.openings]; rfl)
  | some x =>
    rw [hm] at hclose
    dsimp only at hclose
    by_cases hstrict : e.options.strictNames
    · rw [if_pos hstrict] at hclose
      rw [EStateM.run_bind, hclose]
      exact .mismatch hstrict hdesk.symm rfl
    · rw [if_neg hstrict] at hclose
      rw [run_bind_of_eq hclose]
      exact h.warnReturn rfl rfl (by simpa using hstrict) hdesk rfl h.label
        (by rw [openings_endFinish, h.openings]; rfl)

/-- The name at an end is remembered by its number. -/
theorem Ready.endName {scope : Scope} {phase : EndPhase}
    (h : e.Ready (.end_ scope phase) stack ts t) (hname : Action.isEndName t) :
    e.Answers (.end_ scope phase) stack t (Outline.endName scope e.desk.sheet.index t)
      (Action.endName.run e) := by
  have hset : t.kind = .word → t.settled = .identifier := by
    intro hw
    refine Token.settled_of_isName ?_ hw
    simpa [Action.isEndName, hw] using hname
  have hf : ({ e with endName := some e.desk.token } : Engine).desk.Faces t := h.faces
  change e.Answers _ _ _ _
    ((settleName >>= fun _ => goto .endAfterName).run { e with endName := some e.desk.token })
  rw [run_bind_of_eq (run_settleName hf hset)]
  exact h.take rfl (.plain rfl rfl h.needs h.label rfl (congrArg some h.faces.index.symm)) rfl rfl
    rfl

theorem Ready.end_ {scope : Scope} {phase : EndPhase} (h : e.Ready (.end_ scope phase) stack ts t)
    (ht : t.kind.isTrivia = true → (State.end_ scope phase).trivia = .seen) :
    e.Answers (.end_ scope phase) stack t (Outline.end_ scope phase e.desk.sheet.index t)
      ((State.end_ scope phase).routine.action.run e) := by
  have hc : e.context.end_ = some scope.construct.endTable := h.needs
  have hi := h.here.suits.endName
  cases phase with
  | start =>
    exact h.keyword fun _ => h.take rfl (.plain rfl rfl hc h.label rfl hi) rfl rfl rfl
  | afterEnd =>
    refine h.inside rfl ht ?_
    rw [bind_table hc, bind_current h.faces]
    refine .ite (fun _ => ?_) fun _ => .ite (fun _ => h.refuse) fun _ =>
      .ite (fun hend => h.endFinish hend hi) fun _ => .ite (fun hname => h.endName hname)
        fun _ => h.refuse
    rw [bind_classifyWord h.faces]
    by_cases hk : scope.construct.secondKeyword?.isSome
    · rw [if_pos hk, if_pos (show scope.construct.endTable.second?.isSome from hk)]
      exact h.take rfl (.plain rfl rfl hc h.label rfl hi) rfl rfl rfl
    · rw [if_neg hk, if_neg (show ¬ scope.construct.endTable.second?.isSome from hk)]
      exact h.take rfl (.plain rfl rfl hc h.label rfl hi) rfl rfl rfl
  | afterFirstKeyword =>
    refine h.inside rfl ht ?_
    obtain ⟨k, hk⟩ := Option.isSome_iff_exists.1 h.grounded
    have hk' : scope.construct.endTable.second? = some k := hk
    rw [bind_table hc, hk', Outline.end_, hk]
    exact h.keyword fun _ => h.take rfl (.plain rfl rfl hc h.label rfl hi) rfl rfl rfl
  | afterKeyword =>
    refine h.inside rfl ht ?_
    rw [bind_current h.faces]
    exact .ite (fun hend => h.endFinish hend hi) fun _ => .ite (fun hname => h.endName hname)
      fun _ => h.refuse
  | afterName found =>
    refine h.inside rfl ht ?_
    rw [bind_current h.faces]
    exact .ite (fun hend => h.endFinish_name hend) fun _ => h.refuse

/-! ## Processes -/

/-- The first line of a process ends with the word `is`, or before what comes instead. -/
theorem Ready.processAfterSensitivity {label : Option String} {phase : ProcessPhase}
    (h : e.Ready (.process label phase) stack ts t)
    (hs : (State.process label phase).trivia = .inside)
    (ht : t.kind.isTrivia = true → (State.process label phase).trivia = .seen) :
    e.Answers (.process label phase) stack t (Outline.processAfterSensitivity label t)
      (Action.processAfterSensitivity.run e) := by
  refine h.inside hs ht ?_
  rw [bind_current h.faces]
  refine .ite (fun _ => ?_) fun _ => ?_
  · rw [bind_classifyWord h.faces]
    exact h.take rfl (.plain rfl rfl rfl h.label rfl trivial) rfl rfl rfl
  · rw [bind_emitBefore]
    exact h.pass rfl (.plain rfl rfl rfl h.label rfl trivial) rfl rfl rfl

theorem Ready.process {label : Option String} {phase : ProcessPhase}
    (h : e.Ready (.process label phase) stack ts t)
    (ht : t.kind.isTrivia = true → (State.process label phase).trivia = .seen) :
    e.Answers (.process label phase) stack t (Outline.process label phase t)
      ((State.process label phase).routine.action.run e) := by
  cases phase with
  | start =>
    exact h.keyword fun _ =>
      h.take rfl (.plain rfl rfl trivial h.label rfl trivial) rfl rfl rfl
  | afterKeyword =>
    refine h.inside rfl ht ?_
    rw [bind_current h.faces]
    refine .ite (fun hopen => ?_) fun _ => h.processAfterSensitivity rfl ht
    exact h.take (h.faces.taking_eq none none (Token.settled_of_isChar hopen))
      (.counting rfl rfl rfl trivial h.label rfl trivial) rfl rfl rfl
  | sensitivity depth =>
    -- The engine goes on in the list with another depth.
    have hpart {d : Nat} {c : Int32} {desk : Desk} (hc : c.toInt = d)
        (hd : e.desk.reclassify t.settled = desk) :
        e.Answers (.process label (.sensitivity depth)) stack t
          (.take (.process label (.sensitivity d))) (.ok () { e with desk, counter := c }) :=
      h.take hd (.counting h.next rfl hc trivial h.label rfl trivial) rfl rfl rfl
    have hself (hk : t.kind ≠ .word) : e.desk.reclassify t.settled = e.desk := by
      rw [Token.settled_of_ne_word hk, h.faces.reclassify_self]
    have hdepth : 0 < depth := of_decide_eq_true h.grounded
    refine h.inside rfl ht ?_
    rw [bind_current h.faces, Outline.process]
    generalize hk : t.kind = kind
    split
    · obtain ⟨c, hv, hrun⟩ := h.count_up rfl h.depth_lt
      change e.Answers _ _ _ _ ((count 1).run e)
      rw [hrun]
      exact hpart hv (hself (by simp [hk]))
    · obtain ⟨c, hv, hrun⟩ := h.count_down rfl hdepth h.depth_lt
      change e.Answers _ _ _ _ ((count (-1) >>= fun _ => get >>= fun e' : Engine =>
        if e'.counter = 0 then goto .processAfterSensitivity else pure ()).run e)
      rw [run_bind_of_eq hrun, bind_get]
      have hone : c = 0 ↔ depth = 1 := (counter_eq_zero_iff hv).trans (by omega)
      refine .ite_iff hone (fun _ => ?_) fun _ => hpart hv (hself (by simp [hk]))
      exact h.take (hself (by simp [hk])) (.plain rfl rfl trivial h.label rfl trivial) rfl rfl rfl
    · exact h.refuse
    · exact h.refuse
    · split
      any_goals contradiction
      · rw [run_classifyWord h.faces]
        exact hpart (h.counter rfl) rfl
      · rename_i hword
        exact hpart (h.counter rfl) (hself (hk ▸ hword))
  | afterSensitivity => exact h.processAfterSensitivity rfl ht

/-! ## If statements and loops -/

theorem Ready.branch {label : Option String} {phase : IfPhase} {kind : BlockKind}
    (h : e.Ready (.ifStatement label phase) stack ts t) :
    e.Answers (.ifStatement label phase) stack t
      (if t.isKeyword .then_ then .close kind (Outline.thenBranch label)
      else .expected [Keyword.then_.phrase])
      ((Action.branch kind).run e) :=
  h.keyword fun _ =>
    h.take rfl (.plain rfl rfl ⟨rfl, rfl⟩ h.label rfl trivial) rfl rfl rfl

theorem Ready.ifStatement {label : Option String} {phase : IfPhase}
    (h : e.Ready (.ifStatement label phase) stack ts t)
    (ht : t.kind.isTrivia = true → (State.ifStatement label phase).trivia = .seen) :
    e.Answers (.ifStatement label phase) stack t (Outline.ifStatement label phase t)
      ((State.ifStatement label phase).routine.action.run e) := by
  cases phase with
  | start | elsif =>
    exact h.keyword fun _ =>
      h.take rfl (.plain rfl rfl trivial h.label rfl trivial) rfl rfl rfl
  | afterKeyword | elsifAfterKeyword =>
    exact h.inside rfl ht <| h.beforeExpression rfl rfl trivial rfl rfl
  | then_ | elsifThen => exact h.branch

theorem Ready.loopBody {label : Option String} {phase : LoopPhase}
    (h : e.Ready (.loop label phase) stack ts t) :
    e.Answers (.loop label phase) stack t (Outline.loopBody label t) (Action.loopBody.run e) :=
  h.keyword fun _ =>
    h.take rfl (.plain rfl rfl ⟨rfl, rfl⟩ h.label rfl trivial) rfl rfl rfl

theorem run_loopStart (h : e.desk.Faces t) : loopStart.run e =
    (if t.isKeyword .for_ then do
      classifyWord
      goto .forParameter
    else if t.isKeyword .while then do
      classifyWord
      goto .whileAfterKeyword
    else if t.isKeyword .loop then loopBody
    else refuse [Keyword.for_.phrase, Keyword.while.phrase, Keyword.loop.phrase]).run e := by
  rw [loopStart, bind_current h]
  unfold Token.isKeyword
  split <;> simp_all

theorem run_forAfterRange (h : e.desk.Faces t) : forAfterRange.run e =
    (if t.isKeyword .to || t.isKeyword .downto then do
      classifyWord
      emit .loopDirection
      goto .loopBound
    else loopBody).run e := by
  rw [forAfterRange, bind_current h]
  unfold Token.isKeyword
  split <;> simp_all

theorem Ready.loop {label : Option String} {phase : LoopPhase}
    (h : e.Ready (.loop label phase) stack ts t)
    (ht : t.kind.isTrivia = true → (State.loop label phase).trivia = .seen) :
    e.Answers (.loop label phase) stack t (Outline.loop label phase t)
      ((State.loop label phase).routine.action.run e) := by
  cases phase with
  | start =>
    change e.Answers _ _ _ (if _ then _ else if _ then _ else if _ then _ else _)
      (Action.loopStart.run e)
    rw [run_loopStart h.faces]
    refine .ite (fun _ => ?_) fun _ => .ite (fun _ => ?_) fun _ =>
      .ite (fun _ => h.loopBody) fun _ => h.refuse
    all_goals
      rw [bind_classifyWord h.faces]
      exact h.take rfl (.plain rfl rfl trivial h.label rfl trivial) rfl rfl rfl
  | forParameter =>
    exact h.inside rfl ht <| h.name fun _ =>
      h.take rfl (.plain rfl rfl trivial h.label rfl trivial) rfl rfl rfl
  | forIn =>
    exact h.inside rfl ht <| h.keyword fun _ =>
      h.take rfl (.plain rfl rfl trivial h.label rfl trivial) rfl rfl rfl
  | forAfterIn | whileAfterKeyword =>
    exact h.inside rfl ht <| h.beforeExpression rfl rfl trivial rfl rfl
  | forAfterRange =>
    change e.Answers _ _ _ (if _ then _ else _) (Action.forAfterRange.run e)
    rw [run_forAfterRange h.faces]
    refine .ite (fun _ => ?_) fun _ => h.loopBody
    rw [bind_classifyWord h.faces]
    exact h.take rfl (.plain rfl rfl trivial h.label rfl trivial) rfl rfl rfl
  | bound => exact h.pushExpression rfl rfl trivial rfl rfl
  | body => exact h.loopBody

/-! ## The document -/

theorem Ready.documentStart (h : e.Ready .documentStart stack ts t) :
    e.Answers .documentStart stack t (Outline.documentStart t) (Action.documentStart.run e) := by
  rw [Action.documentStart, bind_current h.faces]
  refine .ite (fun hk => ?_) fun _ => h.refuse
  exact h.take (h.faces.taking_eq none _ (Token.settled_of_ne_word (by simp [hk])))
    (.plain rfl rfl trivial h.label rfl trivial) rfl rfl rfl

/-- Between design units, nothing is open. -/
theorem Ready.documentEnd (h : e.Ready .documentRegion stack ts t) :
    e.Answers .documentRegion stack t (.ok ⟨.finish, none, none⟩) (Action.documentEnd.run e) := by
  have hstack : e.stack = [] := by
    have hfits := h.fits
    have hframes := h.here.frames
    cases hfits with
    | outer => simpa [State.below] using hframes
    | inner ho => cases ho
  rw [Action.documentEnd, bind_get, hstack]
  exact .finish

/-- A reference clause or design unit is entered from between them. -/
theorem Ready.enterUnit (h : e.Ready .documentRegion stack ts t) {sub : State} {e' : Engine}
    (desk : e'.desk = e.desk) (suits : e'.Suits sub) (below : sub.below = [])
    (frames : e'.stack = ⟨e.running, e.counter, e.context⟩ :: e.stack)
    (ledger : e'.ledger = (e.names, e.warnings, e.options, e.done, true)) :
    e.Answers .documentRegion stack t (.call .documentRegion sub) (.ok () e') :=
  h.call desk suits (f := ⟨e.running, e.counter, e.context⟩) (.plain h.running rfl trivial) frames
    below rfl ledger

theorem Ready.documentRegion (h : e.Ready .documentRegion stack ts t)
    (ht : t.kind.isTrivia = true → State.documentRegion.trivia = .seen) :
    e.Answers .documentRegion stack t (Outline.documentRegion t)
      (Action.documentRegion.run e) := by
  refine h.apart rfl ht ?_
  rw [bind_current h.faces]
  refine .ite (fun _ => h.documentEnd) fun _ => ?_
  rw [h.bind_setLabel rfl]
  generalize t.keyword? = k
  split
  iterate 3 exact h.enterUnit rfl (.plain rfl rfl rfl h.label rfl trivial) rfl rfl rfl
  iterate 3 exact h.enterUnit rfl (.plain rfl rfl trivial h.label rfl trivial) rfl rfl rfl
  · exact h.notImplemented
  · repeat' split
    all_goals first | contradiction | exact h.refuse

/-! ## Statement parts -/

/-- The statement part is resumed without a label. -/
theorem Ready.frame_part {part : Part} {label : Option String}
    (h : e.Ready (.statements part label) stack ts t) :
    Frame.Suits ⟨e.running, e.counter, e.context⟩ (.statements part none) := by
  have hr := h.running
  have hn := h.needs
  cases part with
  | concurrent => exact .plain hr rfl hn
  | sequential => exact .plain hr rfl hn

/-- The label that has been read is taken off. -/
theorem Ready.labelled {part : Part} {label : Option String}
    (h : e.Ready (.statements part label) stack ts t)
    (ht : t.kind.isTrivia = true → (State.statements part label).trivia = .seen) {o : Outcome}
    {body : Option String → Action Unit}
    (hbody : e.Answers (.statements part label) stack t o
      ((body label).run { e with label := none })) :
    e.Answers (.statements part label) stack t o ((Action.labelled body).run e) := by
  rw [Action.labelled, bind_get, h.label]
  cases label with
  | none => exact h.apart rfl ht hbody
  | some name => exact h.inside rfl ht hbody

theorem Ready.refuseStatement {part : Part} {label : Option String}
    (h : e.Ready (.statements part label) stack ts t) {c : Complaint} :
    e.Answers (.statements part label) stack t (.error c)
      ((Action.complain c).run { e with label := none }) := by
  have hf : ({ e with label := none } : Engine).desk.Faces t := h.faces
  rw [run_complain hf]
  exact .refuse rfl rfl

/-- A statement is entered from a statement part. -/
theorem Ready.enterStatement {part : Part} {label : Option String}
    (h : e.Ready (.statements part label) stack ts t) {sub : State} {e' : Engine}
    {note : Option Note} (desk : e'.desk = e.desk) (suits : e'.Suits sub) (below : sub.below = [])
    (frames : e'.stack = ⟨e.running, e.counter, e.context⟩ :: e.stack)
    (ledger : e'.ledger =
      (Reaction.openings ⟨.pass none (.call (.statements part none) sub), note, none⟩ e.names,
        e.warnings, e.options, e.done, true)) :
    e.Answers (.statements part label) stack t
      (.ok ⟨.pass none (.call (.statements part none) sub), note, none⟩) (.ok () e') :=
  h.call desk suits h.frame_part frames below rfl ledger

/-- A statement that starts with a name is entered. -/
theorem Ready.enterTarget {part : Part} {label : Option String}
    (h : e.Ready (.statements part label) stack ts t) :
    e.Answers (.statements part label) stack t (.pass (.target part label .name))
      ((Action.enterTarget label).run { e with label := none }) := by
  refine .pass rfl ?_ rfl
  rintro _ ⟨⟩
  exact ⟨.counting rfl rfl rfl trivial rfl rfl trivial,
    .cons h.frame_part h.here.frames⟩

/-- The end of the construct is entered. -/
theorem Ready.enterEnd {part : Part} {label : Option String}
    (h : e.Ready (.statements part label) stack ts t)
    (hc : e.context.end_ = some part.scope.construct.endTable) :
    e.Answers (.statements part label) stack t (.pass (.end_ part.scope .start))
      (Action.enterEnd.run { e with label := none }) :=
  h.pass rfl (.plain rfl rfl hc rfl rfl rfl) rfl rfl rfl

theorem Ready.concurrent {scope : Scope} {label : Option String}
    (h : e.Ready (.statements (.concurrent scope) label) stack ts t)
    (ht : t.kind.isTrivia = true → (State.statements (.concurrent scope) label).trivia = .seen) :
    e.Answers (.statements (.concurrent scope) label) stack t (Outline.concurrent scope label t)
      (Action.concurrentRegion.run e) := by
  have hf : ({ e with label := none } : Engine).desk.Faces t := h.faces
  refine h.labelled ht ?_
  rw [bind_current hf, Outline.concurrent]
  cases t.keyword? with
  | none =>
    exact .ite (fun _ => h.enterTarget) fun _ => h.refuseStatement
  | some k =>
    refine .ite (fun _ => h.enterEnd h.needs) fun _ => ?_
    split
    · exact h.enterStatement rfl (.plain rfl rfl trivial rfl rfl trivial) rfl rfl rfl
    · exact h.enterStatement rfl (.plain rfl rfl trivial rfl rfl trivial) rfl rfl rfl
    · cases hu : Outline.unsupportedConcurrent? k with
      | none | some what =>
        unfold Action.concurrentStatement
        dsimp only
        split
        · contradiction
        · contradiction
        · rw [hu]
          exact h.refuseStatement

/-- Where no other statement is introduced, a name starts one. -/
theorem Ready.sequentialTarget {scope : Scope} {branch : Branch} {label : Option String}
    (h : e.Ready (.statements (.sequential scope branch) label) stack ts t) :
    e.Answers (.statements (.sequential scope branch) label) stack t
      (if t.isName then .pass (.target (.sequential scope branch) label .name)
      else Outline.refuseSequential branch label)
      ((Action.sequentialTarget label branch).run { e with label := none }) := by
  have hf : ({ e with label := none } : Engine).desk.Faces t := h.faces
  rw [Action.sequentialTarget, bind_current hf]
  refine .ite (fun _ => h.enterTarget) fun _ => ?_
  rw [Outline.refuseSequential]
  cases label <;> exact h.refuseStatement

/-- A reserved word introduces a statement, or nothing that may stand there. -/
theorem Ready.sequentialStatement {scope : Scope} {branch : Branch} {label : Option String}
    (h : e.Ready (.statements (.sequential scope branch) label) stack ts t) {k : Keyword}
    (hk : t.keyword? = some k) :
    e.Answers (.statements (.sequential scope branch) label) stack t
      ((Outline.sequentialStatement? (.sequential scope branch) label k).getD
        (Outline.refuseSequential branch label))
      ((Action.sequentialStatement label branch k).run { e with label := none }) := by
  have htarget := h.sequentialTarget
  rw [if_neg (Token.not_isName_of_keyword? hk)] at htarget
  unfold Outline.sequentialStatement?
  split
  iterate 5
    exact h.enterStatement rfl (.counting rfl rfl rfl rfl rfl rfl trivial) rfl rfl rfl
  iterate 6
    exact h.enterStatement rfl (.plain rfl rfl trivial rfl rfl trivial) rfl rfl rfl
  · exact h.refuseStatement (c := .notImplemented _)
  · unfold Action.sequentialStatement
    repeat' split
    all_goals first | contradiction | exact htarget

theorem Ready.sequential {scope : Scope} {branch : Branch} {label : Option String}
    (h : e.Ready (.statements (.sequential scope branch) label) stack ts t)
    (ht : t.kind.isTrivia = true →
      (State.statements (.sequential scope branch) label).trivia = .seen) :
    e.Answers (.statements (.sequential scope branch) label) stack t
      (Outline.sequential scope branch label t) (Action.sequentialRegion.run e) := by
  have hf : ({ e with label := none } : Engine).desk.Faces t := h.faces
  have hbody : e.context.body = branch := h.needs.2
  refine h.labelled ht ?_
  rw [bind_get, bind_current hf, Outline.sequential]
  rw [show ({ e with label := none } : Engine).context.body = branch from hbody]
  cases hk : t.keyword? with
  | none => exact h.sequentialTarget
  | some k =>
    dsimp only
    by_cases hend : k = .end_ ∧ label.isNone
    · obtain ⟨rfl, hl⟩ := hend
      rw [if_pos hl, if_pos ⟨rfl, hl⟩]
      exact h.enterEnd h.needs.1
    rw [if_neg hend]
    by_cases helsif : k = .elsif ∧ label.isNone ∧ branch = .then_
    · obtain ⟨rfl, hl, rfl⟩ := helsif
      rw [if_pos hl, if_pos ⟨rfl, hl, rfl⟩]
      exact h.pass rfl (.plain rfl rfl trivial rfl rfl trivial) rfl rfl rfl
    rw [if_neg helsif]
    by_cases helse : k = .else_ ∧ label.isNone ∧ branch = .then_
    · obtain ⟨rfl, hl, rfl⟩ := helse
      rw [if_pos hl, if_pos ⟨rfl, hl, rfl⟩, Action.elseBranch, bind_classifyWord hf]
      exact h.take rfl (.plain h.next rfl ⟨h.needs.1, rfl⟩ rfl rfl trivial) rfl rfl rfl
    rw [if_neg helse]
    have hnone : (if label.isNone then Outline.sequentialEnd? scope branch k else none) = none := by
      split
      · unfold Outline.sequentialEnd?
        split <;> simp_all
      · rfl
    rw [hnone, Option.none_or]
    exact h.sequentialStatement hk

/-! ## All routines -/

/-- **What the routine of a state does is what the machine has for the state.** -/
theorem Ready.answers (h : e.Ready s stack ts t)
    (ht : t.kind.isTrivia = true → s.trivia = .seen) :
    e.Answers s stack t (s.react e.desk.sheet.index t) (s.routine.action.run e) := by
  cases s with
  | documentStart => exact h.documentStart
  | documentRegion => exact h.documentRegion ht
  | reference => exact h.reference ht
  | entity => exact h.entity ht
  | architecture => exact h.architecture ht
  | package => exact h.package ht
  | procedure => exact h.procedure ht
  | function => exact h.function ht
  | process => exact h.process ht
  | declarations => exact h.declarations ht
  | statements part =>
    cases part with
    | concurrent => exact h.concurrent ht
    | sequential => exact h.sequential ht
  | end_ => exact h.end_ ht
  | object => exact h.object ht
  | interface => exact h.interface ht
  | expression => exact h.expression ht
  | simple => exact h.simple ht
  | target => exact h.target ht
  | assignment => exact h.assignment
  | assertion => exact h.assertion ht
  | report => exact h.report ht
  | ifStatement => exact h.ifStatement ht
  | loop => exact h.loop ht

end Engine

end VhdlOutline
