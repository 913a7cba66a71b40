import VhdlOutline.Proofs.Engine.Answer

/-!
# Answers at design units and subprograms

The routines for the first lines of entities, architectures, packages, procedures and functions
answer as the machine does. The subtypes of function results are read like those of objects and
interface items (`Engine.Ready.subtype`).
-/

namespace VhdlOutline

open VhdlOutline.Action

namespace Engine

variable {e e' : Engine} {s s' : State} {stack : List State} {ts : List Token} {t : Token}

/-! ## Design units -/

theorem Ready.entity {phase : EntityPhase} (h : e.Ready (.entity phase) stack ts t)
    (ht : t.kind.isTrivia = true → (State.entity phase).trivia = .seen) :
    e.Answers (.entity phase) stack t (Outline.entity phase t)
      ((State.entity phase).routine.action.run e) := by
  cases phase with
  | start =>
    exact h.keyword fun _ =>
      h.take rfl (.plain rfl rfl trivial h.label rfl trivial) rfl rfl rfl
  | afterKeyword =>
    exact h.inside rfl ht <| h.name fun _ =>
      h.take rfl (.plain rfl rfl trivial h.label rfl trivial) rfl rfl rfl
  | afterName name =>
    exact h.inside rfl ht <| h.keyword fun _ =>
      h.take rfl (.plain rfl rfl rfl h.label rfl trivial) rfl rfl rfl

theorem Ready.architecture {phase : ArchitecturePhase}
    (h : e.Ready (.architecture phase) stack ts t)
    (ht : t.kind.isTrivia = true → (State.architecture phase).trivia = .seen) :
    e.Answers (.architecture phase) stack t (Outline.architecture phase t)
      ((State.architecture phase).routine.action.run e) := by
  cases phase with
  | start =>
    exact h.keyword fun _ =>
      h.take rfl (.plain rfl rfl trivial h.label rfl trivial) rfl rfl rfl
  | afterKeyword | afterOf name =>
    exact h.inside rfl ht <| h.name fun _ =>
      h.take rfl (.plain rfl rfl trivial h.label rfl trivial) rfl rfl rfl
  | afterName name =>
    exact h.inside rfl ht <| h.keyword fun _ =>
      h.take rfl (.plain rfl rfl trivial h.label rfl trivial) rfl rfl rfl
  | afterEntity name =>
    exact h.inside rfl ht <| h.keyword fun _ =>
      h.take rfl (.plain rfl rfl rfl h.label rfl trivial) rfl rfl rfl

theorem Ready.package {phase : PackagePhase} (h : e.Ready (.package phase) stack ts t)
    (ht : t.kind.isTrivia = true → (State.package phase).trivia = .seen) :
    e.Answers (.package phase) stack t (Outline.package phase t)
      ((State.package phase).routine.action.run e) := by
  cases phase with
  | start =>
    exact h.keyword fun _ =>
      h.take rfl (.plain rfl rfl trivial h.label rfl trivial) rfl rfl rfl
  | afterKeyword =>
    refine h.inside rfl ht ?_
    rw [bind_current h.faces]
    refine .ite (fun _ => ?_) fun _ => .ite (fun hname => ?_) fun _ => h.refuse
    · rw [bind_classifyWord h.faces]
      exact h.take rfl (.plain rfl rfl trivial h.label rfl trivial) rfl rfl rfl
    · rw [bind_identifier h.faces (Token.settled_of_isName hname)]
      exact h.take rfl (.plain rfl rfl trivial h.label rfl trivial) rfl rfl rfl
  | afterName name =>
    exact h.inside rfl ht <| h.keyword fun _ =>
      h.take rfl (.plain rfl rfl rfl h.label rfl trivial) rfl rfl rfl
  | afterIs name =>
    refine h.apart rfl ht ?_
    rw [bind_current h.faces]
    exact .ite (fun _ => h.notImplemented) fun _ =>
      h.pass rfl (.plain rfl rfl h.needs h.label rfl trivial) rfl rfl rfl
  | bodyAfterKeyword =>
    exact h.inside rfl ht <| h.name fun _ =>
      h.take rfl (.plain rfl rfl trivial h.label rfl trivial) rfl rfl rfl
  | bodyAfterName name =>
    exact h.inside rfl ht <| h.keyword fun _ =>
      h.take rfl (.plain rfl rfl rfl h.label rfl trivial) rfl rfl rfl

/-! ## Subtypes -/

/-- The counter keeps the depth of parentheses. -/
theorem Ready.counter (h : e.Ready s stack ts t) {n : Nat} (hn : s.count? = some n) :
    e.counter.toInt = n :=
  h.here.suits.frame.counts n hn

theorem counter_eq_zero_iff {c : Int32} {n : Nat} (h : c.toInt = n) : c = 0 ↔ n = 0 := by
  rw [← Int32.toInt_inj, h]
  exact Int.natCast_eq_zero

theorem counter_pos_iff {c : Int32} {n : Nat} (h : c.toInt = n) : 0 < c ↔ 0 < n := by
  rw [Int32.lt_iff_toInt_lt, h]
  exact Int.natCast_pos

/-- The counter can be counted up. -/
theorem Ready.count_up (h : e.Ready s stack ts t) {n : Nat} (hn : s.count? = some n)
    (hlt : n + 1 < 2147483648) : ∃ c : Int32, c.toInt = (n + 1 : Nat) ∧
      (count 1).run e = .ok () { e with counter := c } := by
  have hc := h.counter hn
  obtain ⟨c, hadd, hv⟩ := Word.add32?_of_bounds (n := e.counter) (d := 1) (by omega) (by omega)
  refine ⟨c, by omega, ?_⟩
  rw [count, bind_get, run_bind_of_eq (run_demand hadd)]
  rfl

/-- The counter can be counted down from what is not zero. -/
theorem Ready.count_down (h : e.Ready s stack ts t) {n : Nat} (hn : s.count? = some n)
    (hpos : 0 < n) (hlt : n + 1 < 2147483648) : ∃ c : Int32, c.toInt = (n - 1 : Nat) ∧
      (count (-1)).run e = .ok () { e with counter := c } := by
  have hc := h.counter hn
  obtain ⟨c, hadd, hv⟩ := Word.add32?_of_bounds (n := e.counter) (d := -1) (by omega) (by omega)
  refine ⟨c, by omega, ?_⟩
  rw [count, bind_get, run_bind_of_eq (run_demand hadd)]
  rfl

/-- What the engine does with a token of a subtype is what the step says. -/
inductive ReadsSubtype (e : Engine) (t : Token) :
    Outline.SubtypeStep → EStateM.Result Stop Engine Bool → Prop
  | inside {depth : Nat} {c : Int32} (hc : c.toInt = depth) :
      ReadsSubtype e t (.inside depth)
        (.ok true { e.settled t with counter := c, content := true })
  | ended : ReadsSubtype e t .ended (.ok false e)
  | refused {c : Complaint} : ReadsSubtype e t (.refused c) (.error (.failed (.refused t c)) e)

theorem Ready.readsSubtype (h : e.Ready s stack ts t) (ht : t.kind.isTrivia = false) {depth : Nat}
    (hn : s.count? = some depth) (hlt : depth + 1 < 2147483648) :
    e.ReadsSubtype t (Outline.subtypeStep depth t) (subtypeIndication.run e) := by
  have hc := h.counter hn
  have hzero := counter_eq_zero_iff hc
  have hpos := counter_pos_iff hc
  have hself (hk : t.kind ≠ .word) := settled_self h.faces (Token.settled_of_ne_word hk)
  -- A symbol belongs to the subtype, and keeps its kind.
  have hpart {c : Int32} {d : Nat} (hv : c.toInt = d) (hk : t.kind ≠ .word) :
      e.ReadsSubtype t (.inside d) (subtypePart.run { e with counter := c }) := by
    have := ReadsSubtype.inside (e := e) (t := t) hv
    rwa [hself hk] at this
  rw [subtypeIndication, bind_absorbTrivia h.faces ht]
  simp only [Bool.false_eq_true, if_false]
  rw [bind_current h.faces, bind_get]
  unfold Outline.subtypeStep
  generalize hk : t.kind = kind at hself hpart
  split
  · exact run_refuse h.faces ["`;`"] ▸ .refused
  · obtain ⟨c, hv, hrun⟩ := h.count_up hn hlt
    change e.ReadsSubtype t _ ((count 1 >>= fun _ => subtypePart).run e)
    rw [run_bind_of_eq hrun]
    exact hpart hv (by simp)
  · simp only [hpos, hzero]
    by_cases h0 : depth = 0
    · simp only [h0, if_true, Nat.lt_irrefl, if_false]
      exact .ended
    · obtain ⟨c, hv, hrun⟩ := h.count_down hn (Nat.pos_of_ne_zero h0) hlt
      rw [if_neg h0, if_pos (Nat.pos_of_ne_zero h0), run_bind_of_eq hrun]
      exact hpart hv (by simp)
  · simp only [hzero]
    by_cases h0 : depth = 0
    · rw [if_pos h0, if_pos h0]
      exact .ended
    · rw [if_neg h0, if_neg h0, run_complain h.faces]
      exact .refused
  · simp only [hzero]
    by_cases h0 : depth = 0
    · rw [if_pos h0, if_pos h0]
      exact .ended
    · rw [if_neg h0, if_neg h0]
      exact hpart hc (by simp)
  · simp only [hzero]
    by_cases h0 : depth = 0 ∧ t.isKeyword .is
    · rw [if_pos h0, if_pos h0]
      exact .ended
    · rw [if_neg h0, if_neg h0, bind_classifyWord h.faces]
      exact .inside hc
  · rename_i hword
    repeat' split
    all_goals first | contradiction | exact hpart hc hword

/-- A routine that reads a subtype answers as the machine does, if it does so at the token after the
subtype. -/
theorem Ready.subtype (h : e.Ready s stack ts t) (hs : s.trivia = .inside)
    (ht : t.kind.isTrivia = true → s.trivia = .seen) {depth : Nat} (hn : s.count? = some depth)
    (hlt : depth + 1 < 2147483648) {inside : Nat → State}
    (hinside : ∀ (d : Nat) (c : Int32), c.toInt = d → e.Answers s stack t (.take (inside d))
      (.ok () { e.settled t with counter := c, content := true }))
    {o : Outcome} {rest : Action Unit} (hrest : e.Answers s stack t o (rest.run e)) :
    e.Answers s stack t
      (match Outline.subtypeStep depth t with
        | .inside d => .take (inside d)
        | .refused c => .error c
        | .ended => o)
      ((subtypeIndication >>= fun b => if b then pure () else rest).run e) := by
  have ht' : t.kind.isTrivia = false := by simpa [hs] using ht
  have hreads := h.readsSubtype ht' hn hlt
  rw [EStateM.run_bind]
  generalize subtypeIndication.run e = r at hreads
  generalize Outline.subtypeStep depth t = step at hreads
  cases hreads with
  | inside hc => exact hinside _ _ hc
  | ended => exact hrest
  | refused => exact .refuse rfl rfl

/-- Whether anything of the subtype or expression has been read is in a register. -/
theorem Ready.content (h : e.Ready s stack ts t) {b : Bool} (hb : s.begun? = some b) :
    e.content = b :=
  h.here.suits.begun b hb

/-! ## Procedures and functions -/

theorem run_declarationEnd (kind : BlockKind) : (declarationEnd kind).run e =
    (pop 1).run { e with desk := e.desk.emit kind, names := e.names.tail } := rfl

/-- A list of parameters is entered after the name of a subprogram. -/
theorem Ready.parameters (h : e.Ready s stack ts t) {resume : State} {r : Routine}
    {kind : BlockKind} (hr : r = resume.routine) (hcount : resume.count? = none)
    (hneeds : resume.Needs e.context) (hlabel : s.label? = none) (hbelow : resume.below = s.below) :
    e.Answers s stack t (.cutCall kind resume (.interface .parameter .start))
      ((emitBefore kind >>= fun _ => enterParameters r).run e) := by
  rw [bind_emitBefore]
  exact h.call rfl (.plain rfl rfl rfl (h.label.trans hlabel) rfl trivial)
    (f := ⟨r, e.counter, e.context⟩) ⟨hr, by simp [hcount], hneeds⟩ rfl rfl hbelow rfl

theorem Ready.procedure {phase : ProcedurePhase} (h : e.Ready (.procedure phase) stack ts t)
    (ht : t.kind.isTrivia = true → (State.procedure phase).trivia = .seen) :
    e.Answers (.procedure phase) stack t (Outline.procedure phase t)
      ((State.procedure phase).routine.action.run e) := by
  cases phase with
  | start =>
    exact h.keyword fun _ =>
      h.take rfl (.plain rfl rfl trivial h.label rfl trivial) rfl rfl rfl
  | name =>
    exact h.inside rfl ht <| h.name fun _ =>
      h.take rfl (.plain rfl rfl trivial h.label rfl trivial) rfl rfl rfl
  | afterName name =>
    refine h.inside rfl ht ?_
    rw [bind_current h.faces]
    refine .ite (fun _ => ?_) fun _ => .ite (fun _ => ?_) fun _ => .ite (fun hend => ?_) fun _ =>
      h.refuse
    · exact h.parameters rfl rfl trivial rfl rfl
    · rw [bind_classifyWord h.faces]
      exact h.take rfl (.plain rfl rfl rfl h.label rfl trivial) rfl rfl rfl
    · rw [bind_emitBefore, run_declarationEnd]
      exact h.takeReturn rfl rfl (h.faces.taking_eq _ _ (Token.settled_of_isChar hend)) rfl h.label
        rfl
  | afterParameters name =>
    refine h.inside rfl ht ?_
    rw [bind_current h.faces]
    refine .ite (fun _ => ?_) fun _ => .ite (fun hend => ?_) fun _ => h.refuse
    · rw [bind_classifyWord h.faces]
      exact h.take rfl (.plain rfl rfl rfl h.label rfl trivial) rfl rfl rfl
    · rw [run_declarationEnd]
      exact h.takeReturn rfl rfl (h.faces.taking_eq _ _ (Token.settled_of_isChar hend)) rfl h.label
        rfl

theorem run_functionStart (h : e.desk.Faces t) : functionStart.run e =
    (if t.isKeyword .pure || t.isKeyword .impure then do
      classifyWord
      goto .functionKeyword
    else if t.isKeyword .function then do
      classifyWord
      goto .functionName
    else refuse [Keyword.function.phrase, Keyword.pure.phrase, Keyword.impure.phrase]).run e := by
  rw [functionStart, bind_current h]
  unfold Token.isKeyword
  split
  · simp [*]
  · simp [*]
  · rename_i hk
    rw [functionKeyword, run_inside h (Token.isTrivia_of_keyword? hk),
      run_keyword h (by simp [Token.isKeyword, hk])]
    simp [hk, bind_classifyWord h]
  · rename_i hpure himpure hfunction
    rw [if_neg (by simpa using ⟨hpure, himpure⟩), if_neg (by simpa using hfunction)]

theorem Ready.function {phase : FunctionPhase} (h : e.Ready (.function phase) stack ts t)
    (ht : t.kind.isTrivia = true → (State.function phase).trivia = .seen) :
    e.Answers (.function phase) stack t (Outline.function phase t)
      ((State.function phase).routine.action.run e) := by
  cases phase with
  | start =>
    change e.Answers _ _ _ (if _ then _ else if _ then _ else _) (Action.functionStart.run e)
    rw [run_functionStart h.faces]
    refine .ite (fun _ => ?_) fun _ => .ite (fun _ => ?_) fun _ => h.refuse
    all_goals
      rw [bind_classifyWord h.faces]
      exact h.take rfl (.plain rfl rfl trivial h.label rfl trivial) rfl rfl rfl
  | keyword =>
    exact h.inside rfl ht <| h.keyword fun _ =>
      h.take rfl (.plain rfl rfl trivial h.label rfl trivial) rfl rfl rfl
  | name =>
    refine h.inside rfl ht ?_
    rw [bind_current h.faces]
    refine .ite (fun hname => ?_) fun _ => h.refuse
    have hset : t.kind = .word → t.settled = .identifier := by
      intro hw
      refine Token.settled_of_isName ?_ hw
      simpa [hw] using hname
    rw [bind_identifier h.faces hset]
    exact h.take rfl (.plain rfl rfl trivial h.label rfl trivial) rfl rfl rfl
  | afterName name =>
    refine h.inside rfl ht ?_
    rw [bind_current h.faces]
    refine .ite (fun _ => ?_) fun _ => .ite (fun hk => ?_) fun _ => h.refuse
    · exact h.parameters rfl rfl trivial rfl rfl
    · have hcut := h.faces.cut .functionName
      rw [bind_emitBefore, Action.functionAfterParameters,
        run_inside hcut (Token.isTrivia_of_isKeyword hk), run_keyword hcut hk]
      exact h.take rfl (.reading rfl rfl rfl trivial h.label rfl rfl trivial) rfl rfl rfl
  | afterParameters name =>
    exact h.inside rfl ht <| h.keyword fun _ =>
      h.take rfl (.reading rfl rfl rfl trivial h.label rfl rfl trivial) rfl rfl rfl
  | returnType name depth begun =>
    refine h.subtype rfl ht rfl h.depth_lt (fun d c hc => ?_) ?_
    · exact h.take rfl (.reading h.next rfl hc trivial h.label rfl rfl trivial) rfl rfl rfl
    · rw [bind_get, h.content rfl]
      cases begun with
      | false => exact h.refuse
      | true =>
        change e.Answers _ _ _ (if t.isKeyword .is then _ else _) ((current >>= _).run e)
        rw [bind_current h.faces]
        refine .ite (fun _ => ?_) fun _ => .ite (fun hend => ?_) fun _ => h.refuse
        · rw [bind_classifyWord h.faces]
          exact h.take rfl (.plain rfl rfl rfl h.label rfl trivial) rfl rfl rfl
        · rw [bind_emitBefore, run_declarationEnd]
          exact h.takeReturn rfl rfl (h.faces.taking_eq _ _ (Token.settled_of_isChar hend)) rfl
            h.label rfl

end Engine

end VhdlOutline
