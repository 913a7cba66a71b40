import VhdlOutline.Proofs.Outline.Abreast
import VhdlOutline.Proofs.Outline.Reclassification

/-!
# Reading the tokens of an outline again

The tokens of an outline have been settled as keywords, identifiers and operators. A state treats
such a token like the one it has been before, with one exception: the return type of a function ends
at the word `is`, but not at the keyword that it has become.

* `State.react_again`: the same reaction to a settled token.
* `outline_again_iff`: the outline of the tokens of an outline is that outline, just if it has no
  function with a body.
-/

namespace VhdlOutline

/-! ## What does not change when a token is settled -/

namespace Token

variable {t t' : Token}

theorem Settles.first (h : t.Settles t') : t'.first = t.first := by
  obtain ⟨_, rfl, -⟩ := h
  rfl

/-- A settled token has the kind it had, or a word has become a keyword or an identifier, or a
symbol an operator. -/
theorem Settles.mayBecome (h : t.Settles t') : t.MayBecome t'.kind := h.reclassifies.2

theorem Settles.keyword? (h : t.Settles t') : t'.keyword? = t.keyword? := by
  have htext := h.text
  have hb := h.mayBecome
  unfold Token.keyword?
  rw [htext]
  generalize t'.kind = k at hb
  cases hb <;> simp [*]

theorem Settles.isKeyword (h : t.Settles t') (k : Keyword) : t'.isKeyword k = t.isKeyword k := by
  simp only [Token.isKeyword, h.keyword?]

theorem Settles.isName (h : t.Settles t') : t'.isName = t.isName := by
  have htext := h.text
  have hb := h.mayBecome
  unfold Token.isName
  rw [htext]
  generalize t'.kind = k at hb
  cases hb <;> simp [*]

/-- A character that is no operator stays what it is. -/
theorem Settles.isCharacter_iff (h : t.Settles t') {c : Char} (hc : Operator.ofChar? c = none) :
    t'.kind = .character c ↔ t.kind = .character c := by
  have hb := h.mayBecome
  generalize t'.kind = k at hb
  cases hb with
  | same => exact .rfl
  | @ofChar c' o hk ho =>
    simp only [hk, reduceCtorEq, TokenKind.character.injEq, false_iff]
    rintro rfl
    simp [hc] at ho
  | _ => simp [*]

theorem Settles.isCompound_iff (h : t.Settles t') {s : Compound}
    (hs : Operator.ofCompound? s = none) : t'.kind = .compound s ↔ t.kind = .compound s := by
  have hb := h.mayBecome
  generalize t'.kind = k at hb
  cases hb with
  | same => exact .rfl
  | @ofCompound s' o hk ho =>
    simp only [hk, reduceCtorEq, TokenKind.compound.injEq, false_iff]
    rintro rfl
    simp [hs] at ho
  | _ => simp [*]

theorem Settles.isStringLiteral_iff (h : t.Settles t') :
    t'.kind = .stringLiteral ↔ t.kind = .stringLiteral := by
  have := h.kind_iff (decide <| · = .stringLiteral) (by simp) (by simp) (by simp) (by simp)
    (by simp) (by simp)
  simpa using this

theorem Settles.isChar (h : t.Settles t') {c : Char} (hc : Operator.ofChar? c = none) :
    t'.isChar c = t.isChar c := by
  simp only [Token.isChar, h.isCharacter_iff hc]

theorem Settles.isCompound (h : t.Settles t') {s : Compound} (hs : Operator.ofCompound? s = none) :
    t'.isCompound s = t.isCompound s := by
  simp only [Token.isCompound, h.isCompound_iff hs]

end Token

/-! ## Reactions to a settled token -/

namespace Outline

/-- The move at the end of a return type, where the body of the function begins. -/
def functionBody (name : String) : Move :=
  .take none (some .functionReturnType) (.goto (.declarations ⟨.function, some name⟩))

variable {t t' : Token}

/-- In a subtype, a settled token means what it has meant before, unless it is the word `is`. -/
theorem subtypeStep_again (h : t.Settles t') {depth : Nat}
    (hw : depth = 0 → ¬ (t.kind = .word ∧ t.isKeyword .is)) :
    subtypeStep depth t' = subtypeStep depth t := by
  have hkey := h.isKeyword .is
  have hb := h.mayBecome
  unfold subtypeStep
  rw [hkey]
  generalize t'.kind = k at hb
  cases hb with
  | same => rfl
  | keyword hk hf =>
    simp only [hk]
    rw [if_neg]
    exact fun hc => hw hc.1 ⟨hk, hc.2⟩
  | identifier hk hf =>
    simp only [hk]
    rw [if_neg]
    exact fun hc => hw hc.1 ⟨hk, hc.2⟩
  | @ofChar c o hk ho =>
    simp only [hk]
    split <;> simp_all [Operator.ofChar?]
  | @ofCompound s o hk ho =>
    simp only [hk]
    split <;> simp_all [Operator.ofCompound?]

theorem endsExpression_again (h : t.Settles t') (x : Expression) :
    endsExpression x t' = endsExpression x t := by
  have hkey := h.keyword?
  have hb := h.mayBecome
  unfold endsExpression
  rw [hkey]
  generalize t'.kind = k at hb
  cases hb with
  | same => rfl
  | keyword hk hf => simp only [hk]
  | identifier hk hf => simp only [hk]
  | @ofChar c o hk ho =>
    -- No expression ends at an operator.
    have hnone : t.keyword? = none := by simp [Token.keyword?, hk]
    have hc : c ∉ x.closers := by
      intro hc
      have : c = ';' ∨ c = ')' := by cases x <;> simp_all [Expression.closers]
      rcases this with rfl | rfl <;> cases ho
    simp [hk, hnone, hc]
  | @ofCompound s o hk ho => simp only [hk]

theorem expressionToken_again (h : t.Settles t') (x : Expression) (depth : Nat) :
    expressionToken x depth t' = expressionToken x depth t := by
  have hb := h.mayBecome
  unfold expressionToken
  generalize t'.kind = k at hb
  cases hb with
  | same => rfl
  | keyword hk hf => simp only [hk]
  | identifier hk hf => simp only [hk]
  | @ofChar c o hk ho =>
    simp only [hk]
    split <;> simp_all [Operator.ofChar?]
  | @ofCompound s o hk ho =>
    simp only [hk]
    split <;> simp_all [Operator.ofCompound?]

/-- In a sensitivity list only parentheses and semicolons count. -/
theorem process_again (h : t.Settles t') (label : Option String) (phase : ProcessPhase) :
    process label phase t' = process label phase t := by
  have hopen : t'.isChar '(' = t.isChar '(' := h.isChar rfl
  cases phase with
  | sensitivity depth =>
    have hb := h.mayBecome
    unfold process
    generalize t'.kind = k at hb
    cases hb with
    | same => rfl
    | keyword hk hf => simp only [hk]
    | identifier hk hf => simp only [hk]
    | @ofChar c o hk ho =>
      simp only [hk]
      split <;> simp_all [Operator.ofChar?]
    | @ofCompound s o hk ho => simp only [hk]
  | _ => simp only [process, processAfterSensitivity, h.isKeyword, hopen]

/-- A target may end at `<=`, which it leaves as it is, and at words that are not supported. -/
theorem targetRest_again (hk : t'.kind = t.settled) {part : Part} {label : Option String}
    {depth : Nat} {r : Reaction} (hr : targetRest part label depth t = .ok r) :
    targetRest part label depth t' = .ok r := by
  have hkind : t.kind = .word ∨ t.settled = t.kind := by
    unfold Token.settled
    split
    · exact .inl ‹_›
    · exact .inr rfl
  unfold targetRest at hr ⊢
  rw [hk]
  rcases hkind with hw | hsame
  · simp only [hw] at hr
    simp only [Token.settled, hw]
    split at hr
    · cases hr
    · cases Keyword.find? t.text <;> exact hr
  · have hw := t.settled_ne_word
    rw [hsame]
    split <;> simp_all

theorem isEndName_again (h : t.Settles t') : isEndName t' = isEndName t := by
  unfold isEndName
  rw [h.isName]
  congr 1
  exact decide_eq_decide.2 h.isStringLiteral_iff

theorem object_again (h : t.Settles t') {o : ObjectClass} {phase : ObjectPhase} {r : Reaction}
    (hr : object o phase t = .ok r) : object o phase t' = .ok r := by
  have hsemicolon : t'.isChar ';' = t.isChar ';' := h.isChar rfl
  have hcomma : t'.isChar ',' = t.isChar ',' := h.isChar rfl
  have hcolon : t'.isChar ':' = t.isChar ':' := h.isChar rfl
  have hassign : t'.isCompound .varAssign = t.isCompound .varAssign := h.isCompound rfl
  rw [← hr]
  cases phase with
  | subtype depth begun =>
    have hw : depth = 0 → ¬ (t.kind = .word ∧ t.isKeyword .is) := by
      rintro rfl ⟨hk, his⟩
      simp only [object, subtypeStep, hk, his] at hr
      cases begun <;> simp [Token.isChar, Token.isCompound, hk, Outcome.expected] at hr
    simp only [object, subtypeStep_again h hw, hsemicolon, hassign]
  | names complete => cases complete <;> simp only [object, h.isName, hcomma, hcolon]
  | _ => simp only [object, h.isKeyword, hsemicolon]

theorem interface_again (h : t.Settles t') {l : InterfaceList} {phase : InterfacePhase}
    {r : Reaction} (hr : interface l phase t = .ok r) : interface l phase t' = .ok r := by
  have hsemicolon : t'.isChar ';' = t.isChar ';' := h.isChar rfl
  have hcomma : t'.isChar ',' = t.isChar ',' := h.isChar rfl
  have hcolon : t'.isChar ':' = t.isChar ':' := h.isChar rfl
  have hopen : t'.isChar '(' = t.isChar '(' := h.isChar rfl
  have hclose : t'.isChar ')' = t.isChar ')' := h.isChar rfl
  have hassign : t'.isCompound .varAssign = t.isCompound .varAssign := h.isCompound rfl
  rw [← hr]
  cases phase with
  | subtype depth begun =>
    have hw : depth = 0 → ¬ (t.kind = .word ∧ t.isKeyword .is) := by
      rintro rfl ⟨hk, his⟩
      simp only [interface, subtypeStep, hk, his] at hr
      cases begun <;> simp [Token.isChar, Token.isCompound, hk, Outcome.expected] at hr
    simp only [interface, subtypeStep_again h hw, hsemicolon, hclose, hassign]
  | names complete => cases complete <;> simp only [interface, h.isName, hcomma, hcolon]
  | _ =>
    simp only [interface, itemStart, h.isKeyword, h.isName, h.keyword?, hsemicolon, hopen, hclose]

/-- The word `is` ends a return type, unless it stands in parentheses. -/
theorem function_is {name : String} {begun : Bool} {r : Reaction} (hk : t.kind = .word)
    (his : t.isKeyword .is = true) (hr : function (.returnType name 0 begun) t = .ok r) :
    r.move = functionBody name := by
  simp only [function, subtypeStep, hk, his] at hr
  cases begun
  · simp [Outcome.expected] at hr
  · simp only [Outcome.close] at hr
    cases hr
    rfl

theorem function_again (h : t.Settles t') {phase : FunctionPhase} {r : Reaction}
    (hr : function phase t = .ok r) (hmove : ∀ name, r.move ≠ functionBody name) :
    function phase t' = .ok r := by
  have hsemicolon : t'.isChar ';' = t.isChar ';' := h.isChar rfl
  have hopen : t'.isChar '(' = t.isChar '(' := h.isChar rfl
  have hstring : decide (t'.kind = .stringLiteral) = decide (t.kind = .stringLiteral) :=
    decide_eq_decide.2 h.isStringLiteral_iff
  cases phase with
  | returnType name depth begun =>
    have hw : depth = 0 → ¬ (t.kind = .word ∧ t.isKeyword .is) := by
      rintro rfl ⟨hk, his⟩
      exact hmove name (function_is hk his hr)
    rw [← hr]
    simp only [function, subtypeStep_again h hw, hsemicolon, h.isKeyword]
  | _ =>
    rw [← hr]
    simp only [function, h.isKeyword, h.isName, h.text, hopen, hstring]

theorem end_again (h : t.Settles t') (scope : Scope) (phase : EndPhase) (i : Nat) :
    end_ scope phase i t' = end_ scope phase i t := by
  have hsemicolon : t'.isChar ';' = t.isChar ';' := h.isChar rfl
  have hname := isEndName_again h
  simp only [end_, endName, h.isKeyword, h.text, h.first, hname, hsemicolon]

end Outline

/-- Nothing but the word `is` begins the body of a function. -/
theorem State.word_of_functionBody {s : State} {i : Nat} {t : Token} {r : Reaction} {name : String}
    (hr : s.react i t = .ok r) (hmove : r.move = Outline.functionBody name) :
    t.kind = .word ∧ t.isKeyword .is = true := by
  have hallows := allows_of_react hr
  rw [hmove] at hallows
  generalize hbody : Outline.functionBody name = move at hallows
  cases hallows with
  | @functionTypeIs _ _ depth his =>
    refine ⟨?_, his⟩
    have hended : Outline.subtypeStep depth t = .ended := by
      simp only [State.react, Outline.function] at hr
      cases hstep : Outline.subtypeStep depth t with
      | ended => rfl
      | inside depth' =>
        simp only [hstep, Outcome.take] at hr
        cases hr
        cases hmove
      | refused c =>
        simp only [hstep] at hr
        cases hr
    have hkey := of_decide_eq_true his
    unfold Token.keyword? at hkey
    split at hkey
    · simp_all [Outline.subtypeStep]
    · assumption
    · cases hkey
  | _ => simp [Outline.functionBody] at hbody

/-- **A settled token is treated like the one it has been**, as long as a target does not take it
for an operator and the return type of a function does not end at it. -/
theorem State.react_again {s : State} {i : Nat} {t t' : Token} {r : Reaction} (h : t.Settles t')
    (hr : s.react i t = .ok r)
    (htarget : ∀ part label depth, s = .target part label (.rest depth) → t'.kind = t.settled)
    (hmove : ∀ name, r.move ≠ Outline.functionBody name) : s.react i t' = .ok r := by
  have hsemicolon : t'.isChar ';' = t.isChar ';' := h.isChar rfl
  have hcomma : t'.isChar ',' = t.isChar ',' := h.isChar rfl
  have hcolon : t'.isChar ':' = t.isChar ':' := h.isChar rfl
  have hdot : t'.isChar '.' = t.isChar '.' := h.isChar rfl
  have hopen : t'.isChar '(' = t.isChar '(' := h.isChar rfl
  cases s with
  | function phase => exact Outline.function_again h hr hmove
  | object o phase => exact Outline.object_again h hr
  | interface l phase => exact Outline.interface_again h hr
  | process label phase => exact (Outline.process_again h label phase).trans hr
  | end_ scope phase => exact (Outline.end_again h scope phase i).trans hr
  | target part label phase =>
    cases phase with
    | rest depth => exact Outline.targetRest_again (htarget _ _ _ rfl) hr
    | _ =>
      rw [← hr]
      simp only [State.react, Outline.target, h.isName, h.text, hcolon]
  | documentStart | documentRegion =>
    rw [← hr]
    simp only [State.react, Outline.documentStart, Outline.documentRegion, h.isStart, h.isEnd,
      h.keyword?]
  | reference | entity | architecture | package | procedure =>
    rw [← hr]
    simp only [State.react, Outline.reference, Outline.entity, Outline.architecture,
      Outline.package, Outline.procedure, h.isKeyword, h.isName, h.text, hsemicolon, hcomma, hdot,
      hopen]
  | declarations scope =>
    rw [← hr]
    simp only [State.react, Outline.declarations, h.keyword?]
  | statements part label =>
    rw [← hr]
    cases part <;>
      simp only [State.react, Outline.concurrent, Outline.sequential, h.keyword?, h.isName]
  | expression x depth begun =>
    rw [← hr]
    simp only [State.react, Outline.expression, Outline.endsExpression_again h,
      Outline.expressionToken_again h]
  | simple | assignment =>
    rw [← hr]
    simp only [State.react, Outline.simple, Outline.simpleAfterKeyword, Outline.assignment,
      h.isKeyword, h.isName, hsemicolon]
  | assertion | report =>
    rw [← hr]
    simp only [State.react, Outline.assertion, Outline.assertAfterMessage, Outline.assertEnd,
      Outline.report, Outline.reportEnd, h.isKeyword, hsemicolon]
  | ifStatement | loop =>
    rw [← hr]
    simp only [State.react, Outline.ifStatement, Outline.loop, Outline.loopBody, h.isKeyword,
      h.isName]

namespace Token

theorem settled_settled (t : Token) :
    ({ t with kind := t.settled } : Token).settled = t.settled := by
  have hw := t.settled_ne_word
  generalize t.settled = k at hw
  cases k <;> first | rfl | exact absurd rfl hw

theorem settledInExpression_settledInExpression (t : Token) :
    ({ t with kind := t.settledInExpression } : Token).settledInExpression =
      t.settledInExpression := by
  have hb := t.mayBecome_settledInExpression
  have hw := t.settledInExpression_ne_word
  generalize hk : t.settledInExpression = k at hb hw
  cases hb with
  | same => exact hk
  | _ => rfl

end Token

/-- A token that has been taken would be taken with the same kind again. -/
theorem State.reading_again (s : State) (t : Token) :
    s.reading { t with kind := s.reading t } = s.reading t := by
  cases s with
  | expression => exact t.settledInExpression_settledInExpression
  | declarations => rfl
  | _ => exact t.settled_settled

end VhdlOutline
