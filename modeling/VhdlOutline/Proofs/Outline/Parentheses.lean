import Mathlib.Algebra.GroupWithZero.Nat
import VhdlOutline.Proofs.Outline.Settlement

/-!
# Parentheses

Expressions, subtypes, targets and sensitivity lists count parentheses, each in its own state, and
an interface list has one open from its first item to its end. `State.parens` is what a state and
`Control.parens` what all states on the stack have open. Every token that is taken changes it by
just what the token opens or closes (`State.Allows.parens_take`), and handing a token on leaves it
as it is (`State.Allows.parens_pass`). So the tokens of an outline are balanced, and a semicolon
stands outside parentheses unless it delimits the items of an interface list.
-/

namespace VhdlOutline

/-- The depth of parentheses after the tokens: how many more open than close. -/
def parenDepth (ts : List Token) : Int :=
  ts.countP (·.isChar '(') - ts.countP (·.isChar ')')

theorem parenDepth_append (us vs : List Token) :
    parenDepth (us ++ vs) = parenDepth us + parenDepth vs := by
  simp only [parenDepth, List.countP_append]
  omega

theorem parenDepth_of_isChar {t : Token} {c : Char} (h : t.isChar c) :
    parenDepth [t] = if c = '(' then 1 else if c = ')' then -1 else 0 := by
  have hk : t.kind = .character c := of_decide_eq_true h
  by_cases ho : c = '('
  · simp [parenDepth, Token.isChar, hk, ho]
  · by_cases hc : c = ')' <;> simp [parenDepth, Token.isChar, hk, ho, hc]

theorem parenDepth_eq_zero {t : Token} (h : ∀ c, t.kind ≠ .character c) : parenDepth [t] = 0 := by
  simp [parenDepth, Token.isChar, h]

theorem parenDepth_of_isTrivia {t : Token} (h : t.kind.isTrivia = true) : parenDepth [t] = 0 := by
  apply parenDepth_eq_zero
  intro c hc
  rw [hc] at h
  cases h

theorem parenDepth_of_keyword? {t : Token} {k : Keyword} (h : t.keyword? = some k) :
    parenDepth [t] = 0 := by
  apply parenDepth_eq_zero
  intro c hc
  simp [Token.keyword?, hc] at h

theorem parenDepth_of_isKeyword {t : Token} {k : Keyword} (h : t.isKeyword k) :
    parenDepth [t] = 0 :=
  parenDepth_of_keyword? (of_decide_eq_true h)

theorem parenDepth_of_any {t : Token} {p : Keyword → Bool} (h : t.keyword?.any p = true) :
    parenDepth [t] = 0 := by
  obtain ⟨k, hk, -⟩ := (Option.any_eq_true _ _).1 h
  exact parenDepth_of_keyword? hk

theorem parenDepth_of_isName {t : Token} (h : t.isName) : parenDepth [t] = 0 := by
  apply parenDepth_eq_zero
  intro c hc
  simp [Token.isName, hc] at h

theorem parenDepth_of_isCompound {t : Token} {s : Compound} (h : t.isCompound s) :
    parenDepth [t] = 0 := by
  apply parenDepth_eq_zero
  intro c hc
  simp [Token.isCompound, hc] at h

/-! ## Open parentheses of a state -/

/-- The number of parentheses that a state has open. -/
def State.parens : State → Nat
  | .interface _ (.subtype depth _) => depth + 1
  | .interface _ .start | .interface _ .open_ | .interface _ .closeSemicolon => 0
  | .interface .. => 1
  | s => s.depth

/-- The number of parentheses that the states a move leads to have open. -/
def Next.parens : Next → Nat
  | .goto s => s.parens
  | .call resume sub => resume.parens + sub.parens
  | .return_ => 0

/-- The number of parentheses that are open. -/
def Control.parens (c : Control) : Nat := ((c.state :: c.stack).map State.parens).sum

theorem Control.parens_follow {c c' : Control} {next : Next} (h : c.follow next = .ok c') :
    c'.parens + c.state.parens = c.parens + next.parens := by
  obtain ⟨s, aside, stack⟩ := c
  cases next with
  | goto s' =>
    cases h
    simp [parens, Next.parens]
    omega
  | call resume sub =>
    cases h
    simp [parens, Next.parens]
    omega
  | return_ =>
    cases stack with
    | nil => cases h
    | cons s' stack =>
      cases h
      simp [parens, Next.parens]
      omega

namespace State

/-- The states that read a subtype. -/
def isSubtype : State → Bool
  | .function (.returnType ..) | .object _ (.subtype ..) | .interface _ (.subtype ..) => true
  | _ => false

/-! ### What a token does to the depth -/

theorem depth_of_subtypeStep {depth depth' : Nat} {t : Token}
    (h : Outline.subtypeStep depth t = .inside depth') :
    (depth' : Int) = depth + parenDepth [t] ∧ t.isChar ';' = false := by
  unfold Outline.subtypeStep at h
  split at h
  all_goals try split at h
  all_goals cases h
  all_goals simp_all [parenDepth, Token.isChar]
  all_goals omega

/-- A subtype ends outside parentheses. -/
theorem depth_of_subtypeStep_ended {depth : Nat} {t : Token}
    (h : Outline.subtypeStep depth t = .ended) : depth = 0 := by
  unfold Outline.subtypeStep at h
  split at h
  all_goals try split at h
  all_goals cases h
  all_goals omega

theorem depth_of_expressionToken {x : Expression} {depth depth' : Nat} {t : Token}
    (h : Outline.expressionToken x depth t = .take (.expression x depth' true)) :
    (depth' : Int) = depth + parenDepth [t] ∧ t.isChar ';' = false := by
  unfold Outline.expressionToken at h
  split at h
  all_goals try split at h
  all_goals cases h
  all_goals simp_all [parenDepth, Token.isChar]
  all_goals omega

theorem depth_of_targetRest {part : Part} {label : Option String} {depth depth' : Nat} {t : Token}
    (h : Outline.targetRest part label depth t = .take (.target part label (.rest depth'))) :
    (depth' : Int) = depth + parenDepth [t] ∧ t.isChar ';' = false := by
  unfold Outline.targetRest at h
  split at h
  all_goals try split at h
  all_goals cases h
  all_goals simp_all [parenDepth, Token.isChar]
  all_goals omega

theorem depth_of_process {label : Option String} {depth depth' : Nat} {t : Token}
    (h : Outline.process label (.sensitivity depth) t =
      .take (.process label (.sensitivity depth'))) (hd : 0 < depth) :
    (depth' : Int) = depth + parenDepth [t] ∧ t.isChar ';' = false := by
  simp only [Outline.process] at h
  split at h
  all_goals try split at h
  all_goals cases h
  all_goals simp_all [parenDepth, Token.isChar]
  all_goals omega

/-- A block that ends in a subtype ends outside parentheses. -/
theorem depth_eq_zero_of_react {s : State} {i : Nat} {t : Token} {r : Reaction}
    (h : s.react i t = .ok r) (hs : s.isSubtype = true) (hk : r.move.kinds ≠ []) :
    s.depth = 0 := by
  cases s with
  | function phase =>
    cases phase with
    | returnType name depth begun =>
      simp only [react, Outline.function] at h
      split at h
      · cases h
        exact absurd rfl hk
      · cases h
      · exact depth_of_subtypeStep_ended ‹_›
    | _ => cases hs
  | object o phase =>
    cases phase with
    | subtype depth begun =>
      simp only [react, Outline.object] at h
      split at h
      · cases h
        exact absurd rfl hk
      · cases h
      · exact depth_of_subtypeStep_ended ‹_›
    | _ => cases hs
  | interface l phase =>
    cases phase with
    | subtype depth begun =>
      simp only [react, Outline.interface] at h
      split at h
      · cases h
        exact absurd rfl hk
      · cases h
      · exact depth_of_subtypeStep_ended ‹_›
    | _ => cases hs
  | _ => cases hs

/-- A token that is taken changes the number of open parentheses by what it opens or closes. -/
theorem Allows.parens_take {s : State} {t : Token} {before closing : Option BlockKind}
    {next : Next} (h : s.Allows t (.take before closing next)) (hg : s.isGrounded = true)
    (hz : s.isSubtype = true → (Move.take before closing next).kinds ≠ [] → s.depth = 0) :
    (next.parens : Int) = s.parens + parenDepth [t] := by
  cases h with
  | documentStart h | targetAssign _ h =>
    simp [Next.parens, parens, depth, parenDepth_eq_zero (t := t) (by rintro c hc; simp [hc] at h)]
  | functionType h => exact (depth_of_subtypeStep h).1
  | objectType h => exact (depth_of_subtypeStep h).1
  | interfaceSubtype h =>
    have := (depth_of_subtypeStep h).1
    simp only [Next.parens, parens]
    omega
  | expressionToken h => exact (depth_of_expressionToken h).1
  | targetToken h => exact (depth_of_targetRest h).1
  | processToken h => exact (depth_of_process h (of_decide_eq_true hg)).1
  | functionTypeIs h | functionTypeDeclared h | objectTypeEnd h | objectAssign h
  | interfaceDelimiter h | interfaceClose _ h | interfaceReturn _ h | interfaceAssign h =>
    -- The block ends here, so that no parenthesis of the subtype is open.
    obtain rfl := hz rfl (by simp [Move.kinds])
    first
    | simp [Next.parens, parens, depth, parenDepth_of_isKeyword h]
    | simp [Next.parens, parens, depth, parenDepth_of_isChar h]
    | simp [Next.parens, parens, depth, parenDepth_of_isCompound h]
  | referencePart h | functionPurity h | functionName h | endName _ h | loopDirection h =>
    have hne : ∀ c, t.kind ≠ .character c := by
      intro c hc
      simp [Token.isName, Token.isKeyword, Token.keyword?, Outline.isEndName, hc] at h
    simp [Next.parens, parens, depth, parenDepth_eq_zero hne]
  | referenceDot h =>
    have h := (Bool.and_eq_true_iff.1 h).2
    simp [Next.parens, parens, depth, parenDepth_of_isChar h]
  | targetCall h | processClose h =>
    simp [Next.parens, parens, depth, parenDepth_of_isChar (decide_eq_true h)]
  | @objectKeyword _ o h => cases o <;> simp [Next.parens, parens, depth, parenDepth_of_isKeyword h]
  | processIs hp h =>
    rcases hp with rfl | rfl <;>
      simp [Next.parens, parens, depth, parenDepth_of_isKeyword h]
  | _ =>
    first
    | simp [Next.parens, parens, depth, parenDepth_of_isKeyword ‹_›, Outline.thenBranch]
    | simp [Next.parens, parens, depth, parenDepth_of_keyword? ‹_›]
    | simp [Next.parens, parens, depth, parenDepth_of_isName ‹_›]
    | simp [Next.parens, parens, depth, parenDepth_of_isChar ‹_›]
    | simp [Next.parens, parens, parenDepth_of_any ‹_›]

/-- Handing a token on leaves the number of open parentheses as it is. -/
theorem Allows.parens_pass {s : State} {t : Token} {before : Option BlockKind} {next : Next}
    (h : s.Allows t (.pass before next)) : next.parens = s.parens := by
  cases h with
  | declaration _ _ hs =>
    unfold Outline.declarationState? at hs
    split at hs <;> cases hs <;> rfl
  | processDeclarations hp => rcases hp with rfl | rfl <;> rfl
  | _ => rfl

/-! ### Semicolons -/

/-- A semicolon is taken where no parenthesis is open, or between the items of an interface list,
whose parenthesis is open. -/
theorem Allows.parens_of_semicolon {s : State} {t : Token} {before closing : Option BlockKind}
    {next : Next} (h : s.Allows t (.take before closing next)) (ht : t.isChar ';' = true)
    (hg : s.isGrounded = true)
    (hz : s.isSubtype = true → (Move.take before closing next).kinds ≠ [] → s.depth = 0) :
    s.isExpression = false ∧
      (s.parens = 0 ∨ s.parens = 1 ∧ ∃ l : InterfaceList, closing = some l.delimiterKind) := by
  have hk : t.kind = .character ';' := of_decide_eq_true ht
  cases h with
  | functionType h | objectType h | interfaceSubtype h =>
    exact absurd ht (by simp [(depth_of_subtypeStep h).2])
  | expressionToken h => exact absurd ht (by simp [(depth_of_expressionToken h).2])
  | targetToken h => exact absurd ht (by simp [(depth_of_targetRest h).2])
  | processToken h =>
    exact absurd ht (by simp [(depth_of_process h (of_decide_eq_true hg)).2])
  | functionTypeDeclared h | objectTypeEnd h | interfaceDelimiter h =>
    obtain rfl := hz rfl (by simp [Move.kinds])
    simp [parens, depth, isExpression]
  | defaultDelimiter h | typeDelimiter h => exact ⟨rfl, .inr ⟨rfl, _, rfl⟩⟩
  | processIs hp => rcases hp with rfl | rfl <;> exact ⟨rfl, .inl rfl⟩
  | _ =>
    -- Elsewhere in an interface list or a sensitivity list the token is no semicolon.
    first
    | exact ⟨rfl, .inl rfl⟩
    | simp_all [Token.isChar, Token.isName, Token.isKeyword, Token.isCompound, Token.keyword?]

/-- No parenthesis is open in the states to be resumed, unless an expression is read. -/
theorem Frames.parens_eq_zero {stack : List State} (h : Frames stack) :
    (stack.map parens).sum = 0 := by
  induction h with
  | base => rfl
  | @cons s stack hs _ ih =>
    have : s.parens = 0 := by
      unfold isFrame at hs
      split at hs <;> first | rfl | cases hs
    simp [this, ih]

theorem Fits.parens_eq {c : Control} (h : Fits c.state c.stack)
    (hx : c.state.isExpression = false) : c.parens = c.state.parens := by
  obtain ⟨s, aside, stack⟩ := c
  cases h with
  | outer => simp [Control.parens]
  | inner _ _ hs => simp [Control.parens, hs.parens_eq_zero]
  | expression => cases hx

end State

/-! ## Runs -/

/-- Settling a token leaves characters alone that are no operators. -/
theorem Token.Settles.isChar_eq {t t' : Token} (h : t.Settles t') {c : Char}
    (hc : Operator.ofChar? c = none) : t'.isChar c = t.isChar c := by
  refine decide_eq_decide.2 ?_
  obtain ⟨kind, rfl, rfl | rfl | rfl⟩ := h
  · rfl
  · show t.settled = _ ↔ _
    unfold settled
    split
    · split <;> simp [*]
    · rfl
  · show t.settledInExpression = _ ↔ _
    unfold settledInExpression settled
    split
    · rename_i d hk
      cases ho : Operator.ofChar? d with
      | none => simp [hk]
      | some o =>
        have : d ≠ c := by
          rintro rfl
          rw [hc] at ho
          cases ho
        simp [hk, this]
    · rename_i s hk
      cases Operator.ofCompound? s <;> simp [hk]
    · split
      · split <;> simp [*]
      · rfl

theorem Token.Settles.parenDepth_eq {t t' : Token} (h : t.Settles t') :
    parenDepth [t'] = parenDepth [t] := by
  simp only [parenDepth, List.countP_singleton, h.isChar_eq (c := '(') rfl,
    h.isChar_eq (c := ')') rfl]

/-- The kinds of the semicolons between the items of interface lists. -/
def listDelimiters : List BlockKind :=
  [.genericListDelimiter, .portListDelimiter, .parameterListDelimiter]

/-- Token number `i` stands outside parentheses, or just inside the parentheses of an interface
list, in one of the blocks `bs` that delimits its items. -/
def StandsFree (ts : List Token) (bs : List Block) (i : Nat) : Prop :=
  parenDepth (ts.take i) = 0 ∨
    parenDepth (ts.take i) = 1 ∧
      ∃ b ∈ bs, b.kind ∈ listDelimiters ∧ b.first ≤ i ∧ i ≤ b.last

namespace Machine

variable {m m' : Machine} {ts : List Token} {t t' : Token} {cs : List Completion}

/-- What is open after the tokens `ts` is what the states have open, and every semicolon among them
stands free. -/
structure Balanced (m : Machine) (ts : List Token) : Prop where
  depth : parenDepth ts = m.control.parens
  nonneg : ∀ n, 0 ≤ parenDepth (ts.take n)
  semicolon : ∀ i t, ts[i]? = some t → t.isChar ';' = true →
    StandsFree ts m.sheet.blocks.toList i

theorem balanced_start (options : Options) : ({ options } : Machine).Balanced [] where
  depth := rfl
  nonneg n := by simp [parenDepth]
  semicolon := by simp

/-- Reading one more token. -/
theorem Balanced.append (h : m.Balanced ts)
    (hd : (m'.control.parens : Int) = m.control.parens + parenDepth [t'])
    (hb : m.sheet.blocks.toList ⊆ m'.sheet.blocks.toList)
    (hs : t'.isChar ';' = true → StandsFree ts m'.sheet.blocks.toList ts.length) :
    m'.Balanced (ts ++ [t']) := by
  have hdepth : parenDepth (ts ++ [t']) = m'.control.parens := by
    rw [parenDepth_append, h.depth, hd]
  have htake : ∀ {i}, i ≤ ts.length → (ts ++ [t']).take i = ts.take i := fun hi =>
    List.take_append_of_le_length hi
  refine ⟨hdepth, fun n => ?_, fun i u hu hc => ?_⟩
  · by_cases hn : n ≤ ts.length
    · rw [htake hn]
      exact h.nonneg n
    · rw [List.take_of_length_le (by simp; omega), hdepth]
      omega
  · have hi : i ≤ ts.length := by
      have := (List.getElem?_eq_some_iff.1 hu).1
      simp at this
      omega
    rw [StandsFree, htake hi]
    rcases Nat.lt_or_eq_of_le hi with hlt | rfl
    · rw [List.getElem?_append_left hlt] at hu
      rcases h.semicolon i u hu hc with hz | ⟨ho, b, hmem, hbi⟩
      · exact .inl hz
      · exact .inr ⟨ho, b, hb hmem, hbi⟩
    · simp only [List.getElem?_concat_length, Option.some.injEq] at hu
      exact hs (hu ▸ hc)

theorem exists_block_of_rest {c : Completion} {first last : Nat} (h : c.rest = some (first, last)) :
    ∃ b ∈ c.blocks, b.kind = c.kind ∧ b.first = first ∧ b.last = last := by
  refine ⟨_, List.mem_map_of_mem (a := ⟨first, last, none⟩) ?_, rfl, rfl, rfl⟩
  simp [h]

/-- The block that the current token ends holds it. -/
theorem exists_block_taking {s : Sheet} (hs : s.start ≤ s.index) (before : Option BlockKind)
    (closing : BlockKind) (kind : TokenKind) :
    ∃ b ∈ (s.taking before (some closing) kind).blocks.toList,
      b.kind = closing ∧ b.first ≤ s.index ∧ s.index ≤ b.last := by
  have hstart : (s.cutBefore before).start ≤ s.index := by
    cases before with
    | none => exact hs
    | some kind => exact Nat.le_refl _
  obtain ⟨b, hb, hkind, hfirst, hlast⟩ :=
    exists_block_of_rest (c := (s.cutBefore before).closeCompletion closing) rfl
  rw [s.blocks_taking before (some closing) kind .return_]
  refine ⟨b, List.mem_append_right _ (List.mem_flatMap.2 ⟨_, ?_, hb⟩), hkind, ?_, ?_⟩
  · simp [Sheet.completedBy]
  · rw [hfirst]
    exact hstart
  · rw [hlast, s.index_cutBefore]

theorem Turn.blocks_subset {v : Verdict} (hm : Turn m t cs m' v) :
    m.sheet.blocks.toList ⊆ m'.sheet.blocks.toList := by
  obtain ⟨bs, hb, -⟩ := hm.blocks
  rw [hb]
  exact List.subset_append_left _ _

theorem Balanced.taken (h : m.Balanced ts) (hg : m.Regular ts) (hs : m.Sound ts)
    (ht : m.sheet.tokens.toList = ts ++ [t]) (hm : Turn m t cs m' .taken)
    (ht' : m'.sheet.tokens.toList = ts ++ [t']) : m'.Balanced (ts ++ [t']) := by
  have hsubset := hm.blocks_subset
  cases hm with
  | trivium htr _ hm =>
    rw [hm.sheet, Sheet.tokens_closeAside, ht] at ht'
    cases List.append_cancel_left ht'
    refine h.append ?_ hsubset ?_
    · simp [hm.control, parenDepth_of_isTrivia htr]
    · exact fun hc => absurd htr (by simp [Token.isTrivia_of_isChar hc])
  | absorb htr _ _ hm =>
    rw [hm.sheet, ht] at ht'
    cases List.append_cancel_left ht'
    refine h.append ?_ hsubset ?_
    · simp [hm.control, parenDepth_of_isTrivia htr]
    · exact fun hc => absurd htr (by simp [Token.isTrivia_of_isChar hc])
  | finish _ _ hr hm =>
    rw [hm.sheet] at ht'
    cases List.append_cancel_left (ht.symm.trans ht')
    have hend := (State.allows_of_react hr).eq_documentRegion_of_finish.2
    refine h.append ?_ hsubset ?_
    · simp [hm.control, parenDepth_eq_zero (t := t) (by simp [hend])]
    · exact fun hc => by simp [Token.isChar, hend] at hc
  | @take _ before closing next _ _ c _ htr hr _ hc hm =>
    have hallows := State.allows_of_react hr
    have hground := hg.grounded _ List.mem_cons_self
    have hz := fun hs => State.depth_eq_zero_of_react hr hs
    have hset := Token.settles_reading m.control.state t
    have hi := Sheet.index_eq ht
    rw [hm.sheet, Sheet.toList_tokens_taking ht] at ht'
    cases List.append_cancel_left ht'
    refine h.append ?_ hsubset ?_
    · have hparens := hallows.parens_take hground hz
      have hfollow := Control.parens_follow hc
      rw [hm.control, hset.parenDepth_eq]
      omega
    · intro hsemi
      rw [hset.isChar_eq rfl] at hsemi
      obtain ⟨hx, hopen⟩ := hallows.parens_of_semicolon hsemi hground hz
      rw [← hs.fits.parens_eq hx] at hopen
      rw [StandsFree, List.take_length, h.depth]
      rcases hopen with hzero | ⟨hone, l, rfl⟩
      · exact .inl (by omega)
      · refine .inr ⟨by omega, ?_⟩
        have hstart : m.sheet.start ≤ m.sheet.index := hi ▸ hs.laid.start_le
        obtain ⟨b, hb, hkind, hfirst, hlast⟩ := exists_block_taking hstart before l.delimiterKind
          (m.control.state.reading t)
        rw [← hi]
        refine ⟨b, hm.sheet ▸ hb, ?_, hfirst, hlast⟩
        rw [hkind]
        cases l <;> simp [listDelimiters, InterfaceList.delimiterKind]

theorem Balanced.handedOn (h : m.Balanced ts) (hm : Turn m t cs m' .handedOn) :
    m'.Balanced ts := by
  have hsubset := hm.blocks_subset
  have hparens : m'.control.parens = m.control.parens := by
    cases hm with
    | resume _ _ hm | interrupt _ _ _ hm =>
      rw [hm.control]
      rfl
    | pass _ _ hr hc hm =>
      have := Control.parens_follow hc
      rw [(State.allows_of_react hr).parens_pass] at this
      rw [hm.control]
      omega
  refine ⟨hparens ▸ h.depth, h.nonneg, fun i u hu hc => ?_⟩
  rcases h.semicolon i u hu hc with hz | ⟨ho, b, hb, hbi⟩
  · exact .inl hz
  · exact .inr ⟨ho, b, hsubset hb, hbi⟩

theorem kept_balanced : Kept fun m ts _ => m.Regular ts ∧ m.Balanced ts where
  push t h := ⟨@Kept.push _ kept_regular _ _ [] t h.1, h.2.depth, h.2.nonneg, h.2.semicolon⟩
  handedOn hs _ _ hm h := ⟨h.1.handedOn hs hm, h.2.handedOn hm⟩
  taken hs ht _ hm ht' h := ⟨h.1.taken hs ht hm ht', h.2.taken h.1 hs ht hm ht'⟩

end Machine

/-- The parentheses of the tokens `ts` balance, and every semicolon among them stands outside
parentheses, or at depth one and then in one of the blocks `bs` that delimits the items of a generic,
port or parameter list. -/
structure ParensBalance (ts : List Token) (bs : List Block) : Prop where
  /-- No prefix closes more parentheses than it opens. -/
  nonneg : ∀ n, 0 ≤ parenDepth (ts.take n)
  /-- As many parentheses are opened as closed. -/
  total : parenDepth ts = 0
  semicolon : ∀ i t, ts[i]? = some t → t.isChar ';' = true → StandsFree ts bs i

theorem parenDepth_eq_of_settles {us ts : List Token} (h : List.Forall₂ Token.Settles us ts) :
    parenDepth us = parenDepth ts := by
  induction h with
  | nil => rfl
  | @cons u t us ts hset _ ih =>
    rw [← List.singleton_append, ← List.singleton_append (l := ts), parenDepth_append,
      parenDepth_append, hset.parenDepth_eq, ih]

/-- Settling leaves parentheses and semicolons alone. -/
theorem ParensBalance.of_settles {us ts : List Token} {bs : List Block} (h : ParensBalance ts bs)
    (hset : List.Forall₂ Token.Settles us ts) : ParensBalance us bs := by
  have htake : ∀ n, parenDepth (us.take n) = parenDepth (ts.take n) := fun n =>
    parenDepth_eq_of_settles (List.forall₂_take n hset)
  refine ⟨fun n => ?_, ?_, fun i u hu hc => ?_⟩
  · rw [htake]
    exact h.nonneg n
  · rw [parenDepth_eq_of_settles hset, h.total]
  · obtain ⟨hi, rfl⟩ := List.getElem?_eq_some_iff.1 hu
    have hsettles := hset.get hi (hset.length_eq ▸ hi)
    rw [StandsFree, htake]
    refine h.semicolon i _ (List.getElem?_eq_getElem (hset.length_eq ▸ hi)) ?_
    rw [← hc]
    exact hsettles.isChar_eq rfl

/-- **Parentheses balance.** The tokens that are accepted, up to the first end of the document in the
input, balance as they were given, and so do the tokens of the outline, which are the same but for
the kinds that have been settled. -/
theorem outline_balanced {tokens : List (Except LexError Token)} {options : Options} {d : Document}
    (h : outline tokens options = .ok d) :
    ParensBalance d.tokens.toList d.blocks.toList ∧
    ∃ (us : List Token) (e : Token) (rest : List (Except LexError Token)),
      tokens = us.map .ok ++ .ok e :: rest ∧ (∀ u ∈ us, u.kind ≠ .endOfDocument) ∧
      e.kind = .endOfDocument ∧ List.Forall₂ Token.Settles (us ++ [e]) d.tokens.toList ∧
      ParensBalance (us ++ [e]) d.blocks.toList := by
  obtain ⟨m, hrun, rfl⟩ := outline_ok h
  obtain ⟨us, us', rest, hx, hset, -, htok, hsound, ⟨-, hbal⟩, hframed⟩ :=
    Machine.run_induction_start (Machine.kept_balanced.and Machine.kept_framed)
      ⟨⟨Machine.regular_start options, Machine.balanced_start options⟩,
        Machine.framed_start options⟩ hrun
  have hbalance : ParensBalance us' m.document.blocks.toList := by
    refine ⟨hbal.nonneg, ?_, hbal.semicolon⟩
    have hstate := hframed.closed (Machine.done_of_run hrun)
    rw [hbal.depth, hsound.fits.parens_eq (by rw [hstate]; rfl), hstate]
    rfl
  -- What has been read is what stands before the first end of the document, and this end.
  obtain ⟨vs, e, more, hx', hvs, he, hsize⟩ :=
    Machine.Sound.reads_to_end (Machine.sound_start options) rfl hrun
  have hlength : us.length = vs.length + 1 := by
    rw [hset.length_eq, ← htok, Chain.length_toList, hsize]
    exact Nat.zero_add _
  obtain rfl : us = vs ++ [e] := by
    have happend : us.map Except.ok ++ rest = (vs ++ [e]).map Except.ok ++ more := by
      rw [← hx, hx', List.map_append, List.append_assoc]
      rfl
    have hmap := List.append_inj_left happend (by simpa using hlength)
    exact (List.map_inj_right fun _ _ => Except.ok.inj).1 hmap
  have htokens : m.document.tokens.toList = us' := htok
  rw [htokens]
  exact ⟨hbalance, vs, e, more, hx', hvs, he, hset, hbalance.of_settles hset⟩

/-- A procedure with a list of parameters, one with an index and a default value. -/
theorem outline_balanced_parameters : ∃ d,
    outline (tokenize "package p is procedure q(a : t(1 to 2) := f(3); b : in u); end;") {} =
      .ok d ∧ ParensBalance d.tokens.toList d.blocks.toList := by
  have hok : (outline
      (tokenize "package p is procedure q(a : t(1 to 2) := f(3); b : in u); end;") {}).isOk =
        true := by
    decide +kernel
  generalize hr : outline
    (tokenize "package p is procedure q(a : t(1 to 2) := f(3); b : in u); end;") {} = r at hok
  cases r with
  | error e => cases hok
  | ok d => exact ⟨d, rfl, (outline_balanced hr).1⟩

end VhdlOutline
