import VhdlOutline.Proofs.Outline.EndNames
import VhdlOutline.Proofs.Outline.Rereading

/-!
# The outline of the tokens of an outline

A second run over the settled tokens of an outline keeps abreast of the first one, until a function
with a body comes: its return type does not end at the settled `is`.

* `State.isFunctionBody` tells the states of a function with a body. The machine enters them by the
  move `Outline.functionBody` only, and leaves them with the block `functionEnd` only
  (`Machine.kept_functionBody`).
* `Machine.run_again`: the second run, if there is no such function.
* `outline_again_iff`: the second outline is the first one just if there is none.
-/

namespace VhdlOutline

/-! ## Functions with a body -/

/-- Whether the state belongs to the body of a function. -/
def State.isFunctionBody : State → Bool
  | .declarations scope | .end_ scope _ => scope.construct = .function
  | .statements part _ | .target part _ _ | .assignment _ part _ =>
    part.scope.construct = .function
  | _ => false

/-- Whether a state belongs to the body of a function, the current one or one to be resumed. -/
def Control.inFunctionBody (c : Control) : Bool :=
  (c.state :: c.stack).any State.isFunctionBody

namespace State

variable {s : State} {t : Token} {move : Move} {next : Next}

theorem isFunctionBody_declarationState? {k : Keyword} (h : Outline.declarationState? k = some s) :
    s.isFunctionBody = false := by
  unfold Outline.declarationState? at h
  split at h <;> cases h <;> rfl

theorem isFunctionBody_begin {rule : StatementRule} {scope : Scope} {label : Option String} :
    (State.statements (rule.part scope) label).isFunctionBody =
      (State.declarations scope).isFunctionBody := by
  cases rule <;> rfl

/-- From other states no move leads to the body of a function, except the one at the end of a return
type. -/
theorem Allows.not_isFunctionBody (h : s.Allows t move) (hn : move.next? = some next)
    (hs : s.isFunctionBody = false) (hmove : ∀ name, move ≠ Outline.functionBody name) :
    next.All fun s => s.isFunctionBody = false := by
  cases h with
  | functionTypeIs => exact absurd rfl (hmove _)
  | declaration _ _ hd =>
    cases hn
    exact ⟨hs, isFunctionBody_declarationState? hd⟩
  | declarationsBegin =>
    cases hn
    exact isFunctionBody_begin.trans hs
  | documentEnd => cases hn
  | _ =>
    cases hn
    first
    | exact hs
    | trivial

/-- The body of a function is left at its end only. -/
theorem Allows.isFunctionBody (h : s.Allows t move) (hn : move.next? = some next)
    (hg : s.isGrounded = true) (hs : s.isFunctionBody = true) :
    .functionEnd ∈ move.kinds ∨
      (∃ s', next = .goto s' ∧ s'.isFunctionBody = true) ∨
      ∃ resume sub, next = .call resume sub ∧ resume.isFunctionBody = true := by
  cases h with
  | declarationsBegin =>
    cases hn
    exact .inr (.inl ⟨_, rfl, isFunctionBody_begin.trans hs⟩)
  | @endSemicolon _ scope =>
    have hc : scope.construct = .function := of_decide_eq_true hs
    exact .inl (by simp [Move.kinds, hc, Construct.endKind])
  | statementsElsif =>
    -- The branches are those of an if statement.
    have hif := of_decide_eq_true hg
    have hfunction := of_decide_eq_true hs
    cases hif.symm.trans hfunction
  | documentEnd => cases hn
  | _ =>
    cases hn
    first
    | exact .inr (.inl ⟨_, rfl, hs⟩)
    | exact .inr (.inr ⟨_, _, rfl, hs⟩)
    | cases hs

/-- Only in the body of a function the end of one is made. -/
theorem Allows.not_functionEnd (h : s.Allows t move) (hs : s.isFunctionBody = false) :
    .functionEnd ∉ move.kinds := by
  have hk : ∀ k ∈ move.kinds, k.bracket ≠ .closing .function := by
    cases h with
    | @endSemicolon _ scope =>
      simp only [State.isFunctionBody, decide_eq_false_iff_not] at hs
      simpa [Move.kinds] using hs
    | declarationsBegin hb => simp [Move.kinds, Construct.bracket_beginKind hb]
    | _ => simp [Move.kinds] <;> decide
  exact fun hmem => hk _ hmem rfl

end State

namespace Control

variable {c c' : Control} {next : Next}

theorem inFunctionBody_eq_false :
    c.inFunctionBody = false ↔ c.All fun s => s.isFunctionBody = false := by
  simp [inFunctionBody, All]

theorem inFunctionBody_iff : c.inFunctionBody = true ↔
    c.state.isFunctionBody = true ∨ ∃ s ∈ c.stack, s.isFunctionBody = true := by
  simp [inFunctionBody]

/-- What is on the stack is resumed sooner or later. -/
theorem inFunctionBody_follow (hc : c.follow next = .ok c')
    (h : (∃ s ∈ c.stack, s.isFunctionBody = true) ∨
      (∃ s, next = .goto s ∧ s.isFunctionBody = true) ∨
      ∃ resume sub, next = .call resume sub ∧ resume.isFunctionBody = true) :
    c'.inFunctionBody = true := by
  rw [inFunctionBody_iff]
  obtain ⟨s, aside, stack⟩ := c
  cases next with
  | goto s' =>
    cases hc
    rcases h with h | ⟨_, ⟨⟩, h⟩ | ⟨_, _, ⟨⟩, -⟩
    · exact .inr h
    · exact .inl h
  | call resume sub =>
    cases hc
    rcases h with ⟨s, hs, h⟩ | ⟨_, ⟨⟩, -⟩ | ⟨_, _, ⟨⟩, h⟩
    · exact .inr ⟨s, List.mem_cons_of_mem _ hs, h⟩
    · exact .inr ⟨resume, List.mem_cons_self, h⟩
  | return_ =>
    cases stack with
    | nil => cases hc
    | cons s' stack =>
      cases hc
      rcases h with ⟨s, hs, h⟩ | ⟨_, ⟨⟩, -⟩ | ⟨_, _, ⟨⟩, -⟩
      rcases List.mem_cons.1 hs with rfl | hs
      · exact .inl h
      · exact .inr ⟨s, hs, h⟩

end Control

/-! ## Turns -/

namespace Machine

variable {m m' k : Machine} {us ts : List Token} {t t' : Token} {cs : List Completion}
  {v : Verdict}

/-- What a turn that does not fail does to the control. -/
theorem Turn.control_cases (hm : Turn m t cs m' v) (hv : ∀ e, v ≠ .failed e) :
    (cs = [] ∧ m'.control.state = m.control.state ∧ m'.control.stack = m.control.stack ∧
      m'.done = m.done) ∨
    (∃ r next, m.control.state.react m.sheet.index t = .ok r ∧ r.move.next? = some next ∧
      cs = m.sheet.completedBy r.move ∧ m.control.follow next = .ok m'.control ∧
      m'.done = m.done ∧ (v = .taken ∨ ∃ before, r.move = .pass before next)) ∨
    (m.control.state = .documentRegion ∧ cs = m.sheet.completedBy .finish ∧
      m'.control = m.control ∧ m'.done = true) := by
  cases hm with
  | trivium _ _ hm | resume _ _ hm | absorb _ _ _ hm | interrupt _ _ _ hm =>
    exact .inl ⟨rfl, by rw [hm.control], by rw [hm.control], hm.done⟩
  | take _ _ hr _ hc hm =>
    exact .inr (.inl ⟨_, _, hr, rfl, rfl, hm.control ▸ hc, hm.done, .inl rfl⟩)
  | pass _ _ hr hc hm =>
    exact .inr (.inl ⟨_, _, hr, rfl, rfl, hm.control ▸ hc, hm.done, .inr ⟨_, rfl⟩⟩)
  | finish _ _ hr hm =>
    obtain ⟨hs, -⟩ := (State.allows_of_react hr).eq_documentRegion_of_finish
    exact .inr (.inr ⟨hs, rfl, hm.control, hm.done⟩)
  | mismatch | refuse => exact absurd rfl (hv _)

/-- A turn adds blocks of the kinds that it completes. -/
theorem Turn.exists_mem_parts (hm : Turn m t cs m' v) (hs : m.Sound ts)
    (ht : m.sheet.tokens.toList = ts ++ [t]) (kind : BlockKind) :
    (∃ b ∈ m'.sheet.parts, b.kind = kind) ↔
      (∃ b ∈ m.sheet.parts, b.kind = kind) ∨ kind ∈ cs.map Completion.kind := by
  have hwhole := hm.isWhole hs ht
  have hnew : (∃ b ∈ cs.flatMap Completion.parts, b.kind = kind) ↔
      kind ∈ cs.map Completion.kind := by
    rw [List.mem_map]
    constructor
    · rintro ⟨b, hb, rfl⟩
      obtain ⟨c, hc, hb⟩ := List.mem_flatMap.1 hb
      exact ⟨c, hc, ((hwhole c hc).of_mem_parts hb).1.symm⟩
    · rintro ⟨c, hc, rfl⟩
      obtain ⟨b, hb⟩ := List.exists_mem_of_ne_nil _ (hwhole c hc).parts_ne_nil
      exact ⟨b, List.mem_flatMap.2 ⟨c, hc, hb⟩, ((hwhole c hc).of_mem_parts hb).1⟩
  rw [hm.parts, ← hnew]
  simp only [List.mem_append, or_and_right, exists_or]

/-- Whether the end of a function is among the blocks. -/
def EndsFunction (m : Machine) : Prop := ∃ b ∈ m.sheet.parts, b.kind = .functionEnd

/-- The body of a function is left with its end. -/
theorem Turn.endsFunction (hm : Turn m t cs m' v) (hv : ∀ e, v ≠ .failed e) (hs : m.Sound ts)
    (ht : m.sheet.tokens.toList = ts ++ [t]) (hg : m.Regular ts)
    (h : m.done = false ∧ m.control.inFunctionBody = true ∨ m.EndsFunction) :
    m'.done = false ∧ m'.control.inFunctionBody = true ∨ m'.EndsFunction := by
  have hparts := hm.exists_mem_parts hs ht .functionEnd
  rcases h with ⟨hd, h⟩ | h
  · rcases hm.control_cases hv with ⟨rfl, hstate, hstack, hd'⟩ |
      ⟨r, next, hr, hn, rfl, hc, hd', -⟩ | ⟨hregion, rfl, -, -⟩
    · refine .inl ⟨hd'.trans hd, ?_⟩
      rwa [Control.inFunctionBody, hstate, hstack]
    · have hallows := State.allows_of_react hr
      rw [Control.inFunctionBody_iff] at h
      rcases h with h | h
      · rcases hallows.isFunctionBody hn (hg.grounded _ List.mem_cons_self) h with hend | hnext
        · rw [Sheet.kinds_completedBy] at hparts
          exact .inr (hparts.2 (.inr hend))
        · exact .inl ⟨hd'.trans hd, Control.inFunctionBody_follow hc (.inr hnext)⟩
      · exact .inl ⟨hd'.trans hd, Control.inFunctionBody_follow hc (.inl h)⟩
    · rw [Control.inFunctionBody_iff, hregion,
        hs.fits.stack_eq_nil (by rw [hregion]; rfl)] at h
      simp [State.isFunctionBody] at h
  · exact .inr (hparts.2 (.inl h))

/-- Outside of the bodies of functions nothing ends one, until the end of a return type. -/
theorem Turn.not_inFunctionBody (hm : Turn m t cs m' v) (hv : ∀ e, v ≠ .failed e) (hs : m.Sound ts)
    (ht : m.sheet.tokens.toList = ts ++ [t])
    (hmove : v = .taken → ∀ r name, m.control.state.react m.sheet.index t = .ok r →
      r.move ≠ Outline.functionBody name)
    (h : m.control.inFunctionBody = false ∧ ¬ m.EndsFunction) :
    m'.control.inFunctionBody = false ∧ ¬ m'.EndsFunction := by
  have hparts := hm.exists_mem_parts hs ht .functionEnd
  obtain ⟨h, hend⟩ := h
  have hall := Control.inFunctionBody_eq_false.1 h
  have hstate := hall _ List.mem_cons_self
  rcases hm.control_cases hv with ⟨rfl, hstate', hstack', -⟩ | ⟨r, next, hr, hn, rfl, hc, -, hv'⟩ |
      ⟨-, rfl, hc, -⟩
  · refine ⟨?_, fun hend' => hend ((hparts.1 hend').resolve_right (by simp))⟩
    rwa [Control.inFunctionBody, hstate', hstack']
  · have hallows := State.allows_of_react hr
    rw [Sheet.kinds_completedBy] at hparts
    refine ⟨Control.inFunctionBody_eq_false.2 (hall.follow ?_ hc), fun hend' => hend
      ((hparts.1 hend').resolve_right (hallows.not_functionEnd hstate))⟩
    refine hallows.not_isFunctionBody hn hstate fun name hbody => ?_
    rcases hv' with hv' | ⟨before, hpass⟩
    · exact hmove hv' r name hr hbody
    · cases hpass.symm.trans hbody
  · refine ⟨by rwa [hc], fun hend' => hend ((hparts.1 hend').resolve_right ?_)⟩
    simp [Sheet.kinds_completedBy, Move.kinds]

/-! ## Runs -/

/-- Once in the body of a function, a run comes to its end. -/
theorem kept_functionBody : Kept fun m ts _ => m.Regular ts ∧
    (m.done = false ∧ m.control.inFunctionBody = true ∨ m.EndsFunction) where
  push t h := ⟨@Kept.push _ kept_regular _ _ [] t h.1, h.2⟩
  handedOn hs ht _ hm h := ⟨h.1.handedOn hs hm, hm.endsFunction (by simp) hs ht h.1 h.2⟩
  taken hs ht _ hm ht' h := ⟨h.1.taken hs ht hm ht', hm.endsFunction (by simp) hs ht h.1 h.2⟩

/-- Without the word `is`, a run comes to no function with a body. -/
theorem traced_functionBody : Traced fun m us _ =>
    (∀ u ∈ us, ¬ (u.kind = .word ∧ u.isKeyword .is = true)) →
      m.control.inFunctionBody = false ∧ ¬ m.EndsFunction where
  push _ h := h
  handedOn hs ht hm h hus := hm.not_inFunctionBody (by simp) hs ht (by simp) (h hus)
  taken hs ht hm _ h hus := by
    refine hm.not_inFunctionBody (by simp) hs ht (fun _ r name hr hmove => ?_)
      (h fun u hu => hus u (List.mem_append_left _ hu))
    exact hus _ (by simp) (State.word_of_functionBody hr hmove)

theorem abreast_self (m : Machine) : m.Abreast Eq True m :=
  ⟨rfl, fun _ => trivial, ⟨rfl, rfl, List.forall₂_refl _⟩, rfl, fun _ => rfl, rfl⟩

/-- Between design units there is no function. -/
theorem Framed.not_inFunctionBody (h : m.Framed) (hs : m.Sound ts) (hd : m.done = true) :
    m.control.inFunctionBody = false := by
  have hregion := h.closed hd
  rw [Control.inFunctionBody, hregion, hs.fits.stack_eq_nil (by rw [hregion]; rfl)]
  rfl

/-- The states of the first run react in the same way to a token that has been settled. -/
theorem Turn.react_again (hm : Turn m t cs k v) (hv : ∀ e, v ≠ .failed e)
    (ht : m.sheet.tokens.toList = ts ++ [t]) (hset : t.Settles t')
    (htaken : v = .taken → k.sheet.tokens.toList = ts ++ [t'] ∧ k.control.inFunctionBody = false)
    (haside : m.control.isAside = false)
    (hrule : t.kind.isTrivia = true → m.control.state.trivia = .seen) :
    m.control.state.react m.sheet.index t' = m.control.state.react m.sheet.index t := by
  cases hm with
  | trivium htr h =>
    rcases h with h | h
    · cases haside.symm.trans h
    · cases (hrule htr).symm.trans h
  | resume _ h => cases haside.symm.trans h
  | absorb htr _ h | interrupt htr _ h => cases (hrule htr).symm.trans h
  | mismatch | refuse => exact absurd rfl (hv _)
  | @take _ before closing next _ _ c _ _ hr _ hc hm =>
    obtain ⟨htok, hbody⟩ := htaken rfl
    rw [hr]
    refine State.react_again hset hr (fun part label depth hs => ?_) (fun name hmove => ?_)
    · rw [hm.sheet, Sheet.toList_tokens_taking ht] at htok
      cases List.append_cancel_left htok
      rw [hs]
      rfl
    · cases hmove
      cases hc
      rw [hm.control] at hbody
      simp [Control.inFunctionBody, State.isFunctionBody] at hbody
  | pass _ _ hr =>
    rw [hr]
    refine State.react_again hset hr (fun part label depth hs => ?_) nofun
    have hallows := State.allows_of_react hr
    rw [hs] at hallows
    cases hallows
  | finish _ _ hr =>
    rw [hr]
    refine State.react_again hset hr (fun part label depth hs => ?_) nofun
    cases hs.symm.trans (State.allows_of_react hr).eq_documentRegion_of_finish.1

/-- **One token**, before and after it has been settled. -/
theorem Abreast.settleToken_again {n : Nat} (h : m.Abreast Eq True m') (hs : m.Sound ts)
    (ht : m.sheet.tokens.toList = ts ++ [t]) (ht' : m'.sheet.tokens.toList = ts ++ [t'])
    (hr : m.settleToken t n = (k, none)) (hk : k.sheet.tokens.toList = ts ++ [t'])
    (hbody : k.control.inFunctionBody = false) :
    ∃ k', m'.settleToken t' n = (k', none) ∧ k.Abreast Eq True k' ∧
      k'.sheet.tokens.toList = ts ++ [t'] := by
  have hset : t.Settles t' := by
    obtain ⟨u, hset, htok⟩ := settleToken_settles hs ht hr
    rw [hk] at htok
    cases List.append_cancel_left htok
    exact hset
  induction n generalizing m m' with
  | zero => cases hr
  | succ n ih =>
    rw [Machine.settleToken] at hr ⊢
    generalize hv : m.visit t = r at hr
    obtain ⟨m₁, v⟩ := r
    have hturn := turn_of_visit hs.fits hv
    have hfailed : ∀ e, v ≠ .failed e := by
      rintro e rfl
      cases hr
    have htaken : v = .taken →
        m₁.sheet.tokens.toList = ts ++ [t'] ∧ m₁.control.inFunctionBody = false := by
      rintro rfl
      cases hr
      exact ⟨hk, hbody⟩
    have hvisit := h.visit State.corresponds_eq ht ht'
      (List.forall₂_same.2 fun _ _ => .rfl) hset.isTrivia
      (fun htr => (hset.kind_of_isTrivia (hset.isTrivia.trans htr)).1) fun haside hrule => by
        rw [← h.control.state, hturn.react_again hfailed ht hset htaken haside hrule]
        exact Outcome.alike_self _
    rw [hv] at hvisit
    generalize m'.visit t' = r' at hvisit
    cases hvisit with
    | absorbed h₁ _ hm' =>
      cases hr
      exact ⟨_, rfl, h₁, by rw [hm', ht']⟩
    | settled h₁ hm hm' =>
      cases hr
      have htok := (congrArg Chain.toList hm).symm.trans hk
      rw [Sheet.toList_tokens_settle ht] at htok
      cases List.append_cancel_left htok
      refine ⟨_, rfl, h₁, ?_⟩
      rw [hm', Sheet.toList_tokens_settle ht', ← h.control.state, State.reading_again]
    | handedOn h₁ _ hm' =>
      obtain ⟨htok, hsound, -⟩ := hs.handedOn ht hturn
      exact ih h₁ hsound htok (by rw [hm', ht']) hr
    | refused | failed => cases hr

/-- **A run over settled tokens** goes like the run that settled them, if no function with a body
ends. -/
theorem Abreast.run_again {xs : List (Except LexError Token)} (h : m.Abreast Eq True m')
    (hs : m.Sound ts) (hg : m.Regular ts ∧ m.Framed) (ht : m.sheet.tokens.toList = ts)
    (ht' : m'.sheet.tokens.toList = ts) (hr : m.run xs = (k, none)) (hend : ¬ k.EndsFunction) :
    ∃ vs k', k.sheet.tokens.toList = ts ++ vs ∧ m'.run (vs.map .ok) = (k', none) ∧
      k.Abreast Eq True k' ∧ k'.sheet.tokens.toList = ts ++ vs := by
  induction xs generalizing m m' ts with
  | nil =>
    rw [Machine.run] at hr
    split at hr <;> cases hr
    rename_i hd
    exact ⟨[], m', by simp [ht], by simp [Machine.run, h.done, hd], h, by simp [ht']⟩
  | cons x xs ih =>
    simp only [Machine.run] at hr
    cases hd : m.done with
    | true =>
      rw [if_pos hd] at hr
      cases hr
      exact ⟨[], m', by simp [ht], by simp [Machine.run, h.done, hd], h, by simp [ht']⟩
    | false =>
      rw [if_neg (by simp [hd])] at hr
      cases x with
      | error l => cases hr
      | ok t =>
        dsimp only at hr
        generalize hf : m.feed t = r at hr
        obtain ⟨n, _ | e⟩ := r
        · obtain ⟨t', -, htok, hsound, -, hreg⟩ :=
            @Kept.feed _ kept_orderly _ _ _ [] hs ht hd hg t hf
          have hbody : n.control.inFunctionBody = false := by
            cases hn : n.done with
            | true => exact hreg.2.not_inFunctionBody hsound hn
            | false =>
              -- The body would come to its end.
              refine Bool.eq_false_iff.2 fun hin => hend ?_
              obtain ⟨_, _, _, -, -, -, -, -, -, hk⟩ := @run_induction _ kept_functionBody
                _ _ _ [] hsound htok hn ⟨hreg.1, .inl ⟨hn, hin⟩⟩ xs hr
              rcases hk with ⟨hkd, -⟩ | hk
              · cases hkd.symm.trans (done_of_run hr)
              · exact hk
          obtain ⟨n', hn', hnn, htok'⟩ := (h.push t t').settleToken_again (hs.push t)
            (by simp [Sheet.push, ht]) (by simp [Sheet.push, ht']) hf htok hbody
          obtain ⟨vs, k', hk, hk', hkk, htok''⟩ := ih hnn hsound hreg htok htok' hr
          refine ⟨t' :: vs, k', by simpa using hk, ?_, hkk, by simpa using htok''⟩
          have hfeed : m'.feed t' = (n', none) := hn'
          simp only [List.map_cons, Machine.run, h.done, hd, Bool.false_eq_true, if_false, hfeed]
          exact hk'
        · cases hr

end Machine

/-! ## Outlines -/

/-- The words among the tokens of an outline spell `begin`. -/
theorem outline_words {xs : List (Except LexError Token)} {options : Options} {d : Document}
    (h : outline xs options = .ok d) :
    ∀ v ∈ d.tokens.toList, v.kind = .word → v.keyword? = some .begin := by
  intro v hmem hw
  obtain ⟨us, rest, -, hset, -, hblocks⟩ := outline_reads h
  obtain ⟨i, hv⟩ := List.mem_iff_getElem?.1 hmem
  have hlt : i < us.length := hset.length_eq ▸ (List.getElem?_eq_some_iff.1 hv).1
  have hu := List.getElem?_eq_getElem hlt
  obtain ⟨b, -, -, -, hread⟩ := exists_block_reads h hblocks hu hv
  rw [(rel_of_getElem? hset hu hv).keyword?]
  exact (hread.word.2 hw).2.2

/-- The end of a function is among the blocks of a document just if it is among the proper ones. -/
theorem Machine.endsFunction_iff {m : Machine} :
    m.EndsFunction ↔ ∃ b ∈ m.document.blocks.toList, b.kind = .functionEnd := by
  constructor
  · rintro ⟨b, hb, hk⟩
    exact ⟨b, (List.mem_filter.1 hb).1, hk⟩
  · rintro ⟨b, hb, hk⟩
    exact ⟨b, List.mem_filter.2 ⟨hb, by rw [hk]; rfl⟩, hk⟩

/-- The tokens of an outline are linked. -/
theorem Machine.isLinked_of_run {options : Options} {xs : List (Except LexError Token)}
    {m : Machine} (h : Machine.run { options } xs = (m, none)) :
    m.sheet.tokens.isLinked = true := by
  obtain ⟨_, _, _, -, -, -, -, hsound, -⟩ :=
    Machine.run_induction_start Machine.kept_framed (Machine.framed_start options) h
  exact hsound.laid.tokens_linked

/-- **Outlining an outline again.** The outline of the tokens of an outline is that outline, with
the same tokens, blocks and warnings, if and only if it has no function with a body. -/
theorem outline_again_iff {xs : List (Except LexError Token)} {options : Options} {d : Document}
    (h : outline xs options = .ok d) :
    outline (d.tokens.toList.map .ok) options = .ok d ↔
      ∀ b ∈ d.blocks.toList, b.kind ≠ .functionEnd := by
  have hwords := outline_words h
  obtain ⟨m, hrun, rfl⟩ := outline_ok h
  constructor
  · intro hagain b hb hk
    obtain ⟨k, hrun', hdoc⟩ := outline_ok hagain
    have hstart : (∀ u ∈ ([] : List Token), ¬ (u.kind = .word ∧ u.isKeyword .is = true)) →
        ({ options } : Machine).control.inFunctionBody = false ∧
          ¬ ({ options } : Machine).EndsFunction := fun _ =>
      ⟨rfl, by simp [Machine.EndsFunction, Sheet.parts]⟩
    obtain ⟨vs, rest, ts, hvs, -, -, hno⟩ := Machine.traced_functionBody.run
      (Machine.sound_start options) rfl hstart hrun'
    refine (hno fun u hu hu' => ?_).2 (Machine.endsFunction_iff.2 ⟨b, hdoc ▸ hb, hk⟩)
    have hmem : (.ok u : Except LexError Token) ∈ m.document.tokens.toList.map .ok := by
      rw [hvs]
      exact List.mem_append_left _ (List.mem_map_of_mem hu)
    obtain ⟨v, hmem, hv⟩ := List.mem_map.1 hmem
    cases hv
    cases (hwords u hmem hu'.1).symm.trans (of_decide_eq_true hu'.2)
  · intro hno
    have hend : ¬ m.EndsFunction := fun hend => by
      obtain ⟨b, hb, hk⟩ := Machine.endsFunction_iff.1 hend
      exact hno b hb hk
    obtain ⟨vs, k, htok, hrun', hmk, htok'⟩ := (Machine.abreast_self { options }).run_again
      (Machine.sound_start options)
      ⟨Machine.regular_start options, Machine.framed_start options⟩ rfl rfl hrun hend
    rw [List.nil_append] at htok htok'
    have hlist : m.document.tokens.toList = vs := htok
    rw [hlist, outline, hrun']
    have htokens : k.sheet.tokens = m.sheet.tokens := Chain.eq_of_isLinked
      (Machine.isLinked_of_run hrun') (Machine.isLinked_of_run hrun) (htok'.trans htok.symm)
    simp only [Machine.document, htokens, hmk.warnings trivial]
    rw [hmk.sheet]
    rfl

/-- A procedure with a body, a function without one, and a mismatch of names. -/
theorem outline_again_procedure : ∃ d,
    outline (tokenize
      "package p is procedure q is begin a <= b < c; end; function f return t; end r;") {} = .ok d ∧
    (∀ b ∈ d.blocks.toList, b.kind ≠ .functionEnd) ∧
    outline (d.tokens.toList.map .ok) {} = .ok d := by
  generalize hin : tokenize
    "package p is procedure q is begin a <= b < c; end; function f return t; end r;" = input
  have hok : (match outline input {} with
      | .ok d => d.blocks.toList.all fun b => b.kind ≠ .functionEnd
      | .error _ => false) = true := by
    rw [← hin]
    decide +kernel
  generalize hr : outline input {} = r at hok
  match r with
  | .error e => cases hok
  | .ok d =>
    have hno : ∀ b ∈ d.blocks.toList, b.kind ≠ .functionEnd := by simpa using hok
    exact ⟨d, rfl, hno, (outline_again_iff hr).2 hno⟩

/-- The body of a function is not read again. -/
theorem outline_again_function : ∃ d,
    outline (tokenize "package p is function f return t is end; end;") {} = .ok d ∧
    ∃ d', outline (d.tokens.toList.map .ok) {} = .ok d' ∧ d'.blocks ≠ d.blocks := by
  have hok : (match outline (tokenize "package p is function f return t is end; end;") {} with
      | .ok d => match outline (d.tokens.toList.map .ok) {} with
        | .ok d' => decide (d'.blocks ≠ d.blocks)
        | .error _ => false
      | .error _ => false) = true := by decide +kernel
  generalize outline (tokenize "package p is function f return t is end; end;") {} = r at hok
  match r with
  | .error e => cases hok
  | .ok d =>
    dsimp only at hok
    generalize hr : outline (d.tokens.toList.map .ok) {} = r at hok
    match r with
    | .error e => cases hok
    | .ok d' => exact ⟨d, rfl, d', hr, of_decide_eq_true hok⟩

end VhdlOutline
