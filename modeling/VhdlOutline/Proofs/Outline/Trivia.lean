import VhdlOutline.Proofs.Outline.Gist

/-!
# Blanks and comments do not matter

`Machine.gist` is what a machine comes to when blanks and comments are left out. A turn with a blank
or comment does not change it, and a turn with another token changes it as the gist itself says: so
do `Machine.Turn.gist_of_handedOn`, `Machine.Turn.gist_of_taken` and `Machine.Turn.gist_of_failed`,
one for each verdict. From there the argument climbs to tokens (`Machine.Sound.settleToken_gist`)
and to runs (`Machine.Sound.run_gist`).

The run on some tokens and the run on those of them that are neither blank nor comments have the
same gist. So they do the same (`run_significant`).

Of the state and the block under construction alone, only moves have to be considered
(`Machine.KeptPending`): turns with blanks and comments change neither.
-/

namespace VhdlOutline

/-- The completed block, which lies among the tokens `ts`. -/
def Completion.logical (c : Completion) (ts : List Token) : LogicalBlock := ⟨c.kind, c.content ts⟩

theorem map_logical_append {cs : List Completion} {ts : List Token}
    (h : ∀ c ∈ cs, c.Within ts.length) (us : List Token) :
    cs.map (·.logical (ts ++ us)) = cs.map (·.logical ts) := by
  apply List.map_congr_left
  intro c hc
  rw [Completion.logical, (h c hc).content_append]
  rfl

namespace Sheet

variable {s : Sheet} {ts : List Token} {t : Token}

theorem logical_cut (ht : s.tokens.toList = ts ++ [t]) (kind : BlockKind) :
    (s.cutCompletion kind).logical ts = ⟨kind, s.pending ts⟩ := by
  rw [Completion.logical, content_cut ht]
  rfl

theorem Laid.logical_close (h : s.Laid ts.length) (ht : s.tokens.toList = ts ++ [t])
    (kind : BlockKind) (t' : Token) (hk : t'.kind.isTrivia = false) :
    (s.closeCompletion kind).logical (ts ++ [t']) = ⟨kind, s.pending ts ++ [t']⟩ := by
  rw [Completion.logical, h.content_close ht, significant_singleton hk]
  rfl

end Sheet

/-- The error without numbers of tokens and names of states. -/
def OutlineError.gist : OutlineError → OutlineError
  | .nameMismatch x => .nameMismatch x.unnumbered
  | .unexpectedEnd _ => .unexpectedEnd ""
  | e => e

/-- Whether the error is about the tokens, and not about the source text or the machine. -/
def OutlineError.isSyntactic : OutlineError → Bool
  | .refused .. | .unexpectedEnd _ | .nameMismatch _ => true
  | .lexical _ | .internal .. => false

namespace Control

/-- Handing a token to an expression does not change the gist. -/
theorem gist_open {c c' : Control} {resume : State} {x : Expression}
    (h : c.state.opens? = some (resume, x))
    (hc : c.follow (.call resume (.expression x 0 false)) = .ok c') : c'.gist = c.gist := by
  cases hc
  simp only [gist, h]
  rfl

/-- Moves lead from gist to gist. -/
theorem gist_follow {c c' : Control} {next : Next} (h : c.state.opens? = none)
    (hc : c.follow next = .ok c') :
    ∃ d, c.gist.follow next.unnumbered = .ok d ∧ d.gist = c'.gist := by
  have hg : c.gist = ⟨c.state.unnumbered, false, c.stack⟩ := by rw [gist, h]
  rw [hg]
  obtain ⟨s, aside, stack⟩ := c
  cases next with
  | goto s' =>
    cases hc
    refine ⟨_, rfl, ?_⟩
    simp only [gist, State.opens?_unnumbered, State.unnumbered_unnumbered]
  | call resume sub =>
    cases hc
    exact ⟨_, rfl, rfl⟩
  | return_ =>
    cases stack with
    | nil => cases hc
    | cons s' stack =>
      cases hc
      exact ⟨_, rfl, rfl⟩

end Control

namespace Machine

/-- The gist of a machine that has read the tokens `ts` and completed the blocks `cs`. -/
def gist (m : Machine) (ts : List Token) (cs : List Completion) : Gist where
  strictNames := m.options.strictNames
  control := m.control.gist
  read := significant ts
  pending := m.sheet.pending ts
  blocks := cs.map (·.logical ts)
  warnings := m.warnings.toList.map NameMismatch.unnumbered
  done := m.done

variable {m m' : Machine} {ts : List Token} {t : Token} {cs ds : List Completion}

theorem Becomes.gist_eq {c : Control} {s : Sheet} {w : Array NameMismatch} {d : Bool}
    (hm : m.Becomes m' c s w d) (ts : List Token) (cs : List Completion) :
    m'.gist ts cs = ⟨m.options.strictNames, c.gist, significant ts, s.pending ts,
      cs.map (·.logical ts), w.toList.map NameMismatch.unnumbered, d⟩ := by
  rw [gist, hm.options, hm.control, hm.sheet, hm.warnings, hm.done]

/-- A block that ends before the current token. -/
theorem gist_cut (ht : m.sheet.tokens.toList = ts ++ [t]) (before : Option BlockKind) :
    (m.gist ts cs).cut before =
      { m.gist ts cs with
        pending := (m.sheet.cutBefore before).pending ts
        blocks := (cs ++ (before.map m.sheet.cutCompletion).toList).map (·.logical ts) } := by
  rw [Sheet.pending_cutBefore ht]
  cases before with
  | none => simp [Gist.cut, gist]
  | some kind => simp [Gist.cut, gist, Sheet.logical_cut ht]

theorem Sound.laid_cutBefore (h : m.Sound ts) (ht : m.sheet.tokens.toList = ts ++ [t])
    (before : Option BlockKind) : (m.sheet.cutBefore before).Laid ts.length := by
  have hlaid := h.laid
  rw [← Sheet.index_eq ht] at hlaid ⊢
  exact hlaid.cutBefore before

theorem Sound.within_cut (h : m.Sound ts) (ht : m.sheet.tokens.toList = ts ++ [t])
    (before : Option BlockKind) :
    ∀ c ∈ (before.map m.sheet.cutCompletion).toList, c.Within ts.length := by
  intro c hc
  obtain ⟨kind, -, rfl⟩ := Option.map_eq_some_iff.1 (Option.mem_toList.1 hc)
  exact h.laid.within_cut ht kind

/-- The block under construction once a token has been taken. -/
theorem Sound.pending_taking (h : m.Sound ts) (ht : m.sheet.tokens.toList = ts ++ [t])
    {kind : TokenKind} (hk : kind.isTrivia = false) (before closing : Option BlockKind) :
    (m.sheet.taking before closing kind).pending (ts ++ [{ t with kind }]) =
      if closing.isSome then []
      else (if before.isSome then [] else m.sheet.pending ts) ++ [{ t with kind }] := by
  cases closing with
  | none =>
    rw [h.laid.pending_taking ht, significant_singleton hk]
    rfl
  | some closing =>
    apply Sheet.IsClean.pending
    rw [List.length_append, List.length_singleton, ← Sheet.index_eq ht]
    exact m.sheet.isClean_taking before closing kind

/-- A token is taken, with the blocks that end before it and with it. -/
theorem gist_taking (h : m.Sound ts) (ht : m.sheet.tokens.toList = ts ++ [t])
    (hw : ∀ c ∈ cs, c.Within ts.length) {kind : TokenKind} (hk : kind.isTrivia = false)
    (before closing : Option BlockKind) (next : Next) :
    (((m.gist ts cs).cut before).add { t with kind }).cut closing =
      { m.gist ts cs with
        read := significant (ts ++ [{ t with kind }])
        pending := (m.sheet.taking before closing kind).pending (ts ++ [{ t with kind }])
        blocks := (cs ++ m.sheet.completedBy (.take before closing next)).map
          (·.logical (ts ++ [{ t with kind }])) } := by
  have hcut : (m.sheet.cutBefore before).tokens.toList = ts ++ [t] := by
    rw [Sheet.tokens_cutBefore, ht]
  have hlaid := h.laid_cutBefore ht before
  have hsig : significant [{ t with kind }] = [{ t with kind }] := significant_singleton hk
  have hblocks : (cs ++ m.sheet.completedBy (.take before closing next)).map
        (·.logical (ts ++ [{ t with kind }])) =
      (cs ++ (before.map m.sheet.cutCompletion).toList).map (·.logical ts) ++
        (closing.map (m.sheet.cutBefore before).closeCompletion).toList.map
          (·.logical (ts ++ [{ t with kind }])) := by
    rw [Sheet.completedBy, ← List.append_assoc, List.map_append,
      map_logical_append (List.forall_mem_append.2 ⟨hw, h.within_cut ht before⟩)]
  rw [gist_cut ht, hblocks]
  cases closing with
  | none =>
    rw [h.pending_taking ht hk, Sheet.pending_cutBefore ht]
    simp [Gist.cut, Gist.add, gist, hsig]
  | some closing =>
    have hlogical := hlaid.logical_close hcut closing { t with kind } hk
    rw [h.pending_taking ht hk]
    simp [Gist.cut, Gist.add, gist, hsig, hlogical]

/-- The state that the gist shows, unless it hands every token on. -/
theorem gist_state (ho : m.control.state.opens? = none) (ts : List Token) (cs : List Completion) :
    (m.gist ts cs).control.state = m.control.state.unnumbered := by
  simp only [gist, Control.gist, ho]

theorem gist_react (ho : m.control.state.opens? = none) {i : Nat} {o : Outcome}
    (h : m.control.state.react i t = o) (ts : List Token) (cs : List Completion) :
    (m.gist ts cs).control.state.react 0 t = o.map Reaction.unnumbered := by
  rw [gist_state ho, State.react_unnumbered _ i, h]

/-! ## Turns -/

/-- The blocks that a turn completes lie among the tokens before it, or end with its token. -/
theorem Turn.within {v : Verdict} (hm : Turn m t ds m' v) (h : m.Sound ts)
    (ht : m.sheet.tokens.toList = ts ++ [t]) : ∀ c ∈ ds, c.Within (ts.length + 1) := by
  have htaking : ∀ before closing next,
      ∀ c ∈ m.sheet.completedBy (.take before closing next), c.Within (ts.length + 1) := by
    intro before closing next
    refine List.forall_mem_append.2 ⟨?_, ?_⟩
    · exact fun c hc => (h.within_cut ht before c hc).mono (Nat.le_succ _)
    · intro c hc
      obtain ⟨kind, -, rfl⟩ := Option.map_eq_some_iff.1 (Option.mem_toList.1 hc)
      have hcut : (m.sheet.cutBefore before).tokens.toList = ts ++ [t] := by
        rw [Sheet.tokens_cutBefore, ht]
      exact (h.laid_cutBefore ht before).within_close hcut kind
  cases hm with
  | take | mismatch => exact htaking _ _ _
  | pass => exact fun c hc => (h.within_cut ht _ c hc).mono (Nat.le_succ _)
  | finish => simpa [Sheet.completedBy] using h.laid.within_close ht .endOfDocument
  | _ => simp

theorem Turn.within_of_handedOn (hm : Turn m t ds m' .handedOn) (h : m.Sound ts)
    (ht : m.sheet.tokens.toList = ts ++ [t]) : ∀ c ∈ ds, c.Within ts.length := by
  cases hm with
  | pass => exact h.within_cut ht _
  | resume | interrupt => simp

/-- A token that has been taken leaves the machine at rest. -/
theorem Turn.rests (hm : Turn m t ds m' .taken) (h : m.Sound ts)
    (hr : t.kind.isTrivia = true → m.control.state.rests = true) :
    m'.control.state.rests = true := by
  cases hm with
  | trivium htr _ hm | absorb htr _ _ hm =>
    rw [hm.control]
    exact hr htr
  | take _ _ hreact _ hc hm =>
    rw [hm.control]
    exact h.fits.rests (State.allows_of_react hreact) hc
  | finish _ _ hreact hm =>
    rw [hm.control, (State.allows_of_react hreact).eq_documentRegion_of_finish.1]
    rfl

/-- A turn that hands the token on does not show, or it is one of the gist. -/
theorem Turn.gist_of_handedOn (hm : Turn m t ds m' .handedOn)
    (ht : m.sheet.tokens.toList = ts ++ [t])
    (hr : t.kind.isTrivia = true → m.control.state.rests = true) :
    m'.gist ts (cs ++ ds) = m.gist ts cs ∧
        (t.kind.isTrivia = true → m'.control.state.rests = true) ∨
      t.kind.isTrivia = false ∧ (m.gist ts cs).visit t = (m'.gist ts (cs ++ ds), .handedOn) := by
  cases hm with
  | resume htr ha hm =>
    refine .inl ⟨?_, by simp [htr]⟩
    rw [hm.gist_eq, List.append_nil]
    rfl
  | interrupt htr ha hs hm =>
    refine .inl ⟨?_, fun htr => ?_⟩
    · rw [hm.gist_eq, List.append_nil, Sheet.pending_interrupt ht]
      rfl
    · rw [hm.control]
      exact hr htr
  | @pass _ before next note x c ha htr hreact hc hm =>
    cases ho : m.control.state.opens? with
    | some p =>
      -- The state hands any token to an expression, and in the gist the expression has begun.
      obtain ⟨resume, x⟩ := p
      rw [State.react_of_opens? ho] at hreact
      cases hreact
      refine .inl ⟨?_, fun _ => ?_⟩
      · rw [hm.gist_eq, Control.gist_open ho hc]
        simp [Sheet.completedBy, Sheet.cutBefore, gist]
      · rw [hm.control]
        cases hc
        rfl
    | none =>
      refine .inr ⟨State.not_isTrivia_of_rests hr htr ho, ?_⟩
      obtain ⟨d, hd, hdc⟩ := Control.gist_follow ho hc
      rw [Gist.visit_pass (gist_react ho hreact ts cs) hd, gist_cut ht, hdc, hm.gist_eq]
      rfl

/-- A blank or comment that becomes a block of its own adds nothing to the block under
construction. -/
theorem Sound.pending_trivium (h : m.Sound ts) (ht : m.sheet.tokens.toList = ts ++ [t])
    (hs : m.control.isAside = true ∨ m.control.state.trivia = .apart) (kind : BlockKind) :
    (m.sheet.closeAside kind).pending (ts ++ [t]) = m.sheet.pending ts := by
  rcases hs with ha | hs
  · exact h.laid.pending_closeAside (h.aside ha).1 ht kind
  · have hclean : m.sheet.IsClean ts.length := by
      have := h.stands
      rwa [(State.posture_eq_clean_iff _).2 hs] at this
    rw [hclean.pending]
    apply Sheet.IsClean.pending
    rw [← Sheet.index_eq ht] at hclean
    rw [List.length_append, List.length_singleton, ← Sheet.index_eq ht]
    exact hclean.closeAside kind

/-- A clean block under construction is empty, and one that has begun is not. -/
theorem Sound.pending_of_posture (h : m.Sound ts) :
    (m.control.state.posture = .clean → m.sheet.pending ts = []) ∧
      (m.control.state.posture = .begun → m.sheet.pending ts ≠ []) := by
  have hstands := h.stands
  constructor <;> intro hp <;> rw [hp] at hstands
  · exact Sheet.IsClean.pending hstands
  · exact hstands

/-- What moves have to keep of a property of the state and of the block under construction, so that
all turns keep it. -/
structure KeptPending (P : State → List Token → Prop) : Prop where
  pass {c c' : Control} {t : Token} {before : Option BlockKind} {next : Next} {p : List Token} :
    State.Fits c.state c.stack → c.state.Allows t (.pass before next) → c.follow next = .ok c' →
      (c.state.posture = .clean → p = []) → P c.state p →
        P c'.state (if before.isSome then [] else p)
  take {c c' : Control} {t : Token} {before closing : Option BlockKind} {next : Next}
      {p : List Token} :
    State.Fits c.state c.stack → c.state.Allows t (.take before closing next) →
      c.follow next = .ok c' → (c.state.posture = .begun → p ≠ []) → P c.state p →
        P c'.state (if closing.isSome then []
          else (if before.isSome then [] else p) ++ [{ t with kind := c.state.reading t }])
  region (p : List Token) : P .documentRegion p

section

variable {P : State → List Token → Prop} (hP : KeptPending P)

include hP

theorem KeptPending.handedOn (hm : Turn m t ds m' .handedOn) (hs : m.Sound ts)
    (ht : m.sheet.tokens.toList = ts ++ [t]) (h : P m.control.state (m.sheet.pending ts)) :
    P m'.control.state (m'.sheet.pending ts) := by
  cases hm with
  | resume _ _ hm =>
    rw [hm.control, hm.sheet]
    exact h
  | interrupt _ _ _ hm =>
    rw [hm.control, hm.sheet, Sheet.pending_interrupt ht]
    exact h
  | pass _ _ hr hc hm =>
    rw [hm.control, hm.sheet, Sheet.pending_cutBefore ht]
    exact hP.pass hs.fits (State.allows_of_react hr) hc hs.pending_of_posture.1 h

theorem KeptPending.taken {t' : Token} (hm : Turn m t ds m' .taken) (hs : m.Sound ts)
    (ht : m.sheet.tokens.toList = ts ++ [t]) (ht' : m'.sheet.tokens.toList = ts ++ [t'])
    (h : P m.control.state (m.sheet.pending ts)) :
    P m'.control.state (m'.sheet.pending (ts ++ [t'])) := by
  cases hm with
  | trivium _ hst hm =>
    rw [hm.sheet, Sheet.tokens_closeAside, ht] at ht'
    cases List.append_cancel_left ht'
    rw [hm.control, hm.sheet, hs.pending_trivium ht hst]
    exact h
  | absorb htr _ _ hm =>
    rw [hm.sheet, ht] at ht'
    cases List.append_cancel_left ht'
    rw [hm.control, hm.sheet, hs.laid.pending_append, significant_trivium htr, List.append_nil]
    exact h
  | take _ htr hr _ hc hm =>
    have hallows := State.allows_of_react hr
    have hset := Token.settles_reading m.control.state t
    rw [hm.sheet, Sheet.toList_tokens_taking ht] at ht'
    cases List.append_cancel_left ht'
    rw [hm.control, hm.sheet,
      hs.pending_taking ht (hset.isTrivia.trans (hallows.not_isTrivia htr))]
    exact hP.take hs.fits hallows hc hs.pending_of_posture.2 h
  | finish _ _ hr hm =>
    rw [hm.control, (State.allows_of_react hr).eq_documentRegion_of_finish.1]
    exact hP.region _

theorem KeptPending.kept : Kept fun m ts _ => P m.control.state (m.sheet.pending ts) where
  push _ h := h
  handedOn hs ht _ hm h := hP.handedOn hm hs ht h
  taken hs ht _ hm ht' h := hP.taken hm hs ht ht' h

end

/-- A turn that takes the token does not show, if it is blank or a comment. Otherwise it is one of
the gist. -/
theorem Turn.gist_of_taken (hm : Turn m t ds m' .taken) (h : m.Sound ts)
    (ht : m.sheet.tokens.toList = ts ++ [t]) (hw : ∀ c ∈ cs, c.Within ts.length) :
    ∃ t', m'.sheet.tokens.toList = ts ++ [t'] ∧
      (m.gist ts cs).Passes t (m'.gist (ts ++ [t']) (cs ++ ds)) none := by
  have hi := Sheet.index_eq ht
  cases hm with
  | trivium htr hs hm =>
    refine ⟨t, by rw [hm.sheet, Sheet.tokens_closeAside, ht], ?_⟩
    rw [hm.gist_eq, List.append_nil, h.pending_trivium ht hs, significant_append,
      significant_trivium htr, List.append_nil, map_logical_append hw]
    exact Gist.passes_trivium htr _
  | absorb htr ha hs hm =>
    refine ⟨t, by rw [hm.sheet, ht], ?_⟩
    rw [hm.gist_eq, List.append_nil, h.laid.pending_append, significant_append,
      significant_trivium htr, List.append_nil, List.append_nil, map_logical_append hw]
    exact Gist.passes_trivium htr _
  | @take _ before closing next note x c ha htr hr hx hc hm =>
    have hallows := State.allows_of_react hr
    have hk := hallows.not_isTrivia htr
    have hset := Token.settles_reading m.control.state t
    have ho := State.opens?_eq_none hr (by simp)
    obtain ⟨d, hd, hdc⟩ := Control.gist_follow ho hc
    refine ⟨{ t with kind := m.control.state.reading t }, ?_, ?_⟩
    · rw [hm.sheet]
      exact Sheet.toList_tokens_taking ht _ _ _
    · refine .of_reads hk (.taken ?_)
      rw [Gist.visit_take (gist_react ho hr ts cs) ?_ hd, gist_state ho, State.reading_unnumbered,
        gist_taking h ht hw (hset.isTrivia.trans hk) _ _ next, hdc, hm.gist_eq]
      · cases x <;> simp [gist]
      · intro hs
        rw [hx hs]
        rfl
  | finish ha htr hr hm =>
    have hk : t.kind.isTrivia = false := by
      rw [(State.allows_of_react hr).eq_documentRegion_of_finish.2]
      rfl
    have ho := State.opens?_eq_none hr (by simp)
    have hpending : (m.sheet.close .endOfDocument).pending (ts ++ [t]) = [] := by
      apply Sheet.IsClean.pending
      rw [List.length_append, List.length_singleton, ← hi]
      exact m.sheet.isClean_close .endOfDocument
    have hlogical := h.laid.logical_close ht .endOfDocument t hk
    refine ⟨t, by rw [hm.sheet]; exact ht, .of_reads hk (.taken ?_)⟩
    rw [Gist.visit_finish (gist_react ho hr ts cs), hm.gist_eq, hpending, significant_append,
      significant_singleton hk, List.map_append, map_logical_append hw]
    simp [Gist.cut, Gist.add, gist, Sheet.completedBy, hlogical]

/-- A turn that fails is one of the gist, which fails likewise. -/
theorem Turn.gist_of_failed {e : OutlineError} (hm : Turn m t ds m' (.failed e)) (h : m.Sound ts)
    (ht : m.sheet.tokens.toList = ts ++ [t]) (hw : ∀ c ∈ cs, c.Within ts.length)
    (hr : t.kind.isTrivia = true → m.control.state.rests = true) :
    ∃ us, m'.sheet.tokens.toList = us ++ e.token?.toList ∧ (∀ c ∈ cs ++ ds, c.Within us.length) ∧
      (m.gist ts cs).Passes t (m'.gist us (cs ++ ds)) (some e.gist) := by
  cases hm with
  | @mismatch _ before closing next note x ha htr hreact hx hm =>
    have hk := (State.allows_of_react hreact).not_isTrivia htr
    have ho := State.opens?_eq_none hreact (by simp)
    have hset := Token.settles_reading m.control.state t
    refine ⟨ts ++ [{ t with kind := m.control.state.reading t }], ?_, ?_, .of_reads hk (.failed ?_)⟩
    · rw [hm.sheet, Sheet.toList_tokens_taking ht]
      simp [OutlineError.token?]
    · rw [List.length_append, List.length_singleton]
      refine List.forall_mem_append.2 ⟨fun c hc => (hw c hc).mono (Nat.le_succ _), ?_⟩
      exact (Turn.mismatch ha htr hreact hx hm).within h ht
    · rw [Gist.visit_mismatch (gist_react ho hreact ts cs) hx, gist_state ho,
        State.reading_unnumbered, gist_taking h ht hw (hset.isTrivia.trans hk) _ _ next, hm.gist_eq]
      rfl
  | refuse ha htr hreact hm =>
    have ho := State.opens?_eq_none hreact (by simp)
    have hk := State.not_isTrivia_of_rests hr htr ho
    refine ⟨ts, ?_, by simpa using hw, .of_reads hk (.failed ?_)⟩
    · rw [hm.sheet, ht]
      rfl
    · rw [Gist.visit_refuse (gist_react ho hreact ts cs), hm.gist_eq, List.append_nil]
      rfl

/-! ## Runs -/

/-- Where reading has led: the machine has taken the tokens `us` and completed the blocks `cs`, and
if it has broken off, then with an error about the tokens. -/
structure Arrives (m : Machine) (e : Option OutlineError) (us : List Token)
    (cs : List Completion) : Prop where
  tokens : m.sheet.tokens.toList = us ++ (e.bind OutlineError.token?).toList
  within : ∀ c ∈ cs, c.Within us.length
  isSyntactic : ∀ f, e = some f → f.isSyntactic = true

/-- Reading a token changes the gist as the gist itself says. -/
theorem Sound.settleToken_gist {e : Option OutlineError} {n : Nat} (h : m.Sound ts)
    (ht : m.sheet.tokens.toList = ts ++ [t]) (hw : ∀ c ∈ cs, c.Within ts.length)
    (hr : t.kind.isTrivia = true → m.control.state.rests = true) (hn : m.handovers t < n)
    (hs : m.settleToken t n = (m', e)) :
    ∃ us, m'.Arrives e us (cs ++ m.settleCompletions t n) ∧
      (e = none → m'.Sound us ∧ m'.control.state.rests = true) ∧
      (m.gist ts cs).Passes t (m'.gist us (cs ++ m.settleCompletions t n))
        (e.map OutlineError.gist) := by
  induction n generalizing m cs with
  | zero => omega
  | succ n ih =>
    rw [Machine.settleToken] at hs
    rw [settleCompletions]
    generalize hv : m.visit t = r at hs
    obtain ⟨k, v⟩ := r
    have hturn := turn_of_visit h.fits hv
    cases v with
    | taken =>
      cases hs
      obtain ⟨t', -, htok, hsound⟩ := h.taken ht hturn
      obtain ⟨u, hu, hpasses⟩ := hturn.gist_of_taken h ht hw
      obtain rfl : t' = u := by simpa using htok.symm.trans hu
      rw [List.append_nil]
      refine ⟨ts ++ [t'], ⟨?_, ?_, by simp⟩, fun _ => ⟨hsound, hturn.rests h hr⟩, hpasses⟩
      · simpa using htok
      · rw [List.length_append, List.length_singleton]
        exact List.forall_mem_append.2
          ⟨fun c hc => (hw c hc).mono (Nat.le_succ _), hturn.within h ht⟩
    | handedOn =>
      obtain ⟨htok, hsound, hlt⟩ := h.handedOn ht hturn
      have hwithin := List.forall_mem_append.2 ⟨hw, hturn.within_of_handedOn h ht⟩
      dsimp only at hs ⊢
      rw [← List.append_assoc]
      rcases hturn.gist_of_handedOn ht hr with ⟨hgist, hrests⟩ | ⟨hk, hvisit⟩
      · rw [← hgist]
        exact ih hsound htok hwithin hrests (by omega) hs
      · obtain ⟨us, harrives, hok, hpasses⟩ :=
          ih hsound htok hwithin (by simp [hk]) (by omega) hs
        exact ⟨us, harrives, hok, .handedOn hk hvisit hpasses⟩
    | failed e =>
      cases hs
      obtain ⟨us, htok, hwithin, hpasses⟩ := hturn.gist_of_failed h ht hw hr
      rw [List.append_nil]
      refine ⟨us, ⟨htok, hwithin, ?_⟩, by simp, hpasses⟩
      rintro f ⟨⟩
      rcases hturn.failed with ⟨c, rfl⟩ | ⟨x, rfl⟩ <;> rfl

/-- A run reads what the gist reads: the tokens that are neither blank nor comments. -/
theorem Sound.run_gist {tokens : List Token} {e : Option OutlineError} (h : m.Sound ts)
    (ht : m.sheet.tokens.toList = ts) (cs : List Completion) (hw : ∀ c ∈ cs, c.Within ts.length)
    (hr : ∀ t ∈ tokens.head?, t.kind.isTrivia = true → m.control.state.rests = true)
    (hrun : m.run (tokens.map .ok) = (m', e)) :
    ∃ us, m'.Arrives e us (cs ++ m.completions (tokens.map .ok)) ∧
      (m.gist ts cs).Runs (significant tokens)
        (m'.gist us (cs ++ m.completions (tokens.map .ok))) (e.map OutlineError.gist) := by
  induction tokens generalizing m ts cs with
  | nil =>
    simp only [List.map_nil, run] at hrun
    simp only [List.map_nil, completions, List.append_nil]
    split at hrun
    · rename_i hd
      cases hrun
      exact ⟨ts, ⟨by simpa using ht, hw, by simp⟩, .done hd⟩
    · rename_i hd
      cases hrun
      refine ⟨ts, ⟨by simpa [OutlineError.token?] using ht, hw, ?_⟩, .nil (Bool.eq_false_iff.2 hd)⟩
      rintro f ⟨⟩
      rfl
  | cons t tokens ih =>
    simp only [List.map_cons, run] at hrun
    simp only [List.map_cons, completions]
    cases hd : m.done with
    | true =>
      simp only [hd, if_true, Prod.mk.injEq] at hrun
      obtain ⟨rfl, rfl⟩ := hrun
      simp only [if_true, List.append_nil]
      exact ⟨ts, ⟨by simpa using ht, hw, by simp⟩, .done hd⟩
    | false =>
      simp only [hd, Bool.false_eq_true, if_false] at hrun ⊢
      generalize hf : m.feed t = r at hrun ⊢
      obtain ⟨k, f⟩ := r
      have hpush : (m.sheet.push t).tokens.toList = ts ++ [t] := by simp [Sheet.push, ht]
      obtain ⟨us, harrives, hok, hpasses⟩ :=
        (h.push t).settleToken_gist hpush hw (hr t rfl) (handovers_lt _ _) hf
      cases f with
      | none =>
        obtain ⟨hsound, hrests⟩ := hok rfl
        dsimp only at hrun ⊢
        rw [← List.append_assoc]
        obtain ⟨vs, harrives', hruns⟩ := ih hsound (by simpa using harrives.tokens)
          _ harrives.within (fun _ _ _ => hrests) hrun
        exact ⟨vs, harrives', .passes hd hpasses hruns⟩
      | some f =>
        cases hrun
        dsimp only
        rw [List.append_nil]
        exact ⟨us, harrives, .passes_failed hd hpasses⟩

end Machine

/-! ## Two runs -/

/-- Two runs end alike: both at the end of the document, at a token that is refused for the same
reason, at a name after `end` that is not the construct's own, or where the tokens end. -/
inductive SameEnd : Option OutlineError → Option OutlineError → Prop
  | ended : SameEnd none none
  | refused (t : Token) (c : Complaint) : SameEnd (some (.refused t c)) (some (.refused t c))
  | nameMismatch {x y : NameMismatch} (h : x.unnumbered = y.unnumbered) :
      SameEnd (some (.nameMismatch x)) (some (.nameMismatch y))
  | unexpectedEnd (state state' : String) :
      SameEnd (some (.unexpectedEnd state)) (some (.unexpectedEnd state'))

/-- Two runs, which complete the blocks `cs` and `cs'`, do the same but for blanks and comments:
they end alike, after the same tokens, with the same blocks and the same warnings. -/
structure SameRun (r r' : Machine × Option OutlineError) (cs cs' : List Completion) : Prop where
  ending : SameEnd r.2 r'.2
  read : significant r.1.sheet.tokens.toList = significant r'.1.sheet.tokens.toList
  blocks : cs.map (·.logical r.1.sheet.tokens.toList) =
    cs'.map (·.logical r'.1.sheet.tokens.toList)
  warnings : r.1.warnings.toList.map NameMismatch.unnumbered =
    r'.1.warnings.toList.map NameMismatch.unnumbered

theorem OutlineError.token?_gist (e : OutlineError) : e.gist.token? = e.token? := by
  cases e <;> rfl

theorem sameEnd_of_gist {e e' : OutlineError} (h : e.isSyntactic = true)
    (hg : e.gist = e'.gist) : SameEnd (some e) (some e') := by
  cases e with
  | refused t c =>
    cases e' with
    | refused =>
      cases hg
      exact .refused t c
    | _ => cases hg
  | nameMismatch x =>
    cases e' with
    | nameMismatch y => exact .nameMismatch (OutlineError.nameMismatch.inj hg)
    | _ => cases hg
  | unexpectedEnd state =>
    cases e' with
    | unexpectedEnd state' => exact .unexpectedEnd state state'
    | _ => cases hg
  | lexical | internal => cases h

/-- Runs with the same gist do the same. -/
theorem sameRun_of_gist {r r' : Machine × Option OutlineError} {us us' : List Token}
    {cs cs' : List Completion} (h : r.1.Arrives r.2 us cs) (h' : r'.1.Arrives r'.2 us' cs')
    (hg : r.1.gist us cs = r'.1.gist us' cs')
    (he : r.2.map OutlineError.gist = r'.2.map OutlineError.gist) : SameRun r r' cs cs' := by
  obtain ⟨m, e⟩ := r
  obtain ⟨m', e'⟩ := r'
  have htoken : ∀ e : Option OutlineError,
      e.bind OutlineError.token? = (e.map OutlineError.gist).bind OutlineError.token? := by
    intro e
    cases e with
    | none => rfl
    | some e => exact e.token?_gist.symm
  refine ⟨?_, ?_, ?_, congrArg Gist.warnings hg⟩
  · cases e with
    | none =>
      cases e' with
      | none => exact .ended
      | some => cases he
    | some e =>
      cases e' with
      | none => cases he
      | some e' => exact sameEnd_of_gist (h.isSyntactic e rfl) (Option.some.inj he)
  · have hread : significant us = significant us' := congrArg Gist.read hg
    rw [h.tokens, h'.tokens, significant_append, significant_append, hread, htoken e, htoken e', he]
  · have hblocks : cs.map (·.logical us) = cs'.map (·.logical us') := congrArg Gist.blocks hg
    rw [h.tokens, h'.tokens, map_logical_append h.within, map_logical_append h'.within, hblocks]

/-- The gist of a whole run. -/
theorem Machine.run_gist_start {tokens : List Token}
    (h : ∀ t ∈ tokens.head?, t.kind.isTrivia = false) (options : Options) :
    ∃ us, (Machine.run { options } (tokens.map .ok)).1.Arrives
        (Machine.run { options } (tokens.map .ok)).2 us (logicalBlocks (tokens.map .ok) options) ∧
      (({ options } : Machine).gist [] []).Runs (significant tokens)
        ((Machine.run { options } (tokens.map .ok)).1.gist us
          (logicalBlocks (tokens.map .ok) options))
        ((Machine.run { options } (tokens.map .ok)).2.map OutlineError.gist) := by
  refine (sound_start options).run_gist rfl [] (by simp) ?_ rfl
  intro t ht hk
  cases (h t ht).symm.trans hk

/-- **Blanks and comments do not matter.** Outlining tokens does the same as outlining them without
blanks and comments. -/
theorem run_significant {tokens : List Token} {options : Options}
    (h : tokens.head?.map Token.kind = some .startOfDocument) :
    SameRun (Machine.run { options } (tokens.map .ok))
      (Machine.run { options } ((significant tokens).map .ok))
      (logicalBlocks (tokens.map .ok) options)
      (logicalBlocks ((significant tokens).map .ok) options) := by
  have hhead : ∀ t ∈ tokens.head?, t.kind.isTrivia = false := by
    intro t ht
    rw [Option.mem_def.1 ht] at h
    rw [Option.some.inj h]
    rfl
  have hhead' : ∀ t ∈ (significant tokens).head?, t.kind.isTrivia = false := by
    intro t ht
    have hmem := (List.mem_filter.1 (List.mem_of_head? ht)).2
    simpa [Token.isSignificant] using hmem
  have hfilter : significant (significant tokens) = significant tokens := by
    simp [significant, List.filter_filter]
  obtain ⟨us, harrives, hruns⟩ := Machine.run_gist_start hhead options
  obtain ⟨us', harrives', hruns'⟩ := Machine.run_gist_start hhead' options
  rw [hfilter] at hruns'
  obtain ⟨hg, he⟩ := hruns.unique hruns'
  exact sameRun_of_gist harrives harrives' hg he

/-- A package whose end is split by a comment and has another package's name. -/
theorem run_significant_split :
    let tokens := (tokenize "package p is end /* of */ q;").filterMap Except.toOption
    tokens.head?.map Token.kind = some .startOfDocument ∧
    SameRun (Machine.run {} (tokens.map .ok)) (Machine.run {} ((significant tokens).map .ok))
      (logicalBlocks (tokens.map .ok) {}) (logicalBlocks ((significant tokens).map .ok) {}) := by
  have hhead : ((tokenize "package p is end /* of */ q;").filterMap Except.toOption).head?.map
      Token.kind = some .startOfDocument := by
    decide +kernel
  exact ⟨hhead, run_significant hhead⟩

end VhdlOutline
