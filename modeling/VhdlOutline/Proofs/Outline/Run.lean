import Mathlib.Data.List.Forall2
import VhdlOutline.Outline.Parser
import VhdlOutline.Proofs.Block.Sheet
import VhdlOutline.Proofs.Outline.Turn

/-!
# Sound machines and their runs

What holds of a machine whenever it faces a token: the state fits the stack, the sheet is laid out,
and the block under construction has come as far as the state relies on. This is `Machine.Sound`.
Every turn keeps it, so that a run never ends in an inconsistency of the machine itself.

`Machine.run_induction` packages the induction over a run: a property that every turn of a sound
machine keeps holds when the end of the document has been read.
-/

namespace VhdlOutline

/-! ## Settled tokens -/

/-- The token `t'` is `t`, its kind perhaps settled. -/
def Token.Settles (t t' : Token) : Prop :=
  ∃ kind, t' = { t with kind } ∧
    (kind = t.kind ∨ kind = t.settled ∨ kind = t.settledInExpression)

namespace Token

theorem settles_self (t : Token) : t.Settles t := ⟨t.kind, rfl, .inl rfl⟩

theorem settles_reading (s : State) (t : Token) : t.Settles { t with kind := s.reading t } := by
  refine ⟨_, rfl, ?_⟩
  unfold State.reading
  split
  · exact .inr (.inr rfl)
  · exact .inl rfl
  · exact .inr (.inl rfl)

theorem Settles.text {t t' : Token} (h : t.Settles t') : t'.text = t.text := by
  obtain ⟨_, rfl, -⟩ := h
  rfl

/-- Settling a token leaves alone what is neither a word nor a symbol. -/
theorem Settles.kind_iff {t t' : Token} (h : t.Settles t') (p : TokenKind → Bool)
    (hw : p .word = false) (hi : p .identifier = false) (hk : ∀ k, p (.keyword k) = false)
    (hc : ∀ c, p (.character c) = false) (hs : ∀ s, p (.compound s) = false)
    (ho : ∀ o, p (.operator o) = false) : p t'.kind = p t.kind := by
  obtain ⟨kind, rfl, rfl | rfl | rfl⟩ := h
  · rfl
  · unfold settled
    split
    · split <;> simp [*]
    · rfl
  · unfold settledInExpression settled
    split
    · split <;> simp [*]
    · split <;> simp [*]
    · split
      · split <;> simp [*]
      · rfl

theorem Settles.isTrivia {t t' : Token} (h : t.Settles t') :
    t'.kind.isTrivia = t.kind.isTrivia := by
  apply h.kind_iff <;> intros <;> rfl

theorem Settles.isStart {t t' : Token} (h : t.Settles t') :
    t'.kind = .startOfDocument ↔ t.kind = .startOfDocument := by
  have := h.kind_iff (decide <| · = .startOfDocument) (by simp) (by simp) (by simp) (by simp)
    (by simp) (by simp)
  simpa using this

theorem Settles.isEnd {t t' : Token} (h : t.Settles t') :
    t'.kind = .endOfDocument ↔ t.kind = .endOfDocument := by
  have := h.kind_iff (decide <| · = .endOfDocument) (by simp) (by simp) (by simp) (by simp)
    (by simp) (by simp)
  simpa using this

theorem isTrivia_of_keyword? {t : Token} {k : Keyword} (h : t.keyword? = some k) :
    t.kind.isTrivia = false := by
  unfold keyword? at h
  split at h <;> simp_all [TokenKind.isTrivia]

theorem isTrivia_of_isKeyword {t : Token} {k : Keyword} (h : t.isKeyword k) :
    t.kind.isTrivia = false :=
  isTrivia_of_keyword? (of_decide_eq_true h)

theorem isTrivia_of_isChar {t : Token} {c : Char} (h : t.isChar c) : t.kind.isTrivia = false := by
  rw [of_decide_eq_true h]
  rfl

theorem isTrivia_of_isName {t : Token} (h : t.isName) : t.kind.isTrivia = false := by
  unfold isName at h
  split at h <;> simp_all [TokenKind.isTrivia]

theorem not_isName_of_keyword? {t : Token} {k : Keyword} (h : t.keyword? = some k) :
    ¬ t.isName := by
  unfold keyword? at h
  unfold isName
  split at h <;> simp_all

end Token

namespace State

/-- A state that sees blanks and comments takes none of them. -/
theorem Allows.isTrivia_of_take {s : State} {t : Token} {before closing : Option BlockKind}
    {next : Next} (h : s.Allows t (.take before closing next)) (hs : s.trivia = .seen) :
    t.kind.isTrivia = false := by
  cases h with
  | documentStart h => rw [h]; rfl
  | functionPurity h =>
    rcases Bool.or_eq_true_iff.1 h with h | h <;> exact Token.isTrivia_of_isKeyword h
  | loopDirection h =>
    rcases Bool.or_eq_true_iff.1 h with h | h <;> exact Token.isTrivia_of_isKeyword h
  | endName hp => rcases hp with rfl | rfl <;> cases hs
  | _ =>
    first
    | exact Token.isTrivia_of_isKeyword ‹_›
    | exact Token.isTrivia_of_isChar ‹_›
    | exact Token.isTrivia_of_isName ‹_›
    | simp [trivia] at hs

/-- A token that a state takes is neither blank nor a comment. -/
theorem Allows.not_isTrivia {s : State} {t : Token} {before closing : Option BlockKind}
    {next : Next} (h : s.Allows t (.take before closing next))
    (ht : t.kind.isTrivia = true → s.trivia = .seen) : t.kind.isTrivia = false := by
  cases hk : t.kind.isTrivia with
  | false => rfl
  | true => exact hk.symm.trans (h.isTrivia_of_take (ht hk))

end State

/-! ## The sheet after a token has been taken -/

namespace Sheet

variable {s : Sheet} {ts : List Token} {t : Token}

theorem tokens_cutBefore (s : Sheet) (before : Option BlockKind) :
    (s.cutBefore before).tokens = s.tokens := by
  cases before <;> rfl

theorem index_cutBefore (s : Sheet) (before : Option BlockKind) :
    (s.cutBefore before).index = s.index := by
  cases before <;> rfl

theorem Laid.cutBefore (h : s.Laid s.index) (before : Option BlockKind) :
    (s.cutBefore before).Laid s.index := by
  cases before with
  | none => exact h
  | some kind => exact h.cut kind

theorem toList_tokens_taking (ht : s.tokens.toList = ts ++ [t])
    (before closing : Option BlockKind) (kind : TokenKind) :
    (s.taking before closing kind).tokens.toList = ts ++ [{ t with kind }] := by
  have hc : (s.cutBefore before).tokens.toList = ts ++ [t] := by rw [tokens_cutBefore, ht]
  have := Chain.toList_modifyLast hc fun t => { t with kind }
  cases closing <;> exact this

theorem Laid.taking (h : s.Laid s.index) (before closing : Option BlockKind) (kind : TokenKind) :
    (s.taking before closing kind).Laid (s.index + 1) := by
  have hs := (h.cutBefore before).settle kind
  have hi : ((s.cutBefore before).settle kind).index = s.index := by
    rw [index_settle, index_cutBefore]
  cases closing with
  | none => exact hs.mono (Nat.le_succ _)
  | some closing =>
    rw [← hi] at hs
    have := hs.close closing
    rwa [hi] at this

theorem pending_cutBefore (ht : s.tokens.toList = ts ++ [t]) (before : Option BlockKind) :
    (s.cutBefore before).pending ts = if before.isSome then [] else s.pending ts := by
  cases before with
  | none => rfl
  | some kind =>
    apply IsClean.pending
    rw [← index_eq ht]
    exact s.isClean_cut kind

/-- A token that ends no block joins the block under construction. -/
theorem Laid.pending_taking (h : s.Laid ts.length) (ht : s.tokens.toList = ts ++ [t])
    (before : Option BlockKind) (kind : TokenKind) :
    (s.taking before none kind).pending (ts ++ [{ t with kind }]) =
      (if before.isSome then [] else s.pending ts) ++ significant [{ t with kind }] := by
  have hi := index_eq ht
  rw [← hi] at h
  have hs := (h.cutBefore before).settle kind
  rw [hi] at hs
  rw [← pending_cutBefore ht before]
  exact hs.pending_append _

theorem isClean_taking (s : Sheet) (before : Option BlockKind) (closing : BlockKind)
    (kind : TokenKind) : (s.taking before (some closing) kind).IsClean (s.index + 1) := by
  have := isClean_close ((s.cutBefore before).settle kind) closing
  rwa [index_settle, index_cutBefore] at this

theorem tokens_closeAside (s : Sheet) (kind : BlockKind) :
    (s.closeAside kind).tokens = s.tokens := by
  unfold closeAside aside
  split <;> rfl

theorem tokens_interrupt (s : Sheet) : s.interrupt.tokens = s.tokens := by
  unfold interrupt aside
  split
  · split
    · split <;> rfl
    · rfl
  · rfl

theorem Laid.start_interrupt (h : s.Laid s.index) : s.interrupt.start = s.index := by
  have := h.start_le
  unfold Sheet.interrupt
  split
  · split <;> rfl
  · omega

/-- How far the block under construction has come. -/
def Stands (s : Sheet) (ts : List Token) : Posture → Prop
  | .clean => s.IsClean ts.length
  | .begun => s.pending ts ≠ []
  | .any => True

theorem Stands.accepted {p : Posture} {state : State} (h : s.Stands ts p)
    (ha : state.Accepts p) : s.Stands ts state.posture := by
  rcases ha with ha | ha
  · rw [ha]
    trivial
  · rwa [ha]

theorem Stands.of_pending {s' : Sheet} {ts' : List Token} {p : Posture} (h : s.Stands ts p)
    (hp : p ≠ .clean) (hs : s.pending ts ≠ [] → s'.pending ts' ≠ []) : s'.Stands ts' p := by
  cases p with
  | clean => exact absurd rfl hp
  | begun => exact hs h
  | any => trivial

theorem Stands.cutBefore (ht : s.tokens.toList = ts ++ [t]) {p : Posture} (h : s.Stands ts p)
    (before : Option BlockKind) :
    (s.cutBefore before).Stands ts (if before.isSome then .clean else p) := by
  cases before with
  | none => exact h
  | some kind =>
    have := s.isClean_cut kind
    rwa [index_eq ht] at this

theorem Laid.stands_taking (h : s.Laid ts.length) (ht : s.tokens.toList = ts ++ [t])
    {kind : TokenKind} (hk : kind.isTrivia = false) (before closing : Option BlockKind) :
    (s.taking before closing kind).Stands (ts ++ [{ t with kind }])
      (if closing.isSome then .clean else .begun) := by
  cases closing with
  | none =>
    show (s.taking before none kind).pending _ ≠ []
    rw [h.pending_taking ht, significant_singleton hk]
    simp
  | some closing =>
    have := s.isClean_taking before closing kind
    rw [index_eq ht] at this
    simpa [Stands] using this

end Sheet

/-! ## Sound machines -/

namespace Machine

open State

/-- What holds of a machine that has read the tokens `ts`, before it deals with the next one. -/
structure Sound (m : Machine) (ts : List Token) : Prop where
  fits : Fits m.control.state m.control.stack
  laid : m.sheet.Laid ts.length
  stands : m.sheet.Stands ts m.control.state.posture
  /-- An interruption has set everything aside. -/
  aside : m.control.isAside = true → m.sheet.start = ts.length ∧ m.control.state.trivia = .inside

theorem sound_start (options : Options) : ({ options } : Machine).Sound [] where
  fits := .outer rfl
  laid := Sheet.laid_empty
  stands := trivial
  aside := by simp

theorem Sound.push {m : Machine} {ts : List Token} (h : m.Sound ts) (t : Token) :
    { m with sheet := m.sheet.push t }.Sound ts :=
  { h with laid := h.laid.push t }

theorem posture_ne_clean {s : State} (h : s.trivia = .inside) : s.posture ≠ .clean := by
  rw [Ne, posture_eq_clean_iff, h]
  simp

/-- Where a move leads, the block under construction has come as far as the state relies on. -/
theorem stands_follow {c c' : Control} {next : Next} {s : Sheet} {ts : List Token} {p : Posture}
    (hf : Fits c.state c.stack) (hc : c.follow next = .ok c') (hl : next.Lands p)
    (hs : s.Stands ts p) : s.Stands ts c'.state.posture := by
  have harrives := hf.arrives hc
  generalize c'.state = s' at harrives ⊢
  cases harrives with
  | goto => exact hs.accepted hl
  | call => exact hs.accepted hl.1
  | document =>
    obtain rfl : p = .clean := hl
    exact hs
  | frame _ h =>
    obtain rfl : p = .clean := hl
    exact hs.accepted (isFrame_accepts_clean h)
  | expression _ h =>
    obtain rfl : p = .clean := hl
    exact hs.accepted (isAfterExpression_accepts_clean h)

/-- How often a machine that faces the token `t` hands it on, at most. A blank or comment may
interrupt a state, and an interrupted state resumes. -/
def handovers (m : Machine) (t : Token) : Nat :=
  if t.kind.isTrivia = m.control.isAside then
    if m.control.isAside then 0 else m.control.state.rank
  else m.control.state.rank + 1

theorem handovers_le (m : Machine) (t : Token) : m.handovers t ≤ 4 := by
  have := m.control.state.rank_le
  unfold handovers
  split
  · split <;> omega
  · omega

theorem handovers_lt (m : Machine) (t : Token) : m.handovers t < visitLimit :=
  Nat.lt_of_le_of_lt (m.handovers_le t) (by decide)

/-- A turn that takes the token. -/
theorem Sound.taken {m m' : Machine} {ts : List Token} {t : Token} {cs : List Completion}
    (h : m.Sound ts) (ht : m.sheet.tokens.toList = ts ++ [t]) (hm : Turn m t cs m' .taken) :
    ∃ t', t.Settles t' ∧ m'.sheet.tokens.toList = ts ++ [t'] ∧ m'.Sound (ts ++ [t']) := by
  have hi := Sheet.index_eq ht
  have hlaid : m.sheet.Laid m.sheet.index := hi ▸ h.laid
  cases hm with
  | trivium htr hs hm =>
    refine ⟨t, t.settles_self, by rw [hm.sheet, Sheet.tokens_closeAside, ht], ?_, ?_, ?_, ?_⟩
    · rw [hm.control]
      exact h.fits
    · rw [hm.sheet, List.length_append, List.length_singleton, ← hi]
      exact hlaid.closeAside (Sheet.isSkippable_triviaKind _ _)
    · rw [hm.sheet, hm.control]
      rcases hs with ha | hs
      · obtain ⟨hstart, hin⟩ := h.aside ha
        refine h.stands.of_pending (posture_ne_clean hin) fun hp => ?_
        rwa [h.laid.pending_closeAside hstart ht]
      · have hclean := (posture_eq_clean_iff _).2 hs
        have hst := h.stands
        rw [hclean] at hst ⊢
        have hsheet : m.sheet.IsClean m.sheet.index := hi.symm ▸ show m.sheet.IsClean _ from hst
        have := hsheet.closeAside (m.sheet.triviaKind t.kind)
        rw [hi] at this
        simpa [Sheet.Stands] using this
    · rw [hm.sheet, hm.control]
      intro ha
      refine ⟨?_, (h.aside ha).2⟩
      simp [Sheet.closeAside, hi]
  | absorb htr ha hs hm =>
    refine ⟨t, t.settles_self, by rw [hm.sheet, ht], ?_, ?_, ?_, ?_⟩
    · rw [hm.control]
      exact h.fits
    · rw [hm.sheet]
      exact h.laid.mono (by simp)
    · rw [hm.sheet, hm.control]
      refine h.stands.of_pending (posture_ne_clean hs) fun hp => ?_
      rw [h.laid.pending_append]
      simp [hp]
    · rw [hm.control, ha]
      intro h
      cases h
  | take ha htr hr hx hc hm =>
    have hallows := allows_of_react hr
    have hk := hallows.not_isTrivia htr
    have hset := Token.settles_reading m.control.state t
    obtain ⟨c', hc', haside, hfits⟩ := h.fits.follow hallows.leads_take
    obtain rfl : _ = c' := Except.ok.inj (hc.symm.trans hc')
    refine ⟨_, hset, ?_, ?_, ?_, ?_, ?_⟩
    · rw [hm.sheet]
      exact Sheet.toList_tokens_taking ht _ _ _
    · rw [hm.control]
      exact hfits
    · rw [hm.sheet, List.length_append, List.length_singleton, ← hi]
      exact hlaid.taking _ _ _
    · rw [hm.sheet, hm.control]
      exact stands_follow h.fits hc hallows.lands_take
        (h.laid.stands_taking ht (hset.isTrivia.trans hk) _ _)
    · rw [hm.control, haside, ha]
      intro h
      cases h
  | finish ha htr hr hm =>
    obtain ⟨hs, -⟩ := (allows_of_react hr).eq_documentRegion_of_finish
    refine ⟨t, t.settles_self, by rw [hm.sheet]; exact ht, ?_, ?_, ?_, ?_⟩
    · rw [hm.control]
      exact h.fits
    · rw [hm.sheet, List.length_append, List.length_singleton, ← hi]
      exact hlaid.close _
    · rw [hm.sheet, hm.control, hs]
      have := m.sheet.isClean_close .endOfDocument
      rw [hi] at this
      simpa [Sheet.Stands, posture] using this
    · rw [hm.control, ha]
      intro h
      cases h

/-- A turn that hands the token on. -/
theorem Sound.handedOn {m m' : Machine} {ts : List Token} {t : Token} {cs : List Completion}
    (h : m.Sound ts) (ht : m.sheet.tokens.toList = ts ++ [t]) (hm : Turn m t cs m' .handedOn) :
    m'.sheet.tokens.toList = ts ++ [t] ∧ m'.Sound ts ∧ m'.handovers t < m.handovers t := by
  have hi := Sheet.index_eq ht
  have hlaid : m.sheet.Laid m.sheet.index := hi ▸ h.laid
  cases hm with
  | resume htr ha hm =>
    refine ⟨by rw [hm.sheet, ht], ⟨?_, ?_, ?_, ?_⟩, ?_⟩
    · rw [hm.control]
      exact h.fits
    · rw [hm.sheet]
      exact h.laid
    · rw [hm.sheet, hm.control]
      exact h.stands
    · rw [hm.control]
      intro h
      cases h
    · simp [handovers, hm.control, htr, ha]
  | interrupt htr ha hs hm =>
    refine ⟨?_, ⟨?_, ?_, ?_, ?_⟩, ?_⟩
    · rw [hm.sheet, Sheet.tokens_interrupt, ht]
    · rw [hm.control]
      exact h.fits
    · rw [hm.sheet, ← hi]
      exact hlaid.interrupt
    · rw [hm.sheet, hm.control]
      refine h.stands.of_pending (posture_ne_clean hs) fun hp => ?_
      rwa [Sheet.pending_interrupt ht]
    · rw [hm.sheet, hm.control, ← hi]
      exact fun _ => ⟨hlaid.start_interrupt, hs⟩
    · simp [handovers, hm.control, htr, ha]
  | pass ha htr hr hc hm =>
    have hallows := allows_of_react hr
    obtain ⟨c', hc', haside, hfits⟩ := h.fits.follow hallows.leads_pass
    obtain rfl : _ = c' := Except.ok.inj (hc.symm.trans hc')
    refine ⟨?_, ⟨?_, ?_, ?_, ?_⟩, ?_⟩
    · rw [hm.sheet, Sheet.tokens_cutBefore, ht]
    · rw [hm.control]
      exact hfits
    · rw [hm.sheet, ← hi]
      exact hlaid.cutBefore _
    · rw [hm.sheet, hm.control]
      exact stands_follow h.fits hc hallows.lands_pass (h.stands.cutBefore ht _)
    · rw [hm.control, haside, ha]
      intro h
      cases h
    · have := h.fits.rank_lt hallows hc
      simp only [handovers, hm.control, haside, ha]
      split <;> simp [this]

/-- A turn that fails finds fault with the token. -/
theorem Turn.failed {m m' : Machine} {t : Token} {cs : List Completion} {e : OutlineError}
    (hm : Turn m t cs m' (.failed e)) :
    (∃ c, e = .refused t c) ∨ ∃ x, e = .nameMismatch x := by
  cases hm with
  | mismatch => exact .inr ⟨_, rfl⟩
  | refuse => exact .inl ⟨_, rfl⟩

/-! ## Runs -/

theorem Turn.done_of_handedOn {m m' : Machine} {t : Token} {cs : List Completion}
    (hm : Turn m t cs m' .handedOn) : m'.done = m.done := by
  cases hm <;> exact ‹Becomes ..›.done

/-- Only the end of the document finishes a run. -/
theorem Turn.isEnd_of_done {m m' : Machine} {t : Token} {cs : List Completion}
    (hm : Turn m t cs m' .taken) (hd : m.done = false) (hd' : m'.done = true) :
    t.kind = .endOfDocument := by
  cases hm with
  | finish _ _ hr => exact (allows_of_react hr).eq_documentRegion_of_finish.2
  | trivium _ _ hm | absorb _ _ _ hm | take _ _ _ _ _ hm =>
    rw [hm.done, hd] at hd'
    cases hd'

/-- A property of a machine, the tokens it has read and the blocks completed so far, that every
turn keeps. -/
structure Kept (P : Machine → List Token → List Completion → Prop) : Prop where
  push {m : Machine} {ts : List Token} {cs : List Completion} (t : Token) :
    P m ts cs → P { m with sheet := m.sheet.push t } ts cs
  handedOn {m m' : Machine} {ts : List Token} {t : Token} {cs ds : List Completion} :
    m.Sound ts → m.sheet.tokens.toList = ts ++ [t] → m.done = false →
      Turn m t ds m' .handedOn → P m ts cs → P m' ts (cs ++ ds)
  taken {m m' : Machine} {ts : List Token} {t t' : Token} {cs ds : List Completion} :
    m.Sound ts → m.sheet.tokens.toList = ts ++ [t] → m.done = false →
      Turn m t ds m' .taken → m'.sheet.tokens.toList = ts ++ [t'] → P m ts cs →
        P m' (ts ++ [t']) (cs ++ ds)

variable {P : Machine → List Token → List Completion → Prop}

/-- What a token does that is handed from state to state until it is taken. -/
theorem Kept.settleToken (hP : Kept P) {m m' : Machine} {ts : List Token} {t : Token}
    {cs : List Completion} {n : Nat} (h : m.Sound ts) (ht : m.sheet.tokens.toList = ts ++ [t])
    (hd : m.done = false) (hp : P m ts cs) (hn : m.handovers t < n)
    (hs : m.settleToken t n = (m', none)) :
    ∃ t', t.Settles t' ∧ m'.sheet.tokens.toList = ts ++ [t'] ∧ m'.Sound (ts ++ [t']) ∧
      (m'.done = true → t.kind = .endOfDocument) ∧
      P m' (ts ++ [t']) (cs ++ m.settleCompletions t n) := by
  induction n generalizing m cs with
  | zero => omega
  | succ n ih =>
    rw [Machine.settleToken] at hs
    rw [settleCompletions]
    generalize hv : m.visit t = r at hs
    obtain ⟨k, v⟩ := r
    have hturn := turn_of_visit h.fits hv
    cases v with
    | taken =>
      cases hs
      obtain ⟨t', hset, htok, hsound⟩ := h.taken ht hturn
      refine ⟨t', hset, htok, hsound, hturn.isEnd_of_done hd, ?_⟩
      simpa using hP.taken h ht hd hturn htok hp
    | handedOn =>
      obtain ⟨htok, hsound, hlt⟩ := h.handedOn ht hturn
      have hk := hP.handedOn h ht hd hturn hp
      have := ih hsound htok (hturn.done_of_handedOn.trans hd) hk (by omega) hs
      simpa [List.append_assoc] using this
    | failed e => cases hs

theorem Kept.feed (hP : Kept P) {m m' : Machine} {ts : List Token} {cs : List Completion}
    (h : m.Sound ts) (ht : m.sheet.tokens.toList = ts) (hd : m.done = false) (hp : P m ts cs)
    {t : Token} (hf : m.feed t = (m', none)) :
    ∃ t', t.Settles t' ∧ m'.sheet.tokens.toList = ts ++ [t'] ∧ m'.Sound (ts ++ [t']) ∧
      (m'.done = true → t.kind = .endOfDocument) ∧
      P m' (ts ++ [t']) (cs ++ m.feedCompletions t) := by
  refine hP.settleToken (h.push t) ?_ hd (hP.push t hp) (handovers_lt _ _) hf
  simp [Sheet.push, ht]

theorem done_of_run {m m' : Machine} {xs : List (Except LexError Token)}
    (h : m.run xs = (m', none)) : m'.done = true := by
  fun_induction run m xs with
  | case1 m hd => cases h; exact hd
  | case3 m x xs hd => cases h; exact hd
  | case5 m xs hd t k hf ih => exact ih h
  | _ => cases h

/-- **Induction over a run** that reads the end of the document. -/
theorem run_induction (hP : Kept P) {m m' : Machine} {ts : List Token} {cs : List Completion}
    (h : m.Sound ts) (ht : m.sheet.tokens.toList = ts) (hd : m.done = false) (hp : P m ts cs)
    {xs : List (Except LexError Token)} (hr : m.run xs = (m', none)) :
    ∃ us us' rest, xs = us.map .ok ++ rest ∧ List.Forall₂ Token.Settles us us' ∧
      (∃ e ∈ us.getLast?, e.kind = .endOfDocument) ∧ m'.sheet.tokens.toList = ts ++ us' ∧
      m'.Sound (ts ++ us') ∧ P m' (ts ++ us') (cs ++ m.completions xs) := by
  induction xs generalizing m ts cs with
  | nil => simp [run, hd] at hr
  | cons x xs ih =>
    simp only [run, hd, Bool.false_eq_true, if_false] at hr
    simp only [completions, hd, Bool.false_eq_true, if_false]
    cases x with
    | error e => simp at hr
    | ok t =>
      dsimp only at hr ⊢
      generalize hf : m.feed t = r at hr
      obtain ⟨k, _ | e⟩ := r
      · obtain ⟨t', hset, htok, hsound, hend, hk⟩ := hP.feed h ht hd hp hf
        dsimp only at hr ⊢
        cases hkd : k.done with
        | true =>
          -- The run is over: whatever follows the end of the document is not read.
          have hk' : k = m' ∧ k.completions xs = [] := by
            cases xs <;> simp_all [run, completions]
          obtain ⟨rfl, hc⟩ := hk'
          refine ⟨[t], [t'], xs, rfl, .cons hset .nil, ⟨t, rfl, hend hkd⟩, htok, hsound, ?_⟩
          simpa [hc] using hk
        | false =>
          obtain ⟨us, us', rest, rfl, hus, ⟨e, he, hek⟩, htok', hsound', hk'⟩ :=
            ih hsound htok hkd hk hr
          refine ⟨t :: us, t' :: us', rest, rfl, .cons hset hus, ⟨e, ?_, hek⟩, ?_, ?_, ?_⟩
          · cases us with
            | nil => cases he
            | cons u us => simpa using he
          · simpa using htok'
          · simpa using hsound'
          · simpa [List.append_assoc] using hk'
      · cases hr

theorem run_induction_start (hP : Kept P) {options : Options} (hp : P { options } [] [])
    {xs : List (Except LexError Token)} {m : Machine}
    (hr : Machine.run { options } xs = (m, none)) :
    ∃ us us' rest, xs = us.map .ok ++ rest ∧ List.Forall₂ Token.Settles us us' ∧
      (∃ e ∈ us.getLast?, e.kind = .endOfDocument) ∧ m.sheet.tokens.toList = us' ∧
      m.Sound us' ∧ P m us' (completions { options } xs) :=
  run_induction hP (sound_start options) rfl rfl hp hr

end Machine

/-- An outline is what a run has put on the sheet. -/
theorem outline_ok {xs : List (Except LexError Token)} {options : Options} {d : Document}
    (h : outline xs options = .ok d) :
    ∃ m, Machine.run { options } xs = (m, none) ∧ d = m.document := by
  unfold outline at h
  split at h
  · rename_i m hm
    cases h
    exact ⟨m, hm, rfl⟩
  · cases h

end VhdlOutline
