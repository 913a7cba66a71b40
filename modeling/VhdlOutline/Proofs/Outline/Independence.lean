import VhdlOutline.Proofs.Outline.Delivery
import VhdlOutline.Proofs.Outline.Shift

/-!
# Design units do not influence each other

When the end of a document is accepted, the machine is back between design units with nothing under
construction. Whatever comes then is read as it would be read at the start of a document.

`Machine.Behind` relates a machine to one that has read a past before. It is kept by every visit
(`Machine.parallel_visit`), hence by a token that is handed from state to state, and by whole runs
(`Machine.run_behind`). `units_independent` is what this says about outlines.
-/

namespace VhdlOutline

/-- The verdict, with the numbers of tokens shifted. -/
def Verdict.shift (n : Nat) : Verdict → Verdict
  | .failed e => .failed (e.shift n)
  | v => v

namespace Machine

open State

/-- The machine `m'` is `m` with the past `p` in place of the start of the document, when token
number `k` comes. -/
structure Behind (p : Past) (k : Nat) (m m' : Machine) : Prop where
  options : m'.options = m.options
  control : m'.control = m.control.shift p.offset
  sheet : m.sheet.Behind p k m'.sheet
  warnings : m'.warnings.toList =
    p.warnings ++ m.warnings.toList.map (NameMismatch.shift p.offset)
  done : m'.done = m.done

/-- What a visit does when token number `k` comes, with and without the past. -/
inductive Parallel (p : Past) (k : Nat) : Machine × Verdict → Machine × Verdict → Prop
  | taken {m m' : Machine} (h : m.Behind p (k + 1) m') : Parallel p k (m, .taken) (m', .taken)
  | handedOn {m m' : Machine} (h : m.Behind p k m') : Parallel p k (m, .handedOn) (m', .handedOn)
  | failed {m m' : Machine} {j : Nat} {e : OutlineError} (h : m.Behind p j m') :
      Parallel p k (m, .failed e) (m', .failed (e.shift p.offset))

variable {p : Past} {k : Nat} {m m' : Machine} {ts : List Token} {t : Token}

theorem Behind.log (h : m.Behind p k m') (e e' : Event) : (m.log e).Behind p k (m'.log e') :=
  ⟨h.options, h.control, h.sheet, h.warnings, h.done⟩

theorem Behind.noted (h : m.Behind p k m') (note : Option Note) :
    (m.noted note).Behind p k (m'.noted note) := by
  cases note with
  | none => exact h
  | some note => exact h.log _ _

/-- Going on as a move says. -/
theorem Behind.follow {j : Nat} (h : m.Behind p j m') (next : Next) {v : Verdict}
    (hv : ∀ n n', n.Behind p j n' → Parallel p k (n, v) (n', v)) :
    Parallel p k (m.follow next v) (m'.follow (next.shift p.offset) v) := by
  have hf : m'.control.follow (next.shift p.offset) =
      (m.control.follow next).map (Control.shift p.offset) := by
    rw [h.control, Control.follow_shift]
  have hname : m'.control.name = m.control.name := by rw [h.control, Control.name_shift]
  unfold Machine.follow
  rw [hf, hname]
  cases m.control.follow next with
  | ok c => exact hv _ _ ⟨h.options, rfl, h.sheet, h.warnings, h.done⟩
  | error f => exact .failed h

theorem Behind.taking (h : m.Behind p k m') (hp : p.tokens ≠ []) (hs : m.sheet.start ≤ k)
    (ht : m.sheet.tokens.toList = ts ++ [t]) (hk : ts.length = k) (hpos : 0 < k)
    {before closing : Option BlockKind} (hb : ∀ kind ∈ before, kind ≠ .linebreak)
    (hc : ∀ kind ∈ closing, kind ≠ .linebreak) :
    (m.taking t before closing).Behind p (k + 1) (m'.taking t before closing) := by
  have hm := becomes_taking m t before closing
  have hm' := becomes_taking m' t before closing
  refine ⟨?_, ?_, ?_, ?_, ?_⟩
  · rw [hm.options, hm'.options, h.options]
  · rw [hm.control, hm'.control, h.control]
  · rw [hm.sheet, hm'.sheet, h.control]
    have hread := m.control.state.reading_shift p.offset t
    rw [show (m.control.shift p.offset).state.reading t = _ from hread]
    exact h.sheet.taking hp hs ht hk hpos hb hc _
  · rw [hm.warnings, hm'.warnings, h.warnings]
  · rw [hm.done, hm'.done, h.done]

/-- Carrying out a move. -/
theorem Behind.act (h : m.Behind p k m') (hp : p.tokens ≠ []) (hs : m.sheet.start ≤ k)
    (ht : m.sheet.tokens.toList = ts ++ [t]) (hk : ts.length = k) (hpos : 0 < k) {move : Move}
    (hkinds : ∀ kind ∈ move.kinds, kind ≠ .linebreak) (x : Option NameMismatch) :
    Parallel p k (m.act t x move)
      (m'.act t (x.map (NameMismatch.shift p.offset)) (move.shift p.offset)) := by
  have hi : m.sheet.index = k := hk ▸ Sheet.index_eq ht
  cases move with
  | take before closing next =>
    have htaking : (m.taking t before closing).Behind p (k + 1) (m'.taking t before closing) :=
      h.taking hp hs ht hk hpos
        (fun kind hb => hkinds kind (by simp [Move.kinds, Option.mem_def.1 hb]))
        (fun kind hc => hkinds kind (by simp [Move.kinds, Option.mem_def.1 hc]))
    simp only [Machine.act, Move.shift]
    generalize m.taking t before closing = n, m'.taking t before closing = n' at htaking
    cases x with
    | none => exact htaking.follow next fun _ _ => .taken
    | some x =>
      have hopt : n'.options.strictNames = n.options.strictNames := by rw [htaking.options]
      simp only [mismatched, Option.map_some, hopt]
      cases n.options.strictNames with
      | true => exact .failed htaking
      | false =>
        simp only [Bool.false_eq_true, if_false]
        refine Behind.follow (j := k + 1) ?_ next fun _ _ => .taken
        refine ⟨htaking.options, htaking.control, htaking.sheet, ?_, htaking.done⟩
        simp [Machine.log, htaking.warnings]
  | pass before next =>
    have hb : ∀ kind ∈ before, kind ≠ .linebreak := fun kind hb =>
      hkinds kind (by simp [Move.kinds, Option.mem_def.1 hb])
    have hm := becomes_cut m before
    have hm' := becomes_cut m' before
    simp only [Machine.act, Move.shift]
    refine Behind.follow (j := k) ?_ next fun _ _ => .handedOn
    refine ⟨?_, ?_, ?_, ?_, ?_⟩
    · rw [hm.options, hm'.options, h.options]
    · rw [hm.control, hm'.control, h.control]
    · rw [hm.sheet, hm'.sheet]
      exact h.sheet.cutBefore hp hi hs hb
    · rw [hm.warnings, hm'.warnings, h.warnings]
    · rw [hm.done, hm'.done, h.done]
  | finish =>
    have hstack : m'.control.stack.isEmpty = m.control.stack.isEmpty := by
      rw [h.control]
      simp [Control.shift]
    have hname : m'.control.name = m.control.name := by rw [h.control, Control.name_shift]
    simp only [Machine.act, Move.shift, Machine.finish, hstack, hname]
    split
    · refine .taken ⟨h.options, h.control, ?_, h.warnings, rfl⟩
      exact h.sheet.close hp (by simp)
    · exact .failed h

/-- The reaction of the current state. -/
theorem Behind.react (h : m.Behind p k m') (hp : p.tokens ≠ []) (hs : m.sheet.start ≤ k)
    (ht : m.sheet.tokens.toList = ts ++ [t]) (hk : ts.length = k) (hpos : 0 < k) :
    Parallel p k (m.react t) (m'.react t) := by
  have hr : m'.control.state.react m'.sheet.index t =
      (m.control.state.react m.sheet.index t).map (Reaction.shift p.offset) := by
    rw [h.control, h.sheet.index hp]
    exact m.control.state.react_shift p.offset m.sheet.index t
  unfold Machine.react
  rw [hr]
  cases hok : m.control.state.react m.sheet.index t with
  | error c => exact .failed h
  | ok r =>
    simp only [Except.map, perform_eq]
    obtain ⟨hopt, hctl, hsheet, hw, hd⟩ := becomes_noted m r.note
    refine (h.noted r.note).act hp (by rwa [hsheet]) (by rwa [hsheet]) hk hpos ?_ r.mismatch
    rintro kind hkind rfl
    exact absurd ((allows_of_react hok).not_isSkippable _ hkind) (by decide)

/-- **One visit** with and without the past. -/
theorem parallel_visit (h : m.Behind p k m') (hp : p.tokens ≠ []) (hs : m.Sound ts)
    (ht : m.sheet.tokens.toList = ts ++ [t]) (hk : ts.length = k) (hpos : 0 < k) :
    Parallel p k (m.visit t) (m'.visit t) := by
  have hi : m.sheet.index = k := hk ▸ Sheet.index_eq ht
  have hstart : m.sheet.start ≤ k := hk ▸ hs.laid.start_le
  have hreact := (h.log (.visit m.control.name t) (.visit m'.control.name t)).react hp hstart ht hk
    hpos
  have haside : m'.control.isAside = m.control.isAside := by rw [h.control]; rfl
  have htrivia : m'.control.state.trivia = m.control.state.trivia := by
    rw [h.control]
    exact m.control.state.trivia_shift p.offset
  unfold visit
  cases ha : m.control.isAside with
  | true =>
    have ha' : m'.control.isAside = true := haside.trans ha
    simp only [Machine.log, ha, ha', if_true]
    obtain ⟨hclear, -⟩ := hs.aside ha
    split
    · refine .taken ⟨h.options, h.control, ?_, h.warnings, h.done⟩
      exact h.sheet.closeAside hp (hk ▸ hclear) t.kind
    · refine .handedOn ⟨h.options, ?_, h.sheet, h.warnings, h.done⟩
      dsimp only
      rw [h.control]
      rfl
  | false =>
    have ha' : m'.control.isAside = false := haside.trans ha
    simp only [Machine.log, ha, ha', Bool.false_eq_true, if_false]
    split
    · simp only [htrivia]
      cases htr : m.control.state.trivia with
      | apart =>
        have hclean : m.sheet.IsClean ts.length := by
          have := hs.stands
          rwa [(posture_eq_clean_iff _).2 htr] at this
        refine .taken ⟨h.options, h.control, ?_, h.warnings, h.done⟩
        exact h.sheet.closeAside hp (hk ▸ hclean.2) t.kind
      | inside =>
        dsimp only
        split
        · exact .taken ⟨h.options, h.control, h.sheet.succ hstart, h.warnings, h.done⟩
        · refine .handedOn ⟨h.options, ?_, h.sheet.interrupt hp hi, h.warnings, h.done⟩
          simp only [interrupt]
          rw [h.control]
          rfl
      | seen => exact hreact
    · exact hreact

/-! ## Tokens and runs -/

/-- Reading token number `k` with and without the past, once it has been put on the sheet. -/
theorem Behind.settleToken (h : m.Behind p k m') (hp : p.tokens ≠ []) (hs : m.Sound ts)
    (ht : m.sheet.tokens.toList = ts ++ [t]) (hk : ts.length = k) (hpos : 0 < k) (n : Nat) :
    (m'.settleToken t n).2 = (m.settleToken t n).2.map (OutlineError.shift p.offset) ∧
      ∃ j, (m.settleToken t n).1.Behind p j (m'.settleToken t n).1 ∧
        ((m.settleToken t n).2 = none → j = k + 1) := by
  induction n generalizing m m' with
  | zero =>
    have hname : m'.control.name = m.control.name := by rw [h.control, Control.name_shift]
    simp only [Machine.settleToken, hname]
    exact ⟨rfl, k, h, by simp⟩
  | succ n ih =>
    have hpar := parallel_visit h hp hs ht hk hpos
    simp only [Machine.settleToken]
    generalize hv : m.visit t = r, m'.visit t = r' at hpar
    cases hpar with
    | taken hb => exact ⟨rfl, k + 1, hb, fun _ => rfl⟩
    | @failed _ _ j e hb => exact ⟨rfl, j, hb, by simp⟩
    | handedOn hb =>
      obtain ⟨htok, hsound, -⟩ := hs.handedOn ht (turn_of_visit hs.fits hv)
      exact ih hb hsound htok

/-- **One token** with and without the past. -/
theorem Behind.feed (h : m.Behind p k m') (hp : p.tokens ≠ []) (hs : m.Sound m.sheet.tokens.toList)
    (hk : m.sheet.tokens.size = k) (hpos : 0 < k) (t : Token) :
    (m'.feed t).2 = (m.feed t).2.map (OutlineError.shift p.offset) ∧
      ∃ j, (m.feed t).1.Behind p j (m'.feed t).1 ∧ ((m.feed t).2 = none → j = k + 1) := by
  have hpush : { m with sheet := m.sheet.push t }.Behind p k
      { m' with sheet := m'.sheet.push t } :=
    ⟨h.options, h.control, h.sheet.push t, h.warnings, h.done⟩
  exact hpush.settleToken hp (hs.push t) (by simp [Sheet.push]) (by simp [hk]) hpos visitLimit

/-- **Runs** with and without the past end in the same way. -/
theorem Behind.run (h : m.Behind p k m') (hp : p.tokens ≠ []) (hs : m.Sound m.sheet.tokens.toList)
    (hk : m.sheet.tokens.size = k) (hpos : 0 < k) (xs : List (Except LexError Token)) :
    (m'.run xs).2 = (m.run xs).2.map (OutlineError.shift p.offset) ∧
      ∃ j, (m.run xs).1.Behind p j (m'.run xs).1 := by
  induction xs generalizing m m' k with
  | nil =>
    have hname : m'.control.name = m.control.name := by rw [h.control, Control.name_shift]
    simp only [Machine.run, h.done, hname]
    split <;> exact ⟨rfl, k, h⟩
  | cons x xs ih =>
    simp only [Machine.run, h.done]
    cases hd : m.done with
    | true => exact ⟨rfl, k, h⟩
    | false =>
      simp only [Bool.false_eq_true, if_false]
      cases x with
      | error l => exact ⟨rfl, k, h⟩
      | ok t =>
        obtain ⟨he, j, hb, hj⟩ := h.feed hp hs hk hpos t
        dsimp only
        generalize hf : m.feed t = r at he hb hj
        generalize m'.feed t = r' at he hb
        obtain ⟨n, e⟩ := r
        obtain ⟨n', e'⟩ := r'
        obtain rfl : e' = _ := he
        cases e with
        | some e => exact ⟨rfl, j, hb⟩
        | none =>
          obtain rfl := hj rfl
          obtain ⟨hsound, -, hsize⟩ := hs.feed hd hf
          exact ih hb hsound (by rw [hsize, hk]) (Nat.succ_pos k)

/-! ## Where the end of the document is read -/

theorem inner_of_trivia {s : State} (h : s.trivia = .inside) : s.isOuter = false := by
  cases s <;> first | rfl | cases h

/-- No token is handed on to a state between design units. -/
theorem Turn.inner_of_handedOn {cs : List Completion} (hm : Turn m t cs m' .handedOn)
    (hs : m.Sound ts) : m'.control.state.isOuter = false := by
  cases hm with
  | resume _ ha hm =>
    rw [hm.control]
    exact inner_of_trivia (hs.aside ha).2
  | interrupt _ _ htr hm =>
    rw [hm.control]
    exact inner_of_trivia htr
  | @pass _ before next _ _ c _ _ hr hc hm =>
    have hallows := allows_of_react hr
    have hfits := hs.fits
    rw [hm.control]
    generalize m.control = c₀ at hallows hc hfits
    obtain ⟨s, aside, stack⟩ := c₀
    cases next with
    | goto s' =>
      cases hc
      cases hallows <;> rfl
    | call resume sub =>
      cases hc
      exact hallows.leads_pass.2.1
    | return_ =>
      have hx := hallows.isExpression_of_pass_return
      cases hfits with
      | outer ho => cases s <;> simp_all [isOuter, isExpression]
      | inner _ h' => exact absurd (hx.symm.trans h') (by simp)
      | expression h =>
        cases hc
        exact (isAfterExpression_inner h).1

/-- The turn that reads the end of the document. -/
theorem Turn.finishes {cs : List Completion} (hm : Turn m t cs m' .taken) (hd : m.done = false)
    (hd' : m'.done = true) : m.control.isAside = false ∧ m.control.state = .documentRegion ∧
      m.Becomes m' m.control (m.sheet.close .endOfDocument) m.warnings true := by
  cases hm with
  | trivium _ _ hm | absorb _ _ _ hm | take _ _ _ _ _ hm =>
    exact absurd (hd'.symm.trans (hm.done.trans hd)) (by simp)
  | finish ha _ hr hm => exact ⟨ha, (allows_of_react hr).eq_documentRegion_of_finish.1, hm⟩

/-- Inside a construct the document does not end. -/
theorem not_done_of_inner {n : Nat} (hs : m.Sound ts) (ht : m.sheet.tokens.toList = ts ++ [t])
    (hd : m.done = false) (hi : m.control.state.isOuter = false)
    (hr : m.settleToken t n = (m', none)) : m'.done = false := by
  induction n generalizing m with
  | zero => cases hr
  | succ n ih =>
    rw [Machine.settleToken] at hr
    generalize hv : m.visit t = r at hr
    obtain ⟨k, v⟩ := r
    have hturn := turn_of_visit hs.fits hv
    cases v with
    | taken =>
      cases hr
      refine Bool.eq_false_iff.2 fun hd' => ?_
      rw [(hturn.finishes hd hd').2.1] at hi
      cases hi
    | handedOn =>
      obtain ⟨htok, hsound, -⟩ := hs.handedOn ht hturn
      exact ih hsound htok (hturn.done_of_handedOn.trans hd) (hturn.inner_of_handedOn hs) hr
    | failed e => cases hr

/-- **The end of a document** is read between design units, with nothing under construction. -/
theorem Sound.feed_end (hs : m.Sound m.sheet.tokens.toList) (hd : m.done = false)
    (hf : m.feed t = (m', none)) (hd' : m'.done = true) :
    m.control = ⟨.documentRegion, false, []⟩ ∧ m.sheet.IsClean m.sheet.tokens.size ∧
      m'.sheet = (m.sheet.push t).close .endOfDocument ∧ m'.warnings = m.warnings := by
  have hpush := hs.push t
  have htok : (m.sheet.push t).tokens.toList = m.sheet.tokens.toList ++ [t] := by simp [Sheet.push]
  unfold Machine.feed visitLimit at hf
  rw [Machine.settleToken] at hf
  generalize hv : { m with sheet := m.sheet.push t }.visit t = r at hf
  obtain ⟨k, v⟩ := r
  have hturn := turn_of_visit hpush.fits hv
  cases v with
  | failed e => cases hf
  | handedOn =>
    obtain ⟨htok', hsound, -⟩ := hpush.handedOn htok hturn
    have := not_done_of_inner hsound htok' (hturn.done_of_handedOn.trans hd)
      (hturn.inner_of_handedOn hpush) hf
    exact absurd (this.symm.trans hd') (by simp)
  | taken =>
    cases hf
    obtain ⟨ha, hstate, hm⟩ := hturn.finishes hd hd'
    have ha : m.control.isAside = false := ha
    have hstate : m.control.state = .documentRegion := hstate
    have hstack : m.control.stack = [] := hs.fits.stack_eq_nil (by rw [hstate]; rfl)
    have hclean := hs.stands
    rw [hstate] at hclean
    refine ⟨?_, ?_, hm.sheet, hm.warnings⟩
    · rw [← hstate, ← hstack, ← ha]
    · rw [← Chain.length_toList]
      exact hclean

end Machine

/-! ## The last block -/

namespace Sheet

/-- Unless something waits, the sheet knows the kind of the last block. -/
def KnowsLast (s : Sheet) : Prop :=
  s.waiting = [] → s.last? = s.blocks.toList.getLast?.map Block.kind

variable {s : Sheet}

theorem KnowsLast.complete (h : s.KnowsLast) (kind : BlockKind) (rest : Option (Nat × Nat))
    (start : Nat) : { s.complete kind rest with start }.KnowsLast := by
  intro _
  simp only [Sheet.complete, Chain.toList_append, List.getLast?_append]
  cases hb : (assemble kind s.waiting rest).getLast? with
  | some b => simp
  | none =>
    have hnil := List.getLast?_eq_none_iff.1 hb
    simp only [assemble, List.map_eq_nil_iff, List.append_eq_nil_iff] at hnil
    simpa using h hnil.1

theorem knowsLast_aside (s : Sheet) (kind : BlockKind) (first last start : Nat) :
    { s.aside kind first last with start }.KnowsLast := by
  unfold Sheet.aside
  split
  · intro _
    simp
  · intro hw
    simp at hw

theorem KnowsLast.interrupt (h : s.KnowsLast) : s.interrupt.KnowsLast := by
  unfold Sheet.interrupt
  split
  · split
    · exact knowsLast_aside _ _ _ _ _
    · intro hw
      simp at hw
  · exact h

theorem KnowsLast.taking (h : s.KnowsLast) (before closing : Option BlockKind) (kind : TokenKind) :
    (s.taking before closing kind).KnowsLast := by
  have hcut : (s.cutBefore before).KnowsLast := by
    cases before with
    | none => exact h
    | some kind => exact h.complete kind _ _
  have hset : ((s.cutBefore before).settle kind).KnowsLast := hcut
  cases closing with
  | none => exact hset
  | some closing => exact hset.complete closing _ _

end Sheet

namespace Machine

variable {m m' : Machine} {t : Token}

theorem Turn.knowsLast {cs : List Completion} {v : Verdict} (hm : Turn m t cs m' v)
    (h : m.sheet.KnowsLast) : m'.sheet.KnowsLast := by
  cases hm with
  | trivium _ _ hm =>
    rw [hm.sheet]
    exact Sheet.knowsLast_aside _ _ _ _ _
  | resume _ _ hm | absorb _ _ _ hm | refuse _ _ _ hm =>
    rw [hm.sheet]
    exact h
  | interrupt _ _ _ hm =>
    rw [hm.sheet]
    exact h.interrupt
  | take _ _ _ _ _ hm =>
    rw [hm.sheet]
    exact h.taking _ _ _
  | mismatch _ _ _ _ hm =>
    rw [hm.sheet]
    exact h.taking _ _ _
  | @pass _ before _ _ _ _ _ _ _ _ hm =>
    rw [hm.sheet]
    cases before with
    | none => exact h
    | some kind => exact h.complete kind _ _
  | finish _ _ _ hm =>
    rw [hm.sheet]
    exact h.complete _ _ _

theorem kept_knowsLast : Kept fun m _ _ => m.sheet.KnowsLast where
  push _ h := h
  handedOn _ _ _ hm h := hm.knowsLast h
  taken _ _ _ hm _ h := hm.knowsLast h

/-! ## Behind an accepted document -/

/-- The machine after the start of a document. -/
theorem feed_start (options : Options) {s : Token} (hs : s.kind = .startOfDocument) :
    ∃ m, ({ options } : Machine).feed s = (m, none) ∧ m.options = options ∧
      m.control = ⟨.documentRegion, false, []⟩ ∧ m.sheet.tokens.toList = [s] ∧
      m.sheet.blocks.toList = [⟨.startOfDocument, 0, 0, false⟩] ∧ m.sheet.waiting = [] ∧
      m.sheet.start = 1 ∧ m.sheet.last? = some .startOfDocument ∧ m.warnings = #[] ∧
      m.done = false := by
  obtain ⟨kind, text, first, last⟩ := s
  obtain rfl : kind = _ := hs
  exact ⟨_, rfl, rfl, rfl, rfl, rfl, rfl, rfl, rfl, rfl, rfl⟩

/-- Where a run is before the last of its tokens. -/
theorem Sound.readsTo_last (hs : m.Sound m.sheet.tokens.toList) (hd : m.done = false)
    {xs : List (Except LexError Token)} (hx : ∀ u, .ok u ∈ xs → u.kind ≠ .endOfDocument)
    (hr : m.run (xs ++ [.ok t]) = (m', none)) :
    ∃ k, m.ReadsTo xs k ∧ k.done = false ∧ k.feed t = (m', none) ∧
      k.sheet.tokens.size = m.sheet.tokens.size + xs.length := by
  induction xs generalizing m with
  | nil =>
    refine ⟨m, readsTo_nil m, hd, ?_, rfl⟩
    simp only [List.nil_append, Machine.run, hd, Bool.false_eq_true, if_false] at hr
    generalize m.feed t = r at hr
    obtain ⟨k, _ | e⟩ := r
    · dsimp only at hr
      split at hr <;> cases hr
      rfl
    · cases hr
  | cons x xs ih =>
    simp only [List.cons_append, Machine.run, hd, Bool.false_eq_true, if_false] at hr
    cases x with
    | error l => cases hr
    | ok u =>
      dsimp only at hr
      generalize hf : m.feed u = r at hr
      obtain ⟨k, _ | e⟩ := r
      · obtain ⟨hsound, -, hsize⟩ := hs.feed hd hf
        obtain ⟨_, -, -, -, hend, -⟩ :=
          @Kept.feed _ (kept_options m.options) m k _ [] hs rfl hd rfl u hf
        have hkd : k.done = false :=
          Bool.eq_false_iff.2 fun hkd => hx u (List.mem_cons_self ..) (hend hkd)
        obtain ⟨k', hk', hrest⟩ := ih hsound hkd (fun v hv => hx v (List.mem_cons_of_mem _ hv)) hr
        refine ⟨k', (readsTo_feed hd hf).append hk', hrest.1, hrest.2.1, ?_⟩
        rw [hrest.2.2, hsize, List.length_cons]
        omega
      · cases hr

/-- What a machine has read so far. -/
def past (m : Machine) : Past :=
  ⟨m.sheet.tokens.toList, m.sheet.blocks.toList, m.warnings.toList⟩

/-- A machine that could read the end of its document goes on like one at the start of another. -/
theorem behind_start {k m : Machine} (hk : k.control = ⟨.documentRegion, false, []⟩)
    (hclean : k.sheet.IsClean k.sheet.tokens.size) (hlast : k.sheet.KnowsLast)
    (hsize : 0 < k.sheet.tokens.size) (hkd : k.done = false) {options : Options}
    (hopt : k.options = options) {s : Token} (hs : s.kind = .startOfDocument)
    (hm : ({ options } : Machine).feed s = (m, none)) : m.Behind k.past 1 k := by
  obtain ⟨n, hn, ho, hc, ht, hb, hw, hst, hl, hwarn, hd⟩ := feed_start options hs
  obtain rfl : m = n := congrArg Prod.fst (hm.symm.trans hn)
  have hoff : k.past.offset = k.sheet.tokens.size - 1 := by
    simp [past, Past.offset]
  refine ⟨hopt.trans ho.symm, ?_, ?_, ?_, hkd.trans hd.symm⟩
  · rw [hk, hc]
    rfl
  · refine ⟨by simp [ht], ?_, by simp [hb], ?_, ?_, by simp [hw], by simp [hst], ?_, ?_, ?_⟩
    · simp [ht, past]
    · simp [hb, past]
    · rw [hw]
      exact hclean.1
    · rw [hclean.2, hst, hoff]
      omega
    · intro _
      rw [hl]
      refine ⟨rfl, ?_⟩
      rw [hlast hclean.1]
      rfl
    · intro hf
      exact absurd ⟨by simp [hb], hw, hst⟩ hf
  · simp [hwarn, past]

/-- Behind an accepted document a machine reads on as after the start of another document. -/
theorem exists_behind {options : Options} {s e s' : Token} {a : List (Except LexError Token)}
    (hs : s.kind = .startOfDocument) (hs' : s'.kind = .startOfDocument)
    (ha : ∀ t, .ok t ∈ a → t.kind ≠ .endOfDocument) {d : Document}
    (hd : outline (.ok s :: a ++ [.ok e]) options = .ok d) :
    ∃ p : Past, p.offset = a.length ∧ p.tokens = d.tokens.toList.dropLast ∧ p.tokens ≠ [] ∧
      p.blocks = d.blocks.toList.dropLast ∧ p.warnings = d.warnings ∧
      ∀ xs, (Machine.run { options } (.ok s :: a ++ xs)).2 =
          (Machine.run { options } (.ok s' :: xs)).2.map (OutlineError.shift p.offset) ∧
        ∃ j, (Machine.run { options } (.ok s' :: xs)).1.Behind p j
          (Machine.run { options } (.ok s :: a ++ xs)).1 := by
  obtain ⟨m, hrun, rfl⟩ := outline_ok hd
  have hx : ∀ u, .ok u ∈ .ok s :: a → u.kind ≠ .endOfDocument := by
    intro u hu
    rcases List.mem_cons.1 hu with hu | hu
    · cases hu
      simp [hs]
    · exact ha u hu
  obtain ⟨k, hk, hkd, hfeed, hsize⟩ := (sound_start options).readsTo_last rfl hx hrun
  have hsize : k.sheet.tokens.size = a.length + 1 := hsize.trans (Nat.zero_add _)
  obtain ⟨hsound, -, hlast, hopt⟩ :=
    hk.kept (kept_knowsLast.and (kept_options options)) ⟨fun _ => rfl, rfl⟩
  obtain ⟨hctl, hclean, hsheet, hwarn⟩ := hsound.feed_end hkd hfeed (done_of_run hrun)
  obtain ⟨n, hn, -, -, htok, -⟩ := feed_start options hs'
  have hbehind := behind_start hctl hclean hlast (by omega) hkd hopt hs' hn
  obtain ⟨hnsound, -, -⟩ := (sound_start options).feed rfl hn
  refine ⟨k.past, ?_, ?_, ?_, ?_, ?_, fun xs => ?_⟩
  · simp [past, Past.offset, hsize]
  · show k.sheet.tokens.toList = m.sheet.tokens.toList.dropLast
    rw [hsheet]
    simp [Sheet.close, Sheet.complete, Sheet.push]
  · refine List.ne_nil_of_length_pos ?_
    simp [past, hsize]
  · show k.sheet.blocks.toList = m.sheet.blocks.toList.dropLast
    rw [hsheet]
    have hw : k.sheet.waiting = [] := hclean.1
    simp [Sheet.close, Sheet.complete, Sheet.push, assemble, hw]
  · show k.warnings.toList = m.warnings.toList
    rw [hwarn]
  · have hstart : Machine.run { options } (.ok s' :: xs) = n.run xs := by
      simp [Machine.run, hn]
    rw [(hk xs).1, hstart]
    refine hbehind.run ?_ hnsound ?_ Nat.one_pos xs
    · exact List.ne_nil_of_length_pos (by simp [past, hsize])
    · simp [← Chain.length_toList, htok]

end Machine

/-- The document `g` is the document `d` up to its end and then the document `f` after its start, with
the numbers of tokens shifted by `n`. -/
structure Document.IsJoin (d f g : Document) (n : Nat) : Prop where
  tokens : g.tokens.toList = d.tokens.toList.dropLast ++ f.tokens.toList.tail
  /-- A line break at the start of `f` is an empty line if `d` ends with a line break. -/
  blocks : g.blocks.toList = d.blocks.toList.dropLast ++
    afterBreak (isBreak (d.blocks.toList.dropLast.getLast?.map Block.kind))
      (f.blocks.toList.tail.map (Block.shift n))
  warnings : g.warnings = d.warnings ++ f.warnings.map (NameMismatch.shift n)

/-- Some tokens are outlined behind those of the document `d`, of which there are `n`, as they are
outlined alone. -/
structure Document.OutlinedBehind (d : Document) (options : Options) (n : Nat)
    (alone behind : List (Except LexError Token)) : Prop where
  /-- The one is accepted just if the other is. -/
  isOk : (outline behind options).isOk = (outline alone options).isOk
  accepted : ∀ f, outline alone options = .ok f →
    ∃ g, outline behind options = .ok g ∧ d.IsJoin f g n
  /-- The error is the same, at the same token. -/
  refused : ∀ x, outline alone options = .error x → outline behind options = .error (x.shift n)
  /-- What has been read, in both cases. -/
  read : (Machine.run { options } behind).1.sheet.tokens.toList =
    d.tokens.toList.dropLast ++ (Machine.run { options } alone).1.sheet.tokens.toList.tail
  size : (Machine.run { options } behind).1.sheet.tokens.size =
    (Machine.run { options } alone).1.sheet.tokens.size + n

/-- **Design units do not influence each other.** Let a document of the tokens `a` be accepted. Then
a document with these tokens and further ones `b` is outlined as a document with `b` alone. -/
theorem units_independent {options : Options} {s e s' e' : Token}
    {a b : List (Except LexError Token)} (hs : s.kind = .startOfDocument)
    (hs' : s'.kind = .startOfDocument) (ha : ∀ t, .ok t ∈ a → t.kind ≠ .endOfDocument)
    {d : Document} (hd : outline (.ok s :: a ++ [.ok e]) options = .ok d) :
    d.OutlinedBehind options a.length (.ok s' :: b ++ [.ok e'])
      (.ok s :: a ++ b ++ [.ok e']) := by
  obtain ⟨p, hoff, htok, hne, hblocks, hwarn, hruns⟩ := Machine.exists_behind hs hs' ha hd
  obtain ⟨herror, j, hbehind⟩ := hruns (b ++ [.ok e'])
  rw [← List.append_assoc, ← List.cons_append] at herror hbehind
  have htokens := hbehind.sheet.tokens
  have hsize := hbehind.sheet.size hne
  rw [htok] at htokens
  rw [hoff] at hsize
  refine ⟨?_, fun f hf => ?_, fun x hx => ?_, htokens, hsize⟩
  all_goals
    unfold outline at *
    generalize Machine.run { options } (.ok s' :: b ++ [.ok e']) = r at *
    generalize Machine.run { options } (.ok s :: a ++ b ++ [.ok e']) = r' at *
    obtain ⟨m, _ | y⟩ := r <;> obtain ⟨m', y'⟩ := r' <;> obtain rfl : y' = _ := herror
  · rfl
  · rfl
  · cases hf
    refine ⟨_, rfl, htokens, ?_, ?_⟩
    · rw [← hoff, ← hblocks]
      exact hbehind.sheet.blocks
    · rw [← hoff, ← hwarn]
      exact hbehind.warnings
  · cases hf
  · cases hx
  · cases hx
    rw [← hoff]
    rfl

/-- A package with a mismatch of names and a library clause, with a line break on both sides of the
seam. -/
theorem units_independent_seam :
    let s := Token.synthetic .startOfDocument ""
    let e := Token.synthetic .endOfDocument ""
    let a := (tokenize "package p is end q;\n").tail.dropLast
    let b := (tokenize "\nlibrary l;").tail.dropLast
    ∃ d f g, outline (.ok s :: a ++ [.ok e]) {} = .ok d ∧
      outline (.ok s :: b ++ [.ok e]) {} = .ok f ∧
      outline (.ok s :: a ++ b ++ [.ok e]) {} = .ok g ∧
      d.IsJoin f g a.length := by
  intro s e a b
  have hd : (outline (.ok s :: a ++ [.ok e]) {}).isOk = true := by decide +kernel
  have hf : (outline (.ok s :: b ++ [.ok e]) {}).isOk = true := by decide +kernel
  have ha : (a.all fun
      | .ok t => t.kind != .endOfDocument
      | .error _ => true) = true := by decide +kernel
  generalize hr : outline (.ok s :: a ++ [.ok e]) {} = r at hd
  generalize hr' : outline (.ok s :: b ++ [.ok e]) {} = r' at hf
  cases r with
  | error x => cases hd
  | ok d =>
    cases r' with
    | error x => cases hf
    | ok f =>
      have hend : ∀ t, .ok t ∈ a → t.kind ≠ .endOfDocument := fun t ht => by
        simpa using List.all_eq_true.1 ha _ ht
      obtain ⟨g, hg, hrest⟩ := (@units_independent {} s e s e a b rfl rfl hend d hr).accepted f hr'
      exact ⟨d, f, g, rfl, rfl, hg, hrest⟩

end VhdlOutline
