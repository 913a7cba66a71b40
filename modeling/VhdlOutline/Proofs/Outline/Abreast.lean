import VhdlOutline.Proofs.Outline.Run

/-!
# Two runs abreast

What blocks a machine makes depends on how its states react, and on the blanks and comments. It does
not depend on the tokens otherwise. Two machines that are given different tokens therefore go on in
the same way as long as their states react alike.

What it is for two states to correspond is a parameter `S`, and `exact` says whether mismatches of
names count. `Machine.Abreast` relates two machines whose states correspond and whose blocks are the
same, and `Machine.Abreast.visit` says that a visit keeps them abreast if the current states react
alike.
-/

namespace VhdlOutline

/-- Corresponding states have the same name and treat blanks and comments in the same way. -/
structure State.Corresponds (S : State → State → Prop) : Prop where
  name {s s' : State} : S s s' → s'.name = s.name
  trivia {s s' : State} : S s s' → s'.trivia = s.trivia

theorem State.corresponds_eq : State.Corresponds Eq where
  name h := h ▸ rfl
  trivia h := h ▸ rfl

variable {S : State → State → Prop} {exact : Prop}

/-! ## Reactions -/

/-- Moves on to corresponding states. -/
inductive Next.Alike (S : State → State → Prop) : Next → Next → Prop
  | goto {s s' : State} (h : S s s') : Alike S (.goto s) (.goto s')
  | call {r r' s s' : State} (hr : S r r') (hs : S s s') : Alike S (.call r s) (.call r' s')
  | return_ : Alike S .return_ .return_

/-- Moves that end the same blocks. -/
inductive Move.Alike (S : State → State → Prop) : Move → Move → Prop
  | take (before closing : Option BlockKind) {next next' : Next} (h : next.Alike S next') :
      Alike S (.take before closing next) (.take before closing next')
  | pass (before : Option BlockKind) {next next' : Next} (h : next.Alike S next') :
      Alike S (.pass before next) (.pass before next')
  | finish : Alike S .finish .finish

/-- Reactions that differ in their notes and in corresponding states only. -/
inductive Outcome.Alike (S : State → State → Prop) (exact : Prop) : Outcome → Outcome → Prop
  | ok {r r' : Reaction} (hm : r.move.Alike S r'.move) (hx : exact → r'.mismatch = r.mismatch) :
      Alike S exact (.ok r) (.ok r')
  | refused (c : Complaint) : Alike S exact (.error c) (.error c)

theorem Next.alike_self (next : Next) : next.Alike Eq next := by
  cases next
  · exact .goto rfl
  · exact .call rfl rfl
  · exact .return_

theorem Move.alike_self (move : Move) : move.Alike Eq move := by
  cases move with
  | take before closing next => exact .take before closing next.alike_self
  | pass before next => exact .pass before next.alike_self
  | finish => exact .finish

theorem Outcome.alike_self (o : Outcome) : o.Alike Eq exact o := by
  cases o with
  | ok r => exact .ok r.move.alike_self fun _ => rfl
  | error c => exact .refused c

namespace Control

/-- Controls with corresponding states. -/
structure Alike (S : State → State → Prop) (c c' : Control) : Prop where
  state : S c.state c'.state
  isAside : c'.isAside = c.isAside
  stack : List.Forall₂ S c.stack c'.stack

variable {c c' : Control}

theorem Alike.name (h : c.Alike S c') (hS : State.Corresponds S) : c'.name = c.name := by
  simp only [Control.name, h.isAside, hS.name h.state]

theorem Alike.aside (h : c.Alike S c') (b : Bool) :
    ({ c with isAside := b } : Control).Alike S { c' with isAside := b } :=
  ⟨h.state, rfl, h.stack⟩

/-- Alike controls go on alike, or neither can. -/
theorem Alike.follow (h : c.Alike S c') {next next' : Next} (hn : next.Alike S next') :
    (∃ k k', c.follow next = .ok k ∧ c'.follow next' = .ok k' ∧ k.Alike S k') ∨
      ∃ f, c.follow next = .error f ∧ c'.follow next' = .error f := by
  obtain ⟨s, aside, stack⟩ := c
  obtain ⟨s', aside', stack'⟩ := c'
  obtain ⟨hs, rfl, hst⟩ := h
  cases hn with
  | goto hs' => exact .inl ⟨_, _, rfl, rfl, hs', rfl, hst⟩
  | call hr hs' => exact .inl ⟨_, _, rfl, rfl, hs', rfl, .cons hr hst⟩
  | return_ =>
    cases hst with
    | nil => exact .inr ⟨_, rfl, rfl⟩
    | cons h hst => exact .inl ⟨_, _, rfl, rfl, h, rfl, hst⟩

end Control

/-! ## The sheet over other tokens -/

namespace Sheet

/-- The sheet with other tokens below the same blocks. -/
def withTokens (s : Sheet) (tokens : TokenChain) : Sheet := { s with tokens }

variable {s : Sheet} {tokens : TokenChain}

theorem index_withTokens (h : tokens.size = s.tokens.size) :
    (s.withTokens tokens).index = s.index := by
  simp only [Sheet.index, withTokens, h]

theorem close_withTokens (h : tokens.size = s.tokens.size) (kind : BlockKind) :
    (s.withTokens tokens).close kind = (s.close kind).withTokens tokens := by
  simp only [Sheet.close, index_withTokens h]
  rfl

theorem cut_withTokens (h : tokens.size = s.tokens.size) (kind : BlockKind) :
    (s.withTokens tokens).cut kind = (s.cut kind).withTokens tokens := by
  simp only [Sheet.cut, index_withTokens h]
  rfl

theorem cutBefore_withTokens (h : tokens.size = s.tokens.size) (before : Option BlockKind) :
    (s.withTokens tokens).cutBefore before = (s.cutBefore before).withTokens tokens := by
  cases before with
  | none => rfl
  | some kind => exact cut_withTokens h kind

theorem tokens_taking (s : Sheet) (before closing : Option BlockKind) (kind : TokenKind) :
    (s.taking before closing kind).tokens = (s.settle kind).tokens := by
  cases before <;> cases closing <;> rfl

theorem toList_tokens_settle {ts : List Token} {t : Token} (ht : s.tokens.toList = ts ++ [t])
    (kind : TokenKind) : (s.settle kind).tokens.toList = ts ++ [{ t with kind }] :=
  Chain.toList_modifyLast ht _

/-- The kinds that a taken token gets need not be the same. -/
theorem taking_withTokens (h : tokens.size = s.tokens.size) (before closing : Option BlockKind)
    (kind kind' : TokenKind) :
    (s.withTokens tokens).taking before closing kind' =
      (s.taking before closing kind).withTokens
        (tokens.modifyLast fun t => { t with kind := kind' }) := by
  have hset : ((s.cutBefore before).withTokens tokens).settle kind' =
      ((s.cutBefore before).settle kind).withTokens
        (tokens.modifyLast fun t => { t with kind := kind' }) := rfl
  rw [Sheet.taking, cutBefore_withTokens h, hset]
  cases closing with
  | none => rfl
  | some closing =>
    refine close_withTokens ?_ closing
    rw [Chain.size_modifyLast, h, ← tokens_cutBefore s before]
    exact (Chain.size_modifyLast _ _).symm

theorem aside_withTokens (kind : BlockKind) (first last : Nat) :
    (s.withTokens tokens).aside kind first last = (s.aside kind first last).withTokens tokens := by
  unfold Sheet.aside withTokens
  cases s.waiting.isEmpty <;> rfl

theorem closeAside_withTokens (h : tokens.size = s.tokens.size) (kind : BlockKind) :
    (s.withTokens tokens).closeAside kind = (s.closeAside kind).withTokens tokens := by
  simp only [Sheet.closeAside, index_withTokens h]
  rw [show (s.withTokens tokens).start = s.start from rfl, aside_withTokens]
  rfl

/-- Where a block is interrupted, it matters which tokens are spaces. -/
theorem interrupt_withTokens {ts ts' : List Token} {t t' : Token} (ht : s.tokens.toList = ts ++ [t])
    (ht' : tokens.toList = ts' ++ [t'])
    (hspace : List.Forall₂ (fun u u' => (u'.kind = .space ↔ u.kind = .space)) ts ts') :
    (s.withTokens tokens).interrupt = s.interrupt.withTokens tokens := by
  have hsize : tokens.size = s.tokens.size := by
    rw [← Chain.length_toList, ← Chain.length_toList, ht, ht']
    simp [hspace.length_eq]
  simp only [Sheet.interrupt, index_withTokens hsize]
  rw [show (s.withTokens tokens).start = s.start from rfl]
  split
  · rename_i hlt
    have hall : ((tokens.range s.start (s.index - 1)).all fun t => t.kind = .space) =
        (s.tokens.range s.start (s.index - 1)).all fun t => t.kind = .space := by
      have hi := index_eq ht
      have htake : s.index - 1 + 1 = ts.length := by omega
      rw [TokenChain.range_eq, TokenChain.range_eq, ht, ht', htake, List.take_left,
        hspace.length_eq, List.take_left]
      have hdrop := List.forall₂_drop s.start hspace
      generalize ts.drop s.start = us, ts'.drop s.start = us' at hdrop
      induction hdrop with
      | nil => rfl
      | cons h _ ih => simp [h, ih]
    rw [show (s.withTokens tokens).tokens = tokens from rfl, hall]
    split
    · rw [aside_withTokens]
      rfl
    · rfl
  · rfl

end Sheet

/-! ## Machines abreast -/

namespace Machine

/-- The machines `m` and `m'` are in corresponding states and have made the same blocks. -/
structure Abreast (S : State → State → Prop) (exact : Prop) (m m' : Machine) : Prop where
  options : m'.options = m.options
  /-- Where names are strict, a mismatch is an error. -/
  strict : m.options.strictNames = true → exact
  control : m.control.Alike S m'.control
  sheet : m'.sheet = m.sheet.withTokens m'.sheet.tokens
  warnings : exact → m'.warnings = m.warnings
  done : m'.done = m.done

/-- What visits with the tokens `t` and `t'` lead to if they go alike. Before them the sheets are
`s` and `s'`, and the tokens get the kinds `kind` and `kind'` if they are settled. -/
inductive Together (S : State → State → Prop) (exact : Prop) (s s' : Sheet) (t t' : Token)
    (kind kind' : TokenKind) : Machine × Verdict → Machine × Verdict → Prop
  /-- The tokens are taken as they are. -/
  | absorbed {m m' : Machine} (h : m.Abreast S exact m') (hm : m.sheet.tokens = s.tokens)
      (hm' : m'.sheet.tokens = s'.tokens) :
      Together S exact s s' t t' kind kind' (m, .taken) (m', .taken)
  /-- The tokens are taken and settled. -/
  | settled {m m' : Machine} (h : m.Abreast S exact m')
      (hm : m.sheet.tokens = (s.settle kind).tokens)
      (hm' : m'.sheet.tokens = (s'.settle kind').tokens) :
      Together S exact s s' t t' kind kind' (m, .taken) (m', .taken)
  | handedOn {m m' : Machine} (h : m.Abreast S exact m') (hm : m.sheet.tokens = s.tokens)
      (hm' : m'.sheet.tokens = s'.tokens) :
      Together S exact s s' t t' kind kind' (m, .handedOn) (m', .handedOn)
  | refused {m m' : Machine} (c : Complaint) :
      Together S exact s s' t t' kind kind' (m, .failed (.refused t c))
        (m', .failed (.refused t' c))
  | failed {m m' : Machine} {e : OutlineError} (he : e.token? = none) :
      Together S exact s s' t t' kind kind' (m, .failed e) (m', .failed e)

variable {m m' : Machine} {s s' : Sheet} {ts ts' : List Token} {t t' : Token}
  {kind kind' : TokenKind}

namespace Abreast

theorem log (h : m.Abreast S exact m') (e e' : Event) : (m.log e).Abreast S exact (m'.log e') :=
  ⟨h.options, h.strict, h.control, h.sheet, h.warnings, h.done⟩

theorem noted (h : m.Abreast S exact m') (note note' : Option Note) :
    (m.noted note).Abreast S exact (m'.noted note') := by
  cases note <;> cases note' <;> exact ⟨h.options, h.strict, h.control, h.sheet, h.warnings, h.done⟩

theorem push (h : m.Abreast S exact m') (t t' : Token) :
    { m with sheet := m.sheet.push t }.Abreast S exact
      { m' with sheet := m'.sheet.push t' } := by
  refine ⟨h.options, h.strict, h.control, ?_, h.warnings, h.done⟩
  show m'.sheet.push t' = (m.sheet.push t).withTokens (m'.sheet.tokens.push t')
  rw [h.sheet]
  rfl

/-- Machines stay abreast when no more than their sheets change. -/
theorem becomes (h : m.Abreast S exact m') {k k' : Machine}
    (hm : m.Becomes k m.control s m.warnings m.done)
    (hm' : m'.Becomes k' m'.control s' m'.warnings m'.done) (hs : s' = s.withTokens s'.tokens) :
    k.Abreast S exact k' where
  options := by rw [hm.options, hm'.options, h.options]
  strict := by
    rw [hm.options]
    exact h.strict
  control := by
    rw [hm.control, hm'.control]
    exact h.control
  sheet := by rwa [hm.sheet, hm'.sheet]
  warnings := by
    rw [hm.warnings, hm'.warnings]
    exact h.warnings
  done := by rw [hm.done, hm'.done, h.done]

theorem taking (h : m.Abreast S exact m') (hsize : m'.sheet.tokens.size = m.sheet.tokens.size)
    (t t' : Token) (before closing : Option BlockKind) :
    (m.taking t before closing).Abreast S exact (m'.taking t' before closing) := by
  refine h.becomes (becomes_taking m t before closing) (becomes_taking m' t' before closing) ?_
  rw [h.sheet, Sheet.taking_withTokens hsize _ _ (m.control.state.reading t)]
  rfl

theorem cut (h : m.Abreast S exact m') (hsize : m'.sheet.tokens.size = m.sheet.tokens.size)
    (before : Option BlockKind) : (m.cut before).Abreast S exact (m'.cut before) := by
  refine h.becomes (becomes_cut m before) (becomes_cut m' before) ?_
  rw [h.sheet, Sheet.cutBefore_withTokens hsize]
  rfl

/-- Going on as alike moves say. -/
theorem follow (h : m.Abreast S exact m') (hS : State.Corresponds S) {next next' : Next}
    (hn : next.Alike S next') {v : Verdict}
    (hv : ∀ c c', { m with control := c }.Abreast S exact { m' with control := c' } →
      Together S exact s s' t t' kind kind' ({ m with control := c }, v)
        ({ m' with control := c' }, v)) :
    Together S exact s s' t t' kind kind' (m.follow next v) (m'.follow next' v) := by
  unfold Machine.follow
  rw [h.control.name hS]
  rcases h.control.follow hn with ⟨c, c', hc, hc', hcc⟩ | ⟨f, hf, hf'⟩
  · rw [hc, hc']
    exact hv c c' ⟨h.options, h.strict, hcc, h.sheet, h.warnings, h.done⟩
  · rw [hf, hf']
    exact .failed rfl

/-- Carrying out alike moves. -/
theorem act (h : m.Abreast S exact m') (hS : State.Corresponds S) (t t' : Token)
    (hsize : m'.sheet.tokens.size = m.sheet.tokens.size) {move move' : Move}
    (hm : move.Alike S move') {x x' : Option NameMismatch} (hx : exact → x' = x) :
    Together S exact m.sheet m'.sheet t t' (m.control.state.reading t)
      (m'.control.state.reading t') (m.act t x move) (m'.act t' x' move') := by
  cases hm with
  | take before closing hn =>
    have htaking := h.taking hsize t t' before closing
    have hk := becomes_taking m t before closing
    have hk' := becomes_taking m' t' before closing
    simp only [Machine.act]
    rcases mismatched_cases (m.taking t before closing) x with ⟨y, rfl, hs, he⟩ | ⟨hs, n, he, hw⟩
    · -- Names are strict, so that the same mismatch is an error here and there.
      obtain rfl := hx (htaking.strict hs)
      have he' : (m'.taking t' before closing).mismatched (some y) =
          (m'.taking t' before closing, some (.nameMismatch y)) := by
        simp only [mismatched, htaking.options, hs, if_true]
      rw [he, he']
      exact .failed rfl
    · rcases mismatched_cases (m'.taking t' before closing) x' with
        ⟨y, rfl, hs', -⟩ | ⟨-, n', he', hw'⟩
      · have hs' := htaking.options ▸ hs'
        cases (hx (htaking.strict hs')).symm ▸ hs hs'
      rw [he, he']
      have hn' : n.Abreast S exact n' := by
        refine ⟨?_, ?_, ?_, ?_, fun hex => ?_, ?_⟩
        · rw [hw.options, hw'.options, htaking.options]
        · rw [hw.options]
          exact htaking.strict
        · rw [hw.control, hw'.control]
          exact htaking.control
        · rw [hw.sheet, hw'.sheet]
          exact htaking.sheet
        · rw [hw.warnings, hw'.warnings, htaking.warnings hex, hx hex]
        · rw [hw.done, hw'.done, htaking.done]
      refine hn'.follow hS hn fun c c' hcc => .settled hcc ?_ ?_
      · show n.sheet.tokens = _
        rw [hw.sheet, hk.sheet, Sheet.tokens_taking]
      · show n'.sheet.tokens = _
        rw [hw'.sheet, hk'.sheet, Sheet.tokens_taking]
  | pass before hn =>
    refine (h.cut hsize before).follow hS hn fun c c' hcc => .handedOn hcc ?_ ?_
    · show (m.cut before).sheet.tokens = _
      rw [(becomes_cut m before).sheet, Sheet.tokens_cutBefore]
    · show (m'.cut before).sheet.tokens = _
      rw [(becomes_cut m' before).sheet, Sheet.tokens_cutBefore]
  | finish =>
    have hstack : m'.control.stack.isEmpty = m.control.stack.isEmpty := by
      have hlen := h.control.stack.length_eq
      rw [Bool.eq_iff_iff, List.isEmpty_iff_length_eq_zero, List.isEmpty_iff_length_eq_zero, hlen]
    simp only [Machine.act, Machine.finish, hstack, h.control.name hS]
    split
    · refine .absorbed ⟨h.options, h.strict, h.control, ?_, h.warnings, rfl⟩ rfl rfl
      show m'.sheet.close .endOfDocument = (m.sheet.close .endOfDocument).withTokens m'.sheet.tokens
      rw [h.sheet, Sheet.close_withTokens hsize]
      rfl
    · exact .failed rfl

/-- Alike reactions of the current states. -/
theorem react (h : m.Abreast S exact m') (hS : State.Corresponds S)
    (hsize : m'.sheet.tokens.size = m.sheet.tokens.size)
    (hr : (m.control.state.react m.sheet.index t).Alike S exact
      (m'.control.state.react m.sheet.index t')) :
    Together S exact m.sheet m'.sheet t t' (m.control.state.reading t)
      (m'.control.state.reading t') (m.react t) (m'.react t') := by
  have hi : m'.sheet.index = m.sheet.index := by simp only [Sheet.index, hsize]
  unfold Machine.react
  rw [hi]
  generalize m.control.state.react m.sheet.index t = o,
    m'.control.state.react m.sheet.index t' = o' at hr
  cases hr with
  | refused c => exact .refused c
  | @ok r r' hm hx =>
    simp only [perform_eq]
    have hn := becomes_noted m r.note
    have hn' := becomes_noted m' r'.note
    have hact := (h.noted r.note r'.note).act hS t t' (by rwa [hn.sheet, hn'.sheet]) hm hx
    rwa [hn.sheet, hn'.sheet, hn.control, hn'.control] at hact

/-- **One visit** to two machines abreast. -/
theorem visit (h : m.Abreast S exact m') (hS : State.Corresponds S)
    (ht : m.sheet.tokens.toList = ts ++ [t])
    (ht' : m'.sheet.tokens.toList = ts' ++ [t'])
    (hspace : List.Forall₂ (fun u u' => (u'.kind = .space ↔ u.kind = .space)) ts ts')
    (htrivia : t'.kind.isTrivia = t.kind.isTrivia)
    (hkind : t.kind.isTrivia = true → t'.kind = t.kind)
    (hr : m.control.isAside = false → (t.kind.isTrivia = true → m.control.state.trivia = .seen) →
      (m.control.state.react m.sheet.index t).Alike S exact
        (m'.control.state.react m.sheet.index t')) :
    Together S exact m.sheet m'.sheet t t' (m.control.state.reading t)
      (m'.control.state.reading t') (m.visit t) (m'.visit t') := by
  have hsize : m'.sheet.tokens.size = m.sheet.tokens.size := by
    rw [← Chain.length_toList, ← Chain.length_toList, ht, ht']
    simp [hspace.length_eq]
  have hlog := h.log (.visit m.control.name t) (.visit m'.control.name t')
  have hreact := fun ha hs => hlog.react hS hsize (hr ha hs)
  have haside := h.control.isAside
  have hrule := hS.trivia h.control.state
  -- A blank or comment is the same for both.
  have hclose : t.kind.isTrivia = true → m'.sheet.closeAside (m'.sheet.triviaKind t'.kind) =
      (m.sheet.closeAside (m.sheet.triviaKind t.kind)).withTokens m'.sheet.tokens := by
    intro htr
    have hsame : m'.sheet.triviaKind t'.kind = m.sheet.triviaKind t.kind := by
      rw [hkind htr, h.sheet]
      rfl
    rw [hsame, ← Sheet.closeAside_withTokens hsize]
    exact congrArg (Sheet.closeAside · (m.sheet.triviaKind t.kind)) h.sheet
  have htok := Sheet.tokens_closeAside m.sheet (m.sheet.triviaKind t.kind)
  have htok' := Sheet.tokens_closeAside m'.sheet (m'.sheet.triviaKind t'.kind)
  have htrivium : t.kind.isTrivia = true →
      ((m.log (.visit m.control.name t)).trivium t).Abreast S exact
        ((m'.log (.visit m'.control.name t')).trivium t') := fun htr =>
    ⟨h.options, h.strict, h.control, by simpa [trivium, Machine.log, htok'] using hclose htr,
      h.warnings, h.done⟩
  unfold Machine.visit
  cases ha : m.control.isAside with
  | true =>
    simp only [Machine.log, haside, ha, if_true, htrivia]
    split
    · exact .absorbed (htrivium ‹_›) htok htok'
    · exact .handedOn ⟨h.options, h.strict, h.control.aside false, h.sheet, h.warnings, h.done⟩
        rfl rfl
  | false =>
    simp only [Machine.log, haside, ha, Bool.false_eq_true, if_false, htrivia, hrule]
    split
    · rename_i htr
      cases hs : m.control.state.trivia with
      | apart => exact .absorbed (htrivium htr) htok htok'
      | inside =>
        simp only [hkind htr]
        split
        · exact .absorbed (h.log _ _) rfl rfl
        · refine .handedOn ⟨h.options, h.strict, h.control.aside true, ?_, h.warnings, h.done⟩
            (Sheet.tokens_interrupt _) (Sheet.tokens_interrupt _)
          show m'.sheet.interrupt = m.sheet.interrupt.withTokens m'.sheet.interrupt.tokens
          rw [Sheet.tokens_interrupt, ← Sheet.interrupt_withTokens ht ht' hspace]
          exact congrArg Sheet.interrupt h.sheet
      | seen => exact hreact ha fun _ => hs
    · exact hreact ha fun htr => absurd htr ‹_›

end Abreast

end Machine

end VhdlOutline
