import VhdlOutline.Proofs.Outline.Delivery

/-!
# Strict names

Outlines with and without strict names go the same way up to the first name after `end` that is not
the construct's own. There the block has been completed already, so that nothing but the verdict on
the token differs.

`Machine.Twin` compares one step of the two machines. It is shown for a visit, from there for a
token that is handed from state to state, and then for runs (`Machine.run_strict`) and for parsers
that are called for one block after the other (`Parser.pull_strict`).
-/

namespace VhdlOutline

/-- The same options, with names strict or not. -/
def Options.withStrictNames (options : Options) (strict : Bool) : Options :=
  { options with strictNames := strict }

namespace Machine

open State

/-- The same machine, with strict names. -/
def strict (m : Machine) : Machine := { m with options := m.options.withStrictNames true }

/-- What a step of the machine `m` with the given result has to do with the step that the machine
with strict names makes. The results of steps that succeed and that fail for a mismatch of names are
`ok` and `fail`. -/
inductive Twin {ε : Type} (ok : ε) (fail : NameMismatch → ε) (m : Machine) :
    Machine × ε → Machine × ε → Prop
  | agree {k : Machine} {e : ε} (hw : k.warnings = m.warnings) : Twin ok fail m (k, e) (k.strict, e)
  /-- A warning is recorded, and the step fails if names are strict. -/
  | differ {k k' : Machine} {w : NameMismatch} (hw : k.warnings = m.warnings.push w)
      (hb : m.sheet.blocks.size < k.sheet.blocks.size) (hs : k'.sheet = k.sheet) :
      Twin ok fail m (k, ok) (k', fail w)

theorem Twin.of_eq {ε : Type} {ok : ε} {fail : NameMismatch → ε} {m n : Machine}
    {r r' : Machine × ε} (h : Twin ok fail n r r') (hw : n.warnings = m.warnings)
    (hb : n.sheet.blocks = m.sheet.blocks) : Twin ok fail m r r' := by
  cases h with
  | agree hw' => exact .agree (hw'.trans hw)
  | differ hw' hb' hs => exact .differ (by rw [hw', hw]) (by rwa [← hb]) hs

/-! ## One visit -/

theorem follow_strict (m : Machine) (next : Next) (v : Verdict) :
    m.strict.follow next v = ((m.follow next v).1.strict, (m.follow next v).2) := by
  cases h : m.control.follow next <;> simp [Machine.follow, strict, h]

theorem finish_strict (m : Machine) : m.strict.finish = (m.finish.1.strict, m.finish.2) := by
  unfold Machine.finish
  show (if m.control.stack.isEmpty then _ else _) = _
  split <;> rfl

theorem cut_strict (m : Machine) (before : Option BlockKind) :
    m.strict.cut before = (m.cut before).strict := by
  cases before <;> rfl

theorem taking_strict (m : Machine) (t : Token) (before closing : Option BlockKind) :
    m.strict.taking t before closing = (m.taking t before closing).strict := by
  cases before <;> cases closing <;> rfl

theorem noted_strict (m : Machine) (note : Option Note) :
    m.strict.noted note = (m.noted note).strict := by
  cases note <;> rfl

/-- A move without a mismatch of names is the same for both machines. -/
theorem act_strict (m : Machine) (t : Token) (move : Move) :
    m.strict.act t none move = ((m.act t none move).1.strict, (m.act t none move).2) := by
  cases move with
  | take before closing next =>
    simp only [act, mismatched, taking_strict]
    exact follow_strict _ next .taken
  | pass before next =>
    simp only [act, cut_strict]
    exact follow_strict _ next .handedOn
  | finish => exact finish_strict m

theorem warnings_follow (m : Machine) (next : Next) (v : Verdict) :
    (m.follow next v).1.warnings = m.warnings := by
  unfold Machine.follow
  split <;> rfl

theorem warnings_act (m : Machine) (t : Token) (move : Move) :
    (m.act t none move).1.warnings = m.warnings := by
  cases move with
  | take before closing next =>
    simp only [act, mismatched, warnings_follow]
    exact (becomes_taking m t before closing).warnings
  | pass before next =>
    simp only [act, warnings_follow]
    exact (becomes_cut m before).warnings
  | finish =>
    simp only [act, Machine.finish]
    split <;> rfl

/-- A machine that lets names pass, and one with strict names, carry out the reaction of a state. -/
theorem twin_of_react {m n : Machine} {t : Token} (hm : m.options.strictNames = false)
    (hn : m.Becomes n m.control m.sheet m.warnings m.done)
    (hf : Fits m.control.state m.control.stack) :
    Twin .taken (fun w => .failed (.nameMismatch w)) m (n.react t) (n.strict.react t) := by
  have hreact : n.strict.control.state.react n.strict.sheet.index t =
      n.control.state.react n.sheet.index t := rfl
  unfold Machine.react
  rw [hreact]
  cases hr : n.control.state.react n.sheet.index t with
  | error c => exact .agree hn.warnings
  | ok r =>
    obtain ⟨move, note, x⟩ := r
    have hk := hn.trans (becomes_noted n note)
    rw [hn.control, hn.sheet, hn.warnings, hn.done] at hk
    simp only [perform_eq, noted_strict]
    generalize n.noted note = k at hk
    cases x with
    | none =>
      rw [act_strict]
      exact .agree ((warnings_act k t move).trans hk.warnings)
    | some w =>
      -- Names are compared only where an end is completed, which leaves the construct.
      obtain ⟨scope, phase, -, rfl⟩ := (announces_of_react hr).2 w rfl
      rw [hn.control] at hr
      obtain ⟨c, hc, -, -⟩ := hf.follow (allows_of_react hr).leads_take
      have hl := hk.trans (becomes_taking k t none (some scope.construct.endKind))
      generalize hj : k.taking t none (some scope.construct.endKind) = l at hl
      have hlenient : k.act t (some w) (.take none (some scope.construct.endKind) .return_) =
          ({ ({ l with warnings := l.warnings.push w }.log (.mismatch w)) with control := c },
            .taken) := by
        have hopt : l.options.strictNames = false := by rw [hl.options, hm]
        have hctl : ({ l with warnings := l.warnings.push w }.log
            (.mismatch w)).control.follow .return_ = .ok c := by
          show l.control.follow .return_ = .ok c
          rw [hl.control, hk.control]
          exact hc
        simp only [act, hj, mismatched, hopt, Bool.false_eq_true, if_false]
        exact follow_ok hctl _
      have hstrict : k.strict.act t (some w) (.take none (some scope.construct.endKind) .return_) =
          (l.strict, .failed (.nameMismatch w)) := by
        simp only [act, taking_strict, hj]
        rfl
      rw [hlenient, hstrict]
      refine .differ ?_ ?_ rfl
      · show l.warnings.push w = _
        rw [hl.warnings, hk.warnings]
      · show _ < l.sheet.blocks.size
        rw [hl.sheet, hk.sheet, ← Chain.length_toList, ← Chain.length_toList,
          m.sheet.blocks_taking _ _ _ .return_, List.length_append]
        simp [Sheet.completedBy, Sheet.closeCompletion, Completion.blocks, assemble]

/-- **One visit** of the two machines. -/
theorem twin_visit {m : Machine} {t : Token} (hm : m.options.strictNames = false)
    (hf : Fits m.control.state m.control.stack) :
    Twin .taken (fun w => .failed (.nameMismatch w)) m (m.visit t) (m.strict.visit t) := by
  have hlog : m.Becomes (m.log (.visit m.control.name t)) m.control m.sheet m.warnings m.done :=
    ⟨rfl, rfl, rfl, rfl, rfl⟩
  have hreact := twin_of_react (t := t) hm hlog hf
  unfold visit
  cases ha : m.control.isAside with
  | true =>
    have ha' : m.strict.control.isAside = true := ha
    simp only [log, ha, ha', if_true]
    split <;> exact .agree rfl
  | false =>
    have ha' : m.strict.control.isAside = false := ha
    simp only [log, ha, ha', Bool.false_eq_true, if_false]
    split
    · have hs : m.strict.control.state.trivia = m.control.state.trivia := rfl
      simp only [hs]
      cases m.control.state.trivia with
      | apart => exact .agree rfl
      | inside =>
        dsimp only
        split <;> exact .agree rfl
      | seen => exact hreact
    · exact hreact

/-! ## One token -/

theorem Turn.warnings_prefix {m m' : Machine} {t : Token} {cs : List Completion} {v : Verdict}
    (hm : Turn m t cs m' v) : m.warnings.toList <+: m'.warnings.toList := by
  cases hm with
  | take _ _ _ _ _ hm =>
    rw [hm.warnings, Array.toList_append]
    exact List.prefix_append _ _
  | _ => exact ‹m.Becomes m' ..›.warnings ▸ List.prefix_rfl

theorem twin_settleToken {m : Machine} {ts : List Token} {t : Token} {n : Nat}
    (hm : m.options.strictNames = false) (h : m.Sound ts)
    (ht : m.sheet.tokens.toList = ts ++ [t]) :
    Twin none (fun w => some (.nameMismatch w)) m (m.settleToken t n)
      (m.strict.settleToken t n) := by
  induction n generalizing m with
  | zero => exact .agree rfl
  | succ n ih =>
    have htwin := twin_visit (t := t) hm h.fits
    simp only [Machine.settleToken]
    generalize hv : m.visit t = r, m.strict.visit t = r' at htwin
    cases htwin with
    | @agree k v hw =>
      have hturn := turn_of_visit h.fits hv
      cases v with
      | taken => exact .agree hw
      | failed e => exact .agree hw
      | handedOn =>
        obtain ⟨htok, hsound, -⟩ := h.handedOn ht hturn
        have := ih (hturn.options_eq ▸ hm) hsound htok
        dsimp only
        generalize k.settleToken t n = r, k.strict.settleToken t n = r' at this
        have hle := hturn.size_blocks_le
        cases this with
        | agree hw' => exact .agree (hw'.trans hw)
        | differ hw' hb hs => exact .differ (by rw [hw', hw]) (by omega) hs
    | differ hw hb hs => exact .differ hw hb hs

/-- **One token**, read by the two machines. -/
theorem twin_feed {m : Machine} (hm : m.options.strictNames = false)
    (h : m.Sound m.sheet.tokens.toList) (t : Token) :
    Twin none (fun w => some (.nameMismatch w)) m (m.feed t) (m.strict.feed t) := by
  have htok : (m.sheet.push t).tokens.toList = m.sheet.tokens.toList ++ [t] := by
    simp [Sheet.push]
  have := @twin_settleToken { m with sheet := m.sheet.push t } _ t visitLimit hm (h.push t) htok
  exact this.of_eq rfl rfl

/-! ## Runs -/

/-- Warnings are only ever added. -/
theorem kept_warnings (ws : List NameMismatch) :
    Kept fun m _ _ => ws <+: m.warnings.toList where
  push _ h := h
  handedOn _ _ _ hm h := h.trans hm.warnings_prefix
  taken _ _ _ hm _ h := h.trans hm.warnings_prefix

theorem Sound.warnings_run {m : Machine} (h : m.Sound m.sheet.tokens.toList)
    (xs : List (Except LexError Token)) : m.warnings.toList <+: (m.run xs).1.warnings.toList := by
  have hends := @run_ends _ (kept_warnings m.warnings.toList) m (m.run xs).1 _ [] h rfl
    List.prefix_rfl xs (m.run xs).2 rfl
  generalize (m.run xs).1 = k, (m.run xs).2 = e at hends
  cases hends with
  | finished _ _ hp => exact hp
  | stopped _ _ hp => exact hp
  | failed _ _ hp _ hm => exact hp.trans hm.warnings_prefix

theorem options_run {options : Options} {m : Machine} {xs : List (Except LexError Token)}
    {e : Option OutlineError} (hr : Machine.run { options } xs = (m, e)) : m.options = options := by
  have hends := run_ends_start (kept_options options) rfl hr
  cases hends with
  | finished _ _ hp => exact hp
  | stopped _ _ hp => exact hp
  | failed _ _ hp _ hm => exact hm.options_eq.trans hp

/-- The token `t` after `us` adds the first warning `w`. There the run with strict names breaks off,
with the sheet that the other run has right after `t`. -/
structure PartsAt (m : Machine) (us : List (Except LexError Token)) (t : Token)
    (vs : List (Except LexError Token)) (w : NameMismatch) : Prop where
  before : (m.run us).1.warnings = m.warnings
  added : (m.run (us ++ [.ok t])).1.warnings = m.warnings.push w
  after : ∃ ws, (m.run (us ++ .ok t :: vs)).1.warnings.toList = m.warnings.toList ++ w :: ws
  error : (m.strict.run (us ++ .ok t :: vs)).2 = some (.nameMismatch w)
  sheet : (m.strict.run (us ++ .ok t :: vs)).1.sheet = (m.run (us ++ [.ok t])).1.sheet
  size : (m.strict.run (us ++ .ok t :: vs)).1.sheet.tokens.size =
    m.sheet.tokens.size + us.length + 1

/-- The token that both machines read first adds no warning. -/
theorem PartsAt.cons {m k : Machine} {t u : Token} {us vs : List (Except LexError Token)}
    {w : NameMismatch} (h : k.PartsAt us u vs w) (hr : m.ReadsTo [.ok t] k)
    (hr' : m.strict.ReadsTo [.ok t] k.strict) (hw : k.warnings = m.warnings)
    (hsize : k.sheet.tokens.size = m.sheet.tokens.size + 1) : m.PartsAt (.ok t :: us) u vs w := by
  have hrun : ∀ zs, m.run (.ok t :: zs) = k.run zs := fun zs => (hr zs).1
  have hrun' : ∀ zs, m.strict.run (.ok t :: zs) = k.strict.run zs := fun zs => (hr' zs).1
  refine ⟨?_, ?_, ?_, ?_, ?_, ?_⟩
  · rw [hrun, h.before, hw]
  · rw [List.cons_append, hrun, h.added, hw]
  · rw [List.cons_append, hrun, ← hw]
    exact h.after
  · rw [List.cons_append, hrun', h.error]
  · rw [List.cons_append, List.cons_append, hrun, hrun', h.sheet]
  · rw [List.cons_append, hrun', h.size, hsize, List.length_cons]
    omega

/-- The first token adds a warning. -/
theorem Sound.partsAt {m k k' : Machine} {t : Token} {w : NameMismatch}
    (h : m.Sound m.sheet.tokens.toList) (hd : m.done = false) (hf : m.feed t = (k, none))
    (hf' : m.strict.feed t = (k', some (.nameMismatch w)))
    (hw : k.warnings = m.warnings.push w) (hs : k'.sheet = k.sheet)
    (vs : List (Except LexError Token)) : m.PartsAt [] t vs w := by
  have hd' : m.strict.done = false := hd
  have hr := readsTo_feed hd hf
  obtain ⟨hsound, -, hsize⟩ := h.feed hd hf
  obtain ⟨ws, hws⟩ := hsound.warnings_run vs
  have hstrict : m.strict.run (.ok t :: vs) = (k', some (.nameMismatch w)) := by
    simp [run, hd', hf']
  refine ⟨?_, ?_, ⟨ws, ?_⟩, ?_, ?_, ?_⟩
  · simp [run, hd]
  · rw [List.nil_append, hr.run_eq, hw]
  · rw [List.nil_append, show m.run (.ok t :: vs) = k.run vs from (hr vs).1, ← hws, hw]
    simp
  · rw [List.nil_append, hstrict]
  · rw [List.nil_append, List.nil_append, hstrict, hr.run_eq, hs]
  · rw [List.nil_append, hstrict, hs, hsize]
    rfl

/-- **Runs with and without strict names.** Either no warning is added and the runs are the same, or
they part at the token that adds the first warning. -/
theorem run_strict {m : Machine} (hm : m.options.strictNames = false)
    (h : m.Sound m.sheet.tokens.toList) (xs : List (Except LexError Token)) :
    ((m.run xs).1.warnings = m.warnings ∧
      m.strict.run xs = ((m.run xs).1.strict, (m.run xs).2)) ∨
    ∃ us t vs w, xs = us ++ .ok t :: vs ∧ m.PartsAt us t vs w := by
  induction xs generalizing m with
  | nil =>
    left
    have hd : m.strict.done = m.done := rfl
    simp only [run, hd]
    split <;> exact ⟨rfl, rfl⟩
  | cons x xs ih =>
    cases hd : m.done with
    | true =>
      have hd' : m.strict.done = true := hd
      left
      simp [run, hd, hd']
    | false =>
      have hd' : m.strict.done = false := hd
      cases x with
      | error l =>
        left
        simp [run, hd, hd']
      | ok t =>
        have htwin := twin_feed hm h t
        generalize hf : m.feed t = r, hf' : m.strict.feed t = r' at htwin
        cases htwin with
        | @agree k e hw =>
          cases e with
          | some e =>
            left
            simp [run, hd, hd', hf, hf', hw]
          | none =>
            -- Once the token has been read, the runs are those of the machines after it.
            have hr := readsTo_feed hd hf
            have hr' := readsTo_feed hd' hf'
            obtain ⟨hsound, hopt, hsize⟩ := h.feed hd hf
            rcases ih (hopt ▸ hm) hsound with ⟨hw', hs⟩ | ⟨us, u, vs, w, rfl, hparts⟩
            · left
              rw [show m.run (.ok t :: xs) = k.run xs from (hr xs).1,
                show m.strict.run (.ok t :: xs) = k.strict.run xs from (hr' xs).1]
              exact ⟨hw'.trans hw, hs⟩
            · exact .inr ⟨.ok t :: us, u, vs, w, rfl, hparts.cons hr hr' hw hsize⟩
        | @differ k k' w hw _ hs =>
          exact .inr ⟨[], t, xs, w, rfl, h.partsAt hd hf hf' hw hs xs⟩

end Machine

/-! ## Blocks on demand -/

namespace Parser

open Machine

/-- The same parser, with strict names. -/
def strict (p : Parser) : Parser := { p with machine := p.machine.strict }

/-- Reading on with and without strict names, for a parser that has delivered all blocks so far. -/
theorem pull_strict {m : Machine} {d : Nat} (hm : m.options.strictNames = false)
    (h : m.Sound m.sheet.tokens.toList) (hd : m.done = false) (hb : m.sheet.blocks.size = d)
    (xs : List (Except LexError Token)) :
    ((pull m d xs).2.machine.warnings = m.warnings ∧
      pull m.strict d xs = ((pull m d xs).1, (pull m d xs).2.strict)) ∨
    ∃ w q, (pull m d xs).2.machine.warnings = m.warnings.push w ∧
      pull m.strict d xs = (some (.error (.nameMismatch w)), q) ∧
      q.machine.sheet = (pull m d xs).2.machine.sheet := by
  induction xs generalizing m with
  | nil => exact .inl ⟨rfl, rfl⟩
  | cons x xs ih =>
    cases x with
    | error l => exact .inl ⟨rfl, rfl⟩
    | ok t =>
      have htwin := twin_feed hm h t
      simp only [pull]
      generalize hf : m.feed t = r, m.strict.feed t = r' at htwin
      cases htwin with
      | @agree k e hw =>
        cases e with
        | some e => exact .inl ⟨hw, rfl⟩
        | none =>
          obtain ⟨hsound, hopt, -⟩ := h.feed hd hf
          have hle := h.size_blocks_le_feed rfl hd hf
          have hks : k.strict.sheet = k.sheet := rfl
          have hkd : k.strict.done = k.done := rfl
          simp only [hks, hkd]
          by_cases hdk : d < k.sheet.blocks.size
          · simp only [if_pos hdk]
            exact .inl ⟨hw, rfl⟩
          · simp only [if_neg hdk]
            cases hdone : k.done with
            | true => exact .inl ⟨hw, rfl⟩
            | false =>
              have := ih (hopt ▸ hm) hsound hdone (by omega)
              rwa [hw] at this
      | @differ k k' w hw hbk hs =>
        simp only [if_pos (hb ▸ hbk : d < k.sheet.blocks.size)]
        exact .inr ⟨w, _, hw, rfl, hs⟩

theorem Delivers.sound {input : List (Except LexError Token)} {options : Options}
    {answers : List Answer} {p : Parser} (h : Delivers input options answers p)
    (hf : p.failed = false) : p.machine.Sound p.machine.sheet.tokens.toList := by
  have hstage := h.stage
  generalize reportedErrors answers = es at hstage
  cases hstage with
  | reading _ hr => exact hr.sound
  | failed _ hf' =>
    rw [hf] at hf'
    cases hf'

/-- **One call** with and without strict names. -/
theorem Delivers.next_strict {input : List (Except LexError Token)} {options : Options}
    {answers : List Answer} {p : Parser} (h : Delivers input options answers p)
    (hm : p.machine.options.strictNames = false) :
    (p.next.2.machine.warnings = p.machine.warnings ∧
      p.strict.next = (p.next.1, p.next.2.strict)) ∨
    ∃ w q, p.next.2.machine.warnings = p.machine.warnings.push w ∧
      p.strict.next = (some (.error (.nameMismatch w)), q) ∧
      q.machine.sheet = p.next.2.machine.sheet := by
  have hle := h.delivered_le
  have hps : p.strict.machine.sheet = p.machine.sheet := rfl
  have hpd : p.strict.machine.done = p.machine.done := rfl
  have hpf : p.strict.failed = p.failed := rfl
  have hpn : p.strict.delivered = p.delivered := rfl
  unfold Parser.next
  simp only [hps, hpd, hpf, hpn]
  by_cases hb : p.delivered < p.machine.sheet.blocks.size
  · simp only [if_pos hb]
    exact .inl ⟨trivial, rfl⟩
  · simp only [if_neg hb]
    by_cases hf : (p.failed || p.machine.done) = true
    · simp only [if_pos hf]
      exact .inl ⟨trivial, trivial⟩
    · simp only [if_neg hf]
      obtain ⟨hfailed, hdone⟩ : p.failed = false ∧ p.machine.done = false := by simpa using hf
      exact pull_strict hm (h.sound hfailed) hdone (by omega) p.input

/-- As long as no warning has been recorded, the answers are the same. -/
theorem calls_strict (input : List (Except LexError Token)) (options : Options) (n : Nat)
    (hw : ((start input (options.withStrictNames false)).calls n).2.machine.warnings = #[]) :
    (start input (options.withStrictNames true)).calls n =
      (((start input (options.withStrictNames false)).calls n).1,
        ((start input (options.withStrictNames false)).calls n).2.strict) := by
  induction n with
  | zero => rfl
  | succ n ih =>
    have hd := delivers_calls input (options.withStrictNames false) n
    obtain ⟨_, _, -, hrun, -⟩ := hd.exists_run
    have hopt := options_run hrun
    simp only [calls] at hw ⊢
    rcases hd.next_strict (by rw [hopt]; rfl) with ⟨hw', hs⟩ | ⟨w, q, hw', -, -⟩
    · rw [ih (hw' ▸ hw), hs]
    · rw [hw'] at hw
      exact absurd hw (by simp)

/-- The call that records the first warning reports it as an error if names are strict. -/
theorem calls_strict_mismatch (input : List (Except LexError Token)) (options : Options) (n : Nat)
    (hw : ((start input (options.withStrictNames false)).calls n).2.machine.warnings = #[])
    {w : NameMismatch}
    (hn : ((start input (options.withStrictNames false)).calls (n + 1)).2.machine.warnings[0]? =
      some w) :
    ∃ p, (start input (options.withStrictNames true)).calls (n + 1) =
        (((start input (options.withStrictNames false)).calls n).1 ++
          [some (.error (.nameMismatch w))], p) ∧
      p.machine.sheet =
        ((start input (options.withStrictNames false)).calls (n + 1)).2.machine.sheet := by
  have hd := delivers_calls input (options.withStrictNames false) n
  obtain ⟨_, _, -, hrun, -⟩ := hd.exists_run
  have hopt := options_run hrun
  have hcalls := calls_strict input options n hw
  simp only [calls] at hn ⊢
  rcases hd.next_strict (by rw [hopt]; rfl) with ⟨hw', -⟩ | ⟨w', q, hw', hs, hq⟩
  · rw [hw', hw] at hn
    cases hn
  · rw [hw', hw] at hn
    cases hn
    rw [hcalls, hs]
    exact ⟨q, rfl, hq⟩

end Parser

/-! ## The two outlines -/

/-- Strict names lead to an outline just if there is one without warnings, and to the same one. -/
theorem outline_strict_iff (tokens : List (Except LexError Token)) (options : Options)
    (d : Document) :
    outline tokens (options.withStrictNames true) = .ok d ↔
      outline tokens (options.withStrictNames false) = .ok d ∧ d.warnings = [] := by
  have hrun := Machine.run_strict (m := { options := options.withStrictNames false }) rfl
    (Machine.sound_start _) tokens
  have hstart : ({ options := options.withStrictNames false } : Machine).strict =
    { options := options.withStrictNames true } := rfl
  rw [hstart] at hrun
  unfold outline
  rcases hrun with ⟨hnone, hs⟩ | ⟨us, t, vs, w, rfl, -, -, ⟨ws, hws⟩, he, -, -⟩
  · rw [hs]
    generalize Machine.run { options := options.withStrictNames false } tokens = r at hnone
    obtain ⟨k, _ | e⟩ := r
    · have hdoc : k.document.warnings = [] := congrArg Array.toList hnone
      constructor
      · rintro ⟨⟩
        exact ⟨rfl, hdoc⟩
      · rintro ⟨⟨⟩, -⟩
        rfl
    · simp
  · rw [hstart] at he
    generalize us ++ .ok t :: vs = xs at hws he ⊢
    generalize Machine.run { options := options.withStrictNames false } xs = r at hws
    generalize Machine.run { options := options.withStrictNames true } xs = r' at he
    obtain ⟨k, e⟩ := r
    obtain ⟨k', e'⟩ := r'
    obtain rfl : e' = _ := he
    have hdoc : k.document.warnings = w :: ws := hws
    constructor
    · rintro ⟨⟩
    · rintro ⟨hok, hd⟩
      cases e with
      | none =>
        cases hok
        cases hdoc.symm.trans hd
      | some e => cases hok

/-- **Names strict or not.** A run that records no warning is the same with strict names, whether it
succeeds or fails, and so are the answers of a parser as long as it records none. If the first
warning of a run is `w`, the run with strict names fails with `w` at the token `t` that adds it, and
has then read the tokens and completed the blocks that the other run has right after `t`. So strict
names lead to an outline just if there is one without warnings, and then the outlines are equal. -/
theorem strict_names_agree (tokens : List (Except LexError Token)) (options : Options) :
    let lenient := options.withStrictNames false
    let strict := options.withStrictNames true
    let run (o : Options) := Machine.run { options := o }
    let calls (o : Options) := (Parser.start tokens o).calls
    ((run lenient tokens).1.warnings = #[] →
      run strict tokens = ((run lenient tokens).1.strict, (run lenient tokens).2)) ∧
    (∀ w, (run lenient tokens).1.warnings[0]? = some w →
      (run strict tokens).2 = some (.nameMismatch w) ∧
      ∃ us t vs, tokens = us ++ .ok t :: vs ∧ (run lenient us).1.warnings = #[] ∧
        (run lenient (us ++ [.ok t])).1.warnings = #[w] ∧
        (run strict tokens).1.sheet = (run lenient (us ++ [.ok t])).1.sheet ∧
        (run strict tokens).1.sheet.tokens.size = us.length + 1) ∧
    (∀ n, (calls lenient n).2.machine.warnings = #[] →
      calls strict n = ((calls lenient n).1, (calls lenient n).2.strict)) ∧
    (∀ n w, (calls lenient n).2.machine.warnings = #[] →
      (calls lenient (n + 1)).2.machine.warnings[0]? = some w →
      ∃ p, calls strict (n + 1) =
          ((calls lenient n).1 ++ [some (.error (.nameMismatch w))], p) ∧
        p.machine.sheet = (calls lenient (n + 1)).2.machine.sheet) ∧
    ∀ d, outline tokens strict = .ok d ↔ outline tokens lenient = .ok d ∧ d.warnings = [] := by
  intro lenient strict run calls
  have hrun := Machine.run_strict (m := { options := lenient }) rfl (Machine.sound_start lenient)
    tokens
  have hstart : ({ options := lenient } : Machine).strict = { options := strict } := rfl
  rw [hstart] at hrun
  refine ⟨?_, ?_, fun n => Parser.calls_strict tokens options n,
    fun n w hw hn => Parser.calls_strict_mismatch tokens options n hw hn,
    outline_strict_iff tokens options⟩
  · intro hw
    rcases hrun with ⟨-, hs⟩ | ⟨us, t, vs, w, rfl, -, -, ⟨ws, hws⟩, -, -, -⟩
    · exact hs
    · have := congrArg Array.toList hw
      rw [hws] at this
      cases this
  · intro w hw
    rcases hrun with ⟨hnone, -⟩ | ⟨us, t, vs, w', rfl, hus, hu, ⟨ws, hws⟩, he, hsheet, hsize⟩
    · have hw : ({ options := lenient } : Machine).warnings[0]? = some w := hnone ▸ hw
      cases hw
    · have hw : (w' :: ws)[0]? = some w := by
        rw [← Array.getElem?_toList, hws] at hw
        exact hw
      cases hw
      have htokens : ({ options := lenient } : Machine).sheet.tokens.size = 0 := rfl
      rw [htokens, Nat.zero_add] at hsize
      exact ⟨he, us, t, vs, rfl, hus, hu, hsheet, hsize⟩

end VhdlOutline
