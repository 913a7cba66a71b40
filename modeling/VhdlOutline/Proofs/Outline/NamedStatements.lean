import VhdlOutline.Proofs.Outline.Labels

/-!
# Statements that start with a name

A name may be a label, the target of an assignment, or the name of a procedure. What it is depends
on tokens that may be far from it, and it stays in the block under construction until then.
`Target.Reaches` says of a list of tokens alone which of them decides, and
`Machine.namedStatement_exact` shows that this is what a run makes of them wherever a statement may
begin.

* `Gist.visit_target`: what the state of a target or procedure call does with a token that it takes.
* `Gist.follows_target`: from there, how it reads a list of tokens.
* `Machine.Passes.takesLabel` and `Machine.Passes.reaches_decisive`: from where a statement may
  begin to where it has been decided what the name is.
-/

namespace VhdlOutline

/-- The symbol of an assignment. -/
def Assignment.symbol : Assignment → Compound
  | .signal => .leq
  | .variable_ => .varAssign

namespace Token

/-- The token decides what statement it belongs to, if it stands outside parentheses. -/
def IsDecisive (t : Token) : Prop := (∃ a : Assignment, t.isCompound a.symbol) ∨ t.isChar ';'

/-- The token cannot be part of a target or procedure call in which `depth` parentheses are open. -/
def IsUnfit (depth : Int) (t : Token) : Prop :=
  t.kind = .endOfDocument ∨ t.isChar ')' ∧ depth = 0 ∨ t.isChar ';' ∧ depth ≠ 0 ∨
    t.kind = .word ∧ (t.isKeyword .port ∨ t.isKeyword .generic) ∧ depth = 0

instance (t : Token) : Decidable t.IsDecisive :=
  decidable_of_iff ((t.isCompound .leq ∨ t.isCompound .varAssign) ∨ t.isChar ';') <|
    or_congr_left ⟨fun h => h.elim (fun h => ⟨.signal, h⟩) fun h => ⟨.variable_, h⟩,
      fun ⟨a, h⟩ => by cases a <;> simp_all [Assignment.symbol]⟩

instance (depth : Int) (t : Token) : Decidable (t.IsUnfit depth) :=
  inferInstanceAs (Decidable (t.kind = .endOfDocument ∨ t.isChar ')' ∧ depth = 0 ∨
    t.isChar ';' ∧ depth ≠ 0 ∨
      t.kind = .word ∧ (t.isKeyword .port ∨ t.isKeyword .generic) ∧ depth = 0))

theorem asRead_of_isChar {t : Token} {c : Char} (h : t.isChar c) : t.asRead = t := by
  obtain ⟨kind, text, first, last⟩ := t
  obtain rfl : kind = .character c := by simpa [isChar] using h
  rfl

end Token

namespace Target

/-- Token number `i` after a name decides what statement the name starts, if none before it does. -/
def DecidesAt : List Token → Nat → Prop := AtDepth fun depth t => depth = 0 ∧ t.IsDecisive

/-- Token number `i` after a name can be part of no statement that starts with a name. -/
def FaultAt : List Token → Nat → Prop := AtDepth Token.IsUnfit

/-- Token number `k` after a name decides what statement the name starts. -/
structure Reaches (us : List Token) (k : Nat) : Prop where
  decidesAt : DecidesAt us k
  not_decidesAt : ∀ i < k, ¬ DecidesAt us i
  not_faultAt : ∀ i < k, ¬ FaultAt us i

instance (us : List Token) (i : Nat) : Decidable (DecidesAt us i) :=
  inferInstanceAs (Decidable (AtDepth (fun depth t => depth = 0 ∧ t.IsDecisive) us i))

instance (us : List Token) (i : Nat) : Decidable (FaultAt us i) :=
  inferInstanceAs (Decidable (AtDepth Token.IsUnfit us i))

instance (us : List Token) (k : Nat) : Decidable (Reaches us k) :=
  decidable_of_iff (DecidesAt us k ∧ (∀ i < k, ¬ DecidesAt us i) ∧ ∀ i < k, ¬ FaultAt us i)
    ⟨fun ⟨h, h', h''⟩ => ⟨h, h', h''⟩, fun ⟨h, h', h''⟩ => ⟨h, h', h''⟩⟩

/-- Where no token decides, none does before the first fault. -/
theorem not_decidesAt_of_faultless {us : List Token} {k : Nat} (hnot : ∀ i, ¬ Reaches us i)
    (hk : ∀ i < k, ¬ FaultAt us i) {i : Nat} (hi : i < k) : ¬ DecidesAt us i := by
  induction i using Nat.strong_induction_on with
  | _ i ih =>
    exact fun h => hnot i ⟨h, fun j hj => ih j hj (by omega), fun j hj => hk j (by omega)⟩

end Target

/-! ## The state of a target -/

section

variable {part : Part} {label : Option String} {depth : Nat} {t : Token}

theorem targetRest_eq_take (hx : ¬ (depth = 0 ∧ t.IsDecisive)) (ht : ¬ t.IsUnfit depth) :
    ∃ depth', Outline.targetRest part label depth t =
      .take (.target part label (.rest depth')) := by
  unfold Outline.targetRest
  unfold Token.IsUnfit at ht
  unfold Token.IsDecisive at hx
  split
  all_goals try split
  all_goals first
    | exact ⟨_, rfl⟩
    | exact absurd ⟨‹_›, .inl ⟨.signal, by simpa [Token.isCompound]⟩⟩ hx
    | exact absurd ⟨‹_›, .inl ⟨.variable_, by simpa [Token.isCompound]⟩⟩ hx
    | exact absurd ⟨‹_›, .inr (by simpa [Token.isChar])⟩ hx
    | exact absurd (by simp_all [Token.isChar]) ht

theorem targetRest_of_isCompound {a : Assignment} (h : t.isCompound a.symbol) :
    Outline.targetRest part label 0 t = .close a.startKind (.assignment a part .value) := by
  have h : t.kind = .compound a.symbol := by simpa [Token.isCompound] using h
  cases a <;> simp [Outline.targetRest, h, Assignment.symbol]

theorem targetRest_of_isChar (h : t.isChar ';') : Outline.targetRest part label 0 t =
    .cutClose .procedureCall .procedureCallEnd (.statements part none) := by
  have h : t.kind = .character ';' := by simpa [Token.isChar] using h
  simp [Outline.targetRest, h]

/-- Only the words of component instantiations are refused for want of an implementation. -/
theorem targetRest_eq_error (h : t.IsUnfit depth) :
    ∃ c, Outline.targetRest part label depth t = .error c ∧
      ((∃ what, c = .notImplemented what) ↔ t.kind = .word) := by
  rcases h with hk | ⟨hk, hd⟩ | ⟨hk, hd⟩ | ⟨hk, hword, hd⟩
  · exact ⟨_, by rw [Outline.targetRest, hk]; rfl, by simp [hk]⟩
  · have hk : t.kind = .character ')' := by simpa [Token.isChar] using hk
    have hd : depth = 0 := by omega
    exact ⟨_, by simp [Outline.targetRest, hk, hd]; rfl, by simp [hk]⟩
  · have hk : t.kind = .character ';' := by simpa [Token.isChar] using hk
    have hd : depth ≠ 0 := by omega
    exact ⟨_, by simp [Outline.targetRest, hk, hd]; rfl, by simp [hk]⟩
  · have hd : depth = 0 := by omega
    exact ⟨_, by simp [Outline.targetRest, hk, hd, hword]; rfl, by simp [hk]⟩

end

namespace Gist

variable {g : Gist} {part : Part} {label : Option String} {depth : Nat} {stack : List State}
  {t : Token}

/-- A target takes a token that neither decides nor is unfit. -/
theorem visit_target (hc : g.control = ⟨.target part label (.rest depth), false, stack⟩)
    (hx : ¬ (depth = 0 ∧ t.IsDecisive)) (ht : ¬ t.IsUnfit depth) :
    ∃ depth' : Nat, (depth' : Int) = depth + parenDepth [t] ∧ g.visit t =
      (g.into ⟨.target part label (.rest depth'), false, stack⟩ [t.asRead], .taken) := by
  obtain ⟨depth', htoken⟩ := @targetRest_eq_take part label depth t hx ht
  refine ⟨depth', (State.depth_of_targetRest htoken).1,
    visit_into (.target part label (.rest depth')) hc ?_⟩
  rw [State.react, Outline.target, htoken]
  rfl

/-- **A target takes tokens** as long as none of them decides or is unfit. -/
theorem follows_target (hc : g.control = ⟨.target part label (.rest 0), false, stack⟩)
    (hd : g.done = false) {us : List Token}
    (h : ∀ i < us.length, ¬ Target.DecidesAt us i ∧ ¬ Target.FaultAt us i) :
    ∃ depth : Nat, (depth : Int) = parenDepth us ∧ g.Follows us
      (g.into ⟨.target part label (.rest depth), false, stack⟩ (us.map Token.asRead)) := by
  refine follows_counting (fun depth _ => .target part label (.rest depth))
    (fun depth t => (depth = 0 ∧ t.IsDecisive) ∨ t.IsUnfit depth) (fun hc ht => ?_) hc hd
    fun i hi => not_or.2 (h i hi) ∘ atDepth_or.1
  obtain ⟨hdecides, hunfit⟩ := not_or.1 ht
  exact visit_target hc (by exact_mod_cast hdecides) hunfit

/-- The name that a statement starts with. -/
theorem reads_name (hc : g.control = ⟨.statements part label, false, stack⟩) (ht : t.isName) :
    Reads t g (g.into ⟨.target part label (.afterHead t.text), false, stack⟩ [t.asRead]) none := by
  have hkeyword : t.keyword? = none := by
    cases hk : t.keyword? with
    | none => rfl
    | some k => exact absurd ht (Token.not_isName_of_keyword? hk)
  have hreact : g.control.state.react 0 t =
      .ok ⟨.pass none (.goto (.target part label .name)), none, none⟩ := by
    rw [hc]
    cases part <;> simp [State.react, Outline.concurrent, Outline.sequential, hkeyword, ht] <;> rfl
  have hfollow : g.control.follow (.goto (.target part label .name)) =
      .ok ⟨.target part label .name, false, stack⟩ := by
    rw [hc]
    rfl
  refine .handedOn (visit_pass hreact hfollow) (.taken ?_)
  have hreact' : (State.target part label .name).react 0 t =
      .ok ⟨.take none none (.goto (.target part label (.afterHead t.text))), none, none⟩ := by
    rw [State.react, Outline.target, if_pos ht]
    rfl
  exact visit_into _ rfl hreact'

/-- The rest of an assignment: its value and the semicolon after it. -/
theorem follows_assignment {a : Assignment} {us : List Token} {k : Nat} {u : Token}
    (hc : g.control = ⟨.expression a.expression 0 false, false, .assignment a part .end_ :: stack⟩)
    (hp : g.pending = []) (hd : g.done = false) (hk : a.expression.Reaches us k)
    (hu : us[k]? = some u) :
    g.Follows (us.take k ++ [u]) (g.after ⟨[⟨a.expression.kind, (us.take k).map Token.inExpression⟩,
      ⟨a.endKind, [u]⟩], []⟩ ⟨.statements part none, false, stack⟩) := by
  obtain ⟨v, hv, hdepth, hterm⟩ := hk.endsAt
  obtain rfl := Option.some.inj (hu.symm.trans hv)
  have hsemi : u.isChar ';' := by
    rcases hterm with ⟨c, hc, hterm⟩ | ⟨k, hk, -⟩
    · obtain rfl : c = ';' := by
        cases a <;> simpa [Assignment.expression, Expression.closers] using hc
      exact hterm
    · cases a <;> cases hk
  have hinside : ∀ i < (us.take k).length, ¬ a.expression.EndsAt (us.take k) i ∧
      ¬ Expression.MisplacedAt (us.take k) i := by
    intro i hi
    have hik : i < k := Nat.lt_of_lt_of_le hi (List.length_take_le k us)
    rw [Expression.endsAt_take hi, Expression.misplacedAt_take hi]
    exact ⟨hk.not_endsAt i hik, hk.not_misplacedAt i hik⟩
  obtain ⟨depth, hdepth', hfollows⟩ := follows_expression hc hd hinside
  obtain rfl : depth = 0 := by omega
  have hbegun : (!(us.take k).isEmpty) = true := by
    have := hk.pos
    have := (List.getElem?_eq_some_iff.1 hu).1
    cases us <;> cases k <;> simp_all
  rw [hbegun] at hfollows
  have hreact : (State.expression a.expression 0 true).react 0 u =
      .ok ⟨.pass (some a.expression.kind) .return_, none, none⟩ := by
    rw [State.react, Outline.expression, if_pos ⟨rfl, by rwa [Expression.endsExpression_iff]⟩]
    rfl
  have hreact' : (State.assignment a part .end_).react 0 u =
      .ok ⟨.take none (some a.endKind) (.goto (.statements part none)), none, none⟩ := by
    rw [State.react, Outline.assignment, if_pos hsemi]
    rfl
  have hread : { u with kind := u.settled } = u := Token.asRead_of_isChar hsemi
  refine hfollows.append (.cons hd (.handedOn (visit_pass hreact rfl) (.taken ?_)) (.nil _))
  rw [visit_take hreact' (fun _ => rfl) rfl]
  simp [cut, add, into, after, hp, Control.gist, State.opens?, State.unnumbered, State.reading,
    hread]

end Gist

/-! ## From where a statement may begin -/

/-- The gist of a control shows its state, unless that is an expression or an end. -/
theorem Control.of_gist {c : Control} {s : State} {stack : List State}
    (h : c.gist = ⟨s, false, stack⟩) (hx : s.isExpression = false)
    (he : ∀ scope phase, s ≠ .end_ scope phase) : c.state = s ∧ c.stack = stack := by
  obtain ⟨state, aside, stack'⟩ := c
  unfold gist at h
  split at h
  · cases h
    cases hx
  · cases h
    refine ⟨?_, rfl⟩
    cases state with
    | end_ scope phase => cases phase <;> exact absurd rfl (he _ _)
    | _ => rfl

/-- The tokens after one of those that are neither blank nor comments. -/
theorem significant_of_split {ts mid ys : List Token} {u : Token} {k : Nat}
    (hts : ts = mid ++ u :: ys) (hmid : significant mid = (significant ts).take k)
    (hu : u.kind.isTrivia = false) :
    significant ys = (significant ts).drop (k + 1) := by
  have hsplit : significant ts = (significant ts).take k ++ u :: significant ys := by
    rw [← hmid, ← significant_cons hu, ← significant_append, ← hts]
  have hdrop : (significant ts).drop k = u :: significant ys :=
    List.append_cancel_left ((List.take_append_drop k _).trans hsplit)
  rw [← List.drop_drop, hdrop]
  rfl

namespace Machine

variable {options : Options} {pre xs us : List Token} {m m' : Machine} {t u name : Token}
  {n n' : Nat} {cs : List Completion} {part : Part} {label : Option String} {stack : List State}

/-- A state takes a token. -/
theorem Passes.take {before closing : Option BlockKind} {next : Next} {note : Option Note}
    {c : Control} (h : Passes options pre m (.facing t n) cs) (ht : t.kind.isTrivia = false)
    (ha : m.control.isAside = false)
    (hr : m.control.state.react m.sheet.index t = .ok ⟨.take before closing next, note, none⟩)
    (hc : m.control.follow next = .ok c) :
    ∃ m' ds, Passes options (pre ++ [t]) m' .between (cs ++ ds) ∧ m'.control = c ∧
      m'.gistAt (cs ++ ds) .between = { (((m.gistAt cs (.facing t n)).cut before).add
        { t with kind := m.control.state.reading t }).cut closing with control := c.gist } := by
  obtain ⟨_, -, -, hs, -, hn⟩ := h.facing
  obtain ⟨n, rfl⟩ : ∃ k, n = k + 1 := ⟨n - 1, by omega⟩
  generalize hv : m.visit t = r
  obtain ⟨m', v⟩ := r
  have hturn := turn_of_visit hs.fits hv
  generalize m.completed t = ds at hturn
  cases hturn with
  | take _ _ hr' _ hc' hm =>
    cases hr.symm.trans hr'
    cases hc.symm.trans hc'
    have := h.taken hv
    rw [completed_of_react ha (by simp [ht]) hs.fits hr] at this
    refine ⟨m', _, this, hm.control, ?_⟩
    cases h.holds kept_begun begun_start with
    | @facing us _ _ _ ht' hs _ _ hp =>
      have hk : (m.control.state.reading t).isTrivia = false :=
        (Token.settles_reading m.control.state t).isTrivia.trans ht
      have htokens := Sheet.toList_tokens_taking ht' before closing (m.control.state.reading t)
      rw [← hm.sheet] at htokens
      rw [gistAt_facing ht', gist_taking hs ht' hp.1 hk before closing next, gistAt, htokens,
        hm.gist_eq]
      simp [gist]
  | trivium htr | absorb htr | interrupt htr => cases htr.symm.trans ht
  | resume _ ha' => cases ha.symm.trans ha'
  | pass _ _ hr' | mismatch _ _ hr' | finish _ _ hr' | refuse _ _ hr' => cases hr.symm.trans hr'

section

variable {aside : Bool} (hc : m.control = ⟨.statements part label, aside, stack⟩)

include hc

theorem gistAt_statements (t : Token) (n : Nat) (cs : List Completion) :
    (m.gistAt cs (.facing t n)).control = ⟨.statements part label, false, stack⟩ ∧
      m.Rests (.facing t n) := by
  refine ⟨?_, fun _ => by rw [hc]; cases label <;> rfl⟩
  simp only [gistAt, gist, Control.gist, hc]
  rfl

/-- A run comes to face the token after the name that a statement starts with. -/
theorem Passes.reaches_afterHead (h : Passes options pre m (.facing t n) cs)
    (hus : significant (t :: xs) = name :: u :: us) (hname : name.isName) :
    ∃ mid ys m' n', t :: xs = mid ++ u :: ys ∧ significant mid = [name] ∧
      significant (u :: ys) = u :: us ∧ u.kind.isTrivia = false ∧
      Passes options (pre ++ mid) m' (.facing u n') cs ∧
      m'.control = ⟨.target part label (.afterHead name.text), false, stack⟩ ∧
      (m'.gistAt cs (.facing u n')).pending =
        (m.gistAt cs (.facing t n)).pending ++ [name.asRead] := by
  obtain ⟨hcontrol, hrests⟩ := gistAt_statements hc t n cs
  obtain ⟨mid, ys, hsplit, hmid, hut⟩ := exists_split_of_significant (k := 1) (by rw [hus]; rfl)
  have hmid : significant mid = [name] := by rw [hmid, hus]; rfl
  have hys : significant (u :: ys) = u :: us := by
    rw [hsplit, significant_append, hmid] at hus
    simpa using hus
  have hfollows := Gist.Follows.cons h.done_eq_false (Gist.reads_name hcontrol hname) (.nil _)
  rw [← hmid] at hfollows
  obtain ⟨k₁, n₁, h₁, -, hg₁⟩ := h.reaches_into hrests (prefix_of_split hsplit) hfollows
  obtain ⟨hstate, hstack⟩ := Control.of_gist (congrArg Gist.control hg₁) rfl (by simp)
  obtain ⟨m', n', h', hcontrol', hsheet⟩ := h₁.wake hut
  refine ⟨mid, ys, m', n', hsplit, hmid, hys, hut, h', ?_, ?_⟩
  · rw [hcontrol']
    simp only [hstate, hstack]
  · rw [gistAt_pending hsheet, hg₁]
    rfl

/-- A run comes to face the token after the name as part of a target or procedure call. -/
theorem Passes.reaches_rest (h : Passes options pre m (.facing t n) cs)
    (hus : significant (t :: xs) = name :: u :: us) (hname : name.isName)
    (hu : ¬ u.isChar ':') :
    ∃ mid ys m' n', t :: xs = mid ++ u :: ys ∧ significant mid = [name] ∧
      significant (u :: ys) = u :: us ∧
      Passes options (pre ++ mid) m' (.facing u n') cs ∧
      m'.control = ⟨.target part label (.rest 0), false, stack⟩ ∧
      (m'.gistAt cs (.facing u n')).pending =
        (m.gistAt cs (.facing t n)).pending ++ [name.asRead] := by
  obtain ⟨mid, ys, k₁, n₁, hsplit, hmid, hys, hut, h₁, hcontrol₁, hpending₁⟩ :=
    h.reaches_afterHead hc hus hname
  have hreact : k₁.control.state.react k₁.sheet.index u =
      .ok ⟨.pass none (.goto (.target part label (.rest 0))), none, none⟩ := by
    rw [hcontrol₁, State.react, Outline.target, if_neg hu]
    rfl
  have hfollow : k₁.control.follow (.goto (.target part label (.rest 0))) =
      .ok ⟨.target part label (.rest 0), false, stack⟩ := by
    rw [hcontrol₁]
    rfl
  obtain ⟨m', n', h', hcontrol, hsheet⟩ := h₁.handOn hut (by rw [hcontrol₁]) hreact hfollow
  exact ⟨mid, ys, m', n', hsplit, hmid, hys, by simpa [Sheet.completedBy] using h', hcontrol,
    (gistAt_pending hsheet).trans hpending₁⟩

end

theorem gistAt_target {phase : TargetPhase}
    (hc : m.control = ⟨.target part label phase, false, stack⟩) (t : Token) (n : Nat)
    (cs : List Completion) :
    (m.gistAt cs (.facing t n)).control = ⟨.target part label phase, false, stack⟩ := by
  simp only [gistAt, gist, Control.gist, hc]
  rfl

section

variable (hc : m.control = ⟨.target part label (.rest 0), false, stack⟩)

include hc

/-- A run reads on in a target as long as no token decides or is unfit. -/
theorem Passes.reaches_target (h : Passes options pre m (.facing t n) cs) {mid : List Token}
    (hx : [t] <+: mid ++ [u])
    (hk : ∀ i < (significant mid).length, ¬ Target.DecidesAt (significant mid) i ∧
      ¬ Target.FaultAt (significant mid) i) :
    ∃ m' k, ∃ depth : Nat, (depth : Int) = parenDepth (significant mid) ∧
      Passes options (pre ++ mid) m' (.facing u k) cs ∧ m'.Rests (.facing u k) ∧
      m'.gistAt cs (.facing u k) = (m.gistAt cs (.facing t n)).into
        ⟨.target part label (.rest depth), false, stack⟩
        ((significant mid).map Token.asRead) := by
  have hcontrol := gistAt_target hc t n cs
  have hrests : m.Rests (.facing t n) := h.rests.resolve_left (by simp [hc])
  obtain ⟨depth, hdepth, hfollows⟩ := Gist.follows_target hcontrol h.done_eq_false hk
  obtain ⟨m', k, h', hrests', hg⟩ := h.reaches_into hrests hx hfollows
  exact ⟨m', k, depth, hdepth, h', hrests', hg⟩

/-- A run comes to face the token that decides. -/
theorem Passes.target_decided (h : Passes options pre m (.facing t n) cs) {k : Nat}
    (hk : Target.Reaches (significant (t :: xs)) k) :
    ∃ mid u ys m' n', t :: xs = mid ++ u :: ys ∧
      significant mid = (significant (t :: xs)).take k ∧ (significant (t :: xs))[k]? = some u ∧
      u.kind.isTrivia = false ∧ u.IsDecisive ∧
      Passes options (pre ++ mid) m' (.facing u n') cs ∧
      m'.control = ⟨.target part label (.rest 0), false, stack⟩ ∧
      (m'.gistAt cs (.facing u n')).pending = (m.gistAt cs (.facing t n)).pending ++
        ((significant (t :: xs)).take k).map Token.asRead := by
  obtain ⟨u, hu, hdepth, hdecisive⟩ := hk.decidesAt
  obtain ⟨mid, ys, hsplit, hmid, hut⟩ := exists_split_of_significant hu
  have hlength : (significant mid).length ≤ k := by
    rw [hmid, List.length_take]
    omega
  obtain ⟨k₁, n₁, depth, hdepth', h₁, -, hg₁⟩ :=
    h.reaches_target hc (prefix_of_split hsplit) fun i hi => by
      have hik : i < k := by omega
      rw [hmid] at hi ⊢
      rw [Target.DecidesAt, Target.FaultAt, atDepth_take hi, atDepth_take hi]
      exact ⟨hk.not_decidesAt i hik, hk.not_faultAt i hik⟩
  rw [hmid] at hdepth' hg₁
  obtain rfl : depth = 0 := by omega
  obtain ⟨hstate, hstack⟩ := Control.of_gist (congrArg Gist.control hg₁) rfl (by simp)
  obtain ⟨m', n', h', hcontrol', hsheet⟩ := h₁.wake hut
  refine ⟨mid, u, ys, m', n', hsplit, hmid, hu, hut, hdecisive, h', ?_, ?_⟩
  · rw [hcontrol']
    simp only [hstate, hstack]
  · rw [gistAt_pending hsheet, hg₁]
    rfl

/-- A target refuses the first token at fault. -/
theorem Passes.target_refused (h : Passes options pre m (.facing t n) cs)
    (hnot : ∀ k, ¬ Target.Reaches (significant (t :: xs)) k) {i : Nat}
    (hu : (significant (t :: xs))[i]? = some u) (hfault : Target.FaultAt (significant (t :: xs)) i)
    (hfirst : ∀ j < i, ¬ Target.FaultAt (significant (t :: xs)) j) :
    ∃ mid ys m' c ds, t :: xs = mid ++ u :: ys ∧
      ((∃ what, c = .notImplemented what) ↔ u.kind = .word) ∧
      Passes options (pre ++ mid ++ [u]) m' (.broken (.refused u c)) (cs ++ ds) := by
  obtain ⟨mid, ys, hsplit, hmid, hut⟩ := exists_split_of_significant hu
  have hlength : (significant mid).length = i := by
    have := (List.getElem?_eq_some_iff.1 hu).1
    rw [hmid, List.length_take]
    omega
  obtain ⟨k, n', depth, hdepth, h', hrests, hg⟩ :=
    h.reaches_target hc (prefix_of_split hsplit) fun j hj => by
      have hji : j < i := by omega
      rw [hmid] at hj ⊢
      rw [Target.DecidesAt, Target.FaultAt, atDepth_take hj, atDepth_take hj]
      exact ⟨Target.not_decidesAt_of_faultless hnot hfirst hji, hfirst j hji⟩
  rw [hmid] at hdepth
  have hunfit : u.IsUnfit depth := by
    obtain ⟨v, hv, hunfit⟩ := hfault
    obtain rfl := Option.some.inj (hu.symm.trans hv)
    rwa [hdepth]
  obtain ⟨c, htoken, hwhat⟩ := @targetRest_eq_error part label depth u hunfit
  have hreact : (k.gistAt cs (.facing u n')).control.state.react 0 u = .error c := by
    rw [hg]
    exact htoken
  obtain ⟨m', ds, hbroken⟩ := h'.refused hrests hut (.failed (Gist.visit_refuse hreact))
  exact ⟨mid, ys, m', c, ds, hsplit, hwhat, hbroken⟩

/-- A target in which nothing decides takes all tokens. -/
theorem Passes.target_unended (h : Passes options pre m (.facing t n) cs)
    (hnot : ∀ k, ¬ Target.Reaches (significant (t :: xs)) k)
    (hfault : ∀ i, ¬ Target.FaultAt (significant (t :: xs)) i) :
    ∃ m', Passes options (pre ++ t :: xs) m' .between cs ∧ m'.done = false := by
  have hcontrol := gistAt_target hc t n cs
  have hrests : m.Rests (.facing t n) := h.rests.resolve_left (by simp [hc])
  obtain ⟨depth, -, hfollows⟩ := Gist.follows_target hcontrol h.done_eq_false fun i _ =>
    ⟨Target.not_decidesAt_of_faultless hnot (fun j _ => hfault j) (Nat.lt_succ_self i), hfault i⟩
  exact h.follows_into hrests hfollows

end

/-! ## What a run makes of the tokens -/

/-- A run that has read the tokens `pre` goes on with some of the tokens `ts`, which are `us` but
for blanks and comments. With these it completes the blocks `bs`, and it comes to the control
`c`. -/
def Completes (options : Options) (pre ts : List Token) (cs : List Completion) (us : List Token)
    (bs : List LogicalBlock) (c : Control) : Prop :=
  ∃ mid ys m ds, ts = mid ++ ys ∧ significant mid = us ∧
    Passes options (pre ++ mid) m .between (cs ++ ds) ∧ m.control = c ∧
    ds.map (·.logical m.sheet.tokens.toList) = bs

/-- A run that has read the tokens `pre` takes the `name` and the `colon` that the tokens `ts` start
with for the label of the statement that follows. -/
structure TakesLabel (options : Options) (pre ts : List Token) (cs : List Completion) (part : Part)
    (stack : List State) (name colon : Token) : Prop where
  completes : Completes options pre ts cs [name, colon] []
    ⟨.statements part (some name.text), false, stack⟩
  /-- The first block of the statement starts with the label. -/
  block : ∀ m e, Machine.run { options } ((pre ++ ts).map .ok) = (m, e) → ∃ ds,
    logicalBlocks ((pre ++ ts).map .ok) options = cs ++ ds ∧ ∀ d ∈ ds.head?,
      [name.asRead, colon.asRead] <+: (d.logical m.sheet.tokens.toList).tokens
  /-- If the statement is a construct, then the label is its name. -/
  openings : ∀ mid ys u m ds, ts = mid ++ ys → significant mid = [name, colon, u] →
    Passes options (pre ++ mid) m .between ds →
      m.control.openings = ((part.construct? u).map fun c => ⟨c.keyword, some name.text⟩).toList ++
        (⟨.statements part none, false, stack⟩ : Control).openings

section

variable {aside : Bool} (hc : m.control = ⟨.statements part label, aside, stack⟩)

include hc

/-- A name before a colon is a label, unless there is one already. -/
theorem Passes.takesLabel (h : Passes options pre m (.facing t n) cs) (hl : label = none)
    (hus : significant (t :: xs) = name :: u :: us) (hname : name.isName) (hu : u.isChar ':') :
    TakesLabel options pre (t :: xs) cs part stack name u := by
  subst hl
  obtain ⟨mid, ys, k, n', hsplit, hmid, hys, hut, hk, hcontrol, hpending⟩ :=
    h.reaches_afterHead hc hus hname
  have hnil : (m.gistAt cs (.facing t n)).pending = [] := by
    have := h.heads
    rw [hc] at this
    exact isLabelling_none.1 this
  have hreact : k.control.state.react k.sheet.index u = .ok
      ⟨.take none none (.goto (.statements part (some name.text))), some (.label name.text),
        none⟩ := by
    rw [hcontrol, State.react, Outline.target, if_pos hu]
    rfl
  have hfollow : k.control.follow (.goto (.statements part (some name.text))) =
      .ok ⟨.statements part (some name.text), false, stack⟩ := by
    rw [hcontrol]
    rfl
  obtain ⟨m', ds, h', hcontrol', hg⟩ := hk.take hut (by rw [hcontrol]) hreact hfollow
  have hblocks : (m'.gistAt (cs ++ ds) .between).blocks =
      (k.gistAt cs (.facing u n')).blocks ++ [] := by
    rw [hg, List.append_nil]
    rfl
  obtain rfl : ds = [] := List.map_eq_nil_iff.1 (map_logical_of_gistAt hblocks)
  rw [List.append_nil] at h' hg
  have hmid' : significant (mid ++ [u]) = [name, u] := by
    rw [significant_append, hmid, significant_singleton hut]
    rfl
  have hpending' : (m'.gistAt cs .between).pending = [name.asRead, u.asRead] := by
    rw [hg, hcontrol]
    simp only [Gist.cut, Gist.add, hpending, hnil]
    rfl
  refine ⟨⟨mid ++ [u], ys, m', [], by simp [hsplit], hmid', by simpa using h', hcontrol', rfl⟩,
    fun m₁ e hrun => ?_, fun mid₁ ys₁ v m₁ ds hsplit₁ hmid₁ h₁ => ?_⟩
  · have hpre : pre ++ t :: xs = (pre ++ mid ++ [u]) ++ ys := by simp [hsplit]
    rw [hpre] at hrun ⊢
    rw [← hpending']
    exact h'.pending_prefix (by rw [Rests, hcontrol']; rfl) hrun
  · -- The colon comes before the first token of the statement.
    obtain ⟨vs, rfl⟩ : mid ++ [u] <+: mid₁ := by
      have hall : mid ++ [u] <+: t :: xs := ⟨ys, by simp [hsplit]⟩
      refine (List.prefix_or_prefix_of_prefix hall ⟨ys₁, hsplit₁.symm⟩).resolve_right fun hp => ?_
      have hle : (significant mid₁).length ≤ (significant (mid ++ [u])).length :=
        (hp.filter Token.isSignificant).length_le
      rw [hmid', hmid₁] at hle
      simp at hle
    rw [significant_append, hmid'] at hmid₁
    have h₁ : Passes options ((pre ++ mid ++ [u]) ++ vs) m₁ .between ds := by simpa using h₁
    have := h'.openings_labelled hcontrol' h₁ (by simpa using hmid₁)
    rw [this, hcontrol']
    rfl

/-- A statement takes no second label. -/
theorem Passes.secondLabel (h : Passes options pre m (.facing t n) cs) (hl : label.isSome)
    (hus : significant (t :: xs) = name :: u :: us) (hname : name.isName) (hu : u.isChar ':') :
    ∃ m', Machine.run { options } ((pre ++ t :: xs).map .ok) =
      (m', some (.refused u .secondLabel)) := by
  obtain ⟨mid, ys, k, n', hsplit, -, -, hut, hk, hcontrol, -⟩ :=
    h.reaches_afterHead hc hus hname
  have hreact : (k.gistAt cs (.facing u n')).control.state.react 0 u = .error .secondLabel := by
    rw [gistAt_target hcontrol, State.react, Outline.target, if_pos hu, if_pos hl]
  obtain ⟨m', ds, hbroken⟩ := hk.refused (hk.rests.resolve_left (by simp [hcontrol])) hut
    (.failed (Gist.visit_refuse hreact))
  refine ⟨m', ?_⟩
  have := hbroken.run_broken (ys.map .ok)
  simpa [hsplit] using this

/-- A run comes to face the token that decides what statement the name starts. -/
theorem Passes.reaches_decisive (h : Passes options pre m (.facing t n) cs)
    (hus : significant (t :: xs) = name :: us) (hname : name.isName)
    (hcolon : ∀ c ∈ us.head?, ¬ c.isChar ':') {k : Nat} (hk : Target.Reaches us k)
    (hu : us[k]? = some u) :
    ∃ mid ys m' n', t :: xs = mid ++ u :: ys ∧ significant mid = name :: us.take k ∧
      significant ys = us.drop (k + 1) ∧ u.kind.isTrivia = false ∧
      Passes options (pre ++ mid) m' (.facing u n') cs ∧
      m'.control = ⟨.target part label (.rest 0), false, stack⟩ ∧
      (m'.gistAt cs (.facing u n')).pending =
        (m.gistAt cs (.facing t n)).pending ++ (name :: us.take k).map Token.asRead := by
  obtain _ | ⟨v, us⟩ := us
  · cases hu
  obtain ⟨mid₀, ys₀, k₀, n₀, hsplit₀, hmid₀, hys₀, h₀, hcontrol₀, hpending₀⟩ :=
    h.reaches_rest hc hus hname (hcolon v rfl)
  rw [← hys₀] at hk hu ⊢
  obtain ⟨mid₁, v, ys, m', n', hsplit, hmid, hv, hut, -, h', hcontrol, hpending⟩ :=
    h₀.target_decided hcontrol₀ hk
  obtain rfl := Option.some.inj (hu.symm.trans hv)
  refine ⟨mid₀ ++ mid₁, ys, m', n', by simp [hsplit₀, hsplit], ?_, ?_, hut, by simpa using h',
    hcontrol, ?_⟩
  · rw [significant_append, hmid₀, hmid]
    rfl
  · exact significant_of_split hsplit hmid hut
  · rw [hpending, hpending₀]
    simp

/-- A procedure call. -/
theorem Passes.completes_call (h : Passes options pre m (.facing t n) cs)
    (hus : significant (t :: xs) = name :: us) (hname : name.isName)
    (hcolon : ∀ c ∈ us.head?, ¬ c.isChar ':') {k : Nat} (hk : Target.Reaches us k)
    (hu : us[k]? = some u) (hsemi : u.isChar ';') :
    Completes options pre (t :: xs) cs (name :: us.take (k + 1))
      [⟨.procedureCall,
        (m.gistAt cs (.facing t n)).pending ++ (name :: us.take k).map Token.asRead⟩,
        ⟨.procedureCallEnd, [u.asRead]⟩] ⟨.statements part none, false, stack⟩ := by
  obtain ⟨mid, ys, m₁, n₁, hsplit, hmid, -, hut, h₁, hcontrol, hpending⟩ :=
    h.reaches_decisive hc hus hname hcolon hk hu
  have hreact : m₁.control.state.react m₁.sheet.index u =
      .ok ⟨.take (some .procedureCall) (some .procedureCallEnd) (.goto (.statements part none)),
        none, none⟩ := by
    rw [hcontrol, State.react, Outline.target, targetRest_of_isChar hsemi]
    rfl
  have hfollow : m₁.control.follow (.goto (.statements part none)) =
      .ok ⟨.statements part none, false, stack⟩ := by
    rw [hcontrol]
    rfl
  obtain ⟨m', ds, h', hcontrol', hg⟩ := h₁.take hut (by rw [hcontrol]) hreact hfollow
  have hblocks : (m'.gistAt (cs ++ ds) .between).blocks =
      (m₁.gistAt cs (.facing u n₁)).blocks ++ [⟨.procedureCall,
        (m.gistAt cs (.facing t n)).pending ++ (name :: us.take k).map Token.asRead⟩,
        ⟨.procedureCallEnd, [u.asRead]⟩] := by
    rw [hg, hcontrol]
    simp [Gist.cut, Gist.add, hpending, State.reading, Token.asRead]
  have hmid' : significant (mid ++ [u]) = name :: us.take (k + 1) := by
    rw [significant_append, hmid, significant_singleton hut, List.take_add_one, hu]
    rfl
  exact ⟨mid ++ [u], ys, m', ds, by simp [hsplit], hmid', by simpa using h', hcontrol',
    map_logical_of_gistAt hblocks⟩

/-- An assignment up to its symbol. The symbol belongs to the block of the target. -/
theorem Passes.reaches_value (h : Passes options pre m (.facing t n) cs)
    (hus : significant (t :: xs) = name :: us) (hname : name.isName)
    (hcolon : ∀ c ∈ us.head?, ¬ c.isChar ':') {k : Nat} (hk : Target.Reaches us k)
    (hu : us[k]? = some u) {a : Assignment} (ha : u.isCompound a.symbol) :
    ∃ mid ys m₁ n₁ m' ds, t :: xs = mid ++ ys ∧ significant mid = name :: us.take (k + 1) ∧
      significant ys = us.drop (k + 1) ∧ Passes options (pre ++ mid) m' .between (cs ++ ds) ∧
      m'.control = ⟨.assignment a part .value, false, stack⟩ ∧ m'.done = false ∧
      (m'.gistAt (cs ++ ds) .between).pending = [] ∧
      (m'.gistAt (cs ++ ds) .between).blocks = (gistAt m₁ cs (.facing u n₁)).blocks ++
        [⟨a.startKind,
          (m.gistAt cs (.facing t n)).pending ++ (name :: us.take (k + 1)).map Token.asRead⟩] := by
  obtain ⟨mid, ys, m₁, n₁, hsplit, hmid, hys, hut, h₁, hcontrol, hpending⟩ :=
    h.reaches_decisive hc hus hname hcolon hk hu
  have hreact : m₁.control.state.react m₁.sheet.index u =
      .ok ⟨.take none (some a.startKind) (.goto (.assignment a part .value)), none, none⟩ := by
    rw [hcontrol, State.react, Outline.target, targetRest_of_isCompound ha]
    rfl
  have hfollow : m₁.control.follow (.goto (.assignment a part .value)) =
      .ok ⟨.assignment a part .value, false, stack⟩ := by
    rw [hcontrol]
    rfl
  obtain ⟨m', ds, h', hcontrol', hg⟩ := h₁.take hut (by rw [hcontrol]) hreact hfollow
  have htake : us.take (k + 1) = us.take k ++ [u] := by
    rw [List.take_add_one, hu]
    rfl
  refine ⟨mid ++ [u], ys, m₁, n₁, m', ds, by simp [hsplit], ?_, hys, by simpa using h', hcontrol',
    ?_, ?_, ?_⟩
  · rw [significant_append, hmid, significant_singleton hut, htake]
    rfl
  · have := congrArg Gist.done hg
    exact this.trans h₁.done_eq_false
  · rw [hg]
    rfl
  · rw [hg, hcontrol, htake]
    simp [Gist.cut, Gist.add, hpending, State.reading, Token.asRead]

/-- Where nothing decides, the first token at fault is refused. -/
theorem Passes.name_refused (h : Passes options pre m (.facing t n) cs)
    (hus : significant (t :: xs) = name :: us) (hname : name.isName)
    (hcolon : ∀ c ∈ us.head?, ¬ c.isChar ':') (hnot : ∀ k, ¬ Target.Reaches us k) {i : Nat}
    (hu : us[i]? = some u) (hfault : Target.FaultAt us i)
    (hfirst : ∀ j < i, ¬ Target.FaultAt us j) :
    ∃ m' c, ((∃ what, c = .notImplemented what) ↔ u.kind = .word) ∧
      Machine.run { options } ((pre ++ t :: xs).map .ok) = (m', some (.refused u c)) := by
  obtain _ | ⟨v, us⟩ := us
  · cases hu
  obtain ⟨mid₀, ys₀, k₀, n₀, hsplit₀, -, hys₀, h₀, hcontrol₀, -⟩ :=
    h.reaches_rest hc hus hname (hcolon v rfl)
  rw [← hys₀] at hnot hu hfault hfirst
  obtain ⟨mid, ys, m', c, ds, hsplit, hwhat, hbroken⟩ :=
    h₀.target_refused hcontrol₀ hnot hu hfault hfirst
  refine ⟨m', c, hwhat, ?_⟩
  have := hbroken.run_broken (ys.map .ok)
  simpa [hsplit₀, hsplit] using this

/-- Where nothing decides and no token is at fault, the run takes all tokens. -/
theorem Passes.name_unended (h : Passes options pre m (.facing t n) cs)
    (hus : significant (t :: xs) = name :: us) (hname : name.isName)
    (hcolon : ∀ c ∈ us.head?, ¬ c.isChar ':') (hnot : ∀ k, ¬ Target.Reaches us k)
    (hfault : ∀ i, ¬ Target.FaultAt us i) :
    ∃ m' state, Machine.run { options } ((pre ++ t :: xs).map .ok) =
      (m', some (.unexpectedEnd state)) := by
  obtain _ | ⟨v, us⟩ := us
  · obtain ⟨hcontrol, hrests⟩ := gistAt_statements hc t n cs
    have hfollows := Gist.Follows.cons h.done_eq_false (Gist.reads_name hcontrol hname) (.nil _)
    rw [← hus] at hfollows
    obtain ⟨m', h', hd⟩ := h.follows_into hrests hfollows
    exact h'.unended hd
  · obtain ⟨mid₀, ys₀, k₀, n₀, hsplit₀, -, hys₀, h₀, hcontrol₀, -⟩ :=
      h.reaches_rest hc hus hname (hcolon v rfl)
    rw [← hys₀] at hnot hfault
    obtain ⟨m', h', hd⟩ := h₀.target_unended hcontrol₀ hnot hfault
    simpa [hsplit₀] using h'.unended hd

end

/-- The value of an assignment, and the semicolon after it. -/
theorem Passes.completes_value {a : Assignment} {ys : List Token}
    (h : Passes options pre m .between cs)
    (hc : m.control = ⟨.assignment a part .value, false, stack⟩) (hd : m.done = false)
    (hp : (m.gistAt cs .between).pending = []) {j : Nat}
    (hj : a.expression.Reaches (significant ys) j) (hu : (significant ys)[j]? = some u) :
    ∃ mid zs m' ds, ys = mid ++ zs ∧ significant mid = (significant ys).take (j + 1) ∧
      Passes options (pre ++ mid) m' .between (cs ++ ds) ∧
      m'.control = ⟨.statements part none, false, stack⟩ ∧
      (m'.gistAt (cs ++ ds) .between).blocks = (m.gistAt cs .between).blocks ++
        [⟨a.expression.kind, ((significant ys).take j).map Token.inExpression⟩,
          ⟨a.endKind, [u]⟩] := by
  obtain ⟨mid, zs, hsplit, hmid, hut⟩ := exists_split_of_significant hu
  have hcontrol : (m.gistAt cs .between).control =
      ⟨.expression a.expression 0 false, false, .assignment a part .end_ :: stack⟩ := by
    simp [gistAt, gist, Control.gist, hc, State.opens?]
  have hfollows := Gist.follows_assignment hcontrol hp hd hj hu
  have hmid' : significant (mid ++ [u]) = (significant ys).take j ++ [u] := by
    rw [significant_append, hmid, significant_singleton hut]
  rw [← hmid'] at hfollows
  obtain ⟨y, rest, hcons⟩ : ∃ y rest, mid ++ [u] = y :: rest :=
    List.exists_cons_of_ne_nil (by simp)
  have hpush := h.push y hd
  rw [hcons, ← gistAt_push m cs y visitLimit] at hfollows
  obtain ⟨m', ds, h', hg⟩ := hpush.follows (hpush.rests.resolve_left (by simp [hc])) hd hfollows
  rw [← hcons] at h'
  obtain ⟨hstate, hstack⟩ := Control.of_gist (congrArg Gist.control hg) rfl (by simp)
  have haside : m'.control.isAside = false :=
    Passes.isAside_eq_false ((List.append_assoc pre mid [u]).symm ▸ h') hut
  refine ⟨mid ++ [u], zs, m', ds, by simp [hsplit], ?_, h', ?_, ?_⟩
  · rw [hmid', List.take_add_one, hu]
    rfl
  · rw [← hstate, ← hstack, ← haside]
  · rw [hg, gistAt_push]
    rfl

/-- **What a name at the start of a statement is.** Let a run face the token `t` in a statement
part, perhaps after a label, and let the tokens from there on be `t :: xs`. But for blanks and
comments they start with a `name`, and go on with `us`.

If the next token is a colon, the name is the label of the statement that follows, or the colon is
refused if there is a label already.

Otherwise the first token outside parentheses that is the symbol of an assignment or a semicolon
decides, unless there is a token at fault before it. Up to there all tokens belong to one block,
along with the label if there is one. The block of an assignment ends with the symbol, that of a
procedure call before the semicolon. After the statement there is no label. If nothing decides, the
first token at fault is refused, and if there is none, the run ends for want of tokens. -/
theorem namedStatement_exact {aside : Bool} (h : Passes options pre m (.facing t n) cs)
    (hc : m.control = ⟨.statements part label, aside, stack⟩)
    (hus : significant (t :: xs) = name :: us) (hname : name.isName) :
    ∃ head, IsLabelling label head ∧
    (∀ colon ∈ us.head?, colon.isChar ':' →
      (label = none → TakesLabel options pre (t :: xs) cs part stack name colon) ∧
      (label.isSome → ∃ m', Machine.run { options } ((pre ++ t :: xs).map .ok) =
        (m', some (.refused colon .secondLabel)))) ∧
    ((∀ colon ∈ us.head?, ¬ colon.isChar ':') →
      (∀ k u, Target.Reaches us k → us[k]? = some u →
        (∀ a : Assignment, u.isCompound a.symbol →
          Completes options pre (t :: xs) cs (name :: us.take (k + 1))
            [⟨a.startKind, head ++ (name :: us.take (k + 1)).map Token.asRead⟩]
            ⟨.assignment a part .value, false, stack⟩ ∧
          ∀ j v, a.expression.Reaches (us.drop (k + 1)) j → us[k + 1 + j]? = some v →
            Completes options pre (t :: xs) cs (name :: us.take (k + 1 + (j + 1)))
              [⟨a.startKind, head ++ (name :: us.take (k + 1)).map Token.asRead⟩,
                ⟨a.expression.kind, ((us.drop (k + 1)).take j).map Token.inExpression⟩,
                ⟨a.endKind, [v]⟩]
              ⟨.statements part none, false, stack⟩) ∧
        (u.isChar ';' → Completes options pre (t :: xs) cs (name :: us.take (k + 1))
          [⟨.procedureCall, head ++ (name :: us.take k).map Token.asRead⟩,
            ⟨.procedureCallEnd, [u.asRead]⟩]
          ⟨.statements part none, false, stack⟩)) ∧
      ((∀ k, ¬ Target.Reaches us k) →
        (∀ i u, us[i]? = some u → Target.FaultAt us i → (∀ j < i, ¬ Target.FaultAt us j) →
          ∃ m' c, ((∃ what, c = .notImplemented what) ↔ u.kind = .word) ∧
            Machine.run { options } ((pre ++ t :: xs).map .ok) = (m', some (.refused u c))) ∧
        ((∀ i, ¬ Target.FaultAt us i) → ∃ m' state,
          Machine.run { options } ((pre ++ t :: xs).map .ok) =
            (m', some (.unexpectedEnd state))))) := by
  have hheads := h.heads
  rw [hc] at hheads
  refine ⟨_, hheads, fun colon hcolon hchar => ?_, fun hcolon => ⟨fun k u hk hu => ?_,
    fun hnot => ⟨fun i u hu hfault hfirst => ?_, fun hfault => ?_⟩⟩⟩
  · obtain ⟨rest, rfl⟩ := List.head?_eq_some_iff.1 hcolon
    exact ⟨fun hl => h.takesLabel hc hl hus hname hchar,
      fun hl => h.secondLabel hc hl hus hname hchar⟩
  · refine ⟨fun a ha => ?_, h.completes_call hc hus hname hcolon hk hu⟩
    obtain ⟨mid, ys, m₁, n₁, m₂, ds, hsplit, hmid, hys, h₂, hcontrol, hd, hpending, hblocks⟩ :=
      h.reaches_value hc hus hname hcolon hk hu ha
    refine ⟨⟨mid, ys, m₂, ds, hsplit, hmid, h₂, hcontrol, map_logical_of_gistAt hblocks⟩,
      fun j v hj hv => ?_⟩
    rw [← List.getElem?_drop] at hv
    rw [← hys] at hj hv ⊢
    obtain ⟨mid', zs, m₃, ds', hsplit', hmid', h₃, hcontrol₃, hblocks₃⟩ :=
      h₂.completes_value hcontrol hd hpending hj hv
    have hmid'' : significant (mid ++ mid') = name :: us.take (k + 1 + (j + 1)) := by
      rw [significant_append, hmid, hmid', hys, List.cons_append, ← List.take_add]
    rw [hblocks] at hblocks₃
    simp only [List.append_assoc] at hblocks₃
    exact ⟨mid ++ mid', zs, m₃, ds ++ ds', by simp [hsplit, hsplit'], hmid'',
      by simpa [List.append_assoc] using h₃, hcontrol₃, map_logical_of_gistAt hblocks₃⟩
  · exact h.name_refused hc hus hname hcolon hnot hu hfault hfirst
  · exact h.name_unended hc hus hname hcolon hnot hfault

/-- An assignment after a label. -/
theorem namedStatement_exact_assignment : ∃ pre m t xs cs name us,
    pre ++ t :: xs =
      (tokenize "architecture a of e is begin l: x(1) <= 2;").filterMap Except.toOption ∧
    Passes {} pre m (.facing t visitLimit) cs ∧
    m.control = ⟨.statements (.concurrent ⟨.architecture, some "a"⟩) (some "l"), false,
      [.documentRegion]⟩ ∧
    significant (t :: xs) = name :: us ∧ name.isName ∧ Target.Reaches us 3 ∧
    ∃ us bs, Completes {} pre (t :: xs) cs us bs
        ⟨.statements (.concurrent ⟨.architecture, some "a"⟩) none, false, [.documentRegion]⟩ ∧
      bs.map LogicalBlock.kind =
        [.signalAssignment, .signalAssignmentExpression, .signalAssignmentEnd] := by
  obtain ⟨ts, hts⟩ : ∃ ts, ts =
      (tokenize "architecture a of e is begin l: x(1) <= 2;").filterMap Except.toOption :=
    ⟨_, rfl⟩
  obtain ⟨us, hus⟩ : ∃ us, us = (significant (ts.drop 16)).tail := ⟨_, rfl⟩
  obtain ⟨hlength, hend, hdone, hc, ⟨name, hhead, hname⟩, hcolon, hreaches, ⟨u, hu, hsymbol⟩,
    hvalue⟩ :
      16 < ts.length ∧
      (Machine.run {} ((ts.take 16).map .ok)).2 = some (.unexpectedEnd "concurrent::region") ∧
      (Machine.run {} ((ts.take 16).map .ok)).1.done = false ∧
      (Machine.run {} ((ts.take 16).map .ok)).1.control =
        ⟨.statements (.concurrent ⟨.architecture, some "a"⟩) (some "l"), false,
          [.documentRegion]⟩ ∧
      (∃ name ∈ (significant (ts.drop 16)).head?, name.isName) ∧
      (∀ c ∈ us.head?, ¬ c.isChar ':') ∧ Target.Reaches us 3 ∧
      (∃ u ∈ us[3]?, u.isCompound .leq) ∧
      Expression.assignedSignal.Reaches (us.drop 4) 1 := by
    subst hus hts
    decide +kernel
  have hsignificant : significant (ts[16] :: ts.drop 17) = name :: us := by
    rw [← List.drop_eq_getElem_cons hlength, hus]
    obtain ⟨rest, hrest⟩ := List.head?_eq_some_iff.1 hhead
    rw [hrest]
    rfl
  have h := (Passes.start.run_tokens (Prod.ext rfl hend)).push ts[16] hdone
  obtain ⟨head, -, -, hother⟩ := namedStatement_exact h hc hsignificant hname
  obtain ⟨v, hv, -⟩ := hvalue.endsAt
  have hcompletes := (((hother hcolon).1 3 u hreaches hu).1 .signal hsymbol).2 1 v hvalue
    (by rwa [← List.getElem?_drop])
  refine ⟨_, _, _, ts.drop 17, _, name, us, ?_, h, hc, hsignificant, hname, hreaches, _, _,
    hcompletes, rfl⟩
  rw [← hts, List.nil_append, ← List.drop_eq_getElem_cons, List.take_append_drop]

end Machine

end VhdlOutline
