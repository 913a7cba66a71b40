import VhdlOutline.Proofs.Outline.Points
import VhdlOutline.Proofs.Outline.Trivia

/-!
# From a point on

A point of a run determines what has been read and completed up to it (`Machine.Passes.unique`), and
its gist determines what comes of the tokens after it.

* `Machine.Passes.pending_eq_nil`: where an expression or an interface list begins, nothing of a
  block has been read.
* `Machine.Passes.feeds`: reading a token from a point where it is faced.
* `Machine.Passes.follows`: a run goes where the gist of one of its points leads.
-/

namespace VhdlOutline

theorem significant_cons {t : Token} {us : List Token} (h : t.kind.isTrivia = false) :
    significant (t :: us) = t :: significant us := by
  simp [significant, Token.isSignificant, h]

theorem significant_cons_trivium {t : Token} {us : List Token} (h : t.kind.isTrivia = true) :
    significant (t :: us) = significant us := by
  simp [significant, Token.isSignificant, h]

/-! ## Where blocks begin -/

namespace State

/-- The states that are entered where nothing of a block has been read: those in which an expression
or an interface list begins. -/
def beginsBlock (s : State) : Bool :=
  s.opens?.isSome || match s with
    | .expression _ _ false | .interface _ .start => true
    | _ => false

/-- A token that ends no block makes the block begun. -/
theorem Allows.beginsBlock_take {s : State} {t : Token} {before : Option BlockKind} {next : Next}
    (h : s.Allows t (.take before none next)) : ∃ s', next = .goto s' ∧ s'.beginsBlock = false := by
  cases h with
  | @objectKeyword _ o => cases o <;> exact ⟨_, rfl, rfl⟩
  | _ => exact ⟨_, rfl, rfl⟩

theorem Allows.beginsBlock_pass {s : State} {t : Token} {next : Next}
    (h : s.Allows t (.pass none next)) :
    (∃ s', next = .goto s' ∧ s'.beginsBlock = false) ∨
      (s.beginsBlock = true ∨ s.posture = .clean ∨
        ∃ resume sub, next = .call resume sub ∧ sub.beginsBlock = false) := by
  cases h with
  | declaration | documentReference | documentEntity | documentArchitecture | documentPackage =>
    exact .inr (.inr (.inl rfl))
  | statementsProcess | statementsAssert | statementsSimple | statementsReport | statementsIf
  | statementsLoop => exact .inr (.inr (.inr ⟨_, _, rfl, rfl⟩))
  | simpleValue hx => exact .inr (.inl (by simp [beginsBlock, opens?, hx]))
  | objectDefault | interfaceDefault | assignmentValue | assertMessage | assertLevel | reportLevel
  | loopBound => exact .inr (.inl rfl)
  | _ => exact .inl ⟨_, rfl, rfl⟩

end State

namespace Machine

variable {options : Options} {pre : List Token} {m m' : Machine} {t : Token} {n : Nat}
  {ts : List Token} {cs ds : List Completion} {st : Standing} {e : OutlineError}

/-- Nothing of a block has been read where one begins. -/
theorem keptPending_begun : KeptPending fun s p => s.beginsBlock = true → p = [] where
  pass {_ c' _ before _ _} _ hallows hc hclean h hb := by
    cases before with
    | some => rfl
    | none =>
      rcases hallows.beginsBlock_pass with ⟨s', rfl, hs'⟩ | hs' | hs' | ⟨resume, sub, rfl, hs'⟩
      · cases hc
        cases hb.symm.trans hs'
      · exact h hs'
      · exact hclean hs'
      · cases hc
        cases hb.symm.trans hs'
  take {_ _ _ _ closing _ _} _ hallows hc _ _ hb := by
    cases closing with
    | some kind => rfl
    | none =>
      obtain ⟨s', rfl, hs'⟩ := hallows.beginsBlock_take
      cases hc
      cases hb.symm.trans hs'
  region _ := nofun

/-- Completed blocks lie among the tokens so far, and nothing of a block has been read where one
begins. -/
theorem kept_begun : Kept fun m ts cs => (∀ c ∈ cs, c.Within ts.length) ∧
    (m.control.state.beginsBlock = true → m.sheet.pending ts = []) where
  push _ h := h
  handedOn hs ht _ hm h := ⟨List.forall_mem_append.2 ⟨h.1, hm.within_of_handedOn hs ht⟩,
    keptPending_begun.handedOn hm hs ht h.2⟩
  taken hs ht _ hm ht' h := by
    refine ⟨?_, keptPending_begun.taken hm hs ht ht' h.2⟩
    rw [List.length_append, List.length_singleton]
    exact List.forall_mem_append.2
      ⟨fun c hc => (h.1 c hc).mono (Nat.le_succ _), hm.within hs ht⟩

theorem begun_start :
    (∀ c ∈ ([] : List Completion), c.Within ([] : List Token).length) ∧
      ((State.documentStart).beginsBlock = true → ({} : Sheet).pending [] = []) := by
  simp [State.beginsBlock, State.opens?]

/-! ## Where blanks and comments are met -/

/-- Blanks and comments meet only states that are at rest. -/
def Rests (m : Machine) : Standing → Prop
  | .between => m.control.state.rests = true
  | .facing t _ => t.kind.isTrivia = true → m.control.state.rests = true
  | .broken _ => True

theorem Passes.rests (h : Passes options pre m st cs) :
    pre = [] ∧ m.control.state = .documentStart ∨ m.Rests st := by
  induction h with
  | start => exact .inl ⟨rfl, rfl⟩
  | push t h hd ih => exact ih.imp_right fun hr _ => hr
  | taken h hv ih =>
    obtain ⟨us, -, -, hs, -⟩ := h.facing
    have hturn := turn_of_visit hs.fits hv
    refine .inr (hturn.rests hs fun htr => ?_)
    rcases ih with ⟨-, hd⟩ | hr
    · cases htr.symm.trans (hturn.of_documentStart hs hd (by simp)).1
    · exact hr htr
  | handedOn h hv ih =>
    obtain ⟨us, -, ht, hs, -⟩ := h.facing
    have hturn := turn_of_visit hs.fits hv
    rcases ih with ⟨-, hd⟩ | hr
    · cases (hturn.of_documentStart hs hd (by simp)).2.1
    · rcases @Turn.gist_of_handedOn _ _ _ _ [] _ hturn ht hr with ⟨-, hr'⟩ | ⟨htr, -⟩
      · exact .inr hr'
      · exact .inr fun h => by cases h.symm.trans htr
  | failed => exact .inr trivial

/-! ## A point is determined by the tokens up to it -/

/-- The blocks that a run completes from a point on with the further input `xs`. -/
def produced (m : Machine) (xs : List (Except LexError Token)) : Standing → List Completion
  | .between => m.completions xs
  | .facing t n => m.settleCompletions t n ++
    match m.settleToken t n with
    | (m, none) => m.completions xs
    | (_, some _) => []
  | .broken _ => []

theorem Passes.logicalBlocks_eq (h : Passes options pre m st cs)
    (xs : List (Except LexError Token)) :
    logicalBlocks ((pre ++ st.tokens).map .ok ++ xs) options = cs ++ m.produced xs st := by
  induction h generalizing xs with
  | start => rfl
  | push t h hd ih =>
    have := ih (.ok t :: xs)
    rw [Standing.tokens, List.append_nil] at this
    rw [Standing.tokens, List.map_append, List.append_assoc, List.map_singleton,
      List.singleton_append, this, produced, completions, if_neg (by simp [hd])]
    rfl
  | taken h hv ih | handedOn h hv ih | failed h hv ih =>
    have := ih xs
    simp only [produced, Machine.settleToken, settleCompletions, hv] at this
    simpa [Standing.tokens, produced] using this

/-- A run comes to no more than one point between two tokens. -/
theorem Passes.unique (h : Passes options pre m .between cs)
    (h' : Passes options pre m' .between ds) : m = m' ∧ cs = ds := by
  have hrun : m.run [] = m'.run [] := (h.run_eq []).symm.trans (h'.run_eq [])
  have hblocks := (h.logicalBlocks_eq []).symm.trans (h'.logicalBlocks_eq [])
  refine ⟨?_, by simpa [produced, completions] using hblocks⟩
  have hfst : ∀ k : Machine, (k.run []).1 = k := by
    intro k
    rw [Machine.run]
    split <;> rfl
  rw [← hfst m, hrun, hfst]

/-- A run that has come to a token at fault does not come to the end of further tokens. -/
theorem Passes.not_broken {k : Machine} {xs : List Token} (h : Passes options pre k (.broken e) cs)
    (h' : Passes options (pre ++ xs) m .between ds) : False := by
  have hrun := h.run_broken (xs.map .ok)
  have hrun' := h'.run_eq []
  rw [Standing.tokens, List.append_nil, List.append_nil, List.map_append, hrun, proceed,
    Machine.run] at hrun'
  have hfailed : ∀ s, e ≠ .unexpectedEnd s := by
    cases h.holds (kept_options options) rfl with
    | broken _ _ _ _ _ _ hm => rcases hm.failed with ⟨c, rfl⟩ | ⟨x, rfl⟩ <;> simp
  split at hrun' <;> cases hrun'
  exact hfailed _ rfl

/-! ## Reading on -/

/-- The gist of a machine at a point of a run, with the tokens read up to it. -/
def gistAt (m : Machine) (cs : List Completion) : Standing → Gist
  | .between | .broken _ => m.gist m.sheet.tokens.toList cs
  | .facing .. => m.gist m.sheet.tokens.toList.dropLast cs

theorem gistAt_push (m : Machine) (cs : List Completion) (t : Token) (n : Nat) :
    { m with sheet := m.sheet.push t }.gistAt cs (.facing t n) = m.gistAt cs .between := by
  simp [gistAt, gist, Sheet.push, Sheet.pending, Sheet.pieces]

theorem gistAt_facing (ht : m.sheet.tokens.toList = ts ++ [t]) (cs : List Completion) :
    m.gistAt cs (.facing t n) = m.gist ts cs := by
  simp [gistAt, ht]

theorem Passes.done_eq_false (h : Passes options pre m (.facing t n) cs) :
    (m.gistAt cs (.facing t n)).done = false := by
  obtain ⟨us, -, -, -, hd, -⟩ := h.facing
  exact hd

/-- **Reading a token** leads to the point after it, or to its fault, as the gist says. -/
theorem Passes.feeds (h : Passes options pre m (.facing t n) cs) (hr : m.Rests (.facing t n)) :
    (∃ m' ds, Passes options (pre ++ [t]) m' .between (cs ++ ds) ∧
      (m.gistAt cs (.facing t n)).Passes t (m'.gistAt (cs ++ ds) .between) none) ∨
    ∃ m' e ds g, Passes options (pre ++ [t]) m' (.broken e) (cs ++ ds) ∧
      (m.gistAt cs (.facing t n)).Passes t g (some e.gist) := by
  cases h.holds kept_begun begun_start with
  | facing _ ht hs _ hn hp =>
    rw [gistAt_facing ht]
    generalize hf : m.settleToken t n = r
    obtain ⟨m', e⟩ := r
    obtain ⟨vs, harrives, -, hpasses⟩ := hs.settleToken_gist ht hp.1 hr hn hf
    have hpoint := h.settleToken hf
    cases e with
    | none =>
      obtain htok : m'.sheet.tokens.toList = vs := by simpa using harrives.tokens
      rw [← htok] at hpasses
      exact .inl ⟨m', _, hpoint, hpasses⟩
    | some e => exact .inr ⟨m', e, _, _, hpoint, hpasses⟩

/-- A run that wants for tokens has come to the point after all that there are. -/
theorem Passes.run_tokens {us : List Token} {state : String}
    (h : Passes options pre m .between cs)
    (hr : m.run (us.map .ok) = (m', some (.unexpectedEnd state))) :
    Passes options (pre ++ us) m' .between (cs ++ m.completions (us.map .ok)) := by
  induction us generalizing pre m cs with
  | nil =>
    rw [List.map_nil, Machine.run] at hr
    split at hr <;> cases hr
    simpa [completions] using h
  | cons t us ih =>
    simp only [List.map_cons, Machine.run] at hr
    simp only [List.map_cons, completions]
    cases hd : m.done with
    | true => simp [hd] at hr
    | false =>
      rw [hd, if_neg (by simp)] at hr
      rw [if_neg (by simp)]
      generalize hf : m.feed t = k at hr ⊢
      have hpush := (h.push t hd).settleToken hf
      obtain ⟨k, _ | e⟩ := k
      · have := ih hpush hr
        simpa [feedCompletions, List.append_assoc] using this
      · cases hr
        cases hpush.holds (kept_options options) rfl with
        | broken _ _ _ _ _ _ hm => rcases hm.failed with ⟨_, hc⟩ | ⟨_, hx⟩ <;> contradiction

/-- A blank or comment changes nothing. -/
theorem Passes.skip (h : Passes options pre m (.facing t n) cs) (hr : m.Rests (.facing t n))
    (ht : t.kind.isTrivia = true) : ∃ m', Passes options (pre ++ [t]) m' .between cs ∧
      m'.gistAt cs .between = m.gistAt cs (.facing t n) := by
  rcases h.feeds hr with ⟨m', ds, h', hp⟩ | ⟨_, _, _, _, _, hp⟩
  · rw [Gist.Passes, if_pos ht] at hp
    have hlength := congrArg (fun g => g.blocks.length) hp.1
    obtain rfl : ds = [] := by simpa [gistAt, gist] using hlength
    exact ⟨m', by simpa using h', by simpa using hp.1⟩
  · rw [Gist.Passes, if_pos ht] at hp
    cases hp.2

theorem Passes.read {g : Gist} (h : Passes options pre m (.facing t n) cs)
    (hr : m.Rests (.facing t n)) (ht : t.kind.isTrivia = false)
    (hg : Gist.Reads t (m.gistAt cs (.facing t n)) g none) :
    ∃ m' ds, Passes options (pre ++ [t]) m' .between (cs ++ ds) ∧
      m'.gistAt (cs ++ ds) .between = g := by
  rcases h.feeds hr with ⟨m', ds, h', hp⟩ | ⟨_, _, _, _, _, hp⟩
  · rw [Gist.Passes, if_neg (by simp [ht])] at hp
    exact ⟨m', ds, h', (hp.unique hg).1⟩
  · rw [Gist.Passes, if_neg (by simp [ht])] at hp
    cases (hp.unique hg).2

theorem Passes.refused {g : Gist} {u : Token} {c : Complaint}
    (h : Passes options pre m (.facing t n) cs) (hr : m.Rests (.facing t n))
    (ht : t.kind.isTrivia = false)
    (hg : Gist.Reads t (m.gistAt cs (.facing t n)) g (some (.refused u c))) :
    ∃ m' ds, Passes options (pre ++ [t]) m' (.broken (.refused u c)) (cs ++ ds) := by
  rcases h.feeds hr with ⟨_, _, _, hp⟩ | ⟨m', e, ds, _, h', hp⟩
  · rw [Gist.Passes, if_neg (by simp [ht])] at hp
    cases (hp.unique hg).2
  · rw [Gist.Passes, if_neg (by simp [ht])] at hp
    have he := Option.some.inj (hp.unique hg).2
    cases e <;> cases he
    exact ⟨m', ds, h'⟩

end Machine

/-- Reading tokens one after the other, each of which is taken. -/
inductive Gist.Follows : Gist → List Token → Gist → Prop
  | nil (g : Gist) : Follows g [] g
  | cons {g k g' : Gist} {t : Token} {ts : List Token} (hd : g.done = false)
      (h : Reads t g k none) (hr : Follows k ts g') : Follows g (t :: ts) g'

theorem Gist.Follows.append {g k g' : Gist} {ts us : List Token} (h : Follows g ts k)
    (h' : Follows k us g') : Follows g (ts ++ us) g' := by
  induction h with
  | nil => exact h'
  | cons hd hr _ ih => exact .cons hd hr (ih h')

theorem Gist.Follows.done {g g' : Gist} {ts : List Token} (h : Follows g ts g')
    (hd : g'.done = false) : g.done = false := by
  cases h with
  | nil => exact hd
  | cons hd => exact hd

namespace Machine

variable {options : Options} {pre : List Token} {m : Machine} {t : Token} {n : Nat}
  {cs : List Completion} {g : Gist}

/-- The first of several tokens that a gist reads. -/
theorem Passes.follows_head {rest : List Token} (h : Passes options pre m (.facing t n) cs)
    (hr : m.Rests (.facing t n))
    (hg : (m.gistAt cs (.facing t n)).Follows (significant (t :: rest)) g) :
    ∃ m' ds, Passes options (pre ++ [t]) m' .between (cs ++ ds) ∧
      (m'.gistAt (cs ++ ds) .between).Follows (significant rest) g := by
  cases ht : t.kind.isTrivia with
  | true =>
    obtain ⟨m', h', hm'⟩ := h.skip hr ht
    rw [significant_cons_trivium ht, ← hm'] at hg
    exact ⟨m', [], by simpa using h', by simpa using hg⟩
  | false =>
    rw [significant_cons ht] at hg
    cases hg with
    | cons _ hread hg =>
      obtain ⟨m', ds, h', rfl⟩ := h.read hr ht hread
      exact ⟨m', ds, h', hg⟩

/-- **A run goes where the gist leads.** -/
theorem Passes.follows {rest : List Token} (h : Passes options pre m (.facing t n) cs)
    (hr : m.Rests (.facing t n)) (hd : g.done = false)
    (hg : (m.gistAt cs (.facing t n)).Follows (significant (t :: rest)) g) :
    ∃ m' ds, Passes options (pre ++ t :: rest) m' .between (cs ++ ds) ∧
      m'.gistAt (cs ++ ds) .between = g := by
  induction rest generalizing pre t m n cs with
  | nil =>
    obtain ⟨m', ds, h', hg'⟩ := h.follows_head hr hg
    cases hg'
    exact ⟨m', ds, h', rfl⟩
  | cons u rest ih =>
    obtain ⟨k, es, hk, hg'⟩ := h.follows_head hr hg
    have hpush := hk.push u (hg'.done hd)
    rw [← gistAt_push k _ u visitLimit] at hg'
    obtain ⟨m', ds, h', hm'⟩ := ih hpush (hpush.rests.resolve_left (by simp)) hg'
    exact ⟨m', es ++ ds, by simpa using h', by simpa using hm'⟩

/-- A run comes to face any token that it reads. -/
theorem Passes.reaches {mid : List Token} {u : Token}
    (h : Passes options pre m (.facing t n) cs) (hr : m.Rests (.facing t n)) (hd : g.done = false)
    (hx : [t] <+: mid ++ [u]) (hg : (m.gistAt cs (.facing t n)).Follows (significant mid) g) :
    ∃ m' k ds, Passes options (pre ++ mid) m' (.facing u k) (cs ++ ds) ∧
      m'.gistAt (cs ++ ds) (.facing u k) = g ∧ m'.Rests (.facing u k) := by
  cases mid with
  | nil =>
    obtain rfl : t = u := by simpa using hx
    cases hg
    exact ⟨m, n, [], by simpa using h, by simp, hr⟩
  | cons t' mid =>
    obtain rfl : t = t' := by simpa using hx
    obtain ⟨k, ds, hk, hkg⟩ := h.follows hr hd hg
    have hpush := hk.push u (by rw [← hkg] at hd; exact hd)
    exact ⟨_, _, ds, hpush, by rw [gistAt_push, hkg], hpush.rests.resolve_left (by simp)⟩

end Machine

end VhdlOutline
