import Mathlib.Data.List.GetD
import VhdlOutline.Proofs.Outline.Rereading
import VhdlOutline.Proofs.Outline.InterfaceLists

/-!
# Labels

The label of a statement stays in the block under construction until the statement itself has been
read so far that its first block ends. It is the name of the construct that the statement opens, if
it opens one.

* `Machine.keptPending_heads`: the block under construction holds the label that a state has kept,
  with the colon after it, and nothing else.
* `Gist.Runs.blockAt`: what has been read of a block is what it starts with once it is completed.
* `Gist.Reads.openings_labelled`: what the first token of a statement opens after a label.
-/

namespace VhdlOutline

/-! ## The tokens of a label -/

/-- The tokens are a label with the colon after it, or there are none where there is no label. -/
inductive IsLabelling : Option String → List Token → Prop
  | none : IsLabelling none []
  | some {name colon : Token} (hn : name.isName) (hc : colon.isChar ':') :
      IsLabelling (some name.text) [name, colon]

@[simp] theorem isLabelling_none {ts : List Token} : IsLabelling Option.none ts ↔ ts = [] := by
  constructor
  · rintro ⟨⟩
    rfl
  · rintro rfl
    exact .none

/-- The tokens `ps` of the block under construction are what the state has kept of it: the label of
a statement, and the name that the statement starts with. -/
def State.Heads (s : State) (ps : List Token) : Prop :=
  match s with
  | .statements _ label | .target _ label .name => IsLabelling label ps
  | .target _ label (.afterHead head) =>
    ∃ ls name, ps = ls ++ [name] ∧ IsLabelling label ls ∧ name.isName ∧ name.text = head
  | _ => True

/-- What the state that goes on has kept is the block under construction. -/
def Next.Heads (ps : List Token) : Next → Prop
  | .goto s | .call _ s => s.Heads ps
  | .return_ => True

namespace State

variable {s : State} {t t' : Token} {ps : List Token}

theorem heads_of_isFrame (h : s.isFrame) : s.Heads [] := by
  unfold isFrame at h
  split at h <;> first | trivial | exact .none

theorem heads_of_isAfterExpression (h : s.isAfterExpression) : s.Heads ps := by
  unfold isAfterExpression at h
  split at h <;> trivial

theorem heads_of_declarationState? {k : Keyword} (h : Outline.declarationState? k = some s) :
    s.Heads ps := by
  unfold Outline.declarationState? at h
  split at h <;> cases h <;> trivial

theorem Allows.heads_pass {before : Option BlockKind} {next : Next}
    (h : s.Allows t (.pass before next)) (hs : s.Heads ps) :
    next.Heads (if before.isSome then [] else ps) := by
  cases h with
  | statementsTarget => exact hs
  | declaration _ _ hd => exact heads_of_declarationState? hd
  | _ => trivial

/-- A state after the end of a block has kept nothing. -/
theorem Allows.heads_close {before : Option BlockKind} {kind : BlockKind} {next : Next}
    (h : s.Allows t (.take before (some kind) next)) : next.Heads [] := by
  cases h <;> first | trivial | exact .none

theorem Allows.heads_take {before : Option BlockKind} {next : Next}
    (h : s.Allows t (.take before none next)) (hs : s.Heads ps) (hset : t.Settles t') :
    next.Heads ((if before.isSome then [] else ps) ++ [t']) := by
  cases h with
  | targetName hn => exact ⟨ps, t', rfl, hs, hset.isName.trans hn, hset.text⟩
  | targetLabel hc =>
    obtain ⟨_, name, rfl, hls, hn, rfl⟩ := hs
    cases hls
    exact .some hn ((hset.isChar rfl).trans hc)
  | @objectKeyword _ o => cases o <;> trivial
  | _ => trivial

theorem heads_follow {c c' : Control} {next : Next} (hf : Fits c.state c.stack)
    (hc : c.follow next = .ok c') (hn : next.Heads ps)
    (hret : next = .return_ → ps = [] ∨ c.state.isExpression = true) : c'.state.Heads ps := by
  have harrives := hf.arrives hc
  generalize c'.state = s' at harrives ⊢
  cases harrives with
  | goto | call => exact hn
  | document => trivial
  | frame hx h =>
    obtain rfl := (hret rfl).resolve_right (by simp [hx])
    exact heads_of_isFrame h
  | expression _ h => exact heads_of_isAfterExpression h

end State

namespace Machine

variable {m m' : Machine} {ts : List Token} {t t' : Token} {cs : List Completion}

/-- **The block under construction holds what the state has kept of it.** -/
theorem keptPending_heads : KeptPending State.Heads where
  pass hf hallows hc _ h := by
    refine State.heads_follow hf hc (hallows.heads_pass h) ?_
    rintro rfl
    exact .inr hallows.isExpression_of_pass_return
  take {c _ t _ closing _ _} hf hallows hc _ h := by
    cases closing with
    | some kind => exact State.heads_follow hf hc hallows.heads_close fun _ => .inl rfl
    | none =>
      obtain ⟨s', rfl, -⟩ := hallows.beginsBlock_take
      exact State.heads_follow hf hc (hallows.heads_take h (Token.settles_reading c.state t))
        (by simp)
  region _ := trivial

theorem Passes.heads {options : Options} {pre : List Token} {n : Nat}
    (h : Passes options pre m (.facing t n) cs) :
    m.control.state.Heads (m.gistAt cs (.facing t n)).pending := by
  cases h.holds keptPending_heads.kept trivial with
  | facing _ ht _ _ _ hp =>
    rw [gistAt_facing ht]
    exact hp

end Machine

/-! ## What a block starts with -/

namespace Gist

/-- What has been read of block number `n`, which may be under construction. -/
def blockAt (g : Gist) (n : Nat) : List Token :=
  (g.blocks.map LogicalBlock.tokens ++ [g.pending]).getD n []

variable {g g' : Gist} {t : Token} {ts : List Token} {e : Option OutlineError}

theorem blockAt_cut (g : Gist) (kind : Option BlockKind) (n : Nat) :
    (g.cut kind).blockAt n = g.blockAt n := by
  cases kind with
  | none => rfl
  | some kind =>
    -- The next block is empty, like one that has not been begun.
    simp only [cut, blockAt, List.map_append, List.map_cons, List.map_nil]
    rcases Nat.lt_trichotomy n (g.blocks.length + 1) with h | rfl | h
    · exact List.getD_append _ _ _ _ (by simpa using h)
    · simp
    · rw [List.getD_eq_default _ _ (by simp; omega), List.getD_eq_default _ _ (by simp; omega)]

theorem blockAt_add (g : Gist) (t : Token) (n : Nat) :
    g.blockAt n <+: (g.add t).blockAt n := by
  simp only [add, blockAt]
  rcases Nat.lt_trichotomy n g.blocks.length with h | rfl | h
  · have hn : n < (g.blocks.map LogicalBlock.tokens).length := by simpa using h
    simp only [List.getD_append _ _ _ _ hn, List.prefix_rfl]
  · simp
  · rw [List.getD_eq_default _ _ (by simp; omega)]
    exact List.nil_prefix

theorem blockAt_mismatched (g : Gist) (x : Option NameMismatch) (n : Nat) :
    (g.mismatched x).1.blockAt n = g.blockAt n := by
  unfold mismatched
  split
  · rfl
  · split <;> rfl

theorem blockAt_follow (g : Gist) (next : Next) (v : Verdict) (n : Nat) :
    (g.follow next v).1.blockAt n = g.blockAt n := by
  unfold follow
  split <;> rfl

theorem blockAt_taking (g : Gist) (before closing : Option BlockKind) (t : Token) (n : Nat) :
    g.blockAt n <+: (((g.cut before).add t).cut closing).blockAt n := by
  rw [blockAt_cut, ← blockAt_cut g before]
  exact blockAt_add _ t n

theorem blockAt_visit (g : Gist) (t : Token) (n : Nat) :
    g.blockAt n <+: (g.visit t).1.blockAt n := by
  unfold visit
  split
  · exact List.prefix_rfl
  rename_i r _
  split
  · rename_i before closing next _
    have htaken := blockAt_taking g before closing
      { t with kind := g.control.state.reading t } n
    rw [← blockAt_mismatched (((g.cut before).add _).cut closing) r.mismatch] at htaken
    dsimp only
    split
    · rename_i hk
      rw [hk] at htaken
      exact htaken
    · rename_i hk
      rw [hk] at htaken
      rwa [blockAt_follow]
  · simp only [blockAt_follow, blockAt_cut, List.prefix_rfl]
  · exact blockAt_taking g none (some .endOfDocument) t n

theorem Reads.blockAt (h : Reads t g g' e) (n : Nat) : g.blockAt n <+: g'.blockAt n := by
  induction h with
  | @taken g _ hv | @failed g _ _ hv =>
    have := blockAt_visit g t n
    rwa [hv] at this
  | @handedOn g _ _ _ hv _ ih =>
    have := blockAt_visit g t n
    rw [hv] at this
    exact this.trans ih

/-- **What has been read of a block stays what it starts with.** -/
theorem Runs.blockAt (h : Runs g ts g' e) (n : Nat) : g.blockAt n <+: g'.blockAt n := by
  induction h with
  | done | nil => exact List.prefix_rfl
  | failed _ hr => exact hr.blockAt n
  | cons _ ht _ ih => exact (ht.blockAt n).trans ih

end Gist

namespace Machine

variable {options : Options} {pre : List Token} {m m' : Machine} {t : Token} {n : Nat}
  {cs ds : List Completion}

/-- The first block that a run completes from a point on starts with what has been read of it. -/
theorem Passes.pending_prefix (h : Passes options pre m .between cs)
    (hrests : m.Rests .between) {us : List Token} {e : Option OutlineError}
    (hrun : Machine.run { options } ((pre ++ us).map .ok) = (m', e)) :
    ∃ ds, logicalBlocks ((pre ++ us).map .ok) options = cs ++ ds ∧ ∀ d ∈ ds.head?,
      (m.gistAt cs .between).pending <+: (d.logical m'.sheet.tokens.toList).tokens := by
  rw [List.map_append] at hrun ⊢
  have hblocks := h.logicalBlocks_eq (us.map .ok)
  rw [Standing.tokens, List.append_nil] at hblocks
  refine ⟨_, hblocks, fun d hd => ?_⟩
  have hrun' := h.run_eq (us.map .ok)
  rw [Standing.tokens, List.append_nil, hrun] at hrun'
  cases h.holds kept_begun begun_start with
  | between _ ht hs hp =>
    obtain ⟨vs, harrives, hruns⟩ := hs.run_gist ht cs hp.1 (fun _ _ _ => hrests) hrun'.symm
    obtain ⟨ds, hds⟩ : ∃ ds, m.completions (us.map .ok) = d :: ds :=
      (List.head?_eq_some_iff.1 hd)
    have hprefix := hruns.blockAt cs.length
    rw [hds] at hprefix harrives
    have hlogical : d.logical m'.sheet.tokens.toList = d.logical vs := by
      rw [harrives.tokens, Completion.logical, (harrives.within d (by simp)).content_append]
      rfl
    rw [hlogical, gistAt, ht]
    simpa [Gist.blockAt, gist] using hprefix

end Machine

/-! ## The construct that has a label for its name -/

/-- The construct that a statement of the part is if it starts with the token `t`. Statements
without an `end` of their own are none. -/
def Part.construct? (part : Part) (t : Token) : Option Construct :=
  match part, t.keyword? with
  | .concurrent _, some .process => some .process
  | .sequential .., some .if_ => some .if_
  | .sequential .., some .for_ | .sequential .., some .while | .sequential .., some .loop =>
    some .loop
  | _, _ => none

theorem State.opening?_opens {s resume : State} {x : Expression}
    (h : s.opens? = some (resume, x)) : resume.opening? = s.opening? := by
  unfold opens? at h
  split at h
  case h_3 s =>
    cases s <;> cases h <;> rfl
  all_goals cases h <;> rfl

@[simp] theorem State.opening?_unnumbered (s : State) : s.unnumbered.opening? = s.opening? := by
  cases s with
  | end_ scope phase => cases phase <;> rfl
  | _ => rfl

/-- The gist of a control shows which constructs are open. -/
theorem Control.openings_gist (c : Control) : c.gist.openings = c.openings := by
  obtain ⟨s, aside, stack⟩ := c
  cases hs : s.opens? with
  | some p =>
    have hgist : gist ⟨s, aside, stack⟩ = ⟨.expression p.2 0 false, false, p.1 :: stack⟩ := by
      simp only [gist, hs]
    rw [hgist, openings, openings, List.filterMap_cons_none rfl, List.filterMap_cons,
      List.filterMap_cons, State.opening?_opens hs]
  | none =>
    have hgist : gist ⟨s, aside, stack⟩ = ⟨s.unnumbered, false, stack⟩ := by
      simp only [gist, hs]
    rw [hgist, openings, openings, List.filterMap_cons, List.filterMap_cons,
      State.opening?_unnumbered]

namespace Gist

variable {g g' : Gist} {t : Token} {s : State} {stack : List State} {o : Option Opening}

@[simp] theorem control_mismatched (g : Gist) (x : Option NameMismatch) :
    (g.mismatched x).1.control = g.control := by
  unfold mismatched
  split
  · rfl
  · split <;> rfl

/-- What a state does with a token that is read in the end. -/
theorem Reads.allows (h : Reads t g g' none) : ∃ move, g.control.state.Allows t move ∧
    match move with
    | .take _ _ next => ∃ c, g.control.follow next = .ok c ∧ g'.control = c.gist
    | .pass before next =>
      ∃ c, g.control.follow next = .ok c ∧ Reads t { g.cut before with control := c.gist } g' none
    | .finish => True := by
  cases hreact : g.control.state.react 0 t with
  | error c => cases (h.unique (.failed (visit_refuse hreact))).2
  | ok r =>
    refine ⟨r.move, State.allows_of_react hreact, ?_⟩
    obtain ⟨move, note, x⟩ := r
    cases move with
    | finish => trivial
    | pass before next =>
      cases hc : g.control.follow next with
      | error fault =>
        have hv : g.visit t = (g.cut before, .failed (.internal g.control.name fault)) := by
          simp [visit, hreact, follow, hc]
        cases (h.unique (.failed hv)).2
      | ok c => exact ⟨c, hc, (reads_of_handedOn (visit_pass hreact hc)).1 h⟩
    | take before closing next =>
      generalize hk : (((g.cut before).add
        { t with kind := g.control.state.reading t }).cut closing).mismatched x = k
      obtain ⟨k, e⟩ := k
      have hcontrol : k.control = g.control := by
        have := control_mismatched (((g.cut before).add
          { t with kind := g.control.state.reading t }).cut closing) x
        rw [hk] at this
        simpa using this
      cases e with
      | some e =>
        have hv : g.visit t = (k, .failed e) := by simp [visit, hreact, hk]
        cases (h.unique (.failed hv)).2
      | none =>
        cases hc : g.control.follow next with
        | error fault =>
          have hv : g.visit t = (k, .failed (.internal g.control.name fault)) := by
            simp [visit, hreact, hk, follow, hcontrol, hc]
          cases (h.unique (.failed hv)).2
        | ok c =>
          have hv : g.visit t = ({ k with control := c.gist }, .taken) := by
            simp [visit, hreact, hk, follow, hcontrol, hc]
          exact ⟨c, hc, congrArg Gist.control (h.unique (.taken hv)).1⟩

/-- The state `s` takes the token, if any, and goes on to a state of the construct `o`. -/
def Starts (s : State) (t : Token) (o : Option Opening) : Prop :=
  ∀ move, s.Allows t move → ∃ closing s', move = .take none closing (.goto s') ∧ s'.opening? = o

theorem Reads.openings_starts (h : Reads t g g' none) (hc : g.control = ⟨s, false, stack⟩)
    (hs : Starts s t o) : g'.control.openings = o.toList ++ stack.filterMap State.opening? := by
  obtain ⟨move, hallows, hmove⟩ := h.allows
  rw [hc] at hallows
  obtain ⟨closing, s', rfl, hs'⟩ := hs move hallows
  obtain ⟨c, hfollow, hcontrol⟩ := hmove
  rw [hc] at hfollow
  cases hfollow
  rw [hcontrol, Control.openings_gist, Control.openings_eq, hs']

/-- The states that statements begin in, after a label or without one. -/
theorem starts_of_call {part : Part} {label : Option String} {resume sub : State}
    (h : (State.statements part label).Allows t (.pass none (.call resume sub))) :
    resume = .statements part none ∧ sub.opens? = none ∧ sub.unnumbered = sub ∧
      Starts sub t ((part.construct? t).map fun c => Scope.opening ⟨c, label⟩) := by
  cases h with
  | statementsProcess hk =>
    refine ⟨rfl, rfl, rfl, fun _ h => ?_⟩
    cases h with
    | processKeyword => exact ⟨_, _, rfl, by simp [Part.construct?, hk]; rfl⟩
    | processIs hp | processDeclarations hp => simp at hp
  | statementsAssert hk =>
    refine ⟨rfl, rfl, rfl, fun _ h => ?_⟩
    cases h with
    | assertKeyword => exact ⟨_, _, rfl, by cases part <;> simp [Part.construct?, hk] <;> rfl⟩
    | assertSeverity hp | assertEnd hp => simp at hp
  | statementsSimple s hk =>
    refine ⟨rfl, rfl, rfl, fun _ h => ?_⟩
    cases h with
    | simpleKeyword => exact ⟨_, _, rfl, by cases s <;> simp [Part.construct?, hk] <;> rfl⟩
  | statementsReport hk =>
    refine ⟨rfl, rfl, rfl, fun _ h => ?_⟩
    cases h with
    | reportKeyword => exact ⟨_, _, rfl, by simp [Part.construct?, hk]; rfl⟩
    | reportEnd hp => simp at hp
  | statementsIf hk =>
    refine ⟨rfl, rfl, rfl, fun _ h => ?_⟩
    cases h with
    | ifKeyword => exact ⟨_, _, rfl, by simp [Part.construct?, hk]; rfl⟩
  | statementsLoop hk =>
    have hloop : ∀ scope branch, (Part.sequential scope branch).construct? t = some .loop := by
      rcases hk with hk | hk | hk <;> simp [Part.construct?, hk]
    refine ⟨rfl, rfl, rfl, fun _ h => ?_⟩
    rw [hloop]
    cases h with
    | loopFor | loopWhile | loopBegin => exact ⟨_, _, rfl, rfl⟩

/-- After a label there is a statement, whose first token is handed on. -/
theorem pass_of_labelled {part : Part} {label : String} {move : Move}
    (h : (State.statements part (some label)).Allows t move) :
    t.isName ∧ move = .pass none (.goto (.target part (some label) .name)) ∨
      ∃ resume sub, move = .pass none (.call resume sub) := by
  cases h with
  | statementsTarget hn => exact .inl ⟨hn, rfl⟩
  | _ => exact .inr ⟨_, _, rfl⟩

/-- **What the first token of a statement opens after a label**: the label is the name of the
construct, if the statement is one. -/
theorem Reads.openings_labelled {part : Part} {label : String} (h : Reads t g g' none)
    (hc : g.control = ⟨.statements part (some label), false, stack⟩) :
    g'.control.openings = ((part.construct? t).map fun c => Scope.opening ⟨c, label⟩).toList ++
      g.control.openings := by
  obtain ⟨move, hallows, hmove⟩ := h.allows
  rw [hc] at hallows
  rw [hc, Control.openings_eq ⟨.statements _ _, _, _⟩]
  rcases pass_of_labelled hallows with ⟨hn, rfl⟩ | ⟨resume, sub, rfl⟩
  · obtain ⟨c, hfollow, hread⟩ := hmove
    rw [hc] at hfollow
    cases hfollow
    have hconstruct : part.construct? t = none := by
      cases hk : t.keyword? with
      | none => simp [Part.construct?, hk]
      | some k => exact absurd hn (Token.not_isName_of_keyword? hk)
    rw [hconstruct]
    refine hread.openings_starts (s := .target part (some label) .name) rfl fun _ h => ?_
    cases h
    exact ⟨_, _, rfl, rfl⟩
  · obtain ⟨rfl, ho, hu, hstarts⟩ := starts_of_call hallows
    obtain ⟨c, hfollow, hread⟩ := hmove
    rw [hc] at hfollow
    cases hfollow
    have hgist : (⟨sub, false, .statements part none :: stack⟩ : Control).gist =
        ⟨sub, false, .statements part none :: stack⟩ := by
      simp only [Control.gist, ho, hu]
    exact hread.openings_starts hgist hstarts

end Gist

namespace Machine

variable {options : Options} {pre us : List Token} {m m' : Machine} {cs ds : List Completion}

/-- **A gist goes where its run does.** -/
theorem Passes.follows_between (h : Passes options pre m .between cs) (hr : m.Rests .between)
    (h' : Passes options (pre ++ us) m' .between ds) :
    (m.gistAt cs .between).Follows (significant us) (m'.gistAt ds .between) := by
  induction us generalizing pre m cs with
  | nil =>
    obtain ⟨rfl, rfl⟩ := h.unique (by simpa using h')
    exact .nil _
  | cons u us ih =>
    obtain ⟨k, es, hk, hd⟩ := h'.earlier (List.prefix_append _ _) (by simp)
    obtain ⟨rfl, rfl⟩ := h.unique hk
    have hpush := h.push u hd
    have h' : Passes options ((pre ++ [u]) ++ us) m' .between ds := by simpa using h'
    rcases hpush.feeds fun _ => hr with ⟨k, es, hk, hp⟩ | ⟨_, _, _, _, hk, -⟩
    · have hfollows := ih hk (hk.rests.resolve_left (by simp)) h'
      rw [gistAt_push] at hp
      cases hu : u.kind.isTrivia with
      | true =>
        rw [Gist.Passes, if_pos hu] at hp
        rw [significant_cons_trivium hu, ← hp.1]
        exact hfollows
      | false =>
        rw [Gist.Passes, if_neg (by simp [hu])] at hp
        rw [significant_cons hu]
        exact .cons hd hp hfollows
    · exact (hk.not_broken h').elim

/-- The constructs that are open once the first token of a statement after a label has been read. -/
theorem Passes.openings_labelled {part : Part} {label : String} {stack : List State} {u : Token}
    (h : Passes options pre m .between cs)
    (hc : m.control = ⟨.statements part (some label), false, stack⟩)
    (h' : Passes options (pre ++ us) m' .between ds) (hus : significant us = [u]) :
    m'.control.openings = ((part.construct? u).map fun c => Scope.opening ⟨c, label⟩).toList ++
      m.control.openings := by
  have hcontrol : (m.gistAt cs .between).control = m.control := by
    rw [gistAt, gist, hc]
    rfl
  have hfollows := h.follows_between (by rw [Rests, hc]; rfl) h'
  rw [hus] at hfollows
  cases hfollows with
  | cons _ hread hnil =>
    cases hnil
    have := hread.openings_labelled (hcontrol.trans hc)
    rwa [hcontrol, gistAt, gist, Control.openings_gist] at this

end Machine

end VhdlOutline
