import VhdlOutline.Proofs.Outline.Gist
import VhdlOutline.Proofs.Outline.Inputs

/-!
# How the tokens of a block are read

In every block of an outline all tokens are read in one way: words are settled, in an expression
symbols as well, and the `begin` after declarations is left as it is. `BlockKind.Reads` says so for
a kind of block, `State.Reads` for a state, and `Sheet.Reads` for all that is on a sheet. Every turn
keeps it (`Machine.traced_reads`), because a block under construction never passes from a state that
reads in one way to a state that reads in another.

`outline_reads` is what this comes to for the tokens and blocks of an outline.
-/

namespace VhdlOutline

/-! ## Kinds of blocks -/

/-- All expressions. -/
def Expression.values : List Expression := [
  .genericDefault, .portDefault, .parameterDefault, .constantDefault, .signalDefault,
  .variableDefault, .ifCondition, .elsifCondition, .forRange, .loopBound, .whileCondition,
  .returnValue, .exitCondition, .nextCondition, .waitCondition, .reportMessage, .reportSeverity,
  .assertCondition, .assertMessage, .assertSeverity, .assignedVariable, .assignedSignal]

theorem Expression.mem_values (x : Expression) : x ∈ values := by
  cases x <;> decide

namespace BlockKind

/-- Blocks that are expressions. -/
def isExpression (k : BlockKind) : Bool := Expression.values.any fun x => x.kind = k

/-- Blocks that are the `begin` after declarations. -/
def isBegin : BlockKind → Bool
  | .entityBegin | .architectureBegin | .procedureBegin | .functionBegin | .processBegin => true
  | _ => false

/-- How a block of the kind `k` reads the token `u`, which becomes `v`. -/
def Reads (k : BlockKind) (u v : Token) : Prop :=
  if k.isExpression then v.kind = u.settledInExpression
  else if k.isBegin then v.kind = u.kind ∧ u.keyword? = some .begin
  else v.kind = u.settled

theorem isExpression_iff {k : BlockKind} :
    k.isExpression = true ↔ ∃ x : Expression, x.kind = k := by
  simp [isExpression, Expression.mem_values]

/-- Blocks in which words are settled and symbols are not. -/
def isPlain (k : BlockKind) : Bool := !k.isExpression && !k.isBegin

theorem reads_of_isPlain {k : BlockKind} (h : k.isPlain = true) {u v : Token} :
    k.Reads u v ↔ v.kind = u.settled := by
  obtain ⟨hx, hb⟩ : k.isExpression = false ∧ k.isBegin = false := by simpa [isPlain] using h
  simp [Reads, hx, hb]

theorem reads_of_isExpression {k : BlockKind} (h : k.isExpression = true) {u v : Token} :
    k.Reads u v ↔ v.kind = u.settledInExpression := by
  simp [Reads, h]

theorem reads_of_isBegin {k : BlockKind} (h : k.isBegin = true) {u v : Token} :
    k.Reads u v ↔ v.kind = u.kind ∧ u.keyword? = some .begin := by
  have hx : k.isExpression = false := by
    cases k <;> first | rfl | cases h
  simp [Reads, hx, h]

theorem isPlain_of_isSkippable {k : BlockKind} (h : k.isSkippable = true) : k.isPlain = true := by
  cases k <;> first | rfl | cases h

end BlockKind

@[simp] theorem Reference.isPlain_kinds (r : Reference) :
    r.startKind.isPlain ∧ r.nameKind.isPlain ∧ r.delimiterKind.isPlain ∧ r.endKind.isPlain := by
  cases r <;> decide

@[simp] theorem ObjectClass.isPlain_kinds (o : ObjectClass) :
    o.declarationKind.isPlain ∧ o.endKind.isPlain := by
  cases o <;> decide

@[simp] theorem InterfaceList.isPlain_kinds (l : InterfaceList) :
    l.openKind.isPlain ∧ l.itemKind.isPlain ∧ (l.typeKind?.getD l.itemKind).isPlain ∧
      l.delimiterKind.isPlain ∧ l.closeKind.isPlain := by
  cases l <;> decide

@[simp] theorem SimpleStatement.isPlain_kinds (s : SimpleStatement) :
    s.startKind.isPlain ∧ s.endKind.isPlain := by
  cases s <;> decide

@[simp] theorem Assignment.isPlain_kinds (a : Assignment) :
    a.startKind.isPlain ∧ a.endKind.isPlain := by
  cases a <;> decide

@[simp] theorem Construct.isPlain_endKind (c : Construct) : c.endKind.isPlain := by
  cases c <;> decide

/-- The state that a move leads to, unless it returns. -/
def Next.state? : Next → Option State
  | .goto s | .call _ s => some s
  | .return_ => none

theorem Control.state_follow {c c' : Control} {next : Next} {s : State}
    (h : c.follow next = .ok c') (hs : next.state? = some s) : c'.state = s := by
  cases next with
  | goto | call =>
    cases h
    cases hs
    rfl
  | return_ => cases hs

/-- How the state reads the token `u`, which becomes `v`. Between declarations only `begin` is
taken. -/
def State.Reads (s : State) (u v : Token) : Prop :=
  match s with
  | .declarations _ => v.kind = u.kind ∧ u.keyword? = some .begin
  | _ => v.kind = s.reading u

namespace State

theorem Allows.isPlain {s : State} {t : Token} {move : Move} (h : s.Allows t move)
    (hx : s.isExpression = false) (hd : ∀ scope, s ≠ .declarations scope) :
    ∀ k ∈ move.kinds, k.isPlain = true := by
  cases h with
  | expressionToken | expressionEnd => cases hx
  | declaration | declarationsBegin | declarationsEnd => exact absurd rfl (hd _)
  | _ => simp [Move.kinds] <;> decide

/-- A state reads as the blocks that end in it. -/
theorem Allows.reads_kinds {s : State} {t : Token} {move : Move} (h : s.Allows t move) {u v : Token}
    (hr : s.Reads u v) : ∀ k ∈ move.kinds, k.Reads u v := by
  have hplain := h.isPlain
  cases h with
  | declarationsBegin hb =>
    intro k hk
    obtain rfl := List.mem_singleton.1 hk
    have hbegin : k.isBegin = true := by
      generalize Scope.construct _ = c at hb
      cases c <;> cases hb <;> rfl
    exact (BlockKind.reads_of_isBegin hbegin).2 hr
  | @expressionEnd _ x =>
    intro k hk
    obtain rfl := List.mem_singleton.1 hk
    exact (BlockKind.reads_of_isExpression (BlockKind.isExpression_iff.2 ⟨x, rfl⟩)).2 hr
  | declaration | declarationsEnd | expressionToken => simp [Move.kinds]
  | _ => exact fun k hk => (BlockKind.reads_of_isPlain (hplain rfl (by simp) k hk)).2 hr

/-- A token that is taken is read as the state reads. -/
theorem Allows.reads_take {s : State} {t : Token} {before closing : Option BlockKind} {next : Next}
    (h : s.Allows t (.take before closing next)) : s.Reads t { t with kind := s.reading t } := by
  cases h with
  | declarationsBegin _ h => exact ⟨rfl, h⟩
  | _ => rfl

/-- A token that ends no block leads to a state that reads in the same way. -/
theorem Allows.reads_next {s : State} {t : Token} {before : Option BlockKind} {next : Next}
    (h : s.Allows t (.take before none next)) :
    ∃ s', next.state? = some s' ∧ s'.Reads = s.Reads ∧ s'.opens? = none := by
  cases h with
  | @objectKeyword _ o => cases o <;> exact ⟨_, rfl, rfl, rfl⟩
  | _ => exact ⟨_, rfl, rfl, rfl⟩

/-- Where a token is handed on and something of the block under construction has been read, the next
state reads in the same way. -/
theorem Allows.reads_pass {s : State} {t : Token} {next : Next}
    (h : s.Allows t (.pass none next)) :
    s.posture = .clean ∨ s.opens?.isSome ∨
      ∃ s', next.state? = some s' ∧ s'.Reads = s.Reads ∧ s'.opens? = none := by
  cases h with
  | @simpleValue _ s x hx => exact .inr (.inl (by simp [opens?, hx]))
  | _ => first | exact .inl rfl | exact .inr (.inl rfl) | exact .inr (.inr ⟨_, rfl, rfl, rfl⟩)

/-- A state that hands every token to an expression does nothing else. -/
theorem isExpression_of_opens? {s : State} {i : Nat} {t : Token} {before : Option BlockKind}
    {next : Next} {note : Option Note} {x : Option NameMismatch}
    (h : s.react i t = .ok ⟨.pass before next, note, x⟩) (ho : s.opens?.isSome) :
    ∃ e, next.state? = some (.expression e 0 false) := by
  obtain ⟨⟨resume, e⟩, ho⟩ := Option.isSome_iff_exists.1 ho
  rw [react_of_opens? ho] at h
  cases h
  exact ⟨e, rfl⟩

end State

/-! ## Sheets -/

/-- Settling a blank or comment leaves it as it is. -/
theorem Token.Settles.kind_of_isTrivia {u v : Token} (h : u.Settles v)
    (ht : v.kind.isTrivia = true) :
    v.kind = u.kind ∧ u.settled = u.kind ∧ u.settledInExpression = u.kind := by
  have hu := h.isTrivia.symm.trans ht
  have hs : u.settled = u.kind ∧ u.settledInExpression = u.kind := by
    cases hk : u.kind <;> simp_all [Token.settled, Token.settledInExpression, TokenKind.isTrivia]
  obtain ⟨kind, rfl, rfl | rfl | rfl⟩ := h
  · exact ⟨rfl, hs⟩
  · exact ⟨hs.1, hs⟩
  · exact ⟨hs.2, hs⟩

theorem rel_of_getElem? {α β : Type} {R : α → β → Prop} {as : List α} {bs : List β} {i : Nat}
    {a : α} {b : β} (h : List.Forall₂ R as bs) (ha : as[i]? = some a) (hb : bs[i]? = some b) :
    R a b := by
  obtain ⟨hia, rfl⟩ := List.getElem?_eq_some_iff.1 ha
  obtain ⟨hib, rfl⟩ := List.getElem?_eq_some_iff.1 hb
  exact h.get hia hib

/-- The tokens with the indices from `e.1` to `e.2` are related to those that were read. -/
def ReadOver (R : Token → Token → Prop) (us ts : List Token) (e : Nat × Nat) : Prop :=
  ∀ i u v, e.1 ≤ i → i ≤ e.2 → us[i]? = some u → ts[i]? = some v → R u v

section ReadOver

variable {R R' : Token → Token → Prop} {us ts : List Token} {t t' : Token} {e : Nat × Nat}

theorem ReadOver.mono (h : ReadOver R us ts e) (hr : ∀ u v, R u v → R' u v) :
    ReadOver R' us ts e :=
  fun i u v hlo hhi hu hv => hr u v (h i u v hlo hhi hu hv)

/-- Further tokens change nothing. -/
theorem ReadOver.concat (h : ReadOver R us ts e) (hlen : us.length = ts.length)
    (he : e.2 < ts.length) : ReadOver R (us ++ [t]) (ts ++ [t']) e := by
  intro i u v hlo hhi hu hv
  rw [List.getElem?_append_left (by omega)] at hu hv
  exact h i u v hlo hhi hu hv

/-- The next token is related as well. -/
theorem ReadOver.snoc {lo : Nat} (h : ReadOver R us ts (lo, ts.length))
    (hlen : us.length = ts.length) (ht : R t t') (n : Nat) :
    ReadOver R (us ++ [t]) (ts ++ [t']) (lo, n) := by
  intro i u v hlo hhi hu hv
  by_cases hi : i < ts.length
  · rw [List.getElem?_append_left (by omega)] at hu hv
    exact h i u v hlo (Nat.le_of_lt hi) hu hv
  · have : i = ts.length := by
      have := (List.getElem?_eq_some_iff.1 hv).1
      simp only [List.length_append, List.length_singleton] at this
      omega
    subst this
    simp only [List.getElem?_concat_length, Option.some.injEq] at hv
    rw [← hlen, List.getElem?_concat_length, Option.some.injEq] at hu
    rw [← hu, ← hv]
    exact ht

/-- No token has an index beyond the last one. -/
theorem readOver_of_le {lo hi : Nat} (h : ts.length ≤ lo) : ReadOver R us ts (lo, hi) := by
  intro i u v hlo _ _ hv
  have := (List.getElem?_eq_some_iff.1 hv).1
  dsimp only at hlo
  omega

end ReadOver

/-- What is on a sheet has been read as its blocks are to be read, and the block under construction
as `R` says. -/
structure Sheet.Reads (s : Sheet) (R : Token → Token → Prop) (us ts : List Token) : Prop where
  settles : List.Forall₂ Token.Settles us ts
  blocks : ∀ b ∈ s.blocks.toList, ReadOver b.kind.Reads us ts b.extent
  waiting : ∀ f ∈ s.waiting, ReadOver (f.kind?.elim R BlockKind.Reads) us ts f.extent
  rest : ReadOver R us ts (s.start, ts.length)

namespace Sheet

variable {s : Sheet} {R R' : Token → Token → Prop} {us ts : List Token} {t t' : Token}

theorem Reads.length_eq (h : s.Reads R us ts) : us.length = ts.length := h.settles.length_eq

/-- Where nothing has been read of the block under construction, it may be read in any way. -/
theorem Reads.of_isClean (h : s.Reads R us ts) (hc : s.IsClean ts.length) : s.Reads R' us ts where
  settles := h.settles
  blocks := h.blocks
  waiting := by simp [hc.1]
  rest := readOver_of_le (Nat.le_of_eq hc.2.symm)

/-- The same where nothing has been read of it but blanks and comments, which are all read in one
way. -/
theorem Reads.of_pending (h : s.Reads R us ts) (hp : s.pending ts = [])
    (hr : ∀ u v, u.Settles v → v.kind.isTrivia = true → R' u v) : s.Reads R' us ts := by
  have htrivia : ∀ v ∈ s.pieces.flatMap (·.tokensIn ts) ++ ts.drop s.start,
      v.kind.isTrivia = true := by
    intro v hv
    have := List.filter_eq_nil_iff.1 hp v hv
    simpa [Token.isSignificant] using this
  have hover : ∀ e, (∀ i v, e.1 ≤ i → i ≤ e.2 → ts[i]? = some v → v.kind.isTrivia = true) →
      ReadOver R' us ts e := by
    intro e hv i u v hlo hhi hu hv'
    exact hr u v (rel_of_getElem? h.settles hu hv') (hv i v hlo hhi hv')
  refine ⟨h.settles, h.blocks, ?_, ?_⟩
  · intro f hf
    cases hk : f.kind? with
    | some k => simpa [hk] using h.waiting f hf
    | none =>
      refine hover _ fun i v hlo hhi hv => htrivia v (List.mem_append_left _ ?_)
      refine List.mem_flatMap.2 ⟨f, List.mem_filter.2 ⟨hf, by simp [hk]⟩, ?_⟩
      rw [Fragment.tokensIn, List.mem_iff_getElem?]
      refine ⟨i - f.first, ?_⟩
      have hlo : f.first ≤ i := hlo
      have hhi : i ≤ f.last := hhi
      rw [List.getElem?_drop, Nat.add_sub_cancel' hlo, List.getElem?_take_of_lt (by omega), hv]
  · refine hover _ fun i v hlo _ hv => htrivia v (List.mem_append_right _ ?_)
    rw [List.mem_iff_getElem?]
    exact ⟨i - s.start, by rw [List.getElem?_drop, Nat.add_sub_cancel' hlo, hv]⟩

/-- Blocks and fragments do not reach to the next token. -/
theorem Reads.blocks_concat (h : s.Reads R us ts) (hl : s.Laid ts.length) (t t' : Token) :
    ∀ b ∈ s.blocks.toList, ReadOver b.kind.Reads (us ++ [t]) (ts ++ [t']) b.extent := by
  intro b hb
  have hmem := hl.tiles.mem (List.mem_append_left _ (List.mem_map_of_mem hb))
  exact (h.blocks b hb).concat h.length_eq (Nat.lt_of_lt_of_le hmem.2.2 hl.start_le)

theorem Reads.waiting_concat (h : s.Reads R us ts) (hl : s.Laid ts.length) (t t' : Token) :
    ∀ f ∈ s.waiting, ReadOver (f.kind?.elim R BlockKind.Reads) (us ++ [t]) (ts ++ [t'])
      f.extent := by
  intro f hf
  have hlt := (hl.last_lt hf).2
  exact (h.waiting f hf).concat h.length_eq (Nat.lt_of_lt_of_le hlt hl.start_le)

/-- A token joins the block under construction. -/
theorem Reads.concat (h : s.Reads R us ts) (hl : s.Laid ts.length) (hset : t.Settles t')
    (ht : R t t') : s.Reads R (us ++ [t]) (ts ++ [t']) where
  settles := List.rel_append h.settles (.cons hset .nil)
  blocks := h.blocks_concat hl t t'
  waiting := h.waiting_concat hl t t'
  rest := h.rest.snoc h.length_eq ht _

theorem Reads.settle (h : s.Reads R us ts) (kind : TokenKind) : (s.settle kind).Reads R us ts :=
  ⟨h.settles, h.blocks, h.waiting, h.rest⟩

/-- The block under construction is completed, and the next one has not begun. -/
theorem Reads.complete (h : s.Reads R us ts) {kind : BlockKind}
    (hk : ∀ u v, R u v → kind.Reads u v) {rest : Option (Nat × Nat)}
    (hr : ∀ e ∈ rest, s.start ≤ e.1) {start : Nat} (hs : ts.length ≤ start) :
    { s.complete kind rest with start }.Reads R' us ts where
  settles := h.settles
  blocks := by
    intro b hb
    simp only [Sheet.complete, Chain.toList_append] at hb
    rcases List.mem_append.1 hb with hb | hb
    · exact h.blocks b hb
    obtain ⟨f, hf, rfl⟩ := List.mem_map.1 hb
    rw [Fragment.extent_block]
    rcases List.mem_append.1 hf with hf | hf
    · have := h.waiting f hf
      unfold Fragment.block
      cases hkind : f.kind? with
      | none => exact (by simpa [hkind] using this : ReadOver R us ts f.extent).mono hk
      | some k => simpa [hkind] using this
    · obtain ⟨e, he, rfl⟩ := Option.map_eq_some_iff.1 (Option.mem_toList.1 hf)
      intro i u v hlo _ hu hv
      have := (List.getElem?_eq_some_iff.1 hv).1
      exact hk u v (h.rest i u v (Nat.le_trans (hr e he) hlo) (by dsimp only; omega) hu hv)
  waiting := by simp [Sheet.complete]
  rest := readOver_of_le hs

theorem Reads.cut (h : s.Reads R us ts) (hi : s.index = ts.length) {kind : BlockKind}
    (hk : ∀ u v, R u v → kind.Reads u v) : (s.cut kind).Reads R' us ts := by
  refine h.complete hk ?_ (Nat.le_of_eq hi.symm)
  intro e he
  split at he <;> cases he
  exact Nat.le_refl _

theorem Reads.close (h : s.Reads R (us ++ [t]) (ts ++ [t'])) (hi : s.index = ts.length)
    {kind : BlockKind} (hk : ∀ u v, R u v → kind.Reads u v) :
    (s.close kind).Reads R' (us ++ [t]) (ts ++ [t']) := by
  refine h.complete hk ?_ (by simp [hi])
  rintro e ⟨⟩
  exact Nat.le_refl _

/-- Blank text or a comment becomes a block, or waits for the block under construction. -/
theorem reads_aside {kind : BlockKind} {first last start : Nat}
    (hset : List.Forall₂ Token.Settles us ts)
    (hb : ∀ b ∈ s.blocks.toList, ReadOver b.kind.Reads us ts b.extent)
    (hw : ∀ f ∈ s.waiting, ReadOver (f.kind?.elim R BlockKind.Reads) us ts f.extent)
    (hnew : ReadOver kind.Reads us ts (first, last)) (hs : ts.length ≤ start) :
    { s.aside kind first last with start }.Reads R us ts := by
  unfold Sheet.aside
  split
  · refine ⟨hset, ?_, hw, readOver_of_le hs⟩
    simp only [Chain.toList_push]
    intro b hmem
    rcases List.mem_append.1 hmem with hmem | hmem
    · exact hb b hmem
    · obtain rfl := List.mem_singleton.1 hmem
      exact hnew
  · refine ⟨hset, hb, ?_, readOver_of_le hs⟩
    intro f hmem
    rcases List.mem_append.1 hmem with hmem | hmem
    · exact hw f hmem
    · obtain rfl := List.mem_singleton.1 hmem
      exact hnew

theorem Reads.closeAside (h : s.Reads R us ts) (hl : s.Laid ts.length) (hi : s.index = ts.length)
    (hs : s.start = ts.length) {kind : BlockKind} (hk : kind.isSkippable = true)
    (ht : t.kind.isTrivia = true) :
    (s.closeAside kind).Reads R (us ++ [t]) (ts ++ [t]) := by
  refine reads_aside (List.rel_append h.settles (.cons t.settles_self .nil))
    (h.blocks_concat hl t t) (h.waiting_concat hl t t) ?_ (by simp [hi])
  -- The block consists of the one token.
  intro i u v hlo hhi hu hv
  obtain rfl : i = ts.length := by
    dsimp only at hlo hhi
    omega
  rw [← h.length_eq, List.getElem?_concat_length, Option.some.injEq] at hu
  rw [List.getElem?_concat_length, Option.some.injEq] at hv
  rw [← hu, ← hv, BlockKind.reads_of_isPlain (BlockKind.isPlain_of_isSkippable hk)]
  exact (t.settles_self.kind_of_isTrivia ht).2.1.symm

/-- What has been read of the block under construction waits, unless it is blank. -/
theorem Reads.interrupt (h : s.Reads R us ts) (ht : s.tokens.toList = ts ++ [t]) :
    s.interrupt.Reads R us ts := by
  have hi := index_eq ht
  unfold Sheet.interrupt
  split
  · rename_i hlt
    split
    · rename_i hall
      rw [range_start ht hlt, List.all_eq_true] at hall
      refine reads_aside h.settles h.blocks h.waiting ?_ (Nat.le_of_eq hi.symm)
      intro i u v hlo hhi hu hv
      have hmem : v ∈ ts.drop s.start := List.mem_iff_getElem?.2
        ⟨i - s.start, by rw [List.getElem?_drop, Nat.add_sub_cancel' hlo, hv]⟩
      have hk : v.kind.isTrivia = true := by
        rw [of_decide_eq_true (hall v hmem)]
        rfl
      have := (rel_of_getElem? h.settles hu hv).kind_of_isTrivia hk
      exact (BlockKind.reads_of_isPlain rfl).2 (this.1.trans this.2.1.symm)
    · refine ⟨h.settles, h.blocks, ?_, readOver_of_le (Nat.le_of_eq hi.symm)⟩
      intro f hf
      rcases List.mem_append.1 hf with hf | hf
      · exact h.waiting f hf
      · obtain rfl := List.mem_singleton.1 hf
        intro i u v hlo hhi hu hv
        exact h.rest i u v hlo (by dsimp only [Fragment.extent] at hhi ⊢; omega) hu hv
  · exact h

end Sheet

/-! ## Machines -/

namespace Machine

open State

variable {m m' : Machine} {us ts : List Token} {t t' : Token} {cs : List Completion}

/-- What is on the sheet has been read as it is to be read, and nothing has been read of an
expression before its state is reached. -/
structure Reads (m : Machine) (us ts : List Token) : Prop where
  sheet : m.sheet.Reads m.control.state.Reads us ts
  unread : m.control.state.opens?.isSome → m.sheet.pending ts = []

theorem reads_start (options : Options) : ({ options } : Machine).Reads [] [] where
  sheet := ⟨.nil, by rintro _ ⟨⟩, by rintro _ ⟨⟩, readOver_of_le (Nat.le_refl 0)⟩
  unread := by simp [opens?]

/-- Where nothing has been read of the block under construction, any state may go on. -/
theorem reads_of_isClean {R : Token → Token → Prop} (h : m.sheet.Reads R us ts)
    (hc : m.sheet.IsClean ts.length) : m.Reads us ts :=
  ⟨h.of_isClean hc, fun _ => hc.pending⟩

theorem Reads.handedOn (h : m.Reads us ts) (hs : m.Sound ts)
    (ht : m.sheet.tokens.toList = ts ++ [t]) (hm : Turn m t cs m' .handedOn) : m'.Reads us ts := by
  have hi := Sheet.index_eq ht
  cases hm with
  | resume _ _ hm =>
    refine ⟨?_, ?_⟩ <;> rw [hm.sheet, hm.control]
    · exact h.sheet
    · exact h.unread
  | interrupt _ _ _ hm =>
    refine ⟨?_, ?_⟩ <;> rw [hm.sheet, hm.control]
    · exact h.sheet.interrupt ht
    · rw [Sheet.pending_interrupt ht]
      exact h.unread
  | @pass _ before next _ _ c _ _ hr hc hm =>
    have hallows := allows_of_react hr
    cases before with
    | some kind =>
      have hkind : ∀ u v, m.control.state.Reads u v → kind.Reads u v :=
        fun u v hread => hallows.reads_kinds hread kind (by simp [Move.kinds])
      have hclean := m.sheet.isClean_cut kind
      rw [hi] at hclean
      refine reads_of_isClean (R := m.control.state.Reads) ?_ (by rwa [hm.sheet])
      rw [hm.sheet]
      exact h.sheet.cut hi hkind
    | none =>
      have hsheet : m'.sheet = m.sheet := hm.sheet
      rcases hallows.reads_pass with hclean | hopens | ⟨s', hs', hreads, hunread⟩
      · have hclean' := hs.stands
        rw [hclean] at hclean'
        exact reads_of_isClean (hsheet ▸ h.sheet) (hsheet ▸ hclean')
      · obtain ⟨e, he⟩ := isExpression_of_opens? hr hopens
        have hstate : m'.control.state = .expression e 0 false := by
          rw [hm.control, Control.state_follow hc he]
        refine ⟨?_, by simp [hstate, opens?]⟩
        rw [hsheet, hstate]
        refine h.sheet.of_pending (h.unread hopens) fun u v hset htr => ?_
        have := hset.kind_of_isTrivia htr
        exact this.1.trans this.2.2.symm
      · have hstate : m'.control.state = s' := by
          rw [hm.control, Control.state_follow hc hs']
        refine ⟨?_, by simp [hstate, hunread]⟩
        rw [hsheet, hstate, hreads]
        exact h.sheet

theorem Reads.taken (h : m.Reads us ts) (hs : m.Sound ts)
    (ht : m.sheet.tokens.toList = ts ++ [t]) (hm : Turn m t cs m' .taken)
    (ht' : m'.sheet.tokens.toList = ts ++ [t']) : m'.Reads (us ++ [t]) (ts ++ [t']) := by
  have hi := Sheet.index_eq ht
  cases hm with
  | trivium htr ha hm =>
    rw [hm.sheet, Sheet.tokens_closeAside, ht] at ht'
    cases List.append_cancel_left ht'
    have hstart : m.sheet.start = ts.length := by
      rcases ha with ha | ha
      · exact (hs.aside ha).1
      · have hclean := hs.stands
        rw [(posture_eq_clean_iff _).2 ha] at hclean
        exact hclean.2
    refine ⟨?_, ?_⟩ <;> rw [hm.sheet, hm.control]
    · exact h.sheet.closeAside hs.laid hi hstart (m.sheet.isSkippable_triviaKind _) htr
    · rw [hs.laid.pending_closeAside hstart ht]
      exact h.unread
  | absorb htr _ hin hm =>
    rw [hm.sheet, ht] at ht'
    cases List.append_cancel_left ht'
    have hread : m.control.state.Reads t t := by
      have := t.settles_self.kind_of_isTrivia htr
      cases hstate : m.control.state with
      | declarations => simp [hstate, trivia] at hin
      | expression => exact this.2.2.symm
      | _ => exact this.2.1.symm
    refine ⟨?_, ?_⟩ <;> rw [hm.sheet, hm.control]
    · exact h.sheet.concat hs.laid t.settles_self hread
    · rw [hs.laid.pending_append, significant_trivium htr, List.append_nil]
      exact h.unread
  | @take _ before closing next _ _ c _ _ hr _ hc hm =>
    have hallows := allows_of_react hr
    rw [hm.sheet, Sheet.toList_tokens_taking ht] at ht'
    cases List.append_cancel_left ht'
    have hkinds : ∀ kind ∈ (Move.take before closing next).kinds, ∀ u v,
        m.control.state.Reads u v → kind.Reads u v :=
      fun kind hk u v hread => hallows.reads_kinds hread kind hk
    have hcut : (m.sheet.cutBefore before).Reads m.control.state.Reads us ts := by
      cases before with
      | none => exact h.sheet
      | some kind => exact h.sheet.cut hi (hkinds kind (by simp [Move.kinds]))
    have hlaid : (m.sheet.cutBefore before).Laid ts.length := hi ▸ (hi ▸ hs.laid).cutBefore before
    have hnext := (hcut.concat hlaid (Token.settles_reading _ t) hallows.reads_take).settle
      (m.control.state.reading t)
    cases closing with
    | none =>
      obtain ⟨s', hs', hreads, hunread⟩ := hallows.reads_next
      have hstate : m'.control.state = s' := by
        rw [hm.control, Control.state_follow hc hs']
      refine ⟨?_, by simp [hstate, hunread]⟩
      rw [hm.sheet, hstate, hreads]
      exact hnext
    | some kind =>
      have hclean := m.sheet.isClean_taking before kind (m.control.state.reading t)
      refine reads_of_isClean (R := m.control.state.Reads) ?_ (by simpa [hm.sheet, hi] using hclean)
      rw [hm.sheet]
      exact hnext.close (by rw [Sheet.index_settle, Sheet.index_cutBefore, hi])
        (hkinds kind (by simp [Move.kinds]))
  | finish _ _ hr hm =>
    obtain ⟨hstate, hend⟩ := (allows_of_react hr).eq_documentRegion_of_finish
    obtain rfl : t = t' := by
      have : m'.sheet.tokens.toList = ts ++ [t] := by rw [hm.sheet]; exact ht
      simpa [this] using ht'
    have hread : m.control.state.Reads t t := by
      rw [hstate]
      show t.kind = t.settled
      simp [Token.settled, hend]
    have hclean := m.sheet.isClean_close .endOfDocument
    refine reads_of_isClean (R := m.control.state.Reads) ?_ (by simpa [hm.sheet, hi] using hclean)
    rw [hm.sheet]
    exact (h.sheet.concat hs.laid t.settles_self hread).close hi fun u v huv =>
      (allows_of_react hr).reads_kinds huv _ (by simp [Move.kinds])

theorem traced_reads : Traced Reads where
  push _ h := ⟨⟨h.sheet.settles, h.sheet.blocks, h.sheet.waiting, h.sheet.rest⟩, h.unread⟩
  handedOn hs ht hm h := h.handedOn hs ht hm
  taken hs ht hm ht' h := h.taken hs ht hm ht'

end Machine

/-! ## Outlines -/

/-- Every token between the ends of a range lies in one of the extents that cover it. -/
theorem Tiles.exists_mem {lo hi i : Nat} {es : List (Nat × Nat)} (h : Tiles lo es hi)
    (hlo : lo ≤ i) (hhi : i < hi) : ∃ e ∈ es, e.1 ≤ i ∧ i ≤ e.2 := by
  induction es generalizing lo with
  | nil =>
    obtain rfl : lo = hi := h
    omega
  | cons e es ih =>
    obtain ⟨rfl, -, h⟩ := h
    by_cases hi : i ≤ e.2
    · exact ⟨e, List.mem_cons_self, hlo, hi⟩
    · obtain ⟨e', he', hi'⟩ := ih h (by omega)
      exact ⟨e', List.mem_cons_of_mem _ he', hi'⟩

/-- **The tokens of an outline** are the first ones that were to be read, up to the end of the
document, and each block reads its tokens in its own way. -/
theorem outline_reads {xs : List (Except LexError Token)} {options : Options} {d : Document}
    (h : outline xs options = .ok d) :
    ∃ us rest, xs = us.map .ok ++ rest ∧ List.Forall₂ Token.Settles us d.tokens.toList ∧
      (∃ e ∈ us.getLast?, e.kind = .endOfDocument) ∧
      ∀ b ∈ d.blocks.toList, ReadOver b.kind.Reads us d.tokens.toList b.extent := by
  obtain ⟨m, hrun, rfl⟩ := outline_ok h
  obtain ⟨us, rest, ts, hxs, htok, -, hreads⟩ := Machine.traced_reads.run
    (Machine.sound_start options) rfl (Machine.reads_start options) hrun
  obtain ⟨us', vs, rest', hxs', hset, hend, htok', -⟩ :=
    Machine.run_induction_start Machine.kept_framed (Machine.framed_start options) hrun
  rw [List.nil_append] at hreads
  have hlen : us.length = us'.length := by
    rw [hreads.sheet.length_eq, hset.length_eq, ← htok', ← htok]
  obtain rfl : us = us' := by
    have := List.append_inj_left (hxs.symm.trans hxs') (by simp [hlen])
    exact List.map_injective_iff.2 (fun _ _ => Except.ok.inj) this
  exact ⟨us, rest, hxs, htok.symm ▸ hreads.sheet.settles, hend, htok.symm ▸ hreads.sheet.blocks⟩

/-- A token of an outline, and what it was, lies in a block that reads it. -/
theorem exists_block_reads {xs : List (Except LexError Token)} {options : Options} {d : Document}
    (h : outline xs options = .ok d) {us : List Token} {i : Nat} {u v : Token}
    (hblocks : ∀ b ∈ d.blocks.toList, ReadOver b.kind.Reads us d.tokens.toList b.extent)
    (hu : us[i]? = some u) (hv : d.tokens.toList[i]? = some v) :
    ∃ b ∈ d.blocks.toList, b.first ≤ i ∧ i ≤ b.last ∧ b.kind.Reads u v := by
  have hi : i < d.tokens.size := by
    rw [← Chain.length_toList]
    exact (List.getElem?_eq_some_iff.1 hv).1
  obtain ⟨e, he, hlo, hhi⟩ := (outline_tiles h).2.exists_mem (Nat.zero_le i) hi
  obtain ⟨b, hb, rfl⟩ := List.mem_map.1 he
  exact ⟨b, hb, hlo, hhi, hblocks b hb i u v hlo hhi hu hv⟩

end VhdlOutline
