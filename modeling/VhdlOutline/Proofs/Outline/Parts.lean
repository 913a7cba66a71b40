import VhdlOutline.Proofs.Outline.Run

/-!
# The blocks of a completion

A completion yields the parts of one block and the blanks and comments between them.

* `Completion.IsWhole.parts_eq`: the parts are the fragments that waited, all of one kind, and
  marked as fragments if there are several of them.
* `Machine.Turn.isWhole`: every completion of a sound machine has a part.
* `Machine.Turn.parts`: up to blanks and comments, the blocks on the sheet are those of the
  completions.
* `Completion.content` is what a block says, and `Sheet.content_cut` and `Sheet.Laid.content_close`
  relate it to the block under construction.
-/

namespace VhdlOutline

/-! ## Kinds of blocks that moves complete -/

/-- The kinds of the blocks that a move completes. -/
def Move.kinds : Move → List BlockKind
  | .take before closing _ => before.toList ++ closing.toList
  | .pass before _ => before.toList
  | .finish => [.endOfDocument]

/-- Kinds of blocks that are neither blank, nor a comment, nor at an end of the document. -/
def BlockKind.isOrdinary (k : BlockKind) : Bool :=
  !k.isSkippable && k != .startOfDocument && k != .endOfDocument

@[simp] theorem Reference.isOrdinary_startKind (r : Reference) : r.startKind.isOrdinary := by
  cases r <;> rfl

@[simp] theorem Reference.isOrdinary_nameKind (r : Reference) : r.nameKind.isOrdinary := by
  cases r <;> rfl

@[simp] theorem Reference.isOrdinary_delimiterKind (r : Reference) :
    r.delimiterKind.isOrdinary := by
  cases r <;> rfl

@[simp] theorem Reference.isOrdinary_endKind (r : Reference) : r.endKind.isOrdinary := by
  cases r <;> rfl

@[simp] theorem ObjectClass.isOrdinary_declarationKind (o : ObjectClass) :
    o.declarationKind.isOrdinary := by
  cases o <;> rfl

@[simp] theorem ObjectClass.isOrdinary_endKind (o : ObjectClass) : o.endKind.isOrdinary := by
  cases o <;> rfl

namespace InterfaceList

@[simp] theorem isOrdinary_openKind (l : InterfaceList) : l.openKind.isOrdinary := by
  cases l <;> rfl

@[simp] theorem isOrdinary_itemKind (l : InterfaceList) : l.itemKind.isOrdinary := by
  cases l <;> rfl

@[simp] theorem isOrdinary_typeKind (l : InterfaceList) :
    (l.typeKind?.getD l.itemKind).isOrdinary := by
  cases l <;> rfl

@[simp] theorem isOrdinary_delimiterKind (l : InterfaceList) : l.delimiterKind.isOrdinary := by
  cases l <;> rfl

@[simp] theorem isOrdinary_closeKind (l : InterfaceList) : l.closeKind.isOrdinary := by
  cases l <;> rfl

end InterfaceList

@[simp] theorem SimpleStatement.isOrdinary_startKind (s : SimpleStatement) :
    s.startKind.isOrdinary := by
  cases s <;> rfl

@[simp] theorem SimpleStatement.isOrdinary_endKind (s : SimpleStatement) :
    s.endKind.isOrdinary := by
  cases s <;> rfl

@[simp] theorem Assignment.isOrdinary_startKind (a : Assignment) : a.startKind.isOrdinary := by
  cases a <;> rfl

@[simp] theorem Assignment.isOrdinary_endKind (a : Assignment) : a.endKind.isOrdinary := by
  cases a <;> rfl

@[simp] theorem Expression.isOrdinary_kind (x : Expression) : x.kind.isOrdinary := by
  cases x <;> rfl

@[simp] theorem Construct.isOrdinary_endKind (c : Construct) : c.endKind.isOrdinary := by
  cases c <;> rfl

theorem Construct.isOrdinary_beginKind {c : Construct} {kind : BlockKind} {rule : StatementRule}
    (h : c.begin? = some (kind, rule)) : kind.isOrdinary := by
  cases c <;> cases h <;> rfl

/-- Blocks are of ordinary kinds, but for the first and the last one. -/
theorem State.Allows.isOrdinary {s : State} {t : Token} {move : Move} (h : s.Allows t move)
    (hs : s ≠ .documentStart) (hm : move ≠ .finish) : ∀ k ∈ move.kinds, k.isOrdinary := by
  cases h with
  | documentStart => exact absurd rfl hs
  | documentEnd => exact absurd rfl hm
  | declarationsBegin hb => simpa [Move.kinds] using Construct.isOrdinary_beginKind hb
  | _ => simp [Move.kinds] <;> decide

theorem State.Allows.not_isSkippable {s : State} {t : Token} {move : Move}
    (h : s.Allows t move) : ∀ k ∈ move.kinds, k.isSkippable = false := by
  intro k hk
  by_cases hs : s = .documentStart
  · subst hs
    cases h
    simp only [Move.kinds, Option.toList, List.nil_append, List.mem_singleton] at hk
    rw [hk]
    rfl
  by_cases hm : move = .finish
  · subst hm
    rw [List.mem_singleton.1 hk]
    rfl
  have := h.isOrdinary hs hm k hk
  simp only [BlockKind.isOrdinary, Bool.and_eq_true, Bool.not_eq_true'] at this
  exact this.1.1

/-! ## The parts of a completed block -/

namespace Completion

/-- The fragments of the block, with what stands between them. -/
def fragments (c : Completion) : List Fragment :=
  c.waiting ++ (c.rest.map fun (first, last) => ⟨first, last, none⟩).toList

/-- The fragments of the block, without what stands between them. -/
def pieces (c : Completion) : List Fragment := c.fragments.filter fun f => f.kind?.isNone

/-- The completion is that of a block with at least one part, between whose parts there is nothing
but blanks and comments. -/
structure IsWhole (c : Completion) : Prop where
  proper : c.kind.isSkippable = false
  skippable : ∀ f ∈ c.waiting, ∀ k, f.kind? = some k → k.isSkippable = true
  pieces_ne_nil : c.pieces ≠ []

theorem IsWhole.isSkippable {c : Completion} (h : c.IsWhole) {f : Fragment}
    (hf : f ∈ c.fragments) (split : Bool) :
    (!(f.block c.kind split).kind.isSkippable) = f.kind?.isNone := by
  unfold Fragment.block
  split
  · rename_i k hk
    have hw : f ∈ c.waiting := by
      rcases List.mem_append.1 hf with hf | hf
      · exact hf
      · obtain ⟨p, -, rfl⟩ := Option.map_eq_some_iff.1 (Option.mem_toList.1 hf)
        cases hk
    simp [h.skippable f hw k hk, hk]
  · rename_i hk
    simp [h.proper, hk]

/-- The parts of a block are its fragments. They are marked if there are several. -/
theorem IsWhole.parts_eq {c : Completion} (h : c.IsWhole) :
    c.parts = c.pieces.map fun f => ⟨c.kind, f.first, f.last, decide (1 < c.pieces.length)⟩ := by
  have hc : c.fragments.countP (fun f => f.kind?.isNone) = c.pieces.length :=
    List.countP_eq_length_filter ..
  have hb : c.blocks =
      c.fragments.map (Fragment.block c.kind (decide (1 < c.pieces.length))) := by
    rw [← hc]
    rfl
  have hp : c.fragments.filter ((fun b : Block => !b.kind.isSkippable) ∘
      Fragment.block c.kind (decide (1 < c.pieces.length))) = c.pieces :=
    List.filter_congr fun f hf => h.isSkippable hf _
  rw [parts, hb, List.filter_map, hp]
  apply List.map_congr_left
  intro f hf
  have := (List.mem_filter.1 hf).2
  unfold Fragment.block
  split <;> simp_all

theorem IsWhole.length_parts {c : Completion} (h : c.IsWhole) :
    c.parts.length = c.pieces.length := by
  rw [h.parts_eq, List.length_map]

theorem IsWhole.parts_ne_nil {c : Completion} (h : c.IsWhole) : c.parts ≠ [] := by
  rw [h.parts_eq]
  simpa using h.pieces_ne_nil

/-- What a part of a block looks like. -/
theorem IsWhole.of_mem_parts {c : Completion} (h : c.IsWhole) {b : Block} (hb : b ∈ c.parts) :
    b.kind = c.kind ∧ b.isFragment = decide (1 < c.parts.length) := by
  rw [h.length_parts]
  rw [h.parts_eq] at hb
  obtain ⟨f, -, rfl⟩ := List.mem_map.1 hb
  exact ⟨rfl, rfl⟩

end Completion

/-- A completion yields blocks of its kind, and blanks and comments. -/
theorem Completion.of_mem_blocks {c : Completion}
    (hs : ∀ f ∈ c.waiting, ∀ k, f.kind? = some k → k.isSkippable = true) {b : Block}
    (hb : b ∈ c.blocks) :
    b.kind = c.kind ∨ b.kind.isSkippable = true ∧ b.isFragment = false := by
  obtain ⟨f, hf, rfl⟩ := List.mem_map.1 hb
  unfold Fragment.block
  split
  · rename_i k hk
    rcases List.mem_append.1 hf with hf | hf
    · exact .inr ⟨hs f hf k hk, rfl⟩
    · obtain ⟨p, -, rfl⟩ := Option.map_eq_some_iff.1 (Option.mem_toList.1 hf)
      cases hk
  · exact .inl rfl

namespace Sheet

/-- The blocks so far, without blanks and comments. -/
def parts (s : Sheet) : List Block := s.blocks.toList.filter fun b => !b.kind.isSkippable

theorem blocks_close (s : Sheet) (kind : BlockKind) :
    (s.close kind).blocks.toList = s.blocks.toList ++ (s.closeCompletion kind).blocks := by
  simp [close, complete, closeCompletion, Completion.blocks]

theorem blocks_cutBefore (s : Sheet) (before : Option BlockKind) :
    (s.cutBefore before).blocks.toList =
      s.blocks.toList ++ (before.map s.cutCompletion).toList.flatMap Completion.blocks := by
  cases before with
  | none => simp [cutBefore]
  | some kind => simp [cutBefore, cut, complete, cutCompletion, Completion.blocks]

theorem closeCompletion_settle (s : Sheet) (kind : TokenKind) (closing : BlockKind) :
    (s.settle kind).closeCompletion closing = s.closeCompletion closing := by
  rw [closeCompletion, closeCompletion, index_settle]
  rfl

theorem blocks_taking (s : Sheet) (before closing : Option BlockKind) (kind : TokenKind)
    (next : Next) :
    (s.taking before closing kind).blocks.toList =
      s.blocks.toList ++
        (s.completedBy (.take before closing next)).flatMap Completion.blocks := by
  have hs : ((s.cutBefore before).settle kind).blocks = (s.cutBefore before).blocks := rfl
  cases closing with
  | none =>
    rw [taking, closeWith, hs, blocks_cutBefore]
    simp [completedBy]
  | some closing =>
    rw [taking, closeWith, blocks_close, hs, closeCompletion_settle, blocks_cutBefore]
    simp [completedBy]

theorem blocks_aside (s : Sheet) {kind : BlockKind} (hk : kind.isSkippable = true)
    (first last : Nat) : ∃ bs, (s.aside kind first last).blocks.toList = s.blocks.toList ++ bs ∧
      ∀ b ∈ bs, b.kind.isSkippable = true ∧ b.isFragment = false := by
  unfold aside
  split
  · exact ⟨[⟨kind, first, last, false⟩], by simp, by simp [hk]⟩
  · exact ⟨[], by simp, by simp⟩

theorem blocks_interrupt (s : Sheet) : ∃ bs, s.interrupt.blocks.toList = s.blocks.toList ++ bs ∧
      ∀ b ∈ bs, b.kind.isSkippable = true ∧ b.isFragment = false := by
  unfold interrupt
  split
  · split
    · exact s.blocks_aside rfl _ _
    · exact ⟨[], by simp, by simp⟩
  · exact ⟨[], by simp, by simp⟩

theorem kinds_completedBy (s : Sheet) (move : Move) :
    (s.completedBy move).map Completion.kind = move.kinds := by
  cases move with
  | take before closing => cases before <;> cases closing <;> rfl
  | pass before => cases before <;> rfl
  | finish => rfl

end Sheet

/-! ## What a completed block says -/

namespace Completion

/-- The tokens of the completed block, blanks and comments left out. -/
def content (c : Completion) (ts : List Token) : List Token :=
  significant (c.pieces.flatMap (·.tokensIn ts))

/-- The completed block lies within the first `n` tokens. -/
def Within (c : Completion) (n : Nat) : Prop := ∀ f ∈ c.pieces, f.last < n

theorem Within.mono {c : Completion} {m n : Nat} (h : c.Within m) (hn : m ≤ n) : c.Within n :=
  fun f hf => Nat.lt_of_lt_of_le (h f hf) hn

theorem Within.content_append {c : Completion} {ts : List Token} (h : c.Within ts.length)
    (us : List Token) : c.content (ts ++ us) = c.content ts := by
  rw [content, content, List.flatMap_def, List.flatMap_def, List.map_congr_left]
  intro f hf
  exact Fragment.tokensIn_append (h f hf) us

end Completion

namespace Sheet

variable {s : Sheet} {ts : List Token} {t : Token}

theorem pieces_cutCompletion (s : Sheet) (kind : BlockKind) :
    (s.cutCompletion kind).pieces =
      s.pieces ++ if s.start < s.index then [⟨s.start, s.index - 1, none⟩] else [] := by
  unfold Completion.pieces Completion.fragments cutCompletion pieces
  split <;> simp

theorem pieces_closeCompletion (s : Sheet) (kind : BlockKind) :
    (s.closeCompletion kind).pieces = s.pieces ++ [⟨s.start, s.index, none⟩] := by
  simp [Completion.pieces, Completion.fragments, closeCompletion, pieces]

/-- A block that ends before the current token says what has been read of it. -/
theorem content_cut (ht : s.tokens.toList = ts ++ [t]) (kind : BlockKind) :
    (s.cutCompletion kind).content ts = s.pending ts := by
  have hi := index_eq ht
  rw [Completion.content, pieces_cutCompletion, pending, List.flatMap_append]
  congr 2
  split
  · simp [Fragment.tokensIn, hi, show ts.length - 1 + 1 = ts.length by omega]
  · simp [List.drop_eq_nil_iff, ← hi, Nat.le_of_not_lt ‹_›]

/-- A block that ends with the current token says what has been read of it, and that token. -/
theorem Laid.content_close (h : s.Laid ts.length) (ht : s.tokens.toList = ts ++ [t])
    (kind : BlockKind) (t' : Token) :
    (s.closeCompletion kind).content (ts ++ [t']) = s.pending ts ++ significant [t'] := by
  have hi := index_eq ht
  rw [← h.pending_append, Completion.content, pieces_closeCompletion, pending,
    List.flatMap_append]
  congr 2
  have hl : (ts ++ [t']).take (ts.length + 1) = ts ++ [t'] := List.take_of_length_le (by simp)
  simp [Fragment.tokensIn, hi, hl]

theorem Laid.within_cut (h : s.Laid ts.length) (ht : s.tokens.toList = ts ++ [t])
    (kind : BlockKind) : (s.cutCompletion kind).Within ts.length := by
  intro f hf
  have hi := index_eq ht
  rw [pieces_cutCompletion] at hf
  rcases List.mem_append.1 hf with hf | hf
  · have := h.last_lt (List.mem_filter.1 hf).1
    have := h.start_le
    omega
  · split at hf
    · obtain rfl := List.mem_singleton.1 hf
      dsimp only
      omega
    · cases hf

theorem Laid.within_close (h : s.Laid ts.length) (ht : s.tokens.toList = ts ++ [t])
    (kind : BlockKind) : (s.closeCompletion kind).Within (ts.length + 1) := by
  intro f hf
  have hi := index_eq ht
  rw [pieces_closeCompletion] at hf
  rcases List.mem_append.1 hf with hf | hf
  · have := h.last_lt (List.mem_filter.1 hf).1
    have := h.start_le
    omega
  · obtain rfl := List.mem_singleton.1 hf
    dsimp only
    omega

theorem Laid.isWhole_cut {n : Nat} (h : s.Laid n) (ht : s.tokens.toList = ts ++ [t])
    (hp : s.pending ts ≠ []) {kind : BlockKind} (hk : kind.isSkippable = false) :
    (s.cutCompletion kind).IsWhole where
  proper := hk
  skippable := h.skippable
  pieces_ne_nil := by
    intro he
    apply hp
    rw [← content_cut ht kind, Completion.content, he]
    rfl

theorem Laid.isWhole_close {n : Nat} (h : s.Laid n) {kind : BlockKind}
    (hk : kind.isSkippable = false) : (s.closeCompletion kind).IsWhole where
  proper := hk
  skippable := h.skippable
  pieces_ne_nil := by
    rw [pieces_closeCompletion]
    simp

end Sheet

/-! ## Turns -/

namespace Machine

variable {m m' : Machine} {ts : List Token} {t : Token} {cs : List Completion} {v : Verdict}

/-- A turn puts the blocks of its completions on the sheet, or blanks and comments. -/
theorem Turn.blocks (hm : Turn m t cs m' v) :
    ∃ bs, m'.sheet.blocks.toList = m.sheet.blocks.toList ++ bs ∧
      (bs = cs.flatMap Completion.blocks ∨
        cs = [] ∧ ∀ b ∈ bs, b.kind.isSkippable = true ∧ b.isFragment = false) := by
  cases hm with
  | trivium _ _ hm =>
    obtain ⟨bs, hb, hs⟩ :=
      m.sheet.blocks_aside (m.sheet.isSkippable_triviaKind t.kind) m.sheet.start m.sheet.index
    rw [hm.sheet]
    exact ⟨bs, hb, .inr ⟨rfl, hs⟩⟩
  | interrupt _ _ _ hm =>
    obtain ⟨bs, hb, hs⟩ := m.sheet.blocks_interrupt
    rw [hm.sheet]
    exact ⟨bs, hb, .inr ⟨rfl, hs⟩⟩
  | resume _ _ hm | absorb _ _ _ hm | refuse _ _ _ hm =>
    rw [hm.sheet]
    exact ⟨[], by simp, .inl rfl⟩
  | take _ _ _ _ _ hm | mismatch _ _ _ _ hm =>
    rw [hm.sheet]
    exact ⟨_, m.sheet.blocks_taking _ _ _ _, .inl rfl⟩
  | pass _ _ _ _ hm =>
    rw [hm.sheet]
    exact ⟨_, m.sheet.blocks_cutBefore _, .inl rfl⟩
  | finish _ _ _ hm =>
    rw [hm.sheet]
    exact ⟨_, m.sheet.blocks_close _, .inl (by simp [Sheet.completedBy])⟩

/-- Up to blanks and comments, the blocks on the sheet are those of the completions. -/
theorem Turn.parts (hm : Turn m t cs m' v) :
    m'.sheet.parts = m.sheet.parts ++ cs.flatMap Completion.parts := by
  obtain ⟨bs, hb, hbs⟩ := hm.blocks
  rw [Sheet.parts, Sheet.parts, hb, List.filter_append]
  congr 1
  rcases hbs with rfl | ⟨rfl, hskip⟩
  · rw [List.filter_flatMap]
    rfl
  · rw [List.flatMap_nil, List.filter_eq_nil_iff]
    intro b hb
    simp [(hskip b hb).1]

theorem Sound.isWhole_completedBy (h : m.Sound ts) (ht : m.sheet.tokens.toList = ts ++ [t])
    {move : Move} (hs : m.control.state.Allows t move) :
    ∀ c ∈ m.sheet.completedBy move, c.IsWhole := by
  intro c hc
  have hk := hs.not_isSkippable
  have hlaid : m.sheet.Laid m.sheet.index := Sheet.index_eq ht ▸ h.laid
  have hbegun : m.control.state.posture = .begun → m.sheet.pending ts ≠ [] := fun hp => by
    have := h.stands
    rwa [hp] at this
  cases move with
  | take before closing next =>
    rcases List.mem_append.1 hc with hc | hc
    · obtain ⟨kind, rfl, rfl⟩ := Option.map_eq_some_iff.1 (Option.mem_toList.1 hc)
      exact hlaid.isWhole_cut ht (hbegun hs.begun_of_take) (hk _ (by simp [Move.kinds]))
    · obtain ⟨kind, rfl, rfl⟩ := Option.map_eq_some_iff.1 (Option.mem_toList.1 hc)
      exact (hlaid.cutBefore before).isWhole_close (hk _ (by simp [Move.kinds]))
  | pass before next =>
    obtain ⟨kind, rfl, rfl⟩ := Option.map_eq_some_iff.1 (Option.mem_toList.1 hc)
    exact hlaid.isWhole_cut ht (hbegun hs.begun_of_pass) (hk _ (by simp [Move.kinds]))
  | finish =>
    obtain rfl := List.mem_singleton.1 hc
    exact hlaid.isWhole_close rfl

/-- Every completion of a sound machine is that of a block with at least one part. -/
theorem Turn.isWhole (hm : Turn m t cs m' v) (h : m.Sound ts)
    (ht : m.sheet.tokens.toList = ts ++ [t]) : ∀ c ∈ cs, c.IsWhole := by
  cases hm with
  | take _ _ hr | mismatch _ _ hr | pass _ _ hr | finish _ _ hr =>
    exact h.isWhole_completedBy ht (State.allows_of_react hr)
  | _ => simp

/-- The blocks on the sheet are those that have been completed, blanks and comments aside. -/
structure Records (m : Machine) (cs : List Completion) : Prop where
  parts : m.sheet.parts = cs.flatMap Completion.parts
  isWhole : ∀ c ∈ cs, c.IsWhole
  /-- Blanks and comments are no fragments. -/
  not_isFragment : ∀ b ∈ m.sheet.blocks.toList, b.kind.isSkippable = true → b.isFragment = false

theorem Records.turn (hr : m.Records cs) (h : m.Sound ts) (ht : m.sheet.tokens.toList = ts ++ [t])
    {ds : List Completion} (hm : Turn m t ds m' v) : m'.Records (cs ++ ds) where
  parts := by rw [hm.parts, hr.parts, List.flatMap_append]
  isWhole c hc := by
    rcases List.mem_append.1 hc with hc | hc
    · exact hr.isWhole c hc
    · exact hm.isWhole h ht c hc
  not_isFragment b hb hk := by
    obtain ⟨bs, hbs, hor⟩ := hm.blocks
    rw [hbs] at hb
    rcases List.mem_append.1 hb with hb | hb
    · exact hr.not_isFragment b hb hk
    rcases hor with rfl | ⟨-, hskip⟩
    · obtain ⟨c, hc, hb⟩ := List.mem_flatMap.1 hb
      have hwhole := hm.isWhole h ht c hc
      rcases Completion.of_mem_blocks hwhole.skippable hb with hkind | ⟨-, hf⟩
      · rw [hkind, hwhole.proper] at hk
        cases hk
      · exact hf
    · exact (hskip b hb).2

theorem kept_records : Kept fun m _ cs => m.Records cs where
  push _ h := ⟨h.parts, h.isWhole, h.not_isFragment⟩
  handedOn h ht _ hm hp := hp.turn h ht hm
  taken h ht _ hm _ hp := hp.turn h ht hm

end Machine

/-- The blocks of a document that are neither blank nor comments. -/
def Document.proper (d : Document) : List Block :=
  d.blocks.toList.filter fun b => !b.kind.isSkippable

/-- **The blocks of a document** are the parts of the logical blocks, in order, but for blanks and
comments. -/
theorem outline_parts {xs : List (Except LexError Token)} {options : Options} {d : Document}
    (h : outline xs options = .ok d) :
    d.proper = (logicalBlocks xs options).flatMap Completion.parts ∧
    (∀ c ∈ logicalBlocks xs options, c.IsWhole) ∧
    ∀ b ∈ d.blocks.toList, b.kind.isSkippable = true → b.isFragment = false := by
  obtain ⟨m, hrun, rfl⟩ := outline_ok h
  have hstart : ({ options } : Machine).Records [] := ⟨rfl, by simp, by rintro _ ⟨⟩⟩
  obtain ⟨_, _, _, -, -, -, -, -, hrecords⟩ :=
    Machine.run_induction Machine.kept_records (Machine.sound_start options) rfl rfl hstart hrun
  exact ⟨hrecords.parts, hrecords.isWhole, hrecords.not_isFragment⟩

end VhdlOutline
