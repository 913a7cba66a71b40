import VhdlOutline.Proofs.Outline.Points

/-!
# The shape of blocks

Line breaks, indentation and comments stand alone, each in a block of its own. Every other block has
a token that is neither blank nor a comment, and no blanks but spaces (`Block.IsShaped`). A block
comes by this shape on different ways: spaces join it, all else interrupts it, and what has been
read of it so far waits as a fragment whose kind is not known yet. `Sheet.Shaped` is what holds of
blocks, fragments and the block under construction alike, and each operation of a sheet keeps it.

The blocks of one completion stand together (`Interleaved`). `blocks_shaped` puts both together, for
every point of a run.
-/

namespace VhdlOutline

/-! ## Shapes -/

/-- The kinds of the block that a line break, an indentation or a comment forms alone. -/
def TokenKind.formed : TokenKind → List BlockKind
  | .linebreak => [.linebreak, .emptyLine]
  | .indentation => [.indentation]
  | .singleLineComment => [.singleLineComment]
  | .multiLineComment => [.multiLineComment]
  | _ => []

/-- The tokens of a block. -/
def Block.tokensIn (b : Block) (ts : List Token) : List Token := (ts.take (b.last + 1)).drop b.first

/-- What a block looks like, among the tokens `ts`. -/
structure Block.IsShaped (b : Block) (ts : List Token) : Prop where
  within : b.first ≤ b.last ∧ b.last < ts.length
  /-- A line break, an indentation or a comment is a block of its own, of the kind it forms. -/
  alone : ∀ u ∈ b.tokensIn ts, u.kind.isTrivia = true → u.kind ≠ .space →
    b.tokensIn ts = [u] ∧ b.kind ∈ u.kind.formed
  whitespace : b.kind = .whitespace → ∀ u ∈ b.tokensIn ts, u.kind = .space
  proper : b.kind.isSkippable = false →
    significant (b.tokensIn ts) ≠ [] ∧ ∀ u ∈ b.tokensIn ts, u.kind.isTrivia = true → u.kind = .space

variable {ts : List Token} {t : Token}

theorem Block.IsShaped.append {b : Block} (h : b.IsShaped ts) (us : List Token) :
    b.IsShaped (ts ++ us) := by
  have ht : b.tokensIn (ts ++ us) = b.tokensIn ts := by
    rw [tokensIn, tokensIn, List.take_append_of_le_length h.within.2]
  exact {
    within := ⟨h.within.1, Nat.lt_of_lt_of_le h.within.2 (by simp)⟩
    alone := ht ▸ h.alone
    whitespace := ht ▸ h.whitespace
    proper := ht ▸ h.proper }

/-- The tokens are spaces, or neither blank nor comments. -/
def SpacesOnly (us : List Token) : Prop := ∀ u ∈ us, u.kind.isTrivia = true → u.kind = .space

theorem significant_drop_concat {n : Nat} (hn : n ≤ ts.length) (ht : t.kind.isTrivia = false) :
    significant ((ts ++ [t]).drop n) ≠ [] := by
  rw [List.drop_append_of_le_length hn, significant_append, significant_singleton ht]
  simp

/-- A block of an ordinary kind. -/
theorem Block.isShaped_proper {b : Block} {us : List Token} (hu : b.tokensIn ts = us)
    (hw : b.first ≤ b.last ∧ b.last < ts.length) (hk : b.kind.isSkippable = false)
    (hs : significant us ≠ []) (hr : SpacesOnly us) : b.IsShaped ts where
  within := hw
  alone u hm ht hne := absurd (hr u (hu ▸ hm) ht) hne
  whitespace h := by rw [h] at hk; cases hk
  proper _ := by rw [hu]; exact ⟨hs, hr⟩

/-- A block of spaces. -/
theorem Block.isShaped_whitespace {b : Block} {us : List Token} (hu : b.tokensIn ts = us)
    (hw : b.first ≤ b.last ∧ b.last < ts.length) (hk : b.kind = .whitespace)
    (hr : ∀ u ∈ us, u.kind = .space) : b.IsShaped ts where
  within := hw
  alone u hm _ hne := absurd (hr u (hu ▸ hm)) hne
  whitespace _ := by rw [hu]; exact hr
  proper h := by rw [hk] at h; cases h

theorem Sheet.triviaKind_mem_formed (s : Sheet) {kind : TokenKind} (hk : kind.isTrivia = true)
    (hne : kind ≠ .space) : s.triviaKind kind ∈ kind.formed := by
  cases kind <;> simp_all [triviaKind, TokenKind.formed, TokenKind.isTrivia]
  tauto

theorem Sheet.eq_space_of_triviaKind {s : Sheet} {kind : TokenKind} (hk : kind.isTrivia = true)
    (h : s.triviaKind kind = .whitespace) : kind = .space := by
  cases kind <;> simp_all [triviaKind, TokenKind.isTrivia]
  split at h <;> cases h

/-- A block that a single blank or comment forms. -/
theorem Block.isShaped_trivium {b : Block} (hu : b.tokensIn ts = [t])
    (hw : b.first ≤ b.last ∧ b.last < ts.length) (ht : t.kind.isTrivia = true) {s : Sheet}
    (hk : b.kind = s.triviaKind t.kind) : b.IsShaped ts where
  within := hw
  alone u hm _ hne := by
    rw [hu] at hm ⊢
    obtain rfl := List.mem_singleton.1 hm
    exact ⟨rfl, hk ▸ s.triviaKind_mem_formed ht hne⟩
  whitespace h u hm := by
    rw [hu] at hm
    obtain rfl := List.mem_singleton.1 hm
    exact Sheet.eq_space_of_triviaKind ht (hk.symm.trans h)
  proper h := by rw [hk, s.isSkippable_triviaKind] at h; cases h

/-- What a fragment looks like, whatever the kind of its block will be. -/
def Fragment.IsShaped (f : Fragment) (ts : List Token) : Prop :=
  ∀ kind : BlockKind, kind.isSkippable = false → ∀ split, (f.block kind split).IsShaped ts

namespace Sheet

/-- Blocks and fragments are shaped, and what has been read of the block under construction has no
blanks but spaces. -/
structure Shaped (s : Sheet) (ts : List Token) : Prop where
  blocks : ∀ b ∈ s.blocks.toList, b.IsShaped ts
  waiting : ∀ f ∈ s.waiting, f.IsShaped ts
  rest : SpacesOnly (ts.drop s.start)

variable {s : Sheet}

/-- What is shaped stays so when more tokens are read. -/
theorem Shaped.old (h : s.Shaped ts) (us : List Token) :
    (∀ b ∈ s.blocks.toList, b.IsShaped (ts ++ us)) ∧ ∀ f ∈ s.waiting, f.IsShaped (ts ++ us) :=
  ⟨fun b hb => (h.blocks b hb).append us,
    fun f hf kind hk split => (h.waiting f hf kind hk split).append us⟩

/-- A token joins the block under construction. -/
theorem Shaped.append (h : s.Shaped ts) (hs : s.start ≤ ts.length)
    (ht : t.kind.isTrivia = true → t.kind = .space) : s.Shaped (ts ++ [t]) where
  blocks := (h.old [t]).1
  waiting := (h.old [t]).2
  rest u hu := by
    rw [List.drop_append_of_le_length hs] at hu
    rcases List.mem_append.1 hu with hu | hu
    · exact h.rest u hu
    · rwa [List.mem_singleton.1 hu]

/-- A block or fragment of blanks and comments. -/
theorem shaped_aside (h : (∀ b ∈ s.blocks.toList, b.IsShaped ts) ∧ ∀ f ∈ s.waiting, f.IsShaped ts)
    {kind : BlockKind} {first last start : Nat} (hb : Block.IsShaped ⟨kind, first, last, false⟩ ts)
    (hr : SpacesOnly (ts.drop start)) : { s.aside kind first last with start }.Shaped ts := by
  unfold Sheet.aside
  split
  · refine ⟨fun b hm => ?_, h.2, hr⟩
    rw [Chain.toList_push, List.mem_append, List.mem_singleton] at hm
    rcases hm with hm | rfl
    · exact h.1 b hm
    · exact hb
  · refine ⟨h.1, fun f hm => ?_, hr⟩
    rcases List.mem_append.1 hm with hm | hm
    · exact h.2 f hm
    · rw [List.mem_singleton.1 hm]
      exact fun _ _ _ => hb

theorem Shaped.closeAside (h : s.Shaped ts) (ht : s.tokens.toList = ts ++ [t])
    (hs : s.start = ts.length) (hk : t.kind.isTrivia = true) :
    (s.closeAside (s.triviaKind t.kind)).Shaped (ts ++ [t]) := by
  have hi := index_eq ht
  refine shaped_aside (h.old [t]) (Block.isShaped_trivium (t := t) (s := s) ?_ ?_ hk rfl) ?_
  · simp [Block.tokensIn, hi, hs, List.take_of_length_le]
  · simp [hi, hs]
  · simp [SpacesOnly, hi]

/-- The tokens of the block under construction before the current one. -/
theorem tokensIn_rest {first last : Nat} {kind : BlockKind} {split : Bool}
    (hl : last + 1 = ts.length) :
    (Block.mk kind first last split).tokensIn ts = ts.drop first := by
  rw [Block.tokensIn, hl, List.take_length]

theorem Shaped.interrupt (h : s.Shaped ts) (ht : s.tokens.toList = ts ++ [t]) :
    s.interrupt.Shaped ts := by
  have hi := index_eq ht
  have hnone : SpacesOnly (ts.drop s.index) := by simp [SpacesOnly, hi]
  unfold Sheet.interrupt
  split
  · rename_i hlt
    have hl : s.index - 1 + 1 = ts.length := by omega
    have hw : s.start ≤ s.index - 1 ∧ s.index - 1 < ts.length := by omega
    rw [range_start ht hlt]
    split
    · rename_i hall
      refine shaped_aside ⟨h.blocks, h.waiting⟩ ?_ hnone
      refine Block.isShaped_whitespace (tokensIn_rest hl) hw rfl fun u hu => ?_
      simpa using List.all_eq_true.1 hall u hu
    · rename_i hall
      refine ⟨h.blocks, fun f hm => ?_, hnone⟩
      rcases List.mem_append.1 hm with hm | hm
      · exact h.waiting f hm
      rw [List.mem_singleton.1 hm]
      intro kind hk split
      refine Block.isShaped_proper (tokensIn_rest hl) hw hk (fun hs => hall ?_) h.rest
      -- Whatever is no space is significant here.
      rw [List.all_eq_true]
      intro u hu
      have hut : u.kind.isTrivia = true := by
        have := List.filter_eq_nil_iff.1 hs u hu
        simpa [Token.isSignificant] using this
      simpa using h.rest u hu hut
  · exact h

/-- The blocks of a completion. -/
theorem Shaped.complete (h : s.Shaped ts) {kind : BlockKind} (hk : kind.isSkippable = false)
    {rest : Option (Nat × Nat)} {start : Nat}
    (hb : ∀ p ∈ rest, ∀ split, Block.IsShaped ⟨kind, p.1, p.2, split⟩ ts)
    (hr : SpacesOnly (ts.drop start)) : { s.complete kind rest with start }.Shaped ts where
  blocks b hm := by
    simp only [Sheet.complete, Chain.toList_append, List.mem_append] at hm
    rcases hm with hm | hm
    · exact h.blocks b hm
    obtain ⟨f, hf, rfl⟩ := List.mem_map.1 hm
    rcases List.mem_append.1 hf with hf | hf
    · exact h.waiting f hf kind hk _
    · obtain ⟨p, hp, rfl⟩ := Option.map_eq_some_iff.1 (Option.mem_toList.1 hf)
      exact hb p hp _
  waiting := by simp [Sheet.complete]
  rest := hr

theorem Shaped.cut (h : s.Shaped ts) (ht : s.tokens.toList = ts ++ [t]) {kind : BlockKind}
    (hk : kind.isSkippable = false)
    (hb : s.start < s.index → significant (ts.drop s.start) ≠ []) : (s.cut kind).Shaped ts := by
  have hi := index_eq ht
  refine h.complete hk ?_ (by simp [SpacesOnly, hi])
  rintro p hp split
  split at hp
  · rename_i hlt
    obtain rfl := Option.some.inj hp
    have hw : s.start ≤ s.index - 1 ∧ s.index - 1 < ts.length := by omega
    exact Block.isShaped_proper (tokensIn_rest (by omega)) hw hk (hb hlt) h.rest
  · cases hp

theorem Shaped.close (h : s.Shaped ts) (hs : s.start ≤ ts.length)
    (ht : s.tokens.toList = ts ++ [t]) {kind : BlockKind} (hk : kind.isSkippable = false)
    (htr : t.kind.isTrivia = false) : (s.close kind).Shaped (ts ++ [t]) := by
  have hi := index_eq ht
  have happ := h.append hs fun h => absurd (h.symm.trans htr) (by simp)
  refine happ.complete hk ?_ (by simp [SpacesOnly, hi])
  rintro p hp split
  obtain rfl := Option.some.inj hp
  have hl : s.index + 1 = (ts ++ [t]).length := by simp [hi]
  exact Block.isShaped_proper (tokensIn_rest hl) (by simp [hi, hs]) hk
    (significant_drop_concat hs htr) happ.rest

end Sheet

/-! ## Runs -/

namespace Machine

open State

variable {m m' : Machine} {cs ds : List Completion} {v : Verdict}

/-- Where part of the block under construction waits, more of it has been read since, unless blanks
and comments still interrupt it, or it has just been resumed with the current token. -/
def Underway (m : Machine) (ts : List Token) : Prop :=
  m.sheet.pieces ≠ [] → m.control.isAside = true ∨ significant (ts.drop m.sheet.start) ≠ [] ∨
    m.sheet.start = ts.length ∧ significant (m.sheet.tokens.toList.drop ts.length) ≠ []

/-- What holds of a machine that has read the tokens `ts`. -/
structure Shaped (m : Machine) (ts : List Token) : Prop where
  sheet : m.sheet.Shaped ts
  underway : m.Underway ts

theorem shaped_start (options : Options) : ({ options } : Machine).Shaped [] where
  sheet := ⟨by rintro _ ⟨⟩, by rintro _ ⟨⟩, by rintro _ ⟨⟩⟩
  underway h := absurd rfl h

theorem Underway.of_waiting (h : m.sheet.waiting = []) : m.Underway ts := by
  intro hp
  simp [Sheet.pieces, h] at hp

/-- Where a block ends before the current token, its last fragment says something. -/
theorem Shaped.rest_ne_nil (h : m.Shaped ts) (hs : m.Sound ts) (ha : m.control.isAside = false)
    (hb : m.control.state.posture = .begun) (hi : m.sheet.index = ts.length)
    (hlt : m.sheet.start < m.sheet.index) : significant (ts.drop m.sheet.start) ≠ [] := by
  by_cases hp : m.sheet.pieces = []
  · have hst := hs.stands
    rw [hb] at hst
    have : m.sheet.pending ts = significant (ts.drop m.sheet.start) := by simp [Sheet.pending, hp]
    exact this ▸ hst
  · rcases h.underway hp with hu | hu | ⟨hu, -⟩
    · rw [ha] at hu
      cases hu
    · exact hu
    · omega

theorem Shaped.cutBefore (h : m.Shaped ts) (hs : m.Sound ts)
    (ht : m.sheet.tokens.toList = ts ++ [t]) (ha : m.control.isAside = false)
    {before : Option BlockKind}
    (hb : ∀ kind ∈ before, kind.isSkippable = false ∧ m.control.state.posture = .begun) :
    (m.sheet.cutBefore before).Shaped ts := by
  cases before with
  | none => exact h.sheet
  | some kind =>
    obtain ⟨hk, hbegun⟩ := hb kind rfl
    exact h.sheet.cut ht hk (h.rest_ne_nil hs ha hbegun (Sheet.index_eq ht))

theorem Sound.start_cutBefore_le (hs : m.Sound ts) (ht : m.sheet.tokens.toList = ts ++ [t])
    (before : Option BlockKind) : (m.sheet.cutBefore before).start ≤ ts.length := by
  have hlaid : m.sheet.Laid m.sheet.index := Sheet.index_eq ht ▸ hs.laid
  exact Sheet.index_eq ht ▸ (hlaid.cutBefore before).start_le

/-- A token that a state takes. -/
theorem Shaped.taking (h : m.Shaped ts) (hs : m.Sound ts)
    (ht : m.sheet.tokens.toList = ts ++ [t]) (ha : m.control.isAside = false)
    {before closing : Option BlockKind} {next : Next}
    (hallows : m.control.state.Allows t (.take before closing next)) {kind : TokenKind}
    (hk : kind.isTrivia = false) :
    (m.sheet.taking before closing kind).Shaped (ts ++ [{ t with kind }]) := by
  have hkinds := hallows.not_isSkippable
  have hcut : (m.sheet.cutBefore before).Shaped ts := by
    refine h.cutBefore hs ht ha fun b hb => ?_
    obtain rfl := Option.mem_def.1 hb
    exact ⟨hkinds b (by simp [Move.kinds]), hallows.begun_of_take⟩
  have hle := hs.start_cutBefore_le ht before
  have hset : ((m.sheet.cutBefore before).settle kind).Shaped ts := ⟨hcut.blocks, hcut.waiting,
    hcut.rest⟩
  cases closing with
  | none => exact hset.append hle fun h => absurd (h.symm.trans hk) (by simp)
  | some closing =>
    refine hset.close hle ?_ (hkinds closing (by simp [Move.kinds])) hk
    exact Sheet.toList_tokens_taking ht before none kind

theorem Shaped.handedOn (h : m.Shaped ts) (hs : m.Sound ts) (ht : m.sheet.tokens.toList = ts ++ [t])
    (hm : Turn m t ds m' .handedOn) : m'.Shaped ts := by
  cases hm with
  | resume htr ha hm =>
    refine ⟨hm.sheet ▸ h.sheet, fun _ => .inr (.inr ?_)⟩
    rw [hm.sheet, ht, List.drop_left, significant_singleton htr]
    exact ⟨(hs.aside ha).1, by simp⟩
  | interrupt _ _ _ hm =>
    refine ⟨hm.sheet ▸ h.sheet.interrupt ht, fun _ => .inl ?_⟩
    rw [hm.control]
  | @pass _ before next _ _ c ha _ hr hc hm =>
    have hallows := allows_of_react hr
    refine ⟨hm.sheet ▸ h.cutBefore hs ht ha fun k hk => ?_, ?_⟩
    · obtain rfl := Option.mem_def.1 hk
      exact ⟨hallows.not_isSkippable k (by simp [Move.kinds]), hallows.begun_of_pass⟩
    cases before with
    | none =>
      intro hp
      have hsheet : m'.sheet = m.sheet := hm.sheet
      rw [hsheet] at hp ⊢
      exact (h.underway hp).imp_left fun h => absurd (h.symm.trans ha) (by simp)
    | some kind => exact .of_waiting (by rw [hm.sheet]; rfl)

theorem Shaped.taken {t' : Token} (h : m.Shaped ts) (hs : m.Sound ts)
    (ht : m.sheet.tokens.toList = ts ++ [t]) (hm : Turn m t ds m' .taken)
    (ht' : m'.sheet.tokens.toList = ts ++ [t']) : m'.Shaped (ts ++ [t']) := by
  cases hm with
  | trivium htr hor hm =>
    have htok : m.sheet.tokens.toList = ts ++ [t'] := by
      rw [← ht', hm.sheet, Sheet.tokens_closeAside]
    obtain rfl : t = t' := by simpa using ht.symm.trans htok
    have hclean : m.control.state.trivia = .apart → m.sheet.IsClean ts.length := fun hap => by
      have hst := hs.stands
      rwa [(posture_eq_clean_iff _).2 hap] at hst
    refine ⟨?_, ?_⟩
    · rw [hm.sheet]
      refine h.sheet.closeAside ht ?_ htr
      exact hor.elim (fun ha => (hs.aside ha).1) fun hap => (hclean hap).2
    · intro hp
      rcases hor with ha | hap
      · exact .inl (by rw [hm.control, ha])
      · refine absurd ?_ hp
        rw [hm.sheet]
        show (m.sheet.aside _ _ _).pieces = []
        rw [Sheet.pieces_aside, Sheet.pieces, (hclean hap).1]
        rfl
  | absorb htr ha _ hm hk =>
    have htok : m.sheet.tokens.toList = ts ++ [t'] := by rw [← ht', hm.sheet]
    obtain rfl : t = t' := by simpa using ht.symm.trans htok
    have hsheet : m'.sheet = m.sheet := hm.sheet
    refine ⟨hsheet ▸ h.sheet.append hs.laid.start_le fun _ => hk, fun hp => .inr (.inl ?_)⟩
    rw [hsheet] at hp ⊢
    rcases h.underway hp with hu | hu | ⟨-, hu⟩
    · rw [ha] at hu
      cases hu
    · rw [List.drop_append_of_le_length hs.laid.start_le, significant_append]
      simp [hu]
    · -- A space is not what the block has been resumed with.
      rw [ht, List.drop_left, significant_trivium htr] at hu
      exact absurd rfl hu
  | @take _ before closing next _ _ c ha htr hr hx hc hm =>
    have hallows := allows_of_react hr
    have hset := Token.settles_reading m.control.state t
    have hk := hset.isTrivia.trans (hallows.not_isTrivia htr)
    have htok := Sheet.toList_tokens_taking ht before closing (m.control.state.reading t)
    rw [hm.sheet, htok] at ht'
    obtain rfl := List.singleton_inj.1 (List.append_cancel_left ht')
    refine ⟨hm.sheet ▸ h.taking hs ht ha hallows hk, ?_⟩
    cases closing with
    | some closing => exact .of_waiting (by rw [hm.sheet]; rfl)
    | none =>
      refine fun _ => .inr (.inl ?_)
      rw [hm.sheet]
      exact significant_drop_concat (hs.start_cutBefore_le ht before) hk
  | finish ha htr hr hm =>
    have hk := (allows_of_react hr).eq_documentRegion_of_finish.2
    have htok : m.sheet.tokens.toList = ts ++ [t'] := by rw [← ht', hm.sheet]; rfl
    obtain rfl : t = t' := by simpa using ht.symm.trans htok
    refine ⟨hm.sheet ▸ h.sheet.close hs.laid.start_le ht rfl (by rw [hk]; rfl), ?_⟩
    exact .of_waiting (by rw [hm.sheet]; rfl)

theorem kept_shaped : Kept fun m ts _ => m.Shaped ts where
  push {m ts _} t h := by
    refine ⟨⟨h.sheet.blocks, h.sheet.waiting, h.sheet.rest⟩, fun hp => ?_⟩
    refine (h.underway hp).imp_right fun hu => hu.imp_right fun ⟨hs, hne⟩ => ⟨hs, ?_⟩
    simp only [Sheet.push, Chain.toList_push, List.drop_append, significant_append]
    simp [hne]
  handedOn hs ht _ hm h := h.handedOn hs ht hm
  taken hs ht _ hm ht' h := h.taken hs ht hm ht'

/-- A turn that fails still leaves blocks in shape. -/
theorem Turn.shaped_of_failed {e : OutlineError} (hm : Turn m t ds m' (.failed e))
    (h : m.Shaped ts) (hs : m.Sound ts) (ht : m.sheet.tokens.toList = ts ++ [t]) :
    ∃ t', m'.sheet.tokens.toList = ts ++ [t'] ∧
      ∀ b ∈ m'.sheet.blocks.toList, b.IsShaped (ts ++ [t']) := by
  cases hm with
  | mismatch ha htr hr _ hm =>
    have hallows := allows_of_react hr
    have hk := (Token.settles_reading m.control.state t).isTrivia.trans (hallows.not_isTrivia htr)
    rw [hm.sheet]
    exact ⟨_, Sheet.toList_tokens_taking ht _ _ _, (h.taking hs ht ha hallows hk).blocks⟩
  | refuse _ _ _ hm =>
    rw [hm.sheet]
    exact ⟨t, ht, (h.sheet.old [t]).1⟩

/-- The blocks at any point of a run are shaped. -/
theorem Passes.isShaped {options : Options} {pre : List Token} {st : Standing}
    (h : Passes options pre m st cs) :
    ∀ b ∈ m.sheet.blocks.toList, b.IsShaped m.sheet.tokens.toList := by
  cases h.holds kept_shaped (shaped_start options) with
  | between _ ht _ hp =>
    rw [ht]
    exact hp.sheet.blocks
  | facing _ ht _ _ _ hp =>
    rw [ht]
    exact (hp.sheet.old _).1
  | broken _ _ ht hs _ hp hm =>
    obtain ⟨t', ht', hb⟩ := hm.shaped_of_failed hp hs ht
    rwa [ht']

/-! ## The blocks of a completion -/

/-- The blocks are those of the completions, in order and those of each completion together, and
blanks and comments between completions. -/
inductive Interleaved : List Completion → List Block → Prop
  | nil : Interleaved [] []
  | completion {cs : List Completion} {bs : List Block} (c : Completion) (h : Interleaved cs bs) :
      Interleaved (cs ++ [c]) (bs ++ c.blocks)
  | blank {cs : List Completion} {bs : List Block} {b : Block} (h : Interleaved cs bs)
      (hk : b.kind.isSkippable = true) (hf : b.isFragment = false) : Interleaved cs (bs ++ [b])

theorem Interleaved.append {bs : List Block} (h : Interleaved cs bs) (ds : List Completion) :
    Interleaved (cs ++ ds) (bs ++ ds.flatMap Completion.blocks) := by
  induction ds generalizing cs bs with
  | nil => simpa using h
  | cons d ds ih => simpa [List.append_assoc] using ih (h.completion d)

theorem Interleaved.append_blanks {bs : List Block} (h : Interleaved cs bs) {as : List Block}
    (ha : ∀ b ∈ as, b.kind.isSkippable = true ∧ b.isFragment = false) :
    Interleaved cs (bs ++ as) := by
  induction as generalizing bs with
  | nil => simpa using h
  | cons a as ih =>
    obtain ⟨hk, hf⟩ := ha a (List.mem_cons_self ..)
    simpa using ih (h.blank hk hf) fun b hb => ha b (List.mem_cons_of_mem _ hb)

theorem Turn.interleaved (hm : Turn m t ds m' v) (h : Interleaved cs m.sheet.blocks.toList) :
    Interleaved (cs ++ ds) m'.sheet.blocks.toList := by
  obtain ⟨bs, hb, rfl | ⟨rfl, hskip⟩⟩ := hm.blocks
  · rw [hb]
    exact h.append ds
  · rw [hb, List.append_nil]
    exact h.append_blanks hskip

/-- Blocks are interleaved, and each completion is that of a block with at least one part. -/
theorem kept_interleaved :
    Kept fun m _ cs => Interleaved cs m.sheet.blocks.toList ∧ ∀ c ∈ cs, c.IsWhole where
  push _ h := h
  handedOn hs ht _ hm h := ⟨hm.interleaved h.1, fun c hc =>
    (List.mem_append.1 hc).elim (h.2 c) (hm.isWhole hs ht c)⟩
  taken hs ht _ hm _ h := ⟨hm.interleaved h.1, fun c hc =>
    (List.mem_append.1 hc).elim (h.2 c) (hm.isWhole hs ht c)⟩

theorem Passes.interleaved {options : Options} {pre : List Token} {st : Standing}
    (h : Passes options pre m st cs) :
    Interleaved cs m.sheet.blocks.toList ∧ ∀ c ∈ cs, c.IsWhole := by
  cases h.holds kept_interleaved ⟨.nil, by simp⟩ with
  | between _ _ _ hp | facing _ _ _ _ _ hp => exact hp
  | broken _ _ ht hs _ hp hm hc =>
    subst hc
    exact ⟨hm.interleaved hp.1, fun c hc =>
      (List.mem_append.1 hc).elim (hp.2 c) (hm.isWhole hs ht c)⟩

/-- **The shape of blocks.** A parser is at a point of a run, and at every point of every run each
block has its shape. The blocks of a completion stand together: parts of its kind, which are marked
just if there are several, and unmarked blanks and comments between them. All other blocks are
unmarked blanks and comments. -/
theorem blocks_shaped (options : Options) :
    (∀ input n, ∃ pre st cs, pre.map .ok <+: input ∧
      Passes options pre ((Parser.start input options).calls n).2.machine st cs) ∧
    ∀ pre m st cs, Passes options pre m st cs →
      (∀ b ∈ m.sheet.blocks.toList, b.IsShaped m.sheet.tokens.toList) ∧
      Interleaved cs m.sheet.blocks.toList ∧
      ∀ c ∈ cs, c.kind.isSkippable = false ∧ c.parts ≠ [] ∧ ∀ b ∈ c.blocks,
        b.kind = c.kind ∧ b.isFragment = decide (2 ≤ c.parts.length) ∨
        b.kind.isSkippable = true ∧ b.isFragment = false := by
  refine ⟨fun input n => Parser.passes_calls input options n, fun pre m st cs h => ?_⟩
  obtain ⟨hinter, hwhole⟩ := h.interleaved
  refine ⟨h.isShaped, hinter, fun c hc => ?_⟩
  have hw := hwhole c hc
  refine ⟨hw.proper, hw.parts_ne_nil, fun b hb => ?_⟩
  rcases Completion.of_mem_blocks hw.skippable hb with hk | hskip
  · refine .inl (hw.of_mem_parts (List.mem_filter.2 ⟨hb, ?_⟩))
    rw [hk, hw.proper]
    rfl
  · exact .inr hskip

/-- The shape of blocks where a line break and a comment interrupt one. -/
theorem blocks_shaped_interrupted :
    ∃ pre m st cs, Passes {} pre m st cs ∧
      (cs.any fun c => decide (c.parts.length = 3)) = true ∧
      ∀ b ∈ m.sheet.blocks.toList, b.IsShaped m.sheet.tokens.toList := by
  obtain ⟨us, st, -, h⟩ := @passes_run {} _ _ (tokenize "entity\ne -- name\nis end;") rfl
  exact ⟨us, _, st, _, h, by decide +kernel, ((blocks_shaped {}).2 us _ st _ h).1⟩

end Machine

end VhdlOutline
