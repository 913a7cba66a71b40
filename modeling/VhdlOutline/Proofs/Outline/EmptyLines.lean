import VhdlOutline.Proofs.Outline.Shapes

/-!
# Empty lines

A line break right after another one is an empty line. The kind of its block is settled when the
token is read, from the kind last recorded, and at that time the block before it may still wait
without a kind. `Sheet.KnowsBreaks` is why this goes well: what a sheet records is the kind of the
last block or fragment, if it has one, and a fragment that has none yet gets one that is no line
break.

* `Machine.kept_knowsBreaks`: every turn keeps this.
* `Machine.emptyLines_exact`: at every point of a run, the empty lines among the blocks are the line
  breaks right behind a line break or an empty line.
-/

namespace VhdlOutline

/-! ## Kinds behind each other -/

/-- Line breaks, also those that end an empty line. -/
def BlockKind.isBreak : BlockKind → Bool
  | .linebreak | .emptyLine => true
  | _ => false

/-- The kind of a line break behind a block of the given kind, if there is one and it has one. -/
def breakKind (previous : Option BlockKind) : BlockKind :=
  if previous.any BlockKind.isBreak then .emptyLine else .linebreak

/-- If the second is a line break, it is of the right kind behind the first. -/
def BreaksAfter (previous next : Option BlockKind) : Prop :=
  ∀ k ∈ next, k.isBreak = true → k = breakKind previous

theorem BlockKind.isBreak_eq_false {k : BlockKind} (h : k.isSkippable = false) :
    k.isBreak = false := by
  cases k <;> first | rfl | cases h

theorem BlockKind.isBreak_iff {k : BlockKind} :
    k.isBreak = true ↔ k = .linebreak ∨ k = .emptyLine := by
  cases k <;> simp [isBreak]

theorem breakKind_eq_emptyLine_iff {previous : Option BlockKind} :
    breakKind previous = .emptyLine ↔ ∃ k ∈ previous, k = .linebreak ∨ k = .emptyLine := by
  cases previous with
  | none => simp [breakKind]
  | some k => cases k <;> simp [breakKind, BlockKind.isBreak]

theorem breakKind_eq_linebreak_iff {previous : Option BlockKind} :
    breakKind previous = .linebreak ↔ ¬ ∃ k ∈ previous, k = .linebreak ∨ k = .emptyLine := by
  rw [← breakKind_eq_emptyLine_iff]
  unfold breakKind
  split <;> simp

/-- Whatever is no line break may follow anything. -/
theorem breaksAfter_of_not_isBreak {kind : BlockKind} (h : kind.isBreak = false)
    (previous : Option BlockKind) : BreaksAfter previous (some kind) := by
  rintro k ⟨⟩ hk
  rw [h] at hk
  cases hk

/-- A fragment has no kind yet, and gets one that is no line break: this makes no difference to the
line break behind it. -/
theorem breakKind_getD {kind : BlockKind} (h : kind.isBreak = false) (previous : Option BlockKind) :
    breakKind (some (previous.getD kind)) = breakKind previous := by
  cases previous with
  | none => simp [breakKind, h]
  | some k => rfl

theorem breaksAfter_getD {kind : BlockKind} (h : kind.isBreak = false)
    {previous next : Option BlockKind} (hb : BreaksAfter previous next) :
    BreaksAfter (some (previous.getD kind)) (some (next.getD kind)) := by
  cases next with
  | none => exact breaksAfter_of_not_isBreak h _
  | some k =>
    intro k' hk' hbreak
    rw [breakKind_getD h]
    exact hb k' hk' hbreak

namespace Sheet

/-- The kinds of the blocks, and behind them those of the fragments that wait. -/
def kinds (s : Sheet) : List (Option BlockKind) :=
  s.blocks.toList.map (fun b => some b.kind) ++ s.waiting.map Fragment.kind?

/-- The sheet knows the kind of its last block or fragment, and all line breaks are of the right
kind. -/
structure KnowsBreaks (s : Sheet) : Prop where
  last : s.last? = s.kinds.getLast?.join
  breaks : (none :: s.kinds).IsChain BreaksAfter

variable {s s' : Sheet}

/-- A block or fragment behind the last one. -/
theorem KnowsBreaks.concat (h : s.KnowsBreaks) {kind? : Option BlockKind}
    (hk : s'.kinds = s.kinds ++ [kind?]) (hl : s'.last? = kind?)
    (hb : BreaksAfter s.last? kind?) : s'.KnowsBreaks where
  last := by simp [hk, hl]
  breaks := by
    rw [hk, ← List.cons_append, List.isChain_append]
    refine ⟨h.breaks, List.isChain_singleton _, ?_⟩
    rintro previous hp next ⟨⟩
    -- What stands before it is what the sheet has recorded.
    have hlast : s.last? = previous := by
      rw [h.last]
      cases hkinds : s.kinds.getLast? <;> simp_all [List.getLast?_cons]
    rwa [← hlast]

theorem breaksAfter_triviaKind (s : Sheet) (kind : TokenKind) :
    BreaksAfter s.last? (some (s.triviaKind kind)) := by
  cases kind with
  | linebreak =>
    rintro k ⟨⟩ -
    unfold triviaKind breakKind
    cases s.last? <;> simp [BlockKind.isBreak_iff]
  | _ => exact breaksAfter_of_not_isBreak rfl _

theorem kinds_aside (s : Sheet) (kind : BlockKind) (first last start : Nat) :
    { s.aside kind first last with start }.kinds = s.kinds ++ [some kind] := by
  unfold aside
  split
  · rename_i hw
    simp [kinds, List.isEmpty_iff.1 hw]
  · simp [kinds]

theorem last_aside (s : Sheet) (kind : BlockKind) (first last start : Nat) :
    { s.aside kind first last with start }.last? = some kind := by
  unfold aside
  split <;> rfl

theorem KnowsBreaks.aside (h : s.KnowsBreaks) {kind : BlockKind}
    (hb : BreaksAfter s.last? (some kind)) (first last start : Nat) :
    { s.aside kind first last with start }.KnowsBreaks :=
  h.concat (kinds_aside ..) (last_aside ..) hb

theorem KnowsBreaks.interrupt (h : s.KnowsBreaks) : s.interrupt.KnowsBreaks := by
  unfold Sheet.interrupt
  split
  · split
    · exact h.aside (breaksAfter_of_not_isBreak rfl _) _ _ _
    · refine h.concat (?_ : _ = s.kinds ++ [none]) rfl nofun
      simp [kinds]
  · exact h

theorem kinds_complete (s : Sheet) (kind : BlockKind) (rest : Option (Nat × Nat)) (start : Nat) :
    { s.complete kind rest with start }.kinds =
      s.kinds.map (fun k? => some (k?.getD kind)) ++ (rest.map fun _ => some kind).toList := by
  have hblock (split : Bool) (f : Fragment) :
      some (f.block kind split).kind = some (f.kind?.getD kind) := by
    unfold Fragment.block
    cases f.kind? <;> rfl
  cases rest <;> simp [kinds, complete, assemble, Function.comp_def, hblock]

/-- What completes a block keeps the order of the kinds, so line breaks stay right. -/
theorem KnowsBreaks.complete (h : s.KnowsBreaks) {kind : BlockKind} (hk : kind.isBreak = false)
    (rest : Option (Nat × Nat)) (start : Nat) :
    { s.complete kind rest with start }.KnowsBreaks where
  last := by
    have hlast := h.last
    simp only [kinds, Sheet.complete, Chain.toList_append, List.map_append, List.map_nil,
      List.append_nil, List.getLast?_append, List.getLast?_map] at hlast ⊢
    cases hb : (assemble kind s.waiting rest).getLast? with
    | some b => simp
    | none =>
      -- Nothing is completed, so nothing has been waiting.
      have hnil := List.getLast?_eq_none_iff.1 hb
      simp only [assemble, List.map_eq_nil_iff, List.append_eq_nil_iff] at hnil
      simpa [hnil.1] using hlast
  breaks := by
    have hfill := List.isChain_map_of_isChain (fun k? => some (Option.getD k? kind))
      (fun _ _ => breaksAfter_getD hk) h.breaks
    have hnone : (none :: s.kinds.map fun k? => some (k?.getD kind)).IsChain BreaksAfter := by
      refine hfill.imp_head fun {_} hb k hk' hbreak => ?_
      rw [hb k hk' hbreak]
      exact breakKind_getD hk none
    rw [kinds_complete, ← List.cons_append, List.isChain_append]
    refine ⟨hnone, by cases rest <;> simp, ?_⟩
    rintro previous - next hnext
    cases rest with
    | none => cases hnext
    | some _ =>
      cases hnext
      exact breaksAfter_of_not_isBreak hk _

/-- A block behind the block before it. -/
theorem KnowsBreaks.behind (h : s.KnowsBreaks) {bs as : List Block} {b : Block}
    (hb : s.blocks.toList = bs ++ b :: as) :
    BreaksAfter (bs.getLast?.map Block.kind) (some b.kind) := by
  have hbreaks := h.breaks
  simp only [kinds, hb, List.map_append, List.map_cons, List.append_assoc, List.cons_append]
    at hbreaks
  rw [← List.cons_append, List.isChain_append] at hbreaks
  refine hbreaks.2.2 _ ?_ _ rfl
  rw [List.getLast?_cons, List.getLast?_map]
  cases bs.getLast? <;> rfl

end Sheet

/-! ## Runs -/

namespace Machine

open State

variable {m m' : Machine} {t : Token} {cs : List Completion} {v : Verdict}

theorem Turn.knowsBreaks (hm : Turn m t cs m' v) (h : m.sheet.KnowsBreaks) :
    m'.sheet.KnowsBreaks := by
  have hcut {before : Option BlockKind} (hb : ∀ kind ∈ before, kind.isSkippable = false) :
      (m.sheet.cutBefore before).KnowsBreaks := by
    cases before with
    | none => exact h
    | some kind => exact h.complete (BlockKind.isBreak_eq_false (hb kind rfl)) _ _
  have htaking {before closing : Option BlockKind} {next : Next}
      (hallows : m.control.state.Allows t (.take before closing next)) (kind : TokenKind) :
      (m.sheet.taking before closing kind).KnowsBreaks := by
    have hkinds := hallows.not_isSkippable
    have hbefore : (m.sheet.cutBefore before).KnowsBreaks :=
      hcut fun k hk => hkinds k (by simp [Move.kinds, Option.mem_def.1 hk])
    have hset : ((m.sheet.cutBefore before).settle kind).KnowsBreaks :=
      ⟨hbefore.last, hbefore.breaks⟩
    cases closing with
    | none => exact hset
    | some closing =>
      exact hset.complete (BlockKind.isBreak_eq_false (hkinds _ (by simp [Move.kinds]))) _ _
  cases hm with
  | trivium _ _ hm =>
    rw [hm.sheet]
    exact h.aside (m.sheet.breaksAfter_triviaKind t.kind) _ _ _
  | resume _ _ hm | absorb _ _ _ hm | refuse _ _ _ hm =>
    rw [hm.sheet]
    exact h
  | interrupt _ _ _ hm =>
    rw [hm.sheet]
    exact h.interrupt
  | take _ _ hr _ _ hm | mismatch _ _ hr _ hm =>
    rw [hm.sheet]
    exact htaking (allows_of_react hr) _
  | pass _ _ hr _ hm =>
    rw [hm.sheet]
    exact hcut fun k hk => (allows_of_react hr).not_isSkippable k
      (by simp [Move.kinds, Option.mem_def.1 hk])
  | finish _ _ _ hm =>
    rw [hm.sheet]
    exact h.complete rfl _ _

theorem kept_knowsBreaks : Kept fun m _ _ => m.sheet.KnowsBreaks where
  push _ h := ⟨h.last, h.breaks⟩
  handedOn _ _ _ hm h := hm.knowsBreaks h
  taken _ _ _ hm _ h := hm.knowsBreaks h

theorem knowsBreaks_start (options : Options) : ({ options } : Machine).sheet.KnowsBreaks :=
  ⟨rfl, List.isChain_singleton _⟩

theorem Passes.knowsBreaks {options : Options} {pre : List Token} {st : Standing}
    (h : Passes options pre m st cs) : m.sheet.KnowsBreaks := by
  cases h.holds kept_knowsBreaks (knowsBreaks_start options) with
  | between _ _ _ hp | facing _ _ _ _ _ hp => exact hp
  | broken _ _ _ _ _ hp hm => exact hm.knowsBreaks hp

/-- **Empty lines are recognised exactly.** A parser is at a point of a run, and at every point of
every run a block that covers a line break is an empty line if the block before it is a line break
or an empty line, and a line break otherwise. -/
theorem emptyLines_exact (options : Options) :
    (∀ input n, ∃ pre st cs, pre.map .ok <+: input ∧
      Passes options pre ((Parser.start input options).calls n).2.machine st cs) ∧
    ∀ pre m st cs, Passes options pre m st cs →
      ∀ bs b as, m.sheet.blocks.toList = bs ++ b :: as →
        (∃ u ∈ b.tokensIn m.sheet.tokens.toList, u.kind = .linebreak) →
        (b.kind = .emptyLine ↔ ∃ k ∈ bs.getLast?.map Block.kind, k = .linebreak ∨ k = .emptyLine) ∧
        (b.kind = .linebreak ↔
          ¬ ∃ k ∈ bs.getLast?.map Block.kind, k = .linebreak ∨ k = .emptyLine) := by
  refine ⟨fun input n => Parser.passes_calls input options n, fun pre m st cs h => ?_⟩
  rintro bs b as hblocks ⟨u, hu, hkind⟩
  have hformed : b.kind.isBreak = true := by
    have hshaped := h.isShaped b (by simp [hblocks])
    have hmem := (hshaped.alone u hu (by rw [hkind]; rfl) (by simp [hkind])).2
    rw [hkind] at hmem
    simpa [TokenKind.formed, BlockKind.isBreak_iff] using hmem
  have hafter := h.knowsBreaks.behind hblocks
  have hb := hafter b.kind rfl hformed
  rw [hb]
  exact ⟨breakKind_eq_emptyLine_iff, breakKind_eq_linebreak_iff⟩

/-- Two line breaks that interrupt a block. -/
theorem emptyLines_exact_interrupted :
    ∃ pre m st cs bs b as, Passes {} pre m st cs ∧ m.sheet.blocks.toList = bs ++ b :: as ∧
      bs.getLast?.map Block.kind = some .linebreak ∧ b.kind = .emptyLine := by
  obtain ⟨us, st, -, h⟩ := @passes_run {} _ _ (tokenize "entity\n\ne is end;") rfl
  have hblocks : (Machine.run {} (tokenize "entity\n\ne is end;")).1.sheet.blocks.toList =
      [⟨.startOfDocument, 0, 0, false⟩, ⟨.entityName, 1, 1, true⟩, ⟨.linebreak, 2, 2, false⟩] ++
        ⟨.emptyLine, 3, 3, false⟩ :: [⟨.entityName, 4, 6, true⟩, ⟨.whitespace, 7, 7, false⟩,
          ⟨.entityEnd, 8, 9, false⟩, ⟨.endOfDocument, 10, 10, false⟩] := by
    decide +kernel
  have hexact := (emptyLines_exact {}).2 us _ st _ h _ _ _ hblocks (by decide +kernel)
  exact ⟨us, _, st, _, _, _, _, h, hblocks, rfl, hexact.1.2 ⟨_, rfl, .inl rfl⟩⟩

end Machine

end VhdlOutline
