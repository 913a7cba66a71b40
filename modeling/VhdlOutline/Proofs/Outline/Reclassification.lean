import VhdlOutline.Proofs.Outline.Readings

/-!
# What becomes of words and symbols

The kinds that the tokens of an outline have in the end, told from the tokens that were read and the
blocks they lie in.

* `words_settled_iff`: every word becomes a keyword or an identifier, just if no block is the
  `begin` after declarations.
* `tokens_reclassified`: nothing but a kind ever changes, and operators stand in expressions and
  nowhere else.
-/

namespace VhdlOutline

/-! ## Words -/

namespace Token

theorem settled_ne_word (t : Token) : t.settled ≠ .word := by
  unfold settled
  split
  · split <;> simp
  · exact ‹_›

theorem settledInExpression_ne_word (t : Token) : t.settledInExpression ≠ .word := by
  unfold settledInExpression
  split
  · split <;> simp
  · split <;> simp
  · exact t.settled_ne_word

theorem settledInExpression_of_word {t : Token} (h : t.kind = .word) :
    t.settledInExpression = t.settled := by
  simp [settledInExpression, h]

end Token

/-- Outside of the `begin` after declarations words are settled. -/
theorem BlockKind.Reads.word {k : BlockKind} {u v : Token} (h : k.Reads u v) :
    (k.isBegin = false → u.kind = .word → v.kind = u.settled) ∧
      (v.kind = .word → k.isBegin = true ∧ u.kind = .word ∧ u.keyword? = some .begin) := by
  unfold BlockKind.Reads at h
  split at h
  · rw [h]
    exact ⟨fun _ hw => Token.settledInExpression_of_word hw,
      fun hw => absurd hw u.settledInExpression_ne_word⟩
  · split at h
    · rename_i hb
      exact ⟨fun hb' => absurd (hb.symm.trans hb') (by simp),
        fun hw => ⟨hb, h.1.symm.trans hw, h.2⟩⟩
    · rw [h]
      exact ⟨fun _ _ => rfl, fun hw => absurd hw u.settled_ne_word⟩

/-- **Which words are settled.** Every word of a source text becomes a keyword or an identifier, as
it is reserved or not, and none remains a word, if and only if no block is the `begin` after
declarations. The words that remain are the ones in such blocks, and they spell `begin`. -/
theorem words_settled_iff {source : String} {options : Options} {d : Document} {gs : GroupChain}
    (h : parseDocument source options = .ok (d, gs)) :
    (((∀ (i : Nat) (t : Token), (tokenize source)[i]? = some (.ok t) → t.kind = .word →
          ∃ t', d.tokens.toList[i]? = some t' ∧
            t'.kind = match Keyword.find? t.text with
              | some k => .keyword k
              | none => .identifier) ∧
        ∀ t' ∈ d.tokens.toList, t'.kind ≠ .word) ↔
      ∀ b ∈ d.blocks.toList, b.kind.isBegin = false) ∧
    ∀ (i : Nat) (t' : Token), d.tokens.toList[i]? = some t' →
      (t'.kind = .word ↔
        ∃ b ∈ d.blocks.toList, b.kind.isBegin = true ∧ b.first ≤ i ∧ i ≤ b.last) ∧
      (t'.kind = .word → Keyword.find? t'.text = some .begin) := by
  obtain ⟨houtline, -⟩ := parseDocument_ok h
  obtain ⟨us, rest, hxs, hset, hend, hblocks⟩ := outline_reads houtline
  obtain ⟨rfl, -⟩ := tokenize_ends hxs hend
  rw [List.append_nil] at hxs
  have hget : ∀ i : Nat, (tokenize source)[i]? = us[i]?.map Except.ok := by simp [hxs]
  -- What stands in the `begin` after declarations is a word of the source text.
  have hbegin : ∀ b ∈ d.blocks.toList, b.kind.isBegin = true → ∀ (i : Nat) (u v : Token),
      b.first ≤ i → i ≤ b.last → us[i]? = some u → d.tokens.toList[i]? = some v →
      v.kind = .word := by
    intro b hb hk i u v hlo hhi hu hv
    obtain ⟨hkind, hword⟩ := (BlockKind.reads_of_isBegin hk).1 (hblocks b hb i u v hlo hhi hu hv)
    have hlex := isLexical_of_mem_tokenize (List.mem_of_getElem? (by rw [hget, hu]; rfl))
    rw [hkind]
    unfold Token.keyword? at hword
    split at hword
    · rename_i k hk
      simp [hk, TokenKind.isLexical, TokenKind.isSentinel] at hlex
    · assumption
    · cases hword
  have hlen : us.length = d.tokens.toList.length := hset.length_eq
  have hpair : ∀ {i : Nat} {v : Token}, d.tokens.toList[i]? = some v → ∃ u, us[i]? = some u := by
    intro i v hv
    have := (List.getElem?_eq_some_iff.1 hv).1
    exact ⟨_, List.getElem?_eq_getElem (by omega)⟩
  refine ⟨⟨?_, ?_⟩, ?_⟩
  · rintro ⟨-, hno⟩ b hb
    refine Bool.eq_false_iff.2 fun hk => ?_
    have hmem := (outline_tiles houtline).2.mem (List.mem_map_of_mem hb)
    have hlt : b.first < d.tokens.toList.length := by
      rw [Chain.length_toList]
      exact Nat.lt_of_le_of_lt hmem.2.1 hmem.2.2
    have hv := List.getElem?_eq_getElem hlt
    obtain ⟨u, hu⟩ := hpair hv
    exact hno _ (List.getElem_mem hlt)
      (hbegin b hb hk _ u _ (Nat.le_refl _) hmem.2.1 hu hv)
  · intro hno
    refine ⟨?_, ?_⟩
    · intro i u hu hw
      rw [hget, Option.map_eq_some_iff] at hu
      obtain ⟨u, hu, ⟨⟩⟩ := hu
      have hlt := (List.getElem?_eq_some_iff.1 hu).1
      have hv := List.getElem?_eq_getElem (hlen ▸ hlt)
      obtain ⟨b, hb, -, -, hread⟩ := exists_block_reads houtline hblocks hu hv
      refine ⟨_, hv, (hread.word.1 (hno b hb) hw).trans ?_⟩
      cases hf : Keyword.find? u.text <;> simp only [Token.settled, hw, hf]
    · intro v hmem hw
      obtain ⟨i, hv⟩ := List.mem_iff_getElem?.1 hmem
      obtain ⟨u, hu⟩ := hpair hv
      obtain ⟨b, hb, -, -, hread⟩ := exists_block_reads houtline hblocks hu hv
      exact absurd ((hread.word.2 hw).1.symm.trans (hno b hb)) (by simp)
  · intro i v hv
    obtain ⟨u, hu⟩ := hpair hv
    obtain ⟨b, hb, hlo, hhi, hread⟩ := exists_block_reads houtline hblocks hu hv
    refine ⟨⟨fun hw => ⟨b, hb, (hread.word.2 hw).1, hlo, hhi⟩, ?_⟩, ?_⟩
    · rintro ⟨b', hb', hk, hlo', hhi'⟩
      exact hbegin b' hb' hk i u v hlo' hhi' hu hv
    · intro hw
      obtain ⟨-, huw, hword⟩ := hread.word.2 hw
      rw [(rel_of_getElem? hset hu hv).text]
      simpa [Token.keyword?, huw] using hword

/-- A package has no `begin`. -/
theorem words_settled_package : ∃ d gs,
    parseDocument "package p is end;" {} = .ok (d, gs) ∧
      (∀ b ∈ d.blocks.toList, b.kind.isBegin = false) ∧
      ∀ t' ∈ d.tokens.toList, t'.kind ≠ .word := by
  have hok : (match parseDocument "package p is end;" {} with
      | .ok (d, _) => d.blocks.toList.all fun b => !b.kind.isBegin
      | .error _ => false) = true := by decide +kernel
  generalize hr : parseDocument "package p is end;" {} = r at hok
  match r with
  | .error e => cases hok
  | .ok (d, gs) =>
    have hno : ∀ b ∈ d.blocks.toList, b.kind.isBegin = false := by simpa using hok
    exact ⟨d, gs, rfl, hno, ((words_settled_iff hr).1.2 hno).2⟩

/-- The `begin` of an entity remains a word. -/
theorem words_remain_begin : ∃ d gs,
    parseDocument "entity e is begin end;" {} = .ok (d, gs) ∧
      ∃ t ∈ d.tokens.toList, t.kind = .word ∧ Keyword.find? t.text = some .begin := by
  have hok : (match parseDocument "entity e is begin end;" {} with
      | .ok (d, _) => d.tokens.toList.any fun t =>
          t.kind = .word ∧ Keyword.find? t.text = some .begin
      | .error _ => false) = true := by decide +kernel
  generalize parseDocument "entity e is begin end;" {} = r at hok
  match r with
  | .error e => cases hok
  | .ok (d, gs) =>
    obtain ⟨t, ht, hk⟩ := List.any_eq_true.1 hok
    exact ⟨d, gs, rfl, t, ht, of_decide_eq_true hk⟩

/-! ## Operators -/

/-- The operator that the token stands for, if it is a symbol that stands for one. -/
def Token.operator? (t : Token) : Option Operator :=
  match t.kind with
  | .character c => Operator.ofChar? c
  | .compound s => Operator.ofCompound? s
  | _ => none

namespace Token

theorem settled_eq_operator_iff {t : Token} {o : Operator} :
    t.settled = .operator o ↔ t.kind = .operator o := by
  unfold settled
  split
  · split <;> simp [*]
  · rfl

theorem settledInExpression_eq_operator_iff {t : Token} {o : Operator}
    (h : t.kind ≠ .operator o) :
    t.settledInExpression = .operator o ↔ t.operator? = some o := by
  cases hk : t.kind with
  | character c =>
    cases hc : Operator.ofChar? c <;> simp [settledInExpression, operator?, hk, hc]
  | compound s =>
    cases hs : Operator.ofCompound? s <;> simp [settledInExpression, operator?, hk, hs]
  | operator p =>
    have hne : p ≠ o := fun heq => h (hk.trans (congrArg _ heq))
    simp [settledInExpression, operator?, settled_eq_operator_iff, hk, hne]
  | _ => simp [settledInExpression, operator?, settled_eq_operator_iff, hk]

end Token

/-- A token that was no operator is one just if it stands for one and its block is an expression. -/
theorem BlockKind.Reads.operator {k : BlockKind} {u v : Token} (h : k.Reads u v)
    {o : Operator} (hu : u.kind ≠ .operator o) :
    v.kind = .operator o ↔ k.isExpression = true ∧ u.operator? = some o := by
  unfold BlockKind.Reads at h
  split at h
  · rename_i hx
    rw [h, Token.settledInExpression_eq_operator_iff hu]
    simp [hx]
  · rename_i hx
    split at h
    · rw [h.1]
      simp [hu, hx]
    · rw [h, Token.settled_eq_operator_iff]
      simp [hu, hx]

/-- **What becomes of tokens.** At every visit of a run, and after any number of calls of a parser,
the tokens so far are the first ones of the input, in order and with their texts and positions; and
the kind of each is its own, or what it stands for as a word or as a symbol. In an outline, a token
that was no operator is one if and only if it lies in a block of an expression and is a symbol that
stands for an operator. -/
theorem tokens_reclassified (input : List (Except LexError Token)) (options : Options) :
    (∀ v ∈ visits input options, ∃ us, us.map .ok <+: input ∧
      List.Forall₂ Token.Reclassifies us v.machine.sheet.tokens.toList) ∧
    (∀ n, ∃ us, us.map .ok <+: input ∧ List.Forall₂ Token.Reclassifies us
      ((Parser.start input options).calls n).2.machine.sheet.tokens.toList) ∧
    ∀ d, outline input options = .ok d → ∀ (i : Nat) (t' : Token),
      d.tokens.toList[i]? = some t' →
        ∃ t, input[i]? = some (.ok t) ∧ t.Reclassifies t' ∧
          ((∀ o, t.kind ≠ .operator o) →
            ((∃ o, t'.kind = .operator o) ↔
              (∃ b ∈ d.blocks.toList, (∃ x : Expression, b.kind = x.kind) ∧ b.first ≤ i ∧
                i ≤ b.last) ∧ t.operator?.isSome = true)) := by
  refine ⟨fun v hv => ?_, fun n => ?_, fun d hd i v hv => ?_⟩
  · obtain ⟨us, us', hpre, hset, htok⟩ :=
      Machine.visitsFrom_settles (Machine.sound_start options) rfl v hv
    rw [List.nil_append] at htok
    exact ⟨us, hpre, htok ▸ hset.imp fun _ _ => Token.Settles.reclassifies⟩
  · obtain ⟨xs, e, hxs, hrun, -⟩ := (Parser.delivers_calls input options n).exists_run
    obtain ⟨us, us', hpre, hset, htok⟩ :=
      Machine.run_settles (Machine.sound_start options) rfl hrun
    rw [List.nil_append] at htok
    exact ⟨us, hpre.trans hxs, htok ▸ hset.imp fun _ _ => Token.Settles.reclassifies⟩
  · obtain ⟨us, rest, rfl, hset, -, hblocks⟩ := outline_reads hd
    have hlt : i < us.length := hset.length_eq ▸ (List.getElem?_eq_some_iff.1 hv).1
    have hu := List.getElem?_eq_getElem hlt
    have hread := exists_block_reads hd hblocks hu hv
    generalize us[i] = u at hu hread
    refine ⟨u, ?_, (rel_of_getElem? hset hu hv).reclassifies, fun hno => ⟨?_, ?_⟩⟩
    · rw [List.getElem?_append_left (by simpa using hlt), List.getElem?_map, hu]
      rfl
    · rintro ⟨o, ho⟩
      obtain ⟨b, hb, hlo, hhi, hread⟩ := hread
      obtain ⟨hx, ho⟩ := (hread.operator (hno o)).1 ho
      obtain ⟨x, hx⟩ := BlockKind.isExpression_iff.1 hx
      exact ⟨⟨b, hb, ⟨x, hx.symm⟩, hlo, hhi⟩, by rw [ho]; rfl⟩
    · rintro ⟨⟨b, hb, ⟨x, hx⟩, hlo, hhi⟩, ho⟩
      obtain ⟨o, ho⟩ := Option.isSome_iff_exists.1 ho
      have hread := hblocks b hb i u v hlo hhi hu hv
      exact ⟨o, (hread.operator (hno o)).2 ⟨BlockKind.isExpression_iff.2 ⟨x, hx.symm⟩, ho⟩⟩

/-- The `+` in the value of a constant. -/
theorem tokens_reclassified_constant : ∃ d t t',
    outline (tokenize "package p is constant c : t := 1 + 2; end;") {} = .ok d ∧
      (tokenize "package p is constant c : t := 1 + 2; end;")[19]? = some (.ok t) ∧
      t.kind = .character '+' ∧ d.tokens.toList[19]? = some t' ∧ t.Reclassifies t' ∧
      t'.kind = .operator .add ∧
      ∃ b ∈ d.blocks.toList, (∃ x : Expression, b.kind = x.kind) ∧ b.first ≤ 19 ∧ 19 ≤ b.last := by
  generalize hin : tokenize "package p is constant c : t := 1 + 2; end;" = input
  have hok : (match outline input {} with
      | .ok d => (d.tokens.toList[19]?.any fun t' => t'.kind = .operator .add) &&
          input[19]?.any fun | .ok t => t.kind = .character '+' | .error _ => false
      | .error _ => false) = true := by
    rw [← hin]
    decide +kernel
  generalize hr : outline input {} = r at hok
  match r with
  | .error e => cases hok
  | .ok d =>
    obtain ⟨hv, hu⟩ := Bool.and_eq_true_iff.1 hok
    obtain ⟨t', hv, hplus⟩ := (Option.any_eq_true _ _).1 hv
    obtain ⟨x, hx, hchar⟩ := (Option.any_eq_true _ _).1 hu
    obtain ⟨t, hu, hset, hop⟩ := (tokens_reclassified input {}).2.2 d hr 19 t' hv
    cases hx.symm.trans hu
    have hchar := of_decide_eq_true hchar
    have hplus := of_decide_eq_true hplus
    obtain ⟨hb, -⟩ := (hop (by simp [hchar])).1 ⟨_, hplus⟩
    exact ⟨d, t, t', rfl, hu, hchar, hv, hset, hplus, hb⟩

end VhdlOutline
