import VhdlOutline.Proofs.Outline.BreakOff
import VhdlOutline.Proofs.Outline.Openings

/-!
# Blocks on demand

A parser is called for one block after the other. `Parser.calls` lists the answers, however many
calls there are, and `Parser.Delivers` relates them to the run over the whole input: the parser has
come to a machine that this run passes, or at which it breaks off.

* `Parser.calls_partial`: at any time the tokens and blocks so far are in order, and the blocks are
  delivered one by one.
* `Parser.calls_after_error`: after an error only those blocks are delivered that were completed by
  the very token at fault. So a parser is exhausted after an error just if there are none of these
  (`Machine.lateBlocks`).
-/

namespace VhdlOutline

/-- The answer to a call: the index of a block, or an error; or nothing, once there is no more. -/
abbrev Answer := Option (Except OutlineError Nat)

/-- The blocks that have been delivered. -/
def deliveredBlocks (answers : List Answer) : List Nat :=
  answers.filterMap fun
    | some (.ok i) => some i
    | _ => none

/-- The errors that have been reported. -/
def reportedErrors (answers : List Answer) : List OutlineError :=
  answers.filterMap fun
    | some (.error e) => some e
    | _ => none

@[simp] theorem deliveredBlocks_append (as bs : List Answer) :
    deliveredBlocks (as ++ bs) = deliveredBlocks as ++ deliveredBlocks bs :=
  List.filterMap_append

@[simp] theorem reportedErrors_append (as bs : List Answer) :
    reportedErrors (as ++ bs) = reportedErrors as ++ reportedErrors bs :=
  List.filterMap_append

theorem mem_reportedErrors {answers : List Answer} {e : OutlineError} :
    e ∈ reportedErrors answers ↔ some (.error e) ∈ answers := by
  rw [reportedErrors, List.mem_filterMap]
  constructor
  · rintro ⟨a, ha, he⟩
    split at he <;> cases he
    exact ha
  · intro h
    exact ⟨_, h, rfl⟩

/-- The answers to `n` calls, and the parser after them. -/
def Parser.calls (p : Parser) : (n : Nat) → List Answer × Parser
  | 0 => ([], p)
  | n + 1 =>
    let (answers, q) := p.calls n
    let (a, q) := q.next
    (answers ++ [a], q)

/-! ## Blocks that come late -/

namespace Machine

/-- The blocks that a run completes with the very token at which it breaks off. -/
def lateBlocks (m : Machine) : List (Except LexError Token) → List Block
  | .ok t :: xs =>
    if m.done then []
    else match m.feed t with
      | (k, none) => k.lateBlocks xs
      | (k, some _) => k.sheet.blocks.toList.drop m.sheet.blocks.size
  | _ => []

theorem Turn.size_blocks_le {m m' : Machine} {t : Token} {cs : List Completion} {v : Verdict}
    (hm : Turn m t cs m' v) : m.sheet.blocks.size ≤ m'.sheet.blocks.size := by
  obtain ⟨bs, hb, -⟩ := hm.blocks
  have := congrArg List.length hb
  simp only [Chain.length_toList, List.length_append] at this
  omega

/-- Blocks are only ever added. -/
theorem kept_blocks (n : Nat) : Kept fun m _ _ => n ≤ m.sheet.blocks.size where
  push _ h := h
  handedOn _ _ _ hm h := Nat.le_trans h hm.size_blocks_le
  taken _ _ _ hm _ h := Nat.le_trans h hm.size_blocks_le

variable {m k : Machine} {ts : List Token} {t : Token} {e : OutlineError}

theorem Sound.size_blocks_le_feed (h : m.Sound ts) (ht : m.sheet.tokens.toList = ts)
    (hd : m.done = false) {e : Option OutlineError} (hf : m.feed t = (k, e)) :
    m.sheet.blocks.size ≤ k.sheet.blocks.size := by
  have hP := kept_blocks m.sheet.blocks.size
  cases e with
  | none =>
    obtain ⟨_, -, -, -, -, hk⟩ := @Kept.feed _ hP m k ts [] h ht hd (Nat.le_refl _) t hf
    exact hk
  | some e =>
    obtain ⟨_, _, _, -, -, hk, -, hturn⟩ :=
      @Kept.feed_failed _ hP m k ts [] h ht hd (Nat.le_refl _) t e hf
    exact Nat.le_trans hk hturn.size_blocks_le

theorem Turn.options_eq {cs : List Completion} {v : Verdict} (hm : Turn m t cs k v) :
    k.options = m.options := by
  cases hm <;> exact ‹Becomes ..›.options

theorem kept_options (options : Options) : Kept fun m _ _ => m.options = options where
  push _ h := h
  handedOn _ _ _ hm h := hm.options_eq.trans h
  taken _ _ _ hm _ h := hm.options_eq.trans h

/-- A machine that has read a token can go on, with the same options. -/
theorem Sound.feed (h : m.Sound m.sheet.tokens.toList) (hd : m.done = false)
    (hf : m.feed t = (k, none)) :
    k.Sound k.sheet.tokens.toList ∧ k.options = m.options ∧
      k.sheet.tokens.size = m.sheet.tokens.size + 1 := by
  obtain ⟨t', -, htok, hsound, -, hopt⟩ :=
    @Kept.feed _ (kept_options m.options) m k _ [] h rfl hd rfl t hf
  refine ⟨htok ▸ hsound, hopt, ?_⟩
  rw [← Chain.length_toList, ← Chain.length_toList, htok, List.length_append,
    List.length_singleton]

/-- A name is compared only when an end has been completed. -/
theorem Turn.size_blocks_lt {x : NameMismatch} {cs : List Completion}
    (hm : Turn m t cs k (.failed (.nameMismatch x))) :
    m.sheet.blocks.size < k.sheet.blocks.size := by
  cases hm with
  | mismatch _ _ hr _ hm =>
    obtain ⟨scope, phase, -, hmove⟩ := (State.announces_of_react hr).2 _ rfl
    cases hmove
    rw [hm.sheet, ← Chain.length_toList, ← Chain.length_toList,
      m.sheet.blocks_taking _ _ _ .return_, List.length_append]
    simp [Sheet.completedBy, Sheet.closeCompletion, Completion.blocks, assemble]

/-- Blocks come late whenever names are at fault, and never if there is no token at fault. -/
theorem lateBlocks_of_run (h : m.Sound ts) (ht : m.sheet.tokens.toList = ts)
    {xs : List (Except LexError Token)} (hr : m.run xs = (k, some e)) :
    ((∃ x, e = .nameMismatch x) → m.lateBlocks xs ≠ []) ∧
      ((∃ s, e = .unexpectedEnd s) ∨ (∃ l, e = .lexical l) → m.lateBlocks xs = []) := by
  induction xs generalizing m ts with
  | nil =>
    rw [run] at hr
    split at hr <;> cases hr
    simp [lateBlocks]
  | cons x xs ih =>
    simp only [run] at hr
    cases hd : m.done with
    | true => simp [hd] at hr
    | false =>
      rw [if_neg (by simp [hd])] at hr
      cases x with
      | error l =>
        cases hr
        simp [lateBlocks]
      | ok t =>
        dsimp only at hr
        simp only [lateBlocks, hd, Bool.false_eq_true, if_false]
        have hP := kept_blocks m.sheet.blocks.size
        generalize hf : m.feed t = r at hr
        obtain ⟨k', _ | f⟩ := r
        · obtain ⟨t', -, htok, hsound, -⟩ :=
            @Kept.feed _ hP m k' ts [] h ht hd (Nat.le_refl _) t hf
          exact ih hsound htok hr
        · cases hr
          obtain ⟨_, _, _, -, -, hk, -, hturn⟩ :=
            @Kept.feed_failed _ hP m k ts [] h ht hd (Nat.le_refl _) t e hf
          constructor
          · rintro ⟨x, rfl⟩
            have := hturn.size_blocks_lt
            simp only [ne_eq, List.drop_eq_nil_iff, Chain.length_toList]
            omega
          · -- The token at fault is there.
            rcases hturn.failed with ⟨c, rfl⟩ | ⟨x, rfl⟩ <;> simp

/-! ## What a parser has read -/

/-- Reading `ys` leads from `m` to `k`: a run over `ys` and more goes on from there. -/
def ReadsTo (m : Machine) (ys : List (Except LexError Token)) (k : Machine) : Prop :=
  ∀ zs, m.run (ys ++ zs) = k.run zs ∧ m.lateBlocks (ys ++ zs) = k.lateBlocks zs

theorem readsTo_nil (m : Machine) : m.ReadsTo [] m := fun _ => ⟨rfl, rfl⟩

theorem ReadsTo.append {n : Machine} {ys zs : List (Except LexError Token)} (h : m.ReadsTo ys k)
    (h' : k.ReadsTo zs n) : m.ReadsTo (ys ++ zs) n := by
  intro us
  obtain ⟨hr, hl⟩ := h (zs ++ us)
  obtain ⟨hr', hl'⟩ := h' us
  rw [List.append_assoc]
  exact ⟨hr.trans hr', hl.trans hl'⟩

theorem readsTo_feed (hd : m.done = false) (hf : m.feed t = (k, none)) :
    m.ReadsTo [.ok t] k := by
  intro zs
  simp [run, lateBlocks, hd, hf]

/-- What has been read is a run of its own. -/
theorem ReadsTo.run_eq {ys : List (Except LexError Token)} (h : m.ReadsTo ys k) :
    m.run ys = (k, if k.done then none else some (.unexpectedEnd k.control.name)) := by
  have := (h []).1
  rw [List.append_nil] at this
  rw [this, run]
  split <;> rfl

/-- What every turn keeps holds of the machine that has been read to. -/
theorem ReadsTo.kept {P : Machine → List Token → List Completion → Prop} (hP : Kept P)
    {options : Options} (hp : P { options } [] []) {ys : List (Except LexError Token)}
    (h : Machine.ReadsTo { options } ys m) :
    m.Sound m.sheet.tokens.toList ∧ ∃ cs, P m m.sheet.tokens.toList cs := by
  have hends := run_ends_start hP hp h.run_eq
  generalize he : (if m.done then none else some (OutlineError.unexpectedEnd m.control.name)) = o
    at hends
  cases hends with
  | finished hs ht hk =>
    rw [ht]
    exact ⟨hs, _, hk⟩
  | stopped hs ht hk =>
    rw [ht]
    exact ⟨hs, _, hk⟩
  | failed _ _ _ _ hm =>
    split at he
    · cases he
    · cases he
      rcases hm.failed with ⟨_, hc⟩ | ⟨_, hx⟩
      · cases hc
      · cases hx

theorem ReadsTo.sound {options : Options} {ys : List (Except LexError Token)}
    (h : Machine.ReadsTo { options } ys m) : m.Sound m.sheet.tokens.toList :=
  (h.kept (kept_options options) rfl).1

end Machine

namespace Parser

open Machine

/-- The answer, and the parser, once the machine `m` has been made to read on in `xs`. -/
inductive Pulled (m : Machine) (d : Nat) (xs : List (Except LexError Token)) :
    Answer → Parser → Prop
  | block {ys zs : List (Except LexError Token)} {k : Machine} (hx : xs = ys ++ zs)
      (hr : m.ReadsTo ys k) (hb : d < k.sheet.blocks.size) :
      Pulled m d xs (some (.ok d)) ⟨zs, k, d + 1, false⟩
  | exhausted {ys zs : List (Except LexError Token)} {k : Machine} (hx : xs = ys ++ zs)
      (hr : m.ReadsTo ys k) (hb : d = k.sheet.blocks.size) (hd : k.done = true) :
      Pulled m d xs none ⟨zs, k, d, false⟩
  | failed {zs : List (Except LexError Token)} {k : Machine} {e : OutlineError}
      (hr : m.run xs = (k, some e)) (hb : d ≤ k.sheet.blocks.size)
      (hl : m.lateBlocks xs = k.sheet.blocks.toList.drop d) :
      Pulled m d xs (some (.error e)) ⟨zs, k, d, true⟩

theorem Pulled.cons {m k : Machine} {d : Nat} {t : Token} {xs : List (Except LexError Token)}
    {a : Answer} {p : Parser} (hd : m.done = false) (hf : m.feed t = (k, none))
    (h : Pulled k d xs a p) : Pulled m d (.ok t :: xs) a p := by
  have hm := readsTo_feed hd hf
  cases h with
  | block hx hr hb => exact .block (by rw [hx]; rfl) (hm.append hr) hb
  | exhausted hx hr hb hd => exact .exhausted (by rw [hx]; rfl) (hm.append hr) hb hd
  | failed hr hb hl =>
    obtain ⟨hrun, hlate⟩ := hm xs
    exact .failed (hrun.trans hr) hb (hlate.trans hl)

theorem pulled_of_pull {m : Machine} {d : Nat} {xs : List (Except LexError Token)} {a : Answer}
    {p : Parser} (h : m.Sound m.sheet.tokens.toList) (hd : m.done = false)
    (hb : m.sheet.blocks.size = d) (hp : pull m d xs = (a, p)) : Pulled m d xs a p := by
  have hdrop : m.sheet.blocks.toList.drop d = [] := by simp [hb]
  induction xs generalizing m with
  | nil =>
    cases hp
    exact .failed (by simp [run, hd]) (Nat.le_of_eq hb.symm) hdrop.symm
  | cons x xs ih =>
    cases x with
    | error l =>
      cases hp
      exact .failed (by simp [run, hd]) (Nat.le_of_eq hb.symm) hdrop.symm
    | ok t =>
      rw [pull] at hp
      generalize hf : m.feed t = r at hp
      obtain ⟨k, _ | e⟩ := r
      · have hle := h.size_blocks_le_feed rfl hd hf
        dsimp only at hp
        split at hp
        · cases hp
          exact .block (List.singleton_append.symm) (readsTo_feed hd hf) ‹_›
        · split at hp
          · cases hp
            exact .exhausted (List.singleton_append.symm) (readsTo_feed hd hf) (by omega) ‹_›
          · rename_i hkd
            obtain ⟨t', -, htok, hsound, -⟩ :=
              @Kept.feed _ (kept_blocks 0) m k _ [] h rfl hd (Nat.zero_le _) t hf
            have hkb : k.sheet.blocks.size = d := by omega
            refine (ih (htok ▸ hsound) (by simpa using hkd) hkb hp ?_).cons hd hf
            simp [hkb]
      · have hle := h.size_blocks_le_feed rfl hd hf
        cases hp
        refine .failed ?_ (hb ▸ hle) ?_
        · simp [run, hd, hf]
        · simp [lateBlocks, hd, hf, hb]

/-- What the parser has read of its input, and the errors it has reported. -/
inductive Stage (input : List (Except LexError Token)) (options : Options) (p : Parser) :
    List OutlineError → Prop
  | reading {ys : List (Except LexError Token)} (hx : input = ys ++ p.input)
      (hr : Machine.ReadsTo { options } ys p.machine) (hf : p.failed = false) :
      Stage input options p []
  | failed {e : OutlineError} (hr : Machine.run { options } input = (p.machine, some e))
      (hf : p.failed = true) : Stage input options p [e]

/-- What the answers so far have to do with the run over the whole input. -/
structure Delivers (input : List (Except LexError Token)) (options : Options)
    (answers : List Answer) (p : Parser) : Prop where
  blocks : deliveredBlocks answers = List.range p.delivered
  delivered_le : p.delivered ≤ p.machine.sheet.blocks.size
  exhausted : none ∈ answers →
    p.delivered = p.machine.sheet.blocks.size ∧ (p.failed || p.machine.done) = true
  stage : p.Stage input options (reportedErrors answers)

variable {input : List (Except LexError Token)} {options : Options} {answers : List Answer}
  {p q : Parser} {a : Answer}

/-- A parser that reads on has not failed, and all blocks so far have been delivered. -/
theorem Delivers.pulled (h : Delivers input options answers p)
    (hb : ¬ p.delivered < p.machine.sheet.blocks.size)
    (hf : ¬ (p.failed || p.machine.done) = true)
    (hp : pull p.machine p.delivered p.input = (a, q)) :
    reportedErrors answers = [] ∧ none ∉ answers ∧
      (∃ ys, input = ys ++ p.input ∧ Machine.ReadsTo { options } ys p.machine) ∧
      Pulled p.machine p.delivered p.input a q := by
  obtain ⟨hfailed, hdone⟩ : p.failed = false ∧ p.machine.done = false := by simpa using hf
  have hle := h.delivered_le
  have hstage := h.stage
  generalize reportedErrors answers = es at hstage
  cases hstage with
  | reading hx hr =>
    refine ⟨rfl, fun hn => hf (h.exhausted hn).2, ⟨_, hx, hr⟩, ?_⟩
    exact pulled_of_pull hr.sound hdone (by omega) hp
  | failed _ hf' =>
    rw [hfailed] at hf'
    cases hf'

theorem Delivers.next (h : Delivers input options answers p) (hn : p.next = (a, q)) :
    Delivers input options (answers ++ [a]) q := by
  have hle := h.delivered_le
  unfold Parser.next at hn
  split at hn
  · -- A block is ready.
    cases hn
    refine ⟨?_, by dsimp only; omega, ?_, ?_⟩
    · rw [deliveredBlocks_append, h.blocks, List.range_succ]
      rfl
    · intro hmem
      have hmem : none ∈ answers := by simpa using hmem
      have := (h.exhausted hmem).1
      omega
    · rw [reportedErrors_append]
      have hstage := h.stage
      generalize reportedErrors answers = es at hstage
      cases hstage with
      | reading hx hr hf => exact .reading hx hr hf
      | failed hr hf => exact .failed hr hf
  · rename_i hb
    split at hn
    · -- There is no more.
      rename_i hf
      cases hn
      refine ⟨?_, hle, fun _ => ⟨by omega, hf⟩, ?_⟩
      · rw [deliveredBlocks_append, h.blocks]
        exact List.append_nil _
      · rw [reportedErrors_append]
        exact (List.append_nil (reportedErrors answers)).symm ▸ h.stage
    · rename_i hf
      obtain ⟨hnone, hmem, ⟨ys, hx, hr⟩, hpull⟩ := h.pulled hb hf hn
      have hblocks : deliveredBlocks (answers ++ [a]) =
          List.range p.delivered ++ deliveredBlocks [a] := by
        rw [deliveredBlocks_append, h.blocks]
      have herrors : reportedErrors (answers ++ [a]) = reportedErrors [a] := by
        rw [reportedErrors_append, hnone, List.nil_append]
      cases hpull with
      | block hx' hr' hb' =>
        refine ⟨?_, hb', ?_, ?_⟩
        · rw [hblocks, List.range_succ]
          rfl
        · intro hn
          exact absurd (by simpa using hn) hmem
        · rw [herrors]
          exact .reading (by rw [hx, hx', List.append_assoc]) (hr.append hr') rfl
      | exhausted hx' hr' hb' hd' =>
        refine ⟨?_, Nat.le_of_eq hb', fun _ => ⟨hb', by simp [hd']⟩, ?_⟩
        · rw [hblocks]
          exact List.append_nil _
        · rw [herrors]
          exact .reading (by rw [hx, hx', List.append_assoc]) (hr.append hr') rfl
      | failed hr' hb' hl' =>
        refine ⟨?_, hb', ?_, ?_⟩
        · rw [hblocks]
          exact List.append_nil _
        · intro hn
          exact absurd (by simpa using hn) hmem
        · rw [herrors]
          exact .failed (by rw [hx, (hr p.input).1, hr']) rfl

/-- **How the answers relate to the run over the whole input.** -/
theorem delivers_calls (input : List (Except LexError Token)) (options : Options) (n : Nat) :
    Delivers input options ((start input options).calls n).1 ((start input options).calls n).2 := by
  induction n with
  | zero =>
    exact ⟨rfl, Nat.zero_le _, by rintro ⟨⟩, .reading (List.nil_append _).symm (readsTo_nil _) rfl⟩
  | succ n ih => exact ih.next rfl

/-- The machine of a parser is that of a run over what has been read, which ends with the error
reported. -/
theorem Delivers.exists_run (h : Delivers input options answers p) :
    ∃ xs e, xs <+: input ∧ Machine.run { options } xs = (p.machine, e) ∧
      ∀ e', some (.error e') ∈ answers → e = some e' := by
  have hstage := h.stage
  have hmem := @mem_reportedErrors answers
  generalize reportedErrors answers = es at hstage hmem
  cases hstage with
  | @reading ys hx hr =>
    refine ⟨ys, _, ⟨_, hx.symm⟩, hr.run_eq, fun e' he => ?_⟩
    cases hmem.2 he
  | failed hr =>
    refine ⟨input, _, List.prefix_rfl, hr, fun e' he => ?_⟩
    rw [List.mem_singleton.1 (hmem.2 he)]

/-! ## Partial results -/

/-- **Partial results are valid.** At any time the tokens so far are linked, and the blocks so far
are linked and cover the first of these tokens, in order and once each. A token that has been
refused is the last one, and no block covers it. The blocks are delivered in order and once each,
all of them once there is no more, and at most one error is reported. -/
theorem calls_partial (input : List (Except LexError Token)) (options : Options) (n : Nat) :
    let answers := ((start input options).calls n).1
    let sheet := ((start input options).calls n).2.machine.sheet
    sheet.tokens.isLinked = true ∧
    (∃ k ≤ sheet.tokens.size, sheet.blocks.covers k = true ∧
      ∀ t c, some (.error (.refused t c)) ∈ answers →
        sheet.tokens.toList.getLast? = some t ∧ k < sheet.tokens.size) ∧
    deliveredBlocks answers = List.range (deliveredBlocks answers).length ∧
    (deliveredBlocks answers).length ≤ sheet.blocks.size ∧
    (reportedErrors answers).length ≤ 1 ∧
    (none ∈ answers → deliveredBlocks answers = List.range sheet.blocks.size) := by
  intro answers sheet
  have h := delivers_calls input options n
  obtain ⟨xs, e, -, hrun, herror⟩ := h.exists_run
  obtain ⟨m, hm, hlaid, hrefused⟩ := (run_ends_start kept_framed (framed_start options) hrun).laid
  obtain ⟨k, hk, hcovers⟩ := hlaid.exists_covers
  refine ⟨hlaid.tokens_linked, ⟨k, Nat.le_trans hk hm, hcovers, ?_⟩, ?_, ?_, ?_, ?_⟩
  · intro t c hmem
    obtain ⟨hlast, hlt⟩ := hrefused t c (herror _ hmem)
    exact ⟨hlast, Nat.lt_of_le_of_lt hk hlt⟩
  · simp [answers, h.blocks]
  · rw [h.blocks, List.length_range]
    exact h.delivered_le
  · have hstage := h.stage
    generalize reportedErrors _ = es at hstage ⊢
    cases hstage <;> simp
  · intro hnone
    rw [h.blocks, (h.exhausted hnone).1]

/-! ## After an error -/

/-- A parser that has failed delivers the blocks that are there, and reads no more. -/
theorem calls_of_failed (hf : p.failed = true) (k : Nat) :
    p.calls k =
      ((List.range k).map fun i =>
          if p.delivered + i < p.machine.sheet.blocks.size then some (.ok (p.delivered + i))
          else none,
        { p with delivered :=
            p.delivered + min k (p.machine.sheet.blocks.size - p.delivered) }) := by
  induction k with
  | zero => simp [calls]
  | succ k ih =>
    rw [calls, ih, List.range_succ, List.map_append, List.map_singleton]
    simp only [Parser.next, hf, Bool.true_or, if_true]
    by_cases hk : p.delivered + k < p.machine.sheet.blocks.size
    · have hmin : min k (p.machine.sheet.blocks.size - p.delivered) = k := by omega
      have hmin' : min (k + 1) (p.machine.sheet.blocks.size - p.delivered) = k + 1 := by omega
      simp only [hmin, hmin', hk, if_true, Nat.add_assoc]
    · have hmin : min (k + 1) (p.machine.sheet.blocks.size - p.delivered) =
          min k (p.machine.sheet.blocks.size - p.delivered) := by omega
      rw [if_neg hk, if_neg (by omega), hmin]

/-- The call that reports an error has come to the end of the run over the whole input. -/
theorem Delivers.failed {e : OutlineError} (h : Delivers input options answers p)
    (hn : p.next = (some (.error e), q)) :
    Machine.run { options } input = (q.machine, some e) ∧ q.failed = true ∧
      q.delivered = p.delivered ∧
      Machine.lateBlocks { options } input = q.machine.sheet.blocks.toList.drop p.delivered := by
  unfold Parser.next at hn
  split at hn
  · cases hn
  · rename_i hb
    split at hn
    · cases hn
    · rename_i hf
      obtain ⟨-, -, ⟨ys, hx, hr⟩, hpull⟩ := h.pulled hb hf hn
      obtain ⟨hrun, hlate⟩ := hr p.input
      rw [← hx] at hrun hlate
      cases hpull with
      | failed hr' _ hl' => exact ⟨hrun.trans hr', rfl, rfl, hlate.trans hl'⟩

/-- **After an error** the blocks are delivered that were completed by the token at fault, and then
nothing. So a parser is exhausted after an error just if there are no such blocks. There always are
if a name after `end` is at fault, since its block is complete by then, and never if the tokens end
or the source text has none. -/
theorem calls_after_error {n : Nat} {e : OutlineError}
    (h : (start input options).calls n = (answers ++ [some (.error e)], p)) :
    let late := Machine.lateBlocks { options } input
    ((∀ k, ∀ a ∈ (p.calls k).1, a = none) ↔ late = []) ∧
    (∀ k, (p.calls k).1 = (List.range k).map fun i =>
      if i < late.length then some (.ok ((deliveredBlocks answers).length + i)) else none) ∧
    p.machine.sheet.blocks.toList.drop (deliveredBlocks answers).length = late ∧
    (Machine.run { options } input).2 = some e ∧
    ((∃ x, e = .nameMismatch x) → late ≠ []) ∧
    ((∃ s, e = .unexpectedEnd s) ∨ (∃ l, e = .lexical l) → late = []) := by
  intro late
  cases n with
  | zero => cases answers <;> cases h
  | succ n =>
    have hd := delivers_calls input options n
    rw [calls] at h
    generalize (start input options).calls n = r at h hd
    obtain ⟨as, q⟩ := r
    dsimp only at h
    generalize hn : q.next = r at h
    obtain ⟨a, q'⟩ := r
    obtain ⟨hanswers, rfl⟩ := Prod.mk.inj h
    obtain ⟨rfl, ha⟩ := List.append_inj' hanswers rfl
    obtain rfl := List.singleton_inj.1 ha
    obtain ⟨hrun, hfailed, hdelivered, hlate⟩ := hd.failed hn
    have hlength : (deliveredBlocks as).length = q.delivered := by
      rw [hd.blocks, List.length_range]
    have hlater : ∀ k, (q'.calls k).1 = (List.range k).map fun i =>
        if i < late.length then some (.ok ((deliveredBlocks as).length + i)) else none := by
      intro k
      rw [calls_of_failed hfailed, hlength, hdelivered]
      apply List.map_congr_left
      intro i _
      have hiff : q.delivered + i < q'.machine.sheet.blocks.size ↔ i < late.length := by
        simp only [late, hlate, List.length_drop, Chain.length_toList]
        omega
      simp only [hiff]
    refine ⟨⟨?_, ?_⟩, hlater, by rw [hlength, ← hlate], by rw [hrun], ?_⟩
    · intro hall
      have := hall 1 _ (by rw [hlater]; exact List.mem_singleton_self _)
      rw [ite_eq_right_iff] at this
      exact List.length_eq_zero_iff.1 (Nat.eq_zero_of_not_pos fun hpos => by cases this hpos)
    · intro hnil k a ha
      rw [hlater k, hnil] at ha
      obtain ⟨i, -, rfl⟩ := List.mem_map.1 ha
      rfl
    · exact lateBlocks_of_run (sound_start options) rfl hrun

/-- A token that is refused at once leaves nothing to be delivered. -/
theorem calls_after_error_refused : ∃ answers t c p,
    (start (tokenize "package p begin") {}).calls 2 =
      (answers ++ [some (.error (.refused t c))], p) ∧
    ∀ k, ∀ a ∈ (p.calls k).1, a = none := by
  have hanswers : ((start (tokenize "package p begin") {}).calls 2).1 =
      [some (.ok 0)] ++ [some (.error (.refused ⟨.word, "begin", ⟨1, 11, 10⟩, ⟨1, 15, 14⟩⟩
        (.expected [Keyword.is.phrase])))] := by decide +kernel
  have hlate : Machine.lateBlocks { options := {} } (tokenize "package p begin") = [] := by
    decide +kernel
  have h : (start (tokenize "package p begin") {}).calls 2 = (_, _) := Prod.ext hanswers rfl
  exact ⟨_, _, _, _, h, (calls_after_error h).1.2 hlate⟩

/-- The end of a package is delivered after the error about its name. -/
theorem calls_deliver_end_after_mismatch : ∃ answers x p,
    (start (tokenize "package p is end q;") { strictNames := true }).calls 4 =
      (answers ++ [some (.error (.nameMismatch x))], p) ∧
    (p.calls 2).1 = [some (.ok 3), none] := by
  have hanswers : ((start (tokenize "package p is end q;") { strictNames := true }).calls 4).1 =
      [some (.ok 0), some (.ok 1), some (.ok 2)] ++
        [some (.error (.nameMismatch ⟨.package, some "p", "q", 9, ⟨1, 18, 17⟩⟩))] := by
    decide +kernel
  refine ⟨_, _, _, Prod.ext hanswers rfl, ?_⟩
  decide +kernel

end Parser

end VhdlOutline
