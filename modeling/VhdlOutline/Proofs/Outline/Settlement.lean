import VhdlOutline.Proofs.Group.Unfinished
import VhdlOutline.Proofs.Lexeme.Partition
import VhdlOutline.Proofs.Outline.Consistency

/-!
# The end of the document settles the outline

No state takes the end of the document into a block (`State.Allows.not_isEnd_of_take`): it is handed
on until it is refused, or accepted between design units. So a machine that is shown it has failed
or is done, and once it is done nothing is left open (`Machine.Settled`).

* `Parser.Progress`: how far a parser comes in an input with an end of the document in it.
* `Parser.calls_settle`: no parser reads beyond the end of the document, and no source text ends too
  early for its outline.
-/

namespace VhdlOutline

/-- No state takes the end of the document into a block. -/
theorem State.Allows.not_isEnd_of_take {s : State} {t : Token} {before closing : Option BlockKind}
    {next : Next} (h : s.Allows t (.take before closing next)) : t.kind ≠ .endOfDocument := by
  intro hk
  have hkeyword : t.keyword? = none := by simp [Token.keyword?, hk]
  have hname : t.isName = false := by simp [Token.isName, hk]
  have hchar : ∀ c, t.isChar c = false := by simp [Token.isChar, hk]
  have hword : ∀ k, t.isKeyword k = false := by simp [Token.isKeyword, hkeyword]
  have hcompound : ∀ s, t.isCompound s = false := by simp [Token.isCompound, hk]
  cases h with
  -- The states that take tokens of almost any kind make an exception here.
  | functionType h | objectType h | interfaceSubtype h => simp [Outline.subtypeStep, hk] at h
  | expressionToken h => simp [Outline.expressionToken, hk, Outcome.expected, Outcome.take] at h
  | targetToken h => simp [Outline.targetRest, hk, Outcome.expected, Outcome.take] at h
  | processToken h => simp [Outline.process, hk, Outcome.expected, Outcome.take] at h
  | endName _ h => simp [Outline.isEndName, hname, hk] at h
  | _ => simp_all

/-! ## Machines that are shown the end of the document -/

namespace Machine

variable {m k : Machine} {ts : List Token} {t : Token} {cs : List Completion} {e : OutlineError}

/-- A turn that takes the end of the document finishes. -/
theorem Turn.done_of_isEnd (hm : Turn m t cs k .taken) (hk : t.kind = .endOfDocument) :
    k.done = true := by
  have htr : t.kind.isTrivia = false := by
    rw [hk]
    rfl
  cases hm with
  | trivium ht | absorb ht =>
    rw [htr] at ht
    cases ht
  | take _ _ hr => exact absurd hk (State.allows_of_react hr).not_isEnd_of_take
  | finish _ _ _ hm => exact hm.done

theorem Turn.done_of_failed (hm : Turn m t cs k (.failed e)) : k.done = m.done := by
  cases hm <;> exact ‹Becomes ..›.done

/-- A run that breaks off is not done. -/
theorem Ends.not_done {P : Machine → List Token → List Completion → Prop}
    (h : m.Ends P (some e)) : m.done = false := by
  cases h with
  | stopped _ _ _ hd => exact hd
  | failed _ _ _ hd hm => exact hm.done_of_failed.trans hd

/-- However often it is handed on, the end of the document is not taken otherwise. -/
theorem Sound.done_of_settleToken {n : Nat} (h : m.Sound ts)
    (ht : m.sheet.tokens.toList = ts ++ [t]) (hk : t.kind = .endOfDocument)
    (hs : m.settleToken t n = (k, none)) : k.done = true := by
  induction n generalizing m with
  | zero => cases hs
  | succ n ih =>
    rw [settleToken] at hs
    generalize hv : m.visit t = r at hs
    obtain ⟨m', v⟩ := r
    have hturn := turn_of_visit h.fits hv
    cases v with
    | taken =>
      cases hs
      exact hturn.done_of_isEnd hk
    | handedOn =>
      obtain ⟨htok, hsound, -⟩ := h.handedOn ht hturn
      exact ih hsound htok hs
    | failed e => cases hs

/-- **The end of the document settles a machine**: the machine fails or is done. -/
theorem Sound.done_of_feed (h : m.Sound m.sheet.tokens.toList) (hk : t.kind = .endOfDocument)
    (hf : m.feed t = (k, none)) : k.done = true :=
  (h.push t).done_of_settleToken (by simp [Sheet.push]) hk hf

theorem Sound.not_done_of_feed (h : m.Sound m.sheet.tokens.toList) (hd : m.done = false)
    (hk : t.kind ≠ .endOfDocument) (hf : m.feed t = (k, none)) : k.done = false := by
  obtain ⟨_, -, -, -, hend, -⟩ :=
    @Kept.feed _ (kept_options m.options) m k _ [] h rfl hd rfl t hf
  exact Bool.eq_false_iff.2 fun hkd => hk (hend hkd)

/-- A token at which a machine fails is at fault itself. -/
theorem Sound.feed_failed (h : m.Sound m.sheet.tokens.toList) (hd : m.done = false)
    (hf : m.feed t = (k, some e)) :
    k.done = false ∧ ((∃ c, e = .refused t c) ∨ ∃ x, e = .nameMismatch x) := by
  obtain ⟨m', _, _, -, -, -, hd', hturn⟩ :=
    @Kept.feed_failed _ (kept_options m.options) m k _ [] h rfl hd rfl t e hf
  exact ⟨hturn.done_of_failed.trans hd', hturn.failed⟩

/-- A run to which the tokens end too early has met neither an error nor the end of the
document. -/
theorem not_isEnd_of_unexpectedEnd {xs : List (Except LexError Token)} {state : String}
    (h : m.Sound m.sheet.tokens.toList) (hr : m.run xs = (k, some (.unexpectedEnd state))) :
    ∀ x ∈ xs, ∃ t, x = .ok t ∧ t.kind ≠ .endOfDocument := by
  induction xs generalizing m with
  | nil => simp
  | cons x xs ih =>
    simp only [run] at hr
    cases hd : m.done with
    | true => simp [hd] at hr
    | false =>
      rw [if_neg (by simp [hd])] at hr
      cases x with
      | error l => cases hr
      | ok t =>
        dsimp only at hr
        generalize hf : m.feed t = r at hr
        obtain ⟨m', _ | e⟩ := r
        · have hk : t.kind ≠ .endOfDocument := by
            intro hk
            have hd' := h.done_of_feed hk hf
            cases xs <;> simp [run, hd'] at hr
          exact List.forall_mem_cons.2 ⟨⟨t, rfl, hk⟩, ih (h.feed hd hf).1 hr⟩
        · cases hr
          rcases (h.feed_failed hd hf).2 with ⟨c, he⟩ | ⟨x, he⟩ <;> cases he

/-- A run without an error reads up to the first end of the document, and no further. -/
theorem Sound.reads_to_end {xs : List (Except LexError Token)}
    (h : m.Sound m.sheet.tokens.toList) (hd : m.done = false) (hr : m.run xs = (k, none)) :
    ∃ (us : List Token) (e : Token) (rest : List (Except LexError Token)),
      xs = us.map .ok ++ .ok e :: rest ∧ (∀ u ∈ us, u.kind ≠ .endOfDocument) ∧
      e.kind = .endOfDocument ∧
      k.sheet.tokens.size = m.sheet.tokens.size + (us.length + 1) := by
  induction xs generalizing m with
  | nil => simp [run, hd] at hr
  | cons x xs ih =>
    simp only [run, hd, Bool.false_eq_true, if_false] at hr
    cases x with
    | error l => cases hr
    | ok t =>
      dsimp only at hr
      generalize hf : m.feed t = r at hr
      obtain ⟨n, _ | e⟩ := r
      · obtain ⟨hn, -, hsize⟩ := h.feed hd hf
        by_cases hk : t.kind = .endOfDocument
        · have hnd := h.done_of_feed hk hf
          obtain rfl : n = k := by cases xs <;> simpa [run, hnd] using hr
          exact ⟨[], t, xs, rfl, by simp, hk, hsize⟩
        · obtain ⟨us, e, rest, rfl, hus, he, hk'⟩ := ih hn (h.not_done_of_feed hd hk hf) hr
          refine ⟨t :: us, e, rest, rfl, List.forall_mem_cons.2 ⟨hk, hus⟩, he, ?_⟩
          rw [hk', hsize, List.length_cons]
          omega
      · cases hr

/-! ## What is left once a machine is done -/

/-- Nothing is left open: no state is to be resumed, no fragment waits, and no token has been read
that belongs to no block. -/
structure Settled (m : Machine) : Prop where
  stack : m.control.stack = []
  openings : m.control.openings = []
  waiting : m.sheet.waiting = []
  start : m.sheet.start = m.sheet.tokens.size

theorem Framed.settled (h : m.Framed) (hs : m.Sound m.sheet.tokens.toList) (hd : m.done = true) :
    m.Settled := by
  have hregion := h.closed hd
  have hclean := hs.stands
  rw [hregion] at hclean
  have hstack := hs.fits.stack_eq_nil (by rw [hregion]; rfl)
  refine ⟨hstack, ?_, hclean.1, ?_⟩
  · rw [Control.openings_eq, hregion, hstack]
    rfl
  · rw [hclean.2, Chain.length_toList]

/-- The constructs that a run has opened and not closed, if it starts with the given ones. -/
def openingsFrom (m : Machine) (os : List Opening) : List (Except LexError Token) → List Opening
  | .ok t :: xs =>
    if m.done then os
    else
      let os' := ({ m with sheet := m.sheet.push t }.settleVisits t 0 os visitLimit).2
      match m.feed t with
      | (k, none) => k.openingsFrom os' xs
      | (_, some _) => os'
  | _ => os

/-- The states that a run comes to know which constructs have been opened and not closed. -/
theorem openingsFrom_eq {os : List Opening} {xs : List (Except LexError Token)} (hs : m.Sound ts)
    (ht : m.sheet.tokens.toList = ts) (hp : m.Regular ts ∧ m.Framed)
    (hos : m.control.openings = os) (hr : m.run xs = (k, none)) :
    m.openingsFrom os xs = k.control.openings := by
  induction xs generalizing m ts os with
  | nil =>
    rw [run] at hr
    split at hr <;> cases hr
    exact hos.symm
  | cons x xs ih =>
    simp only [run] at hr
    cases hd : m.done with
    | true =>
      rw [if_pos hd] at hr
      cases hr
      cases x <;> simp [openingsFrom, hd, hos]
    | false =>
      rw [if_neg (by simp [hd])] at hr
      cases x with
      | error l => cases hr
      | ok t =>
        dsimp only at hr
        rw [openingsFrom, if_neg (by simp [hd])]
        have hpush := @Kept.push _ kept_orderly _ _ [] t hp
        have htok : (m.sheet.push t).tokens.toList = ts ++ [t] := by simp [Sheet.push, ht]
        have hend := (@settleVisits_holds _ _ _ _ 0 visitLimit (hs.push t) htok hd hpush
          ((Nat.zero_add _).symm ▸ handovers_le _ t) hos).2
        generalize hf : m.feed t = r at hr
        obtain ⟨m', _ | e⟩ := r
        · obtain ⟨t', -, htok', hsound, -, hk⟩ :=
            @Kept.feed _ kept_orderly _ _ _ [] hs ht hd hp t hf
          exact ih hsound htok' hk (hend m' hf) hr
        · cases hr

end Machine

/-- The constructs that the run over a sequence of tokens has opened and not closed. -/
def openConstructs (input : List (Except LexError Token)) (options : Options) : List Opening :=
  Machine.openingsFrom { options } [] input

/-! ## Parsers that meet the end of the document -/

namespace Parser

open Machine

/-- A parser that has failed or is done reads no more. -/
def IsSettled (p : Parser) : Prop := p.failed = true ∨ p.machine.done = true

/-- How far a parser has come in an input with the end of the document `e`, and `rest` after it. -/
inductive Progress (e : Token) (rest : List (Except LexError Token)) (p : Parser) : Prop
  | before {zs : List (Except LexError Token)} (hx : p.input = zs ++ .ok e :: rest)
      (hz : ∀ t, .ok t ∈ zs → t.kind ≠ .endOfDocument) (hd : p.machine.done = false) :
      Progress e rest p
  | settled (hx : p.input = rest) (h : p.IsSettled) : Progress e rest p

variable {e : Token} {rest zs : List (Except LexError Token)} {p : Parser}

/-- Reading on comes to a stop at the end of the document at the latest. -/
theorem progress_pull {m : Machine} (d : Nat) (he : e.kind = .endOfDocument)
    (hz : ∀ t, .ok t ∈ zs → t.kind ≠ .endOfDocument) (h : m.Sound m.sheet.tokens.toList)
    (hd : m.done = false) : Progress e rest (pull m d (zs ++ .ok e :: rest)).2 := by
  induction zs generalizing m with
  | nil =>
    rw [List.nil_append, pull]
    generalize hf : m.feed e = r
    obtain ⟨k, _ | f⟩ := r
    · have hkd := h.done_of_feed he hf
      dsimp only
      split
      · exact .settled rfl (.inr hkd)
      · exact .settled rfl (.inr hkd)
    · exact .settled rfl (.inl rfl)
  | cons x zs ih =>
    have hzs : ∀ t, .ok t ∈ zs → t.kind ≠ .endOfDocument :=
      fun t ht => hz t (List.mem_cons_of_mem _ ht)
    cases x with
    | error l => exact .before rfl hzs hd
    | ok t =>
      rw [List.cons_append, pull]
      generalize hf : m.feed t = r
      obtain ⟨k, _ | f⟩ := r
      · have hkd := h.not_done_of_feed hd (hz t List.mem_cons_self) hf
        dsimp only
        split
        · exact .before rfl hzs hkd
        · rw [if_neg (by simp [hkd])]
          exact ih hzs (h.feed hd hf).1 hkd
      · exact .before rfl hzs (h.feed_failed hd hf).1

theorem Progress.next (h : Progress e rest p) (he : e.kind = .endOfDocument)
    (hs : p.failed = false → p.machine.Sound p.machine.sheet.tokens.toList) :
    Progress e rest p.next.2 := by
  unfold Parser.next
  split
  · cases h with
    | before hx hz hd => exact .before hx hz hd
    | settled hx h => exact .settled hx h
  · split
    · exact h
    · rename_i hf
      obtain ⟨hfailed, hdone⟩ : p.failed = false ∧ p.machine.done = false := by simpa using hf
      cases h with
      | before hx hz hd =>
        rw [hx]
        exact progress_pull _ he hz (hs hfailed) hd
      | settled _ h => simp [IsSettled, hfailed, hdone] at h

theorem progress_calls {read : List (Except LexError Token)} (options : Options)
    (hread : ∀ t, .ok t ∈ read → t.kind ≠ .endOfDocument) (he : e.kind = .endOfDocument) (n : Nat) :
    Progress e rest ((start (read ++ .ok e :: rest) options).calls n).2 := by
  induction n with
  | zero => exact .before rfl hread rfl
  | succ n ih =>
    refine ih.next he fun hf => ?_
    have hstage := (delivers_calls (read ++ .ok e :: rest) options n).stage
    generalize reportedErrors _ = es at hstage
    cases hstage with
    | reading _ hr => exact hr.sound
    | failed _ hf' =>
      rw [hf] at hf'
      cases hf'

theorem length_input_pull (m : Machine) (d : Nat) (xs : List (Except LexError Token)) :
    (pull m d xs).2.IsSettled ∨ (pull m d xs).2.input.length < xs.length := by
  induction xs generalizing m with
  | nil => exact .inl (.inl rfl)
  | cons x xs ih =>
    cases x with
    | error l => exact .inl (.inl rfl)
    | ok t =>
      rw [pull]
      generalize m.feed t = r
      obtain ⟨k, _ | e⟩ := r
      · dsimp only
        split
        · exact .inr (Nat.lt_succ_self _)
        · split
          · exact .inr (Nat.lt_succ_self _)
          · exact (ih k).imp_right Nat.lt_succ_of_lt
      · exact .inl (.inl rfl)

/-- What is left to do: the tokens to be read, and the blocks that can be delivered before. -/
def work (p : Parser) : Nat × Nat :=
  (p.input.length, p.machine.sheet.blocks.size - p.delivered)

theorem work_next (h : ¬ p.IsSettled) :
    p.next.2.IsSettled ∨ Prod.Lex (· < ·) (· < ·) p.next.2.work p.work := by
  unfold Parser.next
  split
  · exact .inr (.right _ (by dsimp only; omega))
  · rw [if_neg (by simpa [IsSettled] using h)]
    exact (length_input_pull _ _ _).imp_right (.left _ _)

/-- A parser that is called again and again comes to an end. -/
theorem exists_isSettled (p : Parser) (n : Nat) : ∃ k, (p.calls k).2.IsSettled := by
  by_cases h : (p.calls n).2.IsSettled
  · exact ⟨n, h⟩
  by_cases h' : (p.calls (n + 1)).2.IsSettled
  · exact ⟨n + 1, h'⟩
  exact exists_isSettled p (n + 1)
termination_by (p.calls n).2.work
decreasing_by exact (work_next h).resolve_left h'

/-- What is left of a parser that is done, on its way through `read` and the end of the document. -/
theorem settled_of_done {read : List (Except LexError Token)} {options : Options} {n : Nat}
    (hd : ((start (read ++ .ok e :: rest) options).calls n).2.machine.done = true)
    (hx : ((start (read ++ .ok e :: rest) options).calls n).2.input = rest) :
    ((start (read ++ .ok e :: rest) options).calls n).2.machine.Settled ∧
      openConstructs (read ++ [.ok e]) options = [] := by
  have hstage := (delivers_calls (read ++ .ok e :: rest) options n).stage
  generalize ((start (read ++ .ok e :: rest) options).calls n).2 = p at hd hx hstage
  generalize reportedErrors _ = es at hstage
  cases hstage with
  | @reading ys hys hr =>
    obtain rfl : ys = read ++ [.ok e] := by
      rw [hx, List.append_cons] at hys
      exact (List.append_cancel_right hys).symm
    obtain ⟨hsound, _, hregular, hframed⟩ :=
      hr.kept kept_orderly ⟨regular_start options, framed_start options⟩
    have hsettled := hframed.settled hsound hd
    refine ⟨hsettled, ?_⟩
    have hrun : Machine.run { options } (read ++ [.ok e]) = (p.machine, none) := by
      rw [hr.run_eq, if_pos hd]
    have hopen : openConstructs (read ++ [.ok e]) options = p.machine.control.openings :=
      openingsFrom_eq (sound_start options) rfl
        ⟨regular_start options, framed_start options⟩ rfl hrun
    exact hopen.trans hsettled.openings
  | failed hr =>
    have hends := run_ends_start (kept_options options) rfl hr
    rw [hends.not_done] at hd
    cases hd

end Parser

/-! ## How parsing a source text ends -/

/-- The error of a run over the tokens of a source text is due to the text. -/
theorem error_of_run_tokenize {source : String} {options : Options} {m : Machine}
    {e : OutlineError} (hr : Machine.run { options } (tokenize source) = (m, some e)) :
    (∃ l, e = .lexical l) ∨ (∃ t c, e = .refused t c) ∨
      (options.strictNames = true ∧ ∃ x, e = .nameMismatch x) := by
  cases Machine.run_ends_start (Machine.kept_options options) rfl hr with
  | stopped _ _ _ _ he =>
    rcases he with rfl | ⟨l, rfl⟩
    · -- The tokens of a source text end with an error or with the end of the document.
      have hno := Machine.not_isEnd_of_unexpectedEnd (Machine.sound_start options) hr
      obtain ⟨ts, q, hreads, hq⟩ := (Place.ofSource source).exists_reads
      obtain ⟨last, hlast, hend⟩ := hq.exists_last
      obtain ⟨t, ht, hk⟩ := hno last (by simp [tokenize_eq, hreads.tokens, hlast])
      exact absurd (hend t ht) hk
    · exact .inl ⟨l, rfl⟩
  | failed _ _ hopt _ hm =>
    cases hm with
    | mismatch _ _ _ hx => exact .inr (.inr ⟨hopt ▸ hx, _, rfl⟩)
    | refuse => exact .inr (.inl ⟨_, _, rfl⟩)

theorem parseDocument_of_run {source : String} {options : Options} {m : Machine}
    {e : Option OutlineError} (hr : Machine.run { options } (tokenize source) = (m, e)) :
    (e = none ∧ ∃ gs, parseDocument source options = .ok (m.document, gs)) ∨
      ∃ f, e = some f ∧ parseDocument source options = .error (.outline f) := by
  cases e with
  | none =>
    obtain ⟨gs, hgs, -⟩ := Machine.reduce_of_run hr
    rw [Machine.missing, if_pos (Machine.done_of_run hr), List.append_nil] at hgs
    have hgroups : groupBlocks m.document.blocks = .ok (Chain.empty.append gs) :=
      groupBlocks_of_reduce hgs
    exact .inl ⟨rfl, Chain.empty.append gs, by simp [parseDocument, outline, hr, hgroups]⟩
  | some f => exact .inr ⟨f, rfl, by simp [parseDocument, outline, hr]⟩

/-- **The end of the document settles the outline.** A parser reads no token after the first end of
the document. Once it has read that, it has failed or is done, and it comes so far or fails before.
Once it is done, no state is to be resumed, no construct is open, no fragment waits and no token is
left over. So parsing a source text succeeds, or fails because of a piece of text that is no token,
a token that is refused, or, if names are strict, a name. -/
theorem Parser.calls_settle {read rest : List (Except LexError Token)} {e : Token}
    (options : Options) (hread : ∀ t, .ok t ∈ read → t.kind ≠ .endOfDocument)
    (he : e.kind = .endOfDocument) :
    (∀ n, let p := ((Parser.start (read ++ .ok e :: rest) options).calls n).2
      rest <:+ p.input ∧
      (p.input = rest → p.failed = true ∨ p.machine.done = true) ∧
      (p.machine.done = true → p.input = rest ∧ p.machine.control.stack = [] ∧
        openConstructs (read ++ [.ok e]) options = [] ∧ p.machine.sheet.waiting = [] ∧
        p.machine.sheet.start = p.machine.sheet.tokens.size)) ∧
    (∃ n, let p := ((Parser.start (read ++ .ok e :: rest) options).calls n).2
      p.failed = true ∨ p.machine.done = true) ∧
    ∀ (source : String) (options : Options),
      (∃ d gs, parseDocument source options = .ok (d, gs)) ∨
      (∃ l, parseDocument source options = .error (.outline (.lexical l))) ∨
      (∃ t c, parseDocument source options = .error (.outline (.refused t c))) ∨
      (options.strictNames = true ∧
        ∃ x, parseDocument source options = .error (.outline (.nameMismatch x))) := by
  refine ⟨fun n => ?_, exists_isSettled _ 0, fun source options => ?_⟩
  · intro p
    have hprogress : Progress e rest p := progress_calls options hread he n
    cases hprogress with
    | before hx hz hd =>
      refine ⟨?_, fun hrest => ?_, fun hdone => ?_⟩
      · rw [hx, List.append_cons]
        exact List.suffix_append _ _
      · have hlength := congrArg List.length (hx.symm.trans hrest)
        simp only [List.length_append, List.length_cons] at hlength
        omega
      · rw [hd] at hdone
        cases hdone
    | settled hx h =>
      refine ⟨hx ▸ List.suffix_refl _, fun _ => h, fun hd => ⟨hx, ?_⟩⟩
      obtain ⟨hsettled, hopen⟩ := settled_of_done hd hx
      exact ⟨hsettled.stack, hopen, hsettled.waiting, hsettled.start⟩
  · generalize hr : Machine.run { options } (tokenize source) = r
    obtain ⟨m, e⟩ := r
    rcases parseDocument_of_run hr with ⟨-, gs, hok⟩ | ⟨f, rfl, herror⟩
    · exact .inl ⟨_, gs, hok⟩
    · rw [herror]
      rcases error_of_run_tokenize hr with ⟨l, rfl⟩ | ⟨t, c, rfl⟩ | ⟨hstrict, x, rfl⟩
      · exact .inr (.inl ⟨l, rfl⟩)
      · exact .inr (.inr (.inl ⟨t, c, rfl⟩))
      · exact .inr (.inr (.inr ⟨hstrict, x, rfl⟩))

/-- The end of the document after a package, with tokens after it that are not read. -/
theorem Parser.calls_settle_package :
    ∃ (read rest : List (Except LexError Token)) (e : Token),
      let p := ((Parser.start (read ++ .ok e :: rest) {}).calls 10).2
      rest ≠ [] ∧ p.machine.done = true ∧ p.input = rest ∧ p.machine.control.stack = [] ∧
        openConstructs (read ++ [.ok e]) {} = [] := by
  have hread : ∀ x ∈ (tokenize "package p is end;").dropLast,
      (x.toOption.map Token.kind) ≠ some .endOfDocument := by decide +kernel
  have hdone : ((Parser.start ((tokenize "package p is end;").dropLast ++
      .ok (.synthetic .endOfDocument "") :: [.ok (.synthetic .word "x")]) {}).calls
        10).2.machine.done = true := by decide +kernel
  have hno : ∀ t, .ok t ∈ (tokenize "package p is end;").dropLast → t.kind ≠ .endOfDocument :=
    fun t ht => by simpa [Except.toOption] using hread _ ht
  have hsettled := ((Parser.calls_settle {} hno rfl).1 10).2.2 hdone
  exact ⟨_, _, _, by simp, hdone, hsettled.1, hsettled.2.1, hsettled.2.2.1⟩

end VhdlOutline
