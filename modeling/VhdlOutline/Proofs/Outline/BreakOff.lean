import VhdlOutline.Proofs.Lossless

/-!
# Runs that break off

A run that does not come to the end of the document still leaves tokens and blocks behind. It stops
between two tokens if the tokens end or the source text has none at some place, and it breaks off in
the midst of a token if a state refuses it. `Machine.Ends` tells these endings apart, and
`Machine.run_ends` shows that they are all there are: what every turn keeps holds of a run that
stops, and of the machine whose turn fails if it breaks off.

Whatever the ending, the sheet stays laid out (`Machine.Ends.laid`), the blocks are those of the
completions (`Machine.Ends.records`) behind the start of the document (`Machine.Ends.framed`), and
the error is none of the machine's own (`Machine.Ends.ne_internal`).
-/

namespace VhdlOutline

/-- The blocks on a sheet cover its first tokens. -/
theorem Sheet.Laid.exists_covers {s : Sheet} {n : Nat} (h : s.Laid n) :
    ∃ k ≤ n, s.blocks.covers k = true := by
  obtain ⟨k, hblocks, hwaiting⟩ := tiles_append_iff.1 h.tiles
  refine ⟨k, Nat.le_trans hwaiting.le h.start_le, ?_⟩
  rw [BlockChain.covers, h.blocks_linked, Bool.true_and]
  exact (tiles_iff ..).2 hblocks

namespace Machine

variable {P : Machine → List Token → List Completion → Prop}

/-- How a run ends in the machine `m`, while every turn keeps `P`. -/
inductive Ends (P : Machine → List Token → List Completion → Prop) (m : Machine) :
    Option OutlineError → Prop
  /-- The end of the document has been read. -/
  | finished {ts : List Token} {cs : List Completion} (hs : m.Sound ts)
      (ht : m.sheet.tokens.toList = ts) (hp : P m ts cs) (hd : m.done = true) : Ends P m none
  /-- There is no further token. -/
  | stopped {ts : List Token} {cs : List Completion} {e : OutlineError} (hs : m.Sound ts)
      (ht : m.sheet.tokens.toList = ts) (hp : P m ts cs) (hd : m.done = false)
      (he : e = .unexpectedEnd m.control.name ∨ ∃ l, e = .lexical l) : Ends P m (some e)
  /-- The token `t`, which was handed on to the machine `k`, is the cause of an error. -/
  | failed {k : Machine} {ts : List Token} {t : Token} {cs ds : List Completion}
      {e : OutlineError} (hs : k.Sound ts) (ht : k.sheet.tokens.toList = ts ++ [t])
      (hp : P k ts cs) (hd : k.done = false) (hm : Turn k t ds m (.failed e)) : Ends P m (some e)

/-! ## Every run ends in one of these ways -/

/-- Both of two properties are kept if each of them is. -/
theorem Kept.and {Q : Machine → List Token → List Completion → Prop} (hP : Kept P) (hQ : Kept Q) :
    Kept fun m ts cs => P m ts cs ∧ Q m ts cs where
  push t h := ⟨hP.push t h.1, hQ.push t h.2⟩
  handedOn hs ht hd hm h := ⟨hP.handedOn hs ht hd hm h.1, hQ.handedOn hs ht hd hm h.2⟩
  taken hs ht hd hm ht' h := ⟨hP.taken hs ht hd hm ht' h.1, hQ.taken hs ht hd hm ht' h.2⟩

/-- A token that is the cause of an error has been handed on to a machine whose turn fails. -/
theorem Kept.settleToken_failed (hP : Kept P) {m m' : Machine} {ts : List Token} {t : Token}
    {cs : List Completion} {n : Nat} {e : OutlineError} (h : m.Sound ts)
    (ht : m.sheet.tokens.toList = ts ++ [t]) (hd : m.done = false) (hp : P m ts cs)
    (hn : m.handovers t < n) (hs : m.settleToken t n = (m', some e)) :
    ∃ k cs ds, k.Sound ts ∧ k.sheet.tokens.toList = ts ++ [t] ∧ P k ts cs ∧ k.done = false ∧
      Turn k t ds m' (.failed e) := by
  induction n generalizing m cs with
  | zero => omega
  | succ n ih =>
    rw [Machine.settleToken] at hs
    generalize hv : m.visit t = r at hs
    obtain ⟨k, v⟩ := r
    have hturn := turn_of_visit h.fits hv
    cases v with
    | taken => cases hs
    | handedOn =>
      obtain ⟨htok, hsound, hlt⟩ := h.handedOn ht hturn
      have hk := hP.handedOn h ht hd hturn hp
      exact ih hsound htok (hturn.done_of_handedOn.trans hd) hk (by omega) hs
    | failed e =>
      cases hs
      exact ⟨m, cs, _, h, ht, hp, hd, hturn⟩

theorem Kept.feed_failed (hP : Kept P) {m m' : Machine} {ts : List Token} {cs : List Completion}
    (h : m.Sound ts) (ht : m.sheet.tokens.toList = ts) (hd : m.done = false) (hp : P m ts cs)
    {t : Token} {e : OutlineError} (hf : m.feed t = (m', some e)) :
    ∃ k cs ds, k.Sound ts ∧ k.sheet.tokens.toList = ts ++ [t] ∧ P k ts cs ∧ k.done = false ∧
      Turn k t ds m' (.failed e) := by
  refine hP.settleToken_failed (h.push t) ?_ hd (hP.push t hp) (handovers_lt _ _) hf
  simp [Sheet.push, ht]

/-- **How runs end.** -/
theorem run_ends (hP : Kept P) {m m' : Machine} {ts : List Token} {cs : List Completion}
    (h : m.Sound ts) (ht : m.sheet.tokens.toList = ts) (hp : P m ts cs)
    {xs : List (Except LexError Token)} {e : Option OutlineError} (hr : m.run xs = (m', e)) :
    m'.Ends P e := by
  induction xs generalizing m ts cs with
  | nil =>
    rw [run] at hr
    split at hr
    · cases hr
      exact .finished h ht hp ‹_›
    · cases hr
      exact .stopped h ht hp (Bool.eq_false_iff.2 ‹_›) (.inl rfl)
  | cons x xs ih =>
    simp only [run] at hr
    cases hd : m.done with
    | true =>
      rw [if_pos hd] at hr
      cases hr
      exact .finished h ht hp hd
    | false =>
      rw [if_neg (by simp [hd])] at hr
      cases x with
      | error l =>
        cases hr
        exact .stopped h ht hp hd (.inr ⟨l, rfl⟩)
      | ok t =>
        dsimp only at hr
        generalize hf : m.feed t = r at hr
        obtain ⟨k, _ | f⟩ := r
        · obtain ⟨t', -, htok, hsound, -, hk⟩ := hP.feed h ht hd hp hf
          exact ih hsound htok hk hr
        · cases hr
          obtain ⟨_, _, _, hs, htok, hk, hkd, hturn⟩ := hP.feed_failed h ht hd hp hf
          exact .failed hs htok hk hkd hturn

/-- How a whole run ends. -/
theorem run_ends_start (hP : Kept P) {options : Options} (hp : P { options } [] [])
    {xs : List (Except LexError Token)} {m : Machine} {e : Option OutlineError}
    (hr : Machine.run { options } xs = (m, e)) : m.Ends P e :=
  run_ends hP (sound_start options) rfl hp hr

/-! ## What holds at the end of any run -/

variable {m : Machine} {e : Option OutlineError}

/-- A run never breaks off because the machine is inconsistent. -/
theorem Ends.ne_internal (h : m.Ends P e) (state : String) (fault : MachineFault) :
    e ≠ some (.internal state fault) := by
  rintro rfl
  cases h with
  | stopped _ _ _ _ he => rcases he with he | ⟨l, he⟩ <;> cases he
  | failed _ _ _ _ hm => rcases hm.failed with ⟨c, he⟩ | ⟨x, he⟩ <;> cases he

/-- The sheet is laid out up to some token. A token that has been refused is the last one, and the
sheet is laid out no further than up to it. -/
theorem Ends.laid (h : m.Ends P e) : ∃ n ≤ m.sheet.tokens.size, m.sheet.Laid n ∧
    ∀ t c, e = some (.refused t c) →
      m.sheet.tokens.toList.getLast? = some t ∧ n < m.sheet.tokens.size := by
  cases h with
  | finished hs ht =>
    refine ⟨_, ?_, hs.laid, by simp⟩
    rw [← ht, Chain.length_toList]
  | stopped hs ht _ _ he =>
    refine ⟨_, ?_, hs.laid, ?_⟩
    · rw [← ht, Chain.length_toList]
    · rintro t c ⟨⟩
      rcases he with he | ⟨l, he⟩ <;> cases he
  | @failed k ts t _ _ e hs ht _ _ hm =>
    cases hm with
    | mismatch _ _ hr _ hm =>
      have hi := Sheet.index_eq ht
      have hlaid : k.sheet.Laid k.sheet.index := hi ▸ hs.laid
      refine ⟨_, ?_, hm.sheet ▸ hlaid.taking _ _ _, by simp⟩
      rw [← Chain.length_toList, hm.sheet, Sheet.toList_tokens_taking ht]
      simp [hi]
    | refuse _ _ _ hm =>
      have hsize : m.sheet.tokens.size = ts.length + 1 := by
        rw [← Chain.length_toList, hm.sheet, ht, List.length_append, List.length_singleton]
      refine ⟨ts.length, by omega, hm.sheet ▸ hs.laid, ?_⟩
      rintro u c ⟨⟩
      exact ⟨by rw [hm.sheet, ht, List.getLast?_concat], by omega⟩

/-- The blocks are those that have been completed, blanks and comments aside. -/
theorem Ends.records (h : m.Ends (fun m _ cs => m.Records cs) e) : ∃ cs, m.Records cs := by
  cases h with
  | finished _ _ hp => exact ⟨_, hp⟩
  | stopped _ _ hp => exact ⟨_, hp⟩
  | failed hs ht hp _ hm => exact ⟨_, hp.turn hs ht hm⟩

/-- A turn that fails leaves the frame of the document as it is. -/
theorem Framed.failed {k : Machine} {ts : List Token} {t : Token} {cs : List Completion}
    {e : OutlineError} (hfr : k.Framed) (hs : k.Sound ts) (ht : k.sheet.tokens.toList = ts ++ [t])
    (hd : k.done = false) (hm : Turn k t cs m (.failed e)) : m.Framed := by
  obtain ⟨bs, hb, hbs⟩ := hm.blocks
  have hsent := @Turn.not_isSentinel _ _ _ _ _ _ hm hs ht
  cases hm with
  | mismatch _ _ hr _ hm =>
    have hallows := State.allows_of_react hr
    have hstart : k.control.state ≠ .documentStart := by
      -- No name is compared at the start of the document.
      intro h
      rw [h] at hr
      simp only [State.react, Outline.documentStart] at hr
      split at hr <;> cases hr
    refine hfr.append hstart hd hb ?_ (by rwa [hm.control]) hm.done
    rcases hbs with rfl | ⟨-, hskip⟩
    · exact hsent hallows rfl hstart (by simp)
    · exact fun b hb => BlockKind.not_isSentinel (.inr (hskip b hb).1)
  | refuse _ _ _ hm =>
    refine ⟨?_, ?_, ?_⟩
    · rw [hm.control, hm.sheet]
      exact hfr.unopened
    · rw [hm.control, hm.sheet, hm.done]
      exact hfr.opened
    · rw [hm.control, hm.done]
      exact hfr.closed

/-- The start of the document is the first block, and its end the last one if it has been read. -/
theorem Ends.framed (h : m.Ends (fun m _ _ => m.Framed) e) : m.Framed := by
  cases h with
  | finished _ _ hp => exact hp
  | stopped _ _ hp => exact hp
  | failed hs ht hp hd hm => exact hp.failed hs ht hd hm

end Machine

end VhdlOutline
