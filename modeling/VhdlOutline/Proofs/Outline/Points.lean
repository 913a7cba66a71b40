import VhdlOutline.Proofs.Outline.Delivery

/-!
# The points of a run

A run passes a point between any two tokens, a point each time a token is shown to a state, and it
may come to a last point where a token is at fault. `Machine.Passes` lists these points, each with
the tokens read up to it and the blocks completed so far, so that a statement can be about what
holds in the midst of a run, or about what a run does from there on.

* `Machine.Passes.holds`: what every turn keeps holds at every point.
* `Machine.Passes.run_eq`: what a run does from a point on.
* `Machine.passes_run` and `Parser.passes_calls`: the machine that a run or a parser leaves behind
  is at such a point.
-/

namespace VhdlOutline

namespace Machine

/-- Where a run stands. -/
inductive Standing
  /-- Between two tokens. -/
  | between
  /-- The token `t` is next shown to the current state. It may be shown `n` more times. -/
  | facing (t : Token) (n : Nat)
  /-- A token has been found at fault. -/
  | broken (e : OutlineError)

/-- A run with the given options that has read the tokens `pre` and completed the blocks `cs` stands
as given at the machine `m`. -/
inductive Passes (options : Options) :
    List Token → Machine → Standing → List Completion → Prop
  | start : Passes options [] { options } .between []
  | push {pre : List Token} {m : Machine} {cs : List Completion} (t : Token)
      (h : Passes options pre m .between cs) (hd : m.done = false) :
      Passes options pre { m with sheet := m.sheet.push t } (.facing t visitLimit) cs
  | taken {pre : List Token} {m m' : Machine} {t : Token} {n : Nat} {cs : List Completion}
      (h : Passes options pre m (.facing t (n + 1)) cs) (hv : m.visit t = (m', .taken)) :
      Passes options (pre ++ [t]) m' .between (cs ++ m.completed t)
  | handedOn {pre : List Token} {m m' : Machine} {t : Token} {n : Nat} {cs : List Completion}
      (h : Passes options pre m (.facing t (n + 1)) cs) (hv : m.visit t = (m', .handedOn)) :
      Passes options pre m' (.facing t n) (cs ++ m.completed t)
  | failed {pre : List Token} {m m' : Machine} {t : Token} {n : Nat} {cs : List Completion}
      {e : OutlineError} (h : Passes options pre m (.facing t (n + 1)) cs)
      (hv : m.visit t = (m', .failed e)) :
      Passes options (pre ++ [t]) m' (.broken e) (cs ++ m.completed t)

variable {options : Options} {pre : List Token} {m m' : Machine} {t : Token} {n : Nat}
  {cs : List Completion} {st : Standing} {e : OutlineError}

/-! ## What holds at a point -/

/-- The property `P`, which every turn keeps, at a point of a run. -/
inductive Holds (P : Machine → List Token → List Completion → Prop) (pre : List Token)
    (m : Machine) (cs : List Completion) : Standing → Prop
  | between {us : List Token} (hu : List.Forall₂ Token.Settles pre us)
      (ht : m.sheet.tokens.toList = us) (hs : m.Sound us) (hp : P m us cs) :
      Holds P pre m cs .between
  | facing {us : List Token} {t : Token} {n : Nat} (hu : List.Forall₂ Token.Settles pre us)
      (ht : m.sheet.tokens.toList = us ++ [t]) (hs : m.Sound us) (hd : m.done = false)
      (hn : m.handovers t < n) (hp : P m us cs) : Holds P pre m cs (.facing t n)
  | broken {k : Machine} {us pre' : List Token} {t : Token} {bs ds : List Completion}
      {e : OutlineError} (hpre : pre = pre' ++ [t]) (hu : List.Forall₂ Token.Settles pre' us)
      (ht : k.sheet.tokens.toList = us ++ [t]) (hs : k.Sound us) (hd : k.done = false)
      (hp : P k us bs) (hm : Turn k t ds m (.failed e)) (hc : cs = bs ++ ds) :
      Holds P pre m cs (.broken e)

/-- **What every turn keeps holds at every point.** -/
theorem Passes.holds {P : Machine → List Token → List Completion → Prop} (hP : Kept P)
    (hp : P { options } [] []) (h : Passes options pre m st cs) : Holds P pre m cs st := by
  induction h with
  | start => exact .between .nil rfl (sound_start options) hp
  | push t h hd ih =>
    obtain ⟨hu, ht, hs, hp⟩ := ih
    exact .facing hu (by simp [Sheet.push, ht]) (hs.push t) hd (handovers_lt _ _) (hP.push t hp)
  | taken h hv ih =>
    cases ih with
    | facing hu ht hs hd hn hp =>
      have hturn := turn_of_visit hs.fits hv
      obtain ⟨t', hset, htok, hsound⟩ := hs.taken ht hturn
      exact .between (List.rel_append hu (.cons hset .nil)) htok hsound
        (hP.taken hs ht hd hturn htok hp)
  | handedOn h hv ih =>
    cases ih with
    | facing hu ht hs hd hn hp =>
      have hturn := turn_of_visit hs.fits hv
      obtain ⟨htok, hsound, hlt⟩ := hs.handedOn ht hturn
      exact .facing hu htok hsound (hturn.done_of_handedOn.trans hd) (by omega)
        (hP.handedOn hs ht hd hturn hp)
  | failed h hv ih =>
    cases ih with
    | facing hu ht hs hd hn hp =>
      exact .broken rfl hu ht hs hd hp (turn_of_visit hs.fits hv) rfl

/-- A machine that faces a token. -/
theorem Passes.facing (h : Passes options pre m (.facing t n) cs) :
    ∃ us, List.Forall₂ Token.Settles pre us ∧ m.sheet.tokens.toList = us ++ [t] ∧ m.Sound us ∧
      m.done = false ∧ m.handovers t < n := by
  obtain _ | ⟨hu, ht, hs, hd, hn⟩ := h.holds (kept_options options) rfl
  exact ⟨_, hu, ht, hs, hd, hn⟩

/-! ## What a run does from a point on -/

/-- The tokens that a run has begun to read. -/
def Standing.tokens : Standing → List Token
  | .facing t _ => [t]
  | .between | .broken _ => []

/-- What a run does from a point on with the further input `xs`. -/
def proceed (m : Machine) (xs : List (Except LexError Token)) :
    Standing → Machine × Option OutlineError
  | .between => m.run xs
  | .facing t n =>
    match m.settleToken t n with
    | (m, none) => m.run xs
    | (m, some e) => (m, some e)
  | .broken e => (m, some e)

/-- **A run over the tokens up to a point goes on from there.** -/
theorem Passes.run_eq (h : Passes options pre m st cs) (xs : List (Except LexError Token)) :
    Machine.run { options } ((pre ++ st.tokens).map .ok ++ xs) = m.proceed xs st := by
  induction h generalizing xs with
  | start => rfl
  | push t h hd ih =>
    have := ih (.ok t :: xs)
    rw [Standing.tokens, List.append_nil] at this
    rw [Standing.tokens, List.map_append, List.append_assoc, List.map_singleton,
      List.singleton_append, this, proceed, run, if_neg (by simp [hd])]
    rfl
  | taken h hv ih | handedOn h hv ih | failed h hv ih =>
    simpa [Standing.tokens, proceed, settleToken, hv] using ih xs

/-- A run that has come to a token at fault ends there, whatever follows. -/
theorem Passes.run_broken (h : Passes options pre m (.broken e) cs)
    (xs : List (Except LexError Token)) :
    Machine.run { options } (pre.map .ok ++ xs) = (m, some e) := by
  simpa [Standing.tokens, proceed] using h.run_eq xs

/-! ## Every run comes to its end through these points -/

theorem Passes.settleToken {r : Option OutlineError} (h : Passes options pre m (.facing t n) cs)
    (hs : m.settleToken t n = (m', r)) :
    Passes options (pre ++ [t]) m' (r.elim .between .broken) (cs ++ m.settleCompletions t n) := by
  induction n generalizing m cs with
  | zero =>
    obtain ⟨_, -, -, -, -, hn⟩ := h.facing
    omega
  | succ n ih =>
    rw [Machine.settleToken] at hs
    rw [settleCompletions]
    generalize hv : m.visit t = k at hs
    obtain ⟨k, v⟩ := k
    cases v with
    | taken =>
      cases hs
      simpa using h.taken hv
    | handedOn => simpa [List.append_assoc] using ih (h.handedOn hv) hs
    | failed e =>
      cases hs
      simpa using h.failed hv

theorem Passes.run {r : Option OutlineError} {xs : List (Except LexError Token)}
    (h : Passes options pre m .between cs) (hr : m.run xs = (m', r)) :
    ∃ us st, us.map .ok <+: xs ∧ Passes options (pre ++ us) m' st (cs ++ m.completions xs) := by
  induction xs generalizing m pre cs with
  | nil =>
    have hm : m' = m := by
      rw [Machine.run] at hr
      split at hr <;> cases hr <;> rfl
    exact ⟨[], _, List.nil_prefix, by simpa [completions, hm] using h⟩
  | cons x xs ih =>
    simp only [Machine.run] at hr
    simp only [completions]
    cases hd : m.done with
    | true =>
      rw [if_pos hd] at hr
      cases hr
      exact ⟨[], _, List.nil_prefix, by simpa using h⟩
    | false =>
      rw [if_neg (by simp [hd])] at hr
      cases x with
      | error l =>
        cases hr
        exact ⟨[], _, List.nil_prefix, by simpa using h⟩
      | ok t =>
        dsimp only at hr
        simp only [Bool.false_eq_true, if_false]
        generalize hf : m.feed t = k at hr
        have hpush := h.push t hd
        obtain ⟨k, _ | e⟩ := k
        · obtain ⟨us, st, hpre, hpass⟩ := ih (hpush.settleToken hf) hr
          refine ⟨t :: us, st, by simpa using hpre, ?_⟩
          simpa [feedCompletions, List.append_assoc] using hpass
        · cases hr
          refine ⟨[t], .broken e, by simp, ?_⟩
          simpa [feedCompletions] using hpush.settleToken hf

/-- **A run passes through the machine that it leaves behind**, where it has completed the blocks of
the run. -/
theorem passes_run {r : Option OutlineError} {xs : List (Except LexError Token)}
    (hr : Machine.run { options } xs = (m, r)) :
    ∃ us st, us.map .ok <+: xs ∧ Passes options us m st (logicalBlocks xs options) := by
  simpa [logicalBlocks] using Passes.start.run hr

end Machine

/-- The machine of a parser is at a point of the run over its input. -/
theorem Parser.passes_calls (input : List (Except LexError Token)) (options : Options) (n : Nat) :
    ∃ us st cs, us.map .ok <+: input ∧
      Machine.Passes options us ((start input options).calls n).2.machine st cs := by
  obtain ⟨xs, e, hpre, hrun, -⟩ := (delivers_calls input options n).exists_run
  obtain ⟨us, st, hus, hpass⟩ := Machine.passes_run hrun
  exact ⟨us, st, _, hus.trans hpre, hpass⟩

end VhdlOutline
