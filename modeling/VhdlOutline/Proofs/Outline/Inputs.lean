import VhdlOutline.Proofs.Outline.Consistency

/-!
# Tokens as they were read

A token on the sheet is the one that was read, except that its kind may have been settled. What
becomes of a kind depends on the kind and the text alone (`Token.MayBecome`), and whatever point a
run has come to, nothing else has changed (`Machine.run_settles`, `Machine.visitsFrom_settles`).

`Machine.Traced` is for properties that relate the tokens on the sheet to those that were read:
`Machine.Traced.run` is the induction over a run that keeps both in view.
-/

namespace VhdlOutline

/-- The kinds that the token may get: it keeps its own, unless it is a word or stands for an
operator. -/
inductive Token.MayBecome (t : Token) : TokenKind → Prop
  | same : MayBecome t t.kind
  | keyword {k : Keyword} (hw : t.kind = .word) (h : Keyword.find? t.text = some k) :
      MayBecome t (.keyword k)
  | identifier (hw : t.kind = .word) (h : Keyword.find? t.text = none) : MayBecome t .identifier
  | ofChar {c : Char} {o : Operator} (hc : t.kind = .character c)
      (h : Operator.ofChar? c = some o) : MayBecome t (.operator o)
  | ofCompound {s : Compound} {o : Operator} (hs : t.kind = .compound s)
      (h : Operator.ofCompound? s = some o) : MayBecome t (.operator o)

/-- The token `t'` is `t`, except that its kind may be another that `t` may get. -/
def Token.Reclassifies (t t' : Token) : Prop := t' = { t with kind := t'.kind } ∧
  t.MayBecome t'.kind

namespace Token

theorem mayBecome_settled (t : Token) : t.MayBecome t.settled := by
  unfold settled
  split
  · split
    · exact .keyword ‹_› ‹_›
    · exact .identifier ‹_› ‹_›
  · exact .same

theorem mayBecome_settledInExpression (t : Token) : t.MayBecome t.settledInExpression := by
  unfold settledInExpression
  split
  · rename_i c hc
    split
    · exact .ofChar hc ‹_›
    · exact hc ▸ .same
  · rename_i s hs
    split
    · exact .ofCompound hs ‹_›
    · exact hs ▸ .same
  · exact t.mayBecome_settled

theorem Settles.reclassifies {t t' : Token} (h : t.Settles t') : t.Reclassifies t' := by
  obtain ⟨kind, rfl, rfl | rfl | rfl⟩ := h
  · exact ⟨rfl, .same⟩
  · exact ⟨rfl, t.mayBecome_settled⟩
  · exact ⟨rfl, t.mayBecome_settledInExpression⟩

end Token

namespace Machine

variable {m m' k : Machine} {us ts : List Token} {t : Token} {cs : List Completion} {v : Verdict}

/-- Whatever a turn does, the tokens before the current one stay as they are. -/
theorem Turn.settles (hm : Turn m t cs m' v) (hs : m.Sound ts)
    (ht : m.sheet.tokens.toList = ts ++ [t]) :
    ∃ t', t.Settles t' ∧ m'.sheet.tokens.toList = ts ++ [t'] := by
  cases v with
  | taken =>
    obtain ⟨t', hset, htok, -⟩ := hs.taken ht hm
    exact ⟨t', hset, htok⟩
  | handedOn => exact ⟨t, t.settles_self, (hs.handedOn ht hm).1⟩
  | failed e =>
    cases hm with
    | mismatch _ _ _ _ hm =>
      exact ⟨_, Token.settles_reading _ t, by rw [hm.sheet, Sheet.toList_tokens_taking ht]⟩
    | refuse _ _ _ hm => exact ⟨t, t.settles_self, by rw [hm.sheet, ht]⟩

/-! ## At any point of a run -/

theorem settleToken_settles {n : Nat} {e : Option OutlineError} (hs : m.Sound ts)
    (ht : m.sheet.tokens.toList = ts ++ [t]) (hr : m.settleToken t n = (k, e)) :
    ∃ t', t.Settles t' ∧ k.sheet.tokens.toList = ts ++ [t'] := by
  induction n generalizing m with
  | zero =>
    cases hr
    exact ⟨t, t.settles_self, ht⟩
  | succ n ih =>
    rw [settleToken] at hr
    generalize hv : m.visit t = r at hr
    obtain ⟨m', v⟩ := r
    have hturn := turn_of_visit hs.fits hv
    cases v with
    | taken | failed e =>
      cases hr
      exact hturn.settles hs ht
    | handedOn =>
      obtain ⟨htok, hsound, -⟩ := hs.handedOn ht hturn
      exact ih hsound htok hr

/-- However a run ends, the tokens on the sheet are the first ones that were to be read. -/
theorem run_settles {xs : List (Except LexError Token)} {e : Option OutlineError} (hs : m.Sound ts)
    (ht : m.sheet.tokens.toList = ts) (hr : m.run xs = (k, e)) :
    ∃ us us', us.map .ok <+: xs ∧ List.Forall₂ Token.Settles us us' ∧
      k.sheet.tokens.toList = ts ++ us' := by
  induction xs generalizing m ts with
  | nil =>
    rw [run] at hr
    split at hr <;>
    · cases hr
      exact ⟨[], [], List.nil_prefix, .nil, by simp [ht]⟩
  | cons x xs ih =>
    simp only [run] at hr
    cases hd : m.done with
    | true =>
      rw [if_pos hd] at hr
      cases hr
      exact ⟨[], [], List.nil_prefix, .nil, by simp [ht]⟩
    | false =>
      rw [if_neg (by simp [hd])] at hr
      cases x with
      | error l =>
        cases hr
        exact ⟨[], [], List.nil_prefix, .nil, by simp [ht]⟩
      | ok t =>
        dsimp only at hr
        generalize hf : m.feed t = r at hr
        obtain ⟨m', e'⟩ := r
        obtain ⟨t', hset, htok⟩ := settleToken_settles (hs.push t) (by simp [Sheet.push, ht]) hf
        cases e' with
        | some e' =>
          cases hr
          exact ⟨[t], [t'], ⟨xs, rfl⟩, .cons hset .nil, htok⟩
        | none =>
          obtain ⟨hsound, -⟩ := (ht ▸ hs : m.Sound m.sheet.tokens.toList).feed hd hf
          obtain ⟨us, us', hpre, hus, htok'⟩ := ih (htok ▸ hsound) htok hr
          exact ⟨t :: us, t' :: us', List.cons_prefix_cons.2 ⟨rfl, hpre⟩, .cons hset hus,
            by simpa using htok'⟩

theorem settleVisits_tokens {handed n : Nat} {os : List Opening} (hs : m.Sound ts)
    (ht : m.sheet.tokens.toList = ts ++ [t]) :
    ∀ v ∈ (m.settleVisits t handed os n).1, v.machine.sheet.tokens.toList = ts ++ [t] := by
  induction n generalizing m handed os with
  | zero => simp [settleVisits]
  | succ n ih =>
    rw [settleVisits]
    generalize hv : m.visit t = r
    obtain ⟨k, v⟩ := r
    cases v with
    | taken | failed e => simpa using ht
    | handedOn =>
      obtain ⟨htok, hsound, -⟩ := hs.handedOn ht (turn_of_visit hs.fits hv)
      exact List.forall_mem_cons.2 ⟨ht, ih hsound htok⟩

/-- At every visit of a run, the tokens on the sheet are the first ones that were to be read. -/
theorem visitsFrom_settles {xs : List (Except LexError Token)} {os : List Opening}
    (hs : m.Sound ts) (ht : m.sheet.tokens.toList = ts) :
    ∀ v ∈ m.visitsFrom os xs, ∃ us us', us.map .ok <+: xs ∧ List.Forall₂ Token.Settles us us' ∧
      v.machine.sheet.tokens.toList = ts ++ us' := by
  induction xs generalizing m ts os with
  | nil => simp [visitsFrom]
  | cons x xs ih =>
    cases x with
    | error l => simp [visitsFrom]
    | ok t =>
      rw [visitsFrom]
      by_cases hd : m.done = true
      · simp [hd]
      rw [if_neg hd]
      rw [Bool.not_eq_true] at hd
      have hpush : (m.sheet.push t).tokens.toList = ts ++ [t] := by simp [Sheet.push, ht]
      have hhere := @settleVisits_tokens _ _ _ 0 visitLimit os (hs.push t) hpush
      generalize { m with sheet := m.sheet.push t }.settleVisits t 0 os visitLimit = r at hhere ⊢
      obtain ⟨vs, os'⟩ := r
      intro v hv
      rcases List.mem_append.1 hv with hv | hv
      · exact ⟨[t], [t], ⟨xs, rfl⟩, .cons t.settles_self .nil, hhere v hv⟩
      · generalize hf : m.feed t = r at hv
        obtain ⟨k, _ | e⟩ := r
        · obtain ⟨t', hset, htok⟩ := settleToken_settles (hs.push t) hpush hf
          obtain ⟨hsound, -⟩ := (ht ▸ hs : m.Sound m.sheet.tokens.toList).feed hd hf
          obtain ⟨us, us', hpre, hus, htok'⟩ := ih (htok ▸ hsound) htok v hv
          exact ⟨t :: us, t' :: us', List.cons_prefix_cons.2 ⟨rfl, hpre⟩, .cons hset hus,
            by simpa using htok'⟩
        · cases hv

/-! ## Properties of what was read and what it became -/

/-- A property of a machine, the tokens it was given and what they are on the sheet, that every turn
keeps. -/
structure Traced (P : Machine → List Token → List Token → Prop) : Prop where
  push {m : Machine} {us ts : List Token} (t : Token) :
    P m us ts → P { m with sheet := m.sheet.push t } us ts
  handedOn {m m' : Machine} {us ts : List Token} {t : Token} {cs : List Completion} :
    m.Sound ts → m.sheet.tokens.toList = ts ++ [t] → Turn m t cs m' .handedOn → P m us ts →
      P m' us ts
  taken {m m' : Machine} {us ts : List Token} {t t' : Token} {cs : List Completion} :
    m.Sound ts → m.sheet.tokens.toList = ts ++ [t] → Turn m t cs m' .taken →
      m'.sheet.tokens.toList = ts ++ [t'] → P m us ts → P m' (us ++ [t]) (ts ++ [t'])

variable {P : Machine → List Token → List Token → Prop}

theorem Traced.settleToken (hP : Traced P) {n : Nat} (hs : m.Sound ts)
    (ht : m.sheet.tokens.toList = ts ++ [t]) (hp : P m us ts)
    (hr : m.settleToken t n = (m', none)) :
    ∃ t', m'.sheet.tokens.toList = ts ++ [t'] ∧ m'.Sound (ts ++ [t']) ∧
      P m' (us ++ [t]) (ts ++ [t']) := by
  induction n generalizing m with
  | zero => cases hr
  | succ n ih =>
    rw [Machine.settleToken] at hr
    generalize hv : m.visit t = r at hr
    obtain ⟨k, v⟩ := r
    have hturn := turn_of_visit hs.fits hv
    cases v with
    | taken =>
      cases hr
      obtain ⟨t', -, htok, hsound⟩ := hs.taken ht hturn
      exact ⟨t', htok, hsound, hP.taken hs ht hturn htok hp⟩
    | handedOn =>
      obtain ⟨htok, hsound, -⟩ := hs.handedOn ht hturn
      exact ih hsound htok (hP.handedOn hs ht hturn hp) hr
    | failed e => cases hr

/-- **Induction over a run**, with the tokens that were read. -/
theorem Traced.run (hP : Traced P) {xs : List (Except LexError Token)} (hs : m.Sound ts)
    (ht : m.sheet.tokens.toList = ts) (hp : P m us ts) (hr : m.run xs = (m', none)) :
    ∃ vs rest ts', xs = vs.map .ok ++ rest ∧ m'.sheet.tokens.toList = ts' ∧ m'.Sound ts' ∧
      P m' (us ++ vs) ts' := by
  induction xs generalizing m us ts with
  | nil =>
    rw [Machine.run] at hr
    split at hr <;> cases hr
    exact ⟨[], [], ts, rfl, ht, hs, by simpa using hp⟩
  | cons x xs ih =>
    simp only [Machine.run] at hr
    cases hd : m.done with
    | true =>
      rw [if_pos hd] at hr
      cases hr
      exact ⟨[], x :: xs, ts, rfl, ht, hs, by simpa using hp⟩
    | false =>
      rw [if_neg (by simp [hd])] at hr
      cases x with
      | error l => cases hr
      | ok t =>
        dsimp only at hr
        generalize hf : m.feed t = r at hr
        obtain ⟨k, _ | e⟩ := r
        · obtain ⟨t', htok, hsound, hk⟩ := hP.settleToken (hs.push t)
            (by simp [Sheet.push, ht]) (hP.push t hp) hf
          obtain ⟨vs, rest, ts', rfl, htok', hsound', hk'⟩ := ih hsound htok hk hr
          exact ⟨t :: vs, rest, ts', rfl, htok', hsound', by simpa using hk'⟩
        · cases hr

end Machine

end VhdlOutline
