import VhdlOutline.Proofs.Outline.Completion
import VhdlOutline.Proofs.Outline.Discipline

/-!
# The turns of the machine

`Machine.Turn` lists what a visit can do, one case for each way to deal with a token, up to what is
written to the log. `Machine.turn_of_visit` shows once that a visit from a control that fits its
stack is one of these turns. From there on no proof opens the machine again.
-/

namespace VhdlOutline

namespace Machine

open State

/-- The machine `m'` has the options of `m` and otherwise the given parts. Its log may be any. -/
structure Becomes (m m' : Machine) (control : Control) (sheet : Sheet)
    (warnings : Array NameMismatch) (done : Bool) : Prop where
  options : m'.options = m.options
  control : m'.control = control
  sheet : m'.sheet = sheet
  warnings : m'.warnings = warnings
  done : m'.done = done

/-- What a visit may do with the token `t`: the completions it makes, the machine it leads to, and
what becomes of the token. -/
inductive Turn (m : Machine) (t : Token) : List Completion → Machine → Verdict → Prop
  /-- A blank or comment becomes a block of its own. -/
  | trivium {m' : Machine} (ht : t.kind.isTrivia = true)
      (h : m.control.isAside = true ∨ m.control.state.trivia = .apart)
      (hm : m.Becomes m' m.control (m.sheet.closeAside (m.sheet.triviaKind t.kind)) m.warnings
        m.done) :
      Turn m t [] m' .taken
  /-- The interrupted state goes on. -/
  | resume {m' : Machine} (ht : t.kind.isTrivia = false) (h : m.control.isAside = true)
      (hm : m.Becomes m' { m.control with isAside := false } m.sheet m.warnings m.done) :
      Turn m t [] m' .handedOn
  /-- A space joins the block under construction. -/
  | absorb {m' : Machine} (ht : t.kind.isTrivia = true) (ha : m.control.isAside = false)
      (hs : m.control.state.trivia = .inside)
      (hm : m.Becomes m' m.control m.sheet m.warnings m.done) (hk : t.kind = .space) :
      Turn m t [] m' .taken
  /-- A blank or comment interrupts the current state. -/
  | interrupt {m' : Machine} (ht : t.kind.isTrivia = true) (ha : m.control.isAside = false)
      (hs : m.control.state.trivia = .inside)
      (hm : m.Becomes m' { m.control with isAside := true } m.sheet.interrupt m.warnings m.done) :
      Turn m t [] m' .handedOn
  | take {m' : Machine} {before closing : Option BlockKind} {next : Next} {note : Option Note}
      {x : Option NameMismatch} {c : Control} (ha : m.control.isAside = false)
      (ht : t.kind.isTrivia = true → m.control.state.trivia = .seen)
      (h : m.control.state.react m.sheet.index t = .ok ⟨.take before closing next, note, x⟩)
      (hx : m.options.strictNames = true → x = none) (hc : m.control.follow next = .ok c)
      (hm : m.Becomes m' c (m.sheet.taking before closing (m.control.state.reading t))
        (m.warnings ++ x.toArray) m.done) :
      Turn m t (m.sheet.completedBy (.take before closing next)) m' .taken
  /-- A name after `end` is refused, once its block has been completed. -/
  | mismatch {m' : Machine} {before closing : Option BlockKind} {next : Next}
      {note : Option Note} {x : NameMismatch} (ha : m.control.isAside = false)
      (ht : t.kind.isTrivia = true → m.control.state.trivia = .seen)
      (h : m.control.state.react m.sheet.index t = .ok ⟨.take before closing next, note, some x⟩)
      (hx : m.options.strictNames = true)
      (hm : m.Becomes m' m.control (m.sheet.taking before closing (m.control.state.reading t))
        m.warnings m.done) :
      Turn m t (m.sheet.completedBy (.take before closing next)) m' (.failed (.nameMismatch x))
  | pass {m' : Machine} {before : Option BlockKind} {next : Next} {note : Option Note}
      {x : Option NameMismatch} {c : Control} (ha : m.control.isAside = false)
      (ht : t.kind.isTrivia = true → m.control.state.trivia = .seen)
      (h : m.control.state.react m.sheet.index t = .ok ⟨.pass before next, note, x⟩)
      (hc : m.control.follow next = .ok c)
      (hm : m.Becomes m' c (m.sheet.cutBefore before) m.warnings m.done) :
      Turn m t (m.sheet.completedBy (.pass before next)) m' .handedOn
  | finish {m' : Machine} {note : Option Note} {x : Option NameMismatch}
      (ha : m.control.isAside = false)
      (ht : t.kind.isTrivia = true → m.control.state.trivia = .seen)
      (h : m.control.state.react m.sheet.index t = .ok ⟨.finish, note, x⟩)
      (hm : m.Becomes m' m.control (m.sheet.close .endOfDocument) m.warnings true) :
      Turn m t (m.sheet.completedBy .finish) m' .taken
  | refuse {m' : Machine} {c : Complaint} (ha : m.control.isAside = false)
      (ht : t.kind.isTrivia = true → m.control.state.trivia = .seen)
      (h : m.control.state.react m.sheet.index t = .error c)
      (hm : m.Becomes m' m.control m.sheet m.warnings m.done) :
      Turn m t [] m' (.failed (.refused t c))

/-! ## The operations of the machine, up to the log -/

theorem Becomes.trans {m n k : Machine} {c c' : Control} {s s' : Sheet}
    {w w' : Array NameMismatch} {d d' : Bool} (h : m.Becomes n c s w d)
    (h' : n.Becomes k c' s' w' d') : m.Becomes k c' s' w' d' :=
  { h' with options := h'.options.trans h.options }

theorem becomes_self (m : Machine) : m.Becomes m m.control m.sheet m.warnings m.done :=
  ⟨rfl, rfl, rfl, rfl, rfl⟩

/-- The machine with a note in its log. -/
def noted (m : Machine) : Option Note → Machine
  | some n => m.log (.note n)
  | none => m

theorem becomes_noted (m : Machine) (n : Option Note) :
    m.Becomes (m.noted n) m.control m.sheet m.warnings m.done := by
  cases n <;> exact ⟨rfl, rfl, rfl, rfl, rfl⟩

/-- The machine once the blocks have been made that a take makes. -/
def taking (m : Machine) (t : Token) (before closing : Option BlockKind) : Machine :=
  ((m.cut before).settle t).close closing

theorem becomes_taking (m : Machine) (t : Token) (before closing : Option BlockKind) :
    m.Becomes (m.taking t before closing) m.control
      (m.sheet.taking before closing (m.control.state.reading t)) m.warnings m.done := by
  cases before <;> cases closing <;> exact ⟨rfl, rfl, rfl, rfl, rfl⟩

theorem becomes_cut (m : Machine) (before : Option BlockKind) :
    m.Becomes (m.cut before) m.control (m.sheet.cutBefore before) m.warnings m.done := by
  cases before <;> exact ⟨rfl, rfl, rfl, rfl, rfl⟩

/-- Carry out a move, with a mismatch of names. -/
def act (m : Machine) (t : Token) (x : Option NameMismatch) : Move → Machine × Verdict
  | .take before closing next =>
    match (m.taking t before closing).mismatched x with
    | (m, some e) => (m, .failed e)
    | (m, none) => m.follow next .taken
  | .pass before next => (m.cut before).follow next .handedOn
  | .finish => m.finish

theorem perform_eq (m : Machine) (t : Token) (r : Reaction) :
    m.perform t r = (m.noted r.note).act t r.mismatch r.move := by
  obtain ⟨_ | _ | _, _ | _, _⟩ := r <;> rfl

/-- A mismatch is an error if names are strict, and a warning otherwise. -/
theorem mismatched_cases (m : Machine) (x : Option NameMismatch) :
    (∃ y, x = some y ∧ m.options.strictNames = true ∧
      m.mismatched x = (m, some (.nameMismatch y))) ∨
    ((m.options.strictNames = true → x = none) ∧ ∃ n, m.mismatched x = (n, none) ∧
      m.Becomes n m.control m.sheet (m.warnings ++ x.toArray) m.done) := by
  cases x with
  | none => exact .inr ⟨fun _ => rfl, m, rfl, by simpa using m.becomes_self⟩
  | some y =>
    cases hs : m.options.strictNames with
    | true => exact .inl ⟨y, rfl, rfl, by simp [mismatched, hs]⟩
    | false =>
      refine .inr ⟨by simp, _, by simp only [mismatched, hs]; rfl, ?_⟩
      exact ⟨rfl, rfl, rfl, by simp [log], rfl⟩

theorem follow_ok {m : Machine} {next : Next} {c : Control} (h : m.control.follow next = .ok c)
    (v : Verdict) : m.follow next v = ({ m with control := c }, v) := by
  simp [Machine.follow, h]

/-! ## A visit is a turn -/

/-- Carrying out a reaction is a turn. -/
theorem turn_of_act {m n m' : Machine} {t : Token} {note : Option Note} {x : Option NameMismatch}
    {move : Move} {v : Verdict} (hn : m.Becomes n m.control m.sheet m.warnings m.done)
    (ha : m.control.isAside = false)
    (ht : t.kind.isTrivia = true → m.control.state.trivia = .seen)
    (hf : Fits m.control.state m.control.stack)
    (hr : m.control.state.react m.sheet.index t = .ok ⟨move, note, x⟩)
    (h : n.act t x move = (m', v)) : Turn m t (m.sheet.completedBy move) m' v := by
  have hallows := allows_of_react hr
  cases move with
  | take before closing next =>
    obtain ⟨c, hc, -, -⟩ := hf.follow hallows.leads_take
    have hk := hn.trans (becomes_taking n t before closing)
    rw [hn.control, hn.sheet, hn.warnings, hn.done] at hk
    rw [act] at h
    rcases mismatched_cases (n.taking t before closing) x with ⟨y, rfl, hs, he⟩ | ⟨hs, k, he, hw⟩
    · rw [he] at h
      cases h
      exact .mismatch ha ht hr (by rw [← hk.options, hs]) hk
    · have hk' := hk.trans hw
      rw [hk.control, hk.sheet, hk.warnings, hk.done] at hk'
      simp only [he] at h
      rw [follow_ok (by rw [hk'.control]; exact hc)] at h
      cases h
      exact .take ha ht hr (fun hx => hs (by rw [hk.options, hx])) hc { hk' with control := rfl }
  | pass before next =>
    obtain ⟨c, hc, -, -⟩ := hf.follow hallows.leads_pass
    have hk := hn.trans (becomes_cut n before)
    rw [hn.control, hn.sheet, hn.warnings, hn.done] at hk
    rw [act, follow_ok (by rw [hk.control]; exact hc)] at h
    cases h
    exact .pass ha ht hr hc { hk with control := rfl }
  | finish =>
    obtain ⟨hs, -⟩ := hallows.eq_documentRegion_of_finish
    have hstack : n.control.stack.isEmpty = true := by
      simp [hn.control, hf.stack_eq_nil (by rw [hs]; rfl)]
    rw [act, Machine.finish, if_pos hstack] at h
    cases h
    exact .finish ha ht hr { hn with
      sheet := congrArg (Sheet.close · .endOfDocument) hn.sheet
      done := rfl }

theorem reacts_eq_true {m : Machine} {t : Token} (ha : m.control.isAside = false)
    (ht : t.kind.isTrivia = true → m.control.state.trivia = .seen) : m.reacts t = true := by
  simp only [reacts, ha]
  cases h : t.kind.isTrivia
  · rfl
  · simp [ht h]

theorem completed_of_react {m : Machine} {t : Token} (ha : m.control.isAside = false)
    (ht : t.kind.isTrivia = true → m.control.state.trivia = .seen)
    (hf : Fits m.control.state m.control.stack) {r : Reaction}
    (hr : m.control.state.react m.sheet.index t = .ok r) :
    m.completed t = m.sheet.completedBy r.move := by
  rw [completed, if_pos (reacts_eq_true ha ht), hr]
  dsimp only
  rw [if_neg]
  rintro ⟨hm, hne⟩
  have hs := (hm ▸ allows_of_react hr).eq_documentRegion_of_finish.1
  exact hne (hf.stack_eq_nil (by rw [hs]; rfl))

theorem completed_of_not_reacts {m : Machine} {t : Token} (h : m.reacts t = false) :
    m.completed t = [] := by
  simp [completed, h]

theorem reacts_eq_false {m : Machine} {t : Token} (ht : t.kind.isTrivia = true)
    (hs : m.control.state.trivia ≠ .seen) : m.reacts t = false := by
  simp [reacts, ht, hs]

theorem turn_of_react {m n m' : Machine} {t : Token} {v : Verdict}
    (hn : m.Becomes n m.control m.sheet m.warnings m.done) (ha : m.control.isAside = false)
    (ht : t.kind.isTrivia = true → m.control.state.trivia = .seen)
    (hf : Fits m.control.state m.control.stack) (h : n.react t = (m', v)) :
    Turn m t (m.completed t) m' v := by
  unfold Machine.react at h
  rw [hn.control, hn.sheet] at h
  split at h
  · rename_i r hr
    rw [completed_of_react ha ht hf hr]
    rw [perform_eq] at h
    have hk := hn.trans (becomes_noted n r.note)
    rw [hn.control, hn.sheet, hn.warnings, hn.done] at hk
    exact turn_of_act hk ha ht hf hr h
  · rename_i c hr
    cases h
    have hc : m.completed t = [] := by
      unfold completed
      split
      · rw [hr]
      · rfl
    rw [hc]
    exact .refuse ha ht hr hn

/-- **What a visit does.** -/
theorem turn_of_visit {m m' : Machine} {t : Token} {v : Verdict}
    (hf : Fits m.control.state m.control.stack) (h : m.visit t = (m', v)) :
    Turn m t (m.completed t) m' v := by
  unfold visit at h
  dsimp only at h
  have hlog : m.Becomes (m.log (.visit m.control.name t)) m.control m.sheet m.warnings m.done :=
    ⟨rfl, rfl, rfl, rfl, rfl⟩
  cases ha : m.control.isAside with
  | true =>
    rw [completed_of_not_reacts (by simp [reacts, ha])]
    rw [if_pos (by rw [hlog.control, ha])] at h
    split at h
    · cases h
      exact .trivium ‹_› (.inl ha) ⟨rfl, rfl, rfl, rfl, rfl⟩
    · rename_i ht
      cases h
      exact .resume (Bool.not_eq_true _ ▸ ht) ha ⟨rfl, rfl, rfl, rfl, rfl⟩
  | false =>
    rw [if_neg (by rw [hlog.control, ha]; simp)] at h
    split at h
    · rename_i ht
      split at h
      · rename_i hs
        rw [completed_of_not_reacts (reacts_eq_false ht (by rw [← hlog.control, hs]; simp))]
        cases h
        exact .trivium ht (.inr hs) ⟨rfl, rfl, rfl, rfl, rfl⟩
      · rename_i hs
        rw [completed_of_not_reacts (reacts_eq_false ht (by rw [← hlog.control, hs]; simp))]
        split at h
        · cases h
          exact .absorb ht ha hs ⟨rfl, rfl, rfl, rfl, rfl⟩ ‹_›
        · cases h
          exact .interrupt ht ha hs ⟨rfl, rfl, rfl, rfl, rfl⟩
      · exact turn_of_react hlog ha (fun _ => ‹_›) hf h
    · rename_i ht
      exact turn_of_react hlog ha (fun h => absurd h ht) hf h

end Machine

end VhdlOutline
