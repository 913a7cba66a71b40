import VhdlOutline.Proofs.Outline.Parts

/-!
# The gist of a machine

What a machine does once blanks and comments are left out, and with them everything that depends on
where they stand: the numbers of tokens, interruptions, and how far a token has been handed on.

* `State.react_unnumbered`: a state does the same whatever the numbers of tokens are.
* `State.rests`: the states between two tokens, in which blanks and comments are harmless.
* `Gist` is a machine for the other tokens only. `Gist.Runs` is how it reads, and `Gist.Runs.unique`
  says that this depends on nothing but the tokens.
-/

namespace VhdlOutline

/-! ## Without the numbers of tokens -/

/-- The mismatch without the number of its token. -/
def NameMismatch.unnumbered (x : NameMismatch) : NameMismatch := { x with index := 0 }

/-- The state without the number of the token that is a name after `end`. -/
def State.unnumbered : State → State
  | .end_ scope (.afterName found) => .end_ scope (.afterName { found with index := 0 })
  | s => s

/-- Where a move leads, without numbers of tokens. States to be resumed have none. -/
def Next.unnumbered : Next → Next
  | .goto s => .goto s.unnumbered
  | next => next

def Move.unnumbered : Move → Move
  | .take before closing next => .take before closing next.unnumbered
  | .pass before next => .pass before next.unnumbered
  | .finish => .finish

def Reaction.unnumbered (r : Reaction) : Reaction :=
  ⟨r.move.unnumbered, r.note, r.mismatch.map NameMismatch.unnumbered⟩

/-- A state outside of ends looks at no number. -/
theorem State.map_react_unnumbered {s : State} (hs : ∀ scope phase, s ≠ .end_ scope phase) (i : Nat)
    (t : Token) : (s.react i t).map Reaction.unnumbered = s.react i t := by
  unfold State.react
  split
  · fun_cases Outline.documentStart <;> rfl
  · fun_cases Outline.documentRegion <;> rfl
  · fun_cases Outline.reference <;> rfl
  · fun_cases Outline.entity <;> rfl
  · fun_cases Outline.architecture <;> rfl
  · fun_cases Outline.package <;> rfl
  · fun_cases Outline.procedure <;> rfl
  · fun_cases Outline.function <;> rfl
  · fun_cases Outline.process <;> first | rfl | fun_cases Outline.processAfterSensitivity <;> rfl
  · unfold Outline.declarations
    repeat' split
    all_goals rfl
  · fun_cases Outline.concurrent <;> rfl
  · unfold Outline.sequential Outline.sequentialEnd? Outline.sequentialStatement?
    repeat' split
    all_goals rfl
  · exact absurd rfl (hs _ _)
  · fun_cases Outline.object <;> rfl
  · fun_cases Outline.interface <;>
      first
      | rfl
      | fun_cases Outline.itemStart <;> rfl
      | fun_cases Outline.closeList <;> rfl
  · fun_cases Outline.expression <;> first | rfl | fun_cases Outline.expressionToken <;> rfl
  · fun_cases Outline.simple <;> first | rfl | fun_cases Outline.simpleAfterKeyword <;> rfl
  · fun_cases Outline.target <;> first | rfl | fun_cases Outline.targetRest <;> rfl
  · fun_cases Outline.assignment <;> rfl
  · unfold Outline.assertion Outline.assertAfterMessage Outline.assertEnd
    repeat' split
    all_goals rfl
  · fun_cases Outline.report <;> first | rfl | fun_cases Outline.reportEnd <;> rfl
  · fun_cases Outline.ifStatement <;> rfl
  · fun_cases Outline.loop <;> first | rfl | fun_cases Outline.loopBody <;> rfl

theorem Scope.mismatch?_unnumbered (scope : Scope) (found : EndName) :
    scope.mismatch? { found with index := 0 } =
      (scope.mismatch? found).map NameMismatch.unnumbered := by
  unfold mismatch?
  dsimp only
  split <;> rfl

theorem Outline.endFinish_unnumbered (scope : Scope) (found : EndName) :
    endFinish scope (some { found with index := 0 }) =
      (endFinish scope (some found)).map Reaction.unnumbered := by
  unfold endFinish
  rw [Option.bind_some, scope.mismatch?_unnumbered]
  rfl

theorem Outline.end_unnumbered (scope : Scope) (phase : EndPhase) (i : Nat) (t : Token) :
    (State.end_ scope phase).unnumbered.react 0 t =
      (end_ scope phase i t).map Reaction.unnumbered := by
  cases phase with
  | afterName found =>
    simp only [State.unnumbered, State.react, end_]
    split
    · exact endFinish_unnumbered scope found
    · rfl
  | _ =>
    simp only [State.unnumbered, State.react, end_]
    repeat' split
    all_goals rfl

/-- What a state does depends on the numbers of tokens only in that it passes them on. -/
theorem State.react_unnumbered (s : State) (i : Nat) (t : Token) :
    s.unnumbered.react 0 t = (s.react i t).map Reaction.unnumbered := by
  cases s with
  | end_ scope phase => exact Outline.end_unnumbered scope phase i t
  | statements part label =>
    rw [map_react_unnumbered (by simp)]
    cases part <;> rfl
  | _ =>
    rw [map_react_unnumbered (by simp)]
    rfl

@[simp] theorem State.unnumbered_unnumbered (s : State) :
    s.unnumbered.unnumbered = s.unnumbered := by
  cases s with
  | end_ scope phase => cases phase <;> rfl
  | _ => rfl

@[simp] theorem State.reading_unnumbered (s : State) (t : Token) :
    s.unnumbered.reading t = s.reading t := by
  cases s with
  | end_ scope phase => cases phase <;> rfl
  | _ => rfl

/-! ## Where the machine rests -/

/-- The states that hand every token to an expression, with the state after it. -/
def State.opens? : State → Option (State × Expression)
  | .object o .default_ => some (.object o .end_, o.default_)
  | .interface l .default_ => some (.interface l .afterDefault, l.default_)
  | .simple s .value => s.expression?.map fun x => (.simple s .end_, x)
  | .assignment a part .value => some (.assignment a part .end_, a.expression)
  | .assertion .message => some (.assertion .afterMessage, .assertMessage)
  | .assertion .level => some (.assertion .end_, .assertSeverity)
  | .report .level => some (.report .end_, .reportSeverity)
  | .loop label .bound => some (.loop label .body, .loopBound)
  | _ => none

theorem State.react_of_opens? {s resume : State} {x : Expression}
    (h : s.opens? = some (resume, x)) (i : Nat) (t : Token) :
    s.react i t = .ok ⟨.pass none (.call resume (.expression x 0 false)), none, none⟩ := by
  unfold opens? at h
  split at h
  case h_3 s =>
    cases s <;> cases h <;> rfl
  all_goals cases h <;> rfl

theorem State.opens?_eq_none {s : State} {i : Nat} {t : Token} {o : Outcome} (h : s.react i t = o)
    (ho : ∀ resume sub, o ≠ .ok ⟨.pass none (.call resume sub), none, none⟩) :
    s.opens? = none := by
  cases hs : s.opens? with
  | none => rfl
  | some p =>
    obtain ⟨resume, x⟩ := p
    exact absurd (h.symm.trans (react_of_opens? hs i t)) (ho _ _)

@[simp] theorem State.opens?_unnumbered (s : State) : s.unnumbered.opens? = s.opens? := by
  cases s with
  | end_ scope phase => cases phase <;> rfl
  | _ => rfl

/-- The states in which the machine waits for the next token. There blanks and comments are either
dealt with by the machine or handed to an expression. -/
def State.rests (s : State) : Bool := s.trivia != .seen || s.opens?.isSome

/-- A machine at rest shows no blank or comment to its state, except one that hands it on. -/
theorem State.not_isTrivia_of_rests {s : State} {t : Token}
    (hr : t.kind.isTrivia = true → s.rests = true)
    (ht : t.kind.isTrivia = true → s.trivia = .seen) (ho : s.opens? = none) :
    t.kind.isTrivia = false := by
  cases hk : t.kind.isTrivia with
  | false => rfl
  | true =>
    have := hr hk
    simp [rests, ht hk, ho] at this

/-- Whether the machine rests where a move leads. -/
def Next.rests : Next → Bool
  | .goto s | .call _ s => s.rests
  | .return_ => true

theorem State.Allows.rests {s : State} {t : Token} {before closing : Option BlockKind}
    {next : Next} (h : s.Allows t (.take before closing next)) : next.rests := by
  cases h with
  | @simpleWhen _ s _ hs =>
    cases s <;> cases hs
    all_goals rfl
  | @objectKeyword _ o => cases o <;> rfl
  | _ => rfl

theorem State.rests_of_isFrame {s : State} (h : s.isFrame) : s.rests := by
  unfold isFrame at h
  split at h <;> first | rfl | cases h

/-- A move by which a token is taken leads to a state in which the machine rests. -/
theorem State.Fits.rests {c c' : Control} (hf : Fits c.state c.stack) {t : Token}
    {before closing : Option BlockKind} {next : Next}
    (h : c.state.Allows t (.take before closing next)) (hc : c.follow next = .ok c') :
    c'.state.rests := by
  have harrives := hf.arrives hc
  generalize c'.state = s' at harrives ⊢
  cases harrives with
  | goto | call => exact h.rests
  | document => rfl
  | frame _ hframe => exact rests_of_isFrame hframe
  | expression hx => exact absurd (hx.symm.trans h.isExpression_of_take_return) (by simp)

/-! ## Gists -/

/-- A completed block: its kind and its tokens, blanks and comments left out. -/
structure LogicalBlock where
  kind : BlockKind
  tokens : List Token
  deriving DecidableEq

/-- What a machine has read and will do, blanks and comments left out. -/
structure Gist where
  strictNames : Bool
  control : Control
  /-- The tokens that have been taken. -/
  read : List Token
  /-- The tokens of the block under construction. -/
  pending : List Token
  blocks : List LogicalBlock
  warnings : List NameMismatch
  done : Bool

/-- The control without interruption and without the numbers of tokens. Where any token would be
handed to an expression, the expression has begun. -/
def Control.gist (c : Control) : Control :=
  match c.state.opens? with
  | some (resume, x) => ⟨.expression x 0 false, false, resume :: c.stack⟩
  | none => ⟨c.state.unnumbered, false, c.stack⟩

namespace Gist

/-- End the block under construction, if a kind is given. -/
def cut (g : Gist) : Option BlockKind → Gist
  | some kind => { g with blocks := g.blocks ++ [⟨kind, g.pending⟩], pending := [] }
  | none => g

/-- Take a token into the block under construction. -/
def add (g : Gist) (t : Token) : Gist :=
  { g with read := g.read ++ [t], pending := g.pending ++ [t] }

/-- Go on as a move says. -/
def follow (g : Gist) (next : Next) (verdict : Verdict) : Gist × Verdict :=
  match g.control.follow next with
  | .ok control => ({ g with control := control.gist }, verdict)
  | .error fault => (g, .failed (.internal g.control.name fault))

/-- Report a mismatch of names. -/
def mismatched (g : Gist) (x : Option NameMismatch) : Gist × Option OutlineError :=
  match x with
  | none => (g, none)
  | some x =>
    if g.strictNames then (g, some (.nameMismatch x))
    else ({ g with warnings := g.warnings ++ [x] }, none)

/-- Let the current state react to the token `t`, which is neither blank nor a comment. -/
def visit (g : Gist) (t : Token) : Gist × Verdict :=
  match g.control.state.react 0 t with
  | .error c => (g, .failed (.refused t c))
  | .ok r =>
    match r.move with
    | .take before closing next =>
      let t := { t with kind := g.control.state.reading t }
      match (((g.cut before).add t).cut closing).mismatched r.mismatch with
      | (g, some e) => (g, .failed e)
      | (g, none) => g.follow next .taken
    | .pass before next => (g.cut before).follow next .handedOn
    | .finish => ({ (g.add t).cut (some .endOfDocument) with done := true }, .taken)

section Visit

variable {g : Gist} {t : Token} {before closing : Option BlockKind} {next : Next}
  {note : Option Note} {c : Control}

@[simp] theorem strictNames_cut (g : Gist) (kind : Option BlockKind) :
    (g.cut kind).strictNames = g.strictNames := by
  cases kind <;> rfl

@[simp] theorem control_cut (g : Gist) (kind : Option BlockKind) :
    (g.cut kind).control = g.control := by
  cases kind <;> rfl

@[simp] theorem warnings_cut (g : Gist) (kind : Option BlockKind) :
    (g.cut kind).warnings = g.warnings := by
  cases kind <;> rfl

@[simp] theorem strictNames_add (g : Gist) (t : Token) :
    (g.add t).strictNames = g.strictNames :=
  rfl

@[simp] theorem control_add (g : Gist) (t : Token) : (g.add t).control = g.control := rfl

@[simp] theorem warnings_add (g : Gist) (t : Token) : (g.add t).warnings = g.warnings := rfl

theorem visit_pass {x : Option NameMismatch}
    (h : g.control.state.react 0 t = .ok ⟨.pass before next, note, x⟩)
    (hc : g.control.follow next = .ok c) :
    g.visit t = ({ g.cut before with control := c.gist }, .handedOn) := by
  simp [visit, h, follow, hc]

theorem visit_take {x : Option NameMismatch}
    (h : g.control.state.react 0 t = .ok ⟨.take before closing next, note, x⟩)
    (hx : g.strictNames = true → x = none) (hc : g.control.follow next = .ok c) :
    g.visit t =
      ({ ((g.cut before).add { t with kind := g.control.state.reading t }).cut closing with
        control := c.gist, warnings := g.warnings ++ x.toList }, .taken) := by
  cases x with
  | none => simp [visit, h, mismatched, follow, hc]
  | some x =>
    have hs : g.strictNames = false := by simpa using hx
    simp [visit, h, mismatched, hs, follow, hc]

theorem visit_mismatch {x : NameMismatch}
    (h : g.control.state.react 0 t = .ok ⟨.take before closing next, note, some x⟩)
    (hs : g.strictNames = true) :
    g.visit t = (((g.cut before).add { t with kind := g.control.state.reading t }).cut closing,
      .failed (.nameMismatch x)) := by
  simp [visit, h, mismatched, hs]

theorem visit_finish {x : Option NameMismatch}
    (h : g.control.state.react 0 t = .ok ⟨.finish, note, x⟩) :
    g.visit t = ({ (g.add t).cut (some .endOfDocument) with done := true }, .taken) := by
  simp [visit, h]

theorem visit_refuse {complaint : Complaint} (h : g.control.state.react 0 t = .error complaint) :
    g.visit t = (g, .failed (.refused t complaint)) := by
  simp [visit, h]

end Visit

/-- Reading the token `t`, which is handed from state to state until it is taken or refused. -/
inductive Reads (t : Token) : Gist → Gist → Option OutlineError → Prop
  | taken {g g' : Gist} (h : g.visit t = (g', .taken)) : Reads t g g' none
  | failed {g g' : Gist} {e : OutlineError} (h : g.visit t = (g', .failed e)) :
      Reads t g g' (some e)
  | handedOn {g g' g'' : Gist} {e : Option OutlineError} (h : g.visit t = (g', .handedOn))
      (hr : Reads t g' g'' e) : Reads t g g'' e

/-- Reading the token `t`, which changes nothing if it is blank or a comment. -/
def Passes (t : Token) (g g' : Gist) (e : Option OutlineError) : Prop :=
  if t.kind.isTrivia then g' = g ∧ e = none else Reads t g g' e

theorem passes_trivium {t : Token} (ht : t.kind.isTrivia = true) (g : Gist) :
    g.Passes t g none := by
  rw [Passes, if_pos ht]
  exact ⟨rfl, rfl⟩

theorem Passes.of_reads {t : Token} {g g' : Gist} {e : Option OutlineError}
    (ht : t.kind.isTrivia = false) (h : Reads t g g' e) : g.Passes t g' e := by
  rwa [Passes, if_neg (by simp [ht])]

theorem Passes.handedOn {t : Token} {g g' g'' : Gist} {e : Option OutlineError}
    (ht : t.kind.isTrivia = false) (h : g.visit t = (g', .handedOn)) (hp : Passes t g' g'' e) :
    Passes t g g'' e := by
  rw [Passes, if_neg (by simp [ht])] at hp ⊢
  exact .handedOn h hp

/-- Reading tokens up to the end of the document or the first error. -/
inductive Runs : Gist → List Token → Gist → Option OutlineError → Prop
  | done {g : Gist} {ts : List Token} (h : g.done = true) : Runs g ts g none
  | nil {g : Gist} (h : g.done = false) : Runs g [] g (some (.unexpectedEnd ""))
  | failed {g g' : Gist} {t : Token} {ts : List Token} {e : OutlineError} (h : g.done = false)
      (hr : Reads t g g' (some e)) : Runs g (t :: ts) g' (some e)
  | cons {g g' g'' : Gist} {t : Token} {ts : List Token} {e : Option OutlineError}
      (h : g.done = false) (ht : Reads t g g' none) (hr : Runs g' ts g'' e) :
      Runs g (t :: ts) g'' e

theorem Runs.passes {g g' g'' : Gist} {t : Token} {ts : List Token} {e : Option OutlineError}
    (hd : g.done = false) (hp : g.Passes t g' none) (hr : Runs g' (significant ts) g'' e) :
    Runs g (significant (t :: ts)) g'' e := by
  unfold Passes at hp
  split at hp
  · rename_i ht
    obtain ⟨rfl, -⟩ := hp
    rwa [significant, List.filter_cons_of_neg (by simp [Token.isSignificant, ht])]
  · rename_i ht
    rw [significant, List.filter_cons_of_pos (by simpa [Token.isSignificant] using ht)]
    exact .cons hd hp hr

theorem Runs.passes_failed {g g' : Gist} {t : Token} {ts : List Token} {e : OutlineError}
    (hd : g.done = false) (hp : g.Passes t g' (some e)) :
    Runs g (significant (t :: ts)) g' (some e) := by
  unfold Passes at hp
  split at hp
  · cases hp.2
  · rename_i ht
    rw [significant, List.filter_cons_of_pos (by simpa [Token.isSignificant] using ht)]
    exact .failed hd hp

theorem Reads.unique {t : Token} {g a b : Gist} {e f : Option OutlineError} (h : Reads t g a e)
    (h' : Reads t g b f) : a = b ∧ e = f := by
  induction h with
  | taken h =>
    cases h' with
    | taken h' =>
      cases h.symm.trans h'
      exact ⟨rfl, rfl⟩
    | failed h' | handedOn h' => cases h.symm.trans h'
  | failed h =>
    cases h' with
    | failed h' =>
      cases h.symm.trans h'
      exact ⟨rfl, rfl⟩
    | taken h' | handedOn h' => cases h.symm.trans h'
  | handedOn h _ ih =>
    cases h' with
    | taken h' | failed h' => cases h.symm.trans h'
    | handedOn h' hr =>
      cases h.symm.trans h'
      exact ih hr

/-- What comes of reading depends on nothing but the gist and the tokens. -/
theorem Runs.unique {g a b : Gist} {ts : List Token} {e f : Option OutlineError}
    (h : Runs g ts a e) (h' : Runs g ts b f) : a = b ∧ e = f := by
  induction h with
  | done h =>
    cases h' with
    | done => exact ⟨rfl, rfl⟩
    | nil h' | failed h' | cons h' => cases h.symm.trans h'
  | nil h =>
    cases h' with
    | done h' => cases h.symm.trans h'
    | nil => exact ⟨rfl, rfl⟩
  | failed h hr =>
    cases h' with
    | done h' => cases h.symm.trans h'
    | failed _ hr' => exact hr.unique hr'
    | cons _ ht => cases (hr.unique ht).2
  | cons h ht _ ih =>
    cases h' with
    | done h' => cases h.symm.trans h'
    | failed _ hr' => cases (ht.unique hr').2
    | cons _ ht' hr' =>
      obtain ⟨rfl, -⟩ := ht.unique ht'
      exact ih hr'

end Gist

end VhdlOutline
