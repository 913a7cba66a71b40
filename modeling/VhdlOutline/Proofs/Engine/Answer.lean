import VhdlOutline.Proofs.Engine.Action
import VhdlOutline.Proofs.Engine.Control

/-!
# What the engine answers to a token

`Engine.Answers` relates what becomes of the engine, once its routine has been run, to the outcome
that the machine has for the state and the token: it is what the move says of the blocks, the names
that are open and where the engine goes on, or the same refusal. `Engine.Ready` is what holds of an
engine whose routine is about to be run for a state. From there one lemma for each way to go on
gives the answer.
-/

namespace VhdlOutline

namespace Desk

variable {d : Desk} {t : Token} {k : Nat}

/-- End the block under construction before the current token, if a kind is given. -/
def cutBefore (d : Desk) : Option BlockKind → Desk
  | some kind => d.cut kind
  | none => d

/-- End the block under construction with the current token, if a kind is given. -/
def closeWith (d : Desk) : Option BlockKind → Desk
  | some kind => d.emit kind
  | none => d

/-- Take the current token, with the kind it has been found to have. -/
def taking (d : Desk) (before closing : Option BlockKind) (kind : TokenKind) : Desk :=
  ((d.cutBefore before).reclassify kind).closeWith closing

theorem Faces.cutBefore (h : d.Faces t) (before : Option BlockKind) :
    (d.cutBefore before).Faces t ∧ (d.cutBefore before).sheet = d.sheet.cutBefore before := by
  cases before with
  | none => exact ⟨h, rfl⟩
  | some kind => exact ⟨h.cut kind, h.sheet_cut kind⟩

theorem Hands.cutBefore (h : d.Hands k) (before : Option BlockKind) :
    (d.cutBefore before).Hands k := by
  cases before with
  | none => exact h
  | some kind => exact h.cut kind

theorem Faces.sheet_taking (h : d.Faces t) (before closing : Option BlockKind) (kind : TokenKind) :
    (d.taking before closing kind).sheet = d.sheet.taking before closing kind := by
  obtain ⟨hf, hs⟩ := h.cutBefore before
  have hr := hf.reclassify kind
  have hk := hf.sheet_reclassify kind
  rw [Sheet.taking, ← hs, ← hk]
  cases closing with
  | none => rfl
  | some closing => exact hr.sheet_emit closing

theorem Hands.taking (h : d.Hands k) (before closing : Option BlockKind) (kind : TokenKind) :
    (d.taking before closing kind).Hands k := by
  have := (h.cutBefore before).reclassify kind
  cases closing with
  | none => exact this
  | some closing => exact this.emit closing

theorem Faces.rests_taking (h : d.Faces t) (before closing : Option BlockKind)
    (kind : TokenKind) : (d.taking before closing kind).Rests := by
  cases closing with
  | none => exact ((h.cutBefore before).1.reclassify kind).rests
  | some closing => exact .of_marker rfl

/-- Nothing has to be settled if the token keeps its kind. -/
theorem Faces.taking_eq (h : d.Faces t) (before closing : Option BlockKind) {kind : TokenKind}
    (hk : kind = t.kind) :
    d.taking before closing kind = (d.cutBefore before).closeWith closing := by
  rw [taking, hk, (h.cutBefore before).1.reclassify_self]

end Desk

namespace Engine

/-- What the engine keeps track of apart from its place: the open constructs, the warnings, the
options, whether the document has ended, and whether the token is to be issued again. -/
def ledger (e : Engine) : List Opening × Array NameMismatch × Options × Bool × Bool :=
  (e.names, e.warnings, e.options, e.done, e.reissue)

/-- The engine `e'` stands where the move leads from the state `s` and the stack `stack`. -/
def Lands (e' : Engine) (s : State) (stack : List State) (next : Next) : Prop :=
  ∀ c, (⟨s, false, stack⟩ : Control).follow next = .ok c → e'.At c.state c.stack

/-- What the engine `e` does in the state `s` with the token `t` is what the outcome says. -/
inductive Answers (e : Engine) (s : State) (stack : List State) (t : Token) :
    Outcome → EStateM.Result Stop Engine Unit → Prop
  | take {before closing : Option BlockKind} {next : Next} {note : Option Note} {e' : Engine}
      (desk : e'.desk = e.desk.taking before closing (s.reading t))
      (lands : e'.Lands s stack next)
      (ledger : e'.ledger =
        (Reaction.openings ⟨.take before closing next, note, none⟩ e.names, e.warnings, e.options,
          e.done, false)) :
      Answers e s stack t (.ok ⟨.take before closing next, note, none⟩) (.ok () e')
  /-- Names that differ are worth a warning. -/
  | warn {before closing : Option BlockKind} {next : Next} {note : Option Note}
      {x : NameMismatch} {e' : Engine} (strict : e.options.strictNames = false)
      (desk : e'.desk = e.desk.taking before closing (s.reading t))
      (lands : e'.Lands s stack next)
      (ledger : e'.ledger =
        (Reaction.openings ⟨.take before closing next, note, some x⟩ e.names, e.warnings.push x,
          e.options, e.done, false)) :
      Answers e s stack t (.ok ⟨.take before closing next, note, some x⟩) (.ok () e')
  /-- Names that differ are an error. -/
  | mismatch {before closing : Option BlockKind} {next : Next} {note : Option Note}
      {x : NameMismatch} {e' : Engine} (strict : e.options.strictNames = true)
      (desk : e'.desk = e.desk.taking before closing (s.reading t))
      (warnings : e'.warnings = e.warnings) :
      Answers e s stack t (.ok ⟨.take before closing next, note, some x⟩)
        (.error (.failed (.nameMismatch x)) e')
  | pass {before : Option BlockKind} {next : Next} {note : Option Note} {e' : Engine}
      (desk : e'.desk = e.desk.cutBefore before) (lands : e'.Lands s stack next)
      (ledger : e'.ledger =
        (Reaction.openings ⟨.pass before next, note, none⟩ e.names, e.warnings, e.options, e.done,
          true)) :
      Answers e s stack t (.ok ⟨.pass before next, note, none⟩) (.ok () e')
  | finish :
      Answers e s stack t (.ok ⟨.finish, none, none⟩)
        (.ok () { e with desk := e.desk.emit .endOfDocument, done := true })
  | refuse {c : Complaint} {e' : Engine} (desk : e'.desk = e.desk)
      (warnings : e'.warnings = e.warnings) :
      Answers e s stack t (.error c) (.error (.failed (.refused t c)) e')

/-- The engine is about to run the routine of the state `s` with the token `t`, which comes after
the tokens `ts`. -/
structure Ready (e : Engine) (s : State) (stack : List State) (ts : List Token) (t : Token) :
    Prop where
  here : e.At s stack
  openings : e.names = (⟨s, false, stack⟩ : Control).openings
  running : e.running = s.routine
  reissue : e.reissue = false
  faces : e.desk.Faces t
  tokens : e.desk.tokens.toList = ts ++ [t]
  linked : e.desk.tokens.isLinked = true
  fits : s.Fits stack
  grounded : s.isGrounded = true
  recalls : s.Recalls ts
  depth_lt : s.depth + 1 < 2147483648

variable {e e' : Engine} {s s' : State} {stack : List State} {ts : List Token} {t : Token}
  {before closing : Option BlockKind} {note : Option Note}

section Choice

variable {p q : Prop} [Decidable p] [Decidable q] {e₁ : Engine} {o o' : Outcome}
  {a b : Action Unit}

/-- The engine and the machine ask for the same thing. -/
theorem Answers.ite_iff (hq : q ↔ p) (h : p → e.Answers s stack t o (a.run e₁))
    (h' : ¬ p → e.Answers s stack t o' (b.run e₁)) :
    e.Answers s stack t (if p then o else o') ((if q then a else b).run e₁) := by
  by_cases hp : p
  · rw [if_pos hp, if_pos (hq.2 hp)]
    exact h hp
  · rw [if_neg hp, if_neg (mt hq.1 hp)]
    exact h' hp

theorem Answers.ite (h : p → e.Answers s stack t o (a.run e₁))
    (h' : ¬ p → e.Answers s stack t o' (b.run e₁)) :
    e.Answers s stack t (if p then o else o') ((if p then a else b).run e₁) :=
  .ite_iff Iff.rfl h h'

/-- The engine asks for the opposite of what the machine asks for. -/
theorem Answers.ite_not (hq : q ↔ ¬ p) (h : p → e.Answers s stack t o (a.run e₁))
    (h' : ¬ p → e.Answers s stack t o' (b.run e₁)) :
    e.Answers s stack t (if p then o else o') ((if q then b else a).run e₁) := by
  by_cases hp : p
  · rw [if_pos hp, if_neg fun h => hq.1 h hp]
    exact h hp
  · rw [if_neg hp, if_pos (hq.2 hp)]
    exact h' hp

end Choice

/-! ## Refusals -/

theorem Ready.complain (h : e.Ready s stack ts t) {c : Complaint} :
    e.Answers s stack t (.error c) ((Action.complain c).run e) := by
  rw [Action.run_complain h.faces]
  exact .refuse rfl rfl

theorem Ready.refuse (h : e.Ready s stack ts t) {alternatives : List String} :
    e.Answers s stack t (.expected alternatives) ((Action.refuse alternatives).run e) :=
  h.complain

theorem Ready.notImplemented (h : e.Ready s stack ts t) {what : String} :
    e.Answers s stack t (.notImplemented what) ((Action.notImplemented what).run e) :=
  h.complain

/-! ## The parts of routines -/

theorem Ready.inside (h : e.Ready s stack ts t) (hs : s.trivia = .inside)
    (ht : t.kind.isTrivia = true → s.trivia = .seen) {o : Outcome} {body : Action Unit}
    (hbody : e.Answers s stack t o (body.run e)) :
    e.Answers s stack t o ((Action.inside body).run e) := by
  have ht' : t.kind.isTrivia = false := by simpa [hs] using ht
  rwa [Action.run_inside h.faces ht']

theorem Ready.apart (h : e.Ready s stack ts t) (hs : s.trivia = .apart)
    (ht : t.kind.isTrivia = true → s.trivia = .seen) {o : Outcome} {body : Action Unit}
    (hbody : e.Answers s stack t o (body.run e)) :
    e.Answers s stack t o ((Action.apart body).run e) := by
  have ht' : t.kind.isTrivia = false := by simpa [hs] using ht
  rwa [Action.run_apart h.faces ht']

theorem Ready.keyword (h : e.Ready s stack ts t) {k : Keyword} {o : Outcome} {body : Action Unit}
    (hbody : t.isKeyword k → e.Answers s stack t o (body.run (e.settled t))) :
    e.Answers s stack t (if t.isKeyword k then o else .expected [k.phrase])
      ((Action.keyword k body).run e) := by
  rw [Action.keyword, Action.bind_current h.faces]
  refine .ite (fun hk => ?_) fun _ => h.refuse
  rw [Action.bind_classifyWord h.faces]
  exact hbody hk

theorem Ready.name (h : e.Ready s stack ts t) {what : String} {o : Outcome}
    {body : String → Action Unit}
    (hbody : t.isName → e.Answers s stack t o ((body t.text).run (e.settled t))) :
    e.Answers s stack t (if t.isName then o else .expected [what])
      ((Action.name what body).run e) := by
  rw [Action.name, Action.bind_current h.faces]
  refine .ite (fun hname => ?_) fun _ => h.refuse
  rw [Action.bind_identifier h.faces (Token.settled_of_isName hname)]
  exact hbody hname

theorem Ready.label (h : e.Ready s stack ts t) : e.label = s.label? := h.here.suits.label

theorem Ready.needs (h : e.Ready s stack ts t) : s.Needs e.context := h.here.suits.frame.needs

theorem Ready.next (h : e.Ready s stack ts t) : e.next = s.routine := h.here.suits.frame.routine

/-- Where no label has been read, there is none to be taken off. -/
theorem Ready.bind_setLabel (h : e.Ready s stack ts t) (hl : s.label? = none) {α : Type}
    {f : Unit → Action α} : (Action.setLabel none >>= f).run e = (f ()).run e := by
  have he : { e with label := none } = e := by rw [← hl, ← h.label]
  exact congrArg (f ()).run he

/-! ## Going on in another state -/

/-- The token is taken, and the engine goes on in the state `s'` with the frames that it has. -/
theorem Ready.take (h : e.Ready s stack ts t)
    (desk : e.desk.taking before closing (s.reading t) = e'.desk) (suits : e'.Suits s')
    (below : s'.below = s.below) (frames : e'.stack = e.stack)
    (ledger : e'.ledger =
      (Reaction.openings ⟨.take before closing (.goto s'), note, none⟩ e.names, e.warnings,
        e.options, e.done, e.reissue)) :
    e.Answers s stack t (.ok ⟨.take before closing (.goto s'), note, none⟩) (.ok () e') := by
  refine .take desk.symm ?_ (h.reissue ▸ ledger)
  rintro _ ⟨⟩
  exact ⟨suits, by rw [below, frames]; exact h.here.frames⟩

/-- The token is handed on to the state `s'`. -/
theorem Ready.pass (h : e.Ready s stack ts t) (desk : e'.desk = e.desk.cutBefore before)
    (suits : e'.Suits s') (below : s'.below = s.below) (frames : e'.stack = e.stack)
    (ledger : e'.ledger =
      (Reaction.openings ⟨.pass before (.goto s'), note, none⟩ e.names, e.warnings, e.options,
        e.done, true)) :
    e.Answers s stack t (.ok ⟨.pass before (.goto s'), note, none⟩) (.ok () e') := by
  refine .pass desk ?_ ledger
  rintro _ ⟨⟩
  exact ⟨suits, by rw [below, frames]; exact h.here.frames⟩

/-- The token is handed on to the state `sub`, and `resume` is resumed once it is through. -/
theorem Ready.call (h : e.Ready s stack ts t) {resume sub : State} {f : Frame}
    (desk : e'.desk = e.desk.cutBefore before) (suits : e'.Suits sub) (frame : f.Suits resume)
    (frames : e'.stack = f :: e.stack) (below_sub : sub.below = [])
    (below_resume : resume.below = s.below)
    (ledger : e'.ledger =
      (Reaction.openings ⟨.pass before (.call resume sub), note, none⟩ e.names, e.warnings,
        e.options, e.done, true)) :
    e.Answers s stack t (.ok ⟨.pass before (.call resume sub), note, none⟩) (.ok () e') := by
  refine .pass desk ?_ ledger
  rintro _ ⟨⟩
  refine ⟨suits, ?_⟩
  rw [below_sub, frames, List.nil_append, List.flatMap_cons, List.cons_append, below_resume]
  exact .cons frame h.here.frames

/-! ## Returns -/

/-- What is resumed carries nothing in registers but its count. -/
theorem Frame.Suits.resume {f : Frame} (hf : f.Suits s') (hs : s.Arrives .return_ s')
    (frames : List Frame) (label : e.label = none) : (Action.resume e f frames).Suits s' := by
  have hplain : s'.label? = none ∧ s'.begun? = none ∧ ∀ i, s'.Ends i := by
    cases hs with
    | document => exact ⟨rfl, rfl, fun _ => trivial⟩
    | frame _ h =>
      unfold State.isFrame at h
      split at h <;> first | exact ⟨rfl, rfl, fun _ => trivial⟩ | cases h
    | expression _ h =>
      unfold State.isAfterExpression at h
      split at h <;> first | exact ⟨rfl, rfl, fun _ => trivial⟩ | cases h
  obtain ⟨hl, hb, he⟩ := hplain
  exact ⟨hf, label.trans hl.symm, fun b h => absurd (hb.symm.trans h) (by simp), he _⟩

/-- There is a frame to return to, and it resumes the state that the machine returns to. -/
theorem Ready.exists_frame (h : e.Ready s stack ts t) (below : s.below = [])
    (inner : s.isOuter = false) : ∃ f frames, e.stack = f :: frames ∧
      ∀ e' : Engine, e'.label = none → (Action.resume e' f frames).Lands s stack .return_ := by
  have hleads : s.Leads .return_ := inner
  obtain ⟨c, hc, -⟩ := State.Fits.follow (c := ⟨s, false, stack⟩) h.fits hleads
  have harrives := State.Fits.arrives (c := ⟨s, false, stack⟩) h.fits hc
  cases stack with
  | nil => cases hc
  | cons s' rest =>
    cases hc
    have hframes := h.here.frames
    rw [below, List.nil_append, List.flatMap_cons, List.cons_append] at hframes
    generalize hstack : e.stack = fs at hframes
    cases hframes with
    | cons hf hfs =>
      refine ⟨_, _, rfl, fun e' label => ?_⟩
      rintro _ ⟨⟩
      exact ⟨Frame.Suits.resume hf harrives _ label, hfs⟩

/-- The token is taken, and the engine returns. -/
theorem Ready.takeReturn (h : e.Ready s stack ts t) (below : s.below = [])
    (inner : s.isOuter = false) (desk : e.desk.taking before closing (s.reading t) = e'.desk)
    (frames : e'.stack = e.stack) (label : e'.label = none)
    (ledger : e'.ledger =
      (Reaction.openings ⟨.take before closing .return_, note, none⟩ e.names, e.warnings,
        e.options, e.done, e.reissue)) :
    e.Answers s stack t (.ok ⟨.take before closing .return_, note, none⟩)
      ((Action.pop 1).run e') := by
  obtain ⟨f, fs, hstack, hlands⟩ := h.exists_frame below inner
  rw [Action.run_pop (frames.trans hstack)]
  exact .take desk.symm (hlands _ label) (h.reissue ▸ ledger)

/-- The frame of a statement that starts with a name resumes the part that it stands in. -/
theorem Ready.exists_frame_part (h : e.Ready s stack ts t) {part : Part}
    (below : s.below = [.statements part none]) : ∃ f frames, e.stack = f :: frames ∧
      ∀ e' : Engine, (Action.resume e' f frames).Lands s stack
        (.goto (.statements part e'.label)) := by
  have hframes := h.here.frames
  rw [below, List.cons_append, List.nil_append] at hframes
  generalize hstack : e.stack = fs at hframes
  cases hframes with
  | cons hf hfs =>
    refine ⟨_, _, rfl, fun e' => ?_⟩
    rintro _ ⟨⟩
    refine ⟨.plain (hf.routine.trans ?_) rfl ?_ rfl rfl trivial, hfs⟩
    · cases part <;> rfl
    · cases part <;> exact hf.needs

/-- The token is taken, and the engine goes back to the statement part. -/
theorem Ready.takeBack (h : e.Ready s stack ts t) {part : Part} {label : Option String}
    (below : s.below = [.statements part none])
    (desk : e.desk.taking before closing (s.reading t) = e'.desk) (frames : e'.stack = e.stack)
    (label_eq : e'.label = label)
    (ledger : e'.ledger =
      (Reaction.openings ⟨.take before closing (.goto (.statements part label)), note, none⟩
        e.names, e.warnings, e.options, e.done, e.reissue)) :
    e.Answers s stack t (.ok ⟨.take before closing (.goto (.statements part label)), note, none⟩)
      ((Action.pop 1).run e') := by
  obtain ⟨f, fs, hstack, hlands⟩ := h.exists_frame_part below
  rw [Action.run_pop (frames.trans hstack)]
  exact .take desk.symm (label_eq ▸ hlands e') (h.reissue ▸ ledger)

/-- A statement or declaration ends with a semicolon. -/
theorem Ready.semicolon (h : e.Ready s stack ts t) (below : s.below = [])
    (inner : s.isOuter = false) (label : s.label? = none) (reading : s.reading t = t.settled)
    {kind : BlockKind} (hk : kind.isConstructEnd = false) :
    e.Answers s stack t (if t.isChar ';' then .closeReturn kind else .expected ["`;`"])
      ((Action.semicolon kind).run e) := by
  rw [Action.semicolon, Action.bind_current h.faces]
  refine .ite (fun hend => ?_) fun _ => h.refuse
  rw [Action.bind_emit]
  refine h.takeReturn below inner ?_ rfl (h.label.trans label) ?_
  · rw [reading]
    exact h.faces.taking_eq _ _ (Token.settled_of_isChar hend)
  · simp [ledger, Reaction.openings, Reaction.opening?, Move.closesConstruct, hk]

/-- The token is handed on, and the engine returns. -/
theorem Ready.passReturn (h : e.Ready s stack ts t) (below : s.below = [])
    (inner : s.isOuter = false) (label : s.label? = none) :
    e.Answers s stack t (.ok ⟨.pass before .return_, none, none⟩)
      ((Action.pop 1 >>= fun _ => Action.reissue).run
        { e with desk := e.desk.cutBefore before }) := by
  obtain ⟨f, fs, hstack, hlands⟩ := h.exists_frame below inner
  have hcut : ({ e with desk := e.desk.cutBefore before } : Engine).stack = f :: fs := hstack
  rw [Action.run_bind_of_eq (Action.run_pop hcut)]
  exact .pass rfl (hlands { e with desk := e.desk.cutBefore before, reissue := true }
    (h.label.trans label)) rfl

/-! ## Expressions -/

/-- An expression starts at the current token, and `resume` goes on with the token after it. -/
theorem Ready.pushExpression (h : e.Ready s stack ts t) {resume : State} {r : Routine}
    {x : Expression} (hr : r = resume.routine) (hcount : resume.count? = none)
    (hneeds : resume.Needs e.context) (hlabel : s.label? = none) (below : resume.below = s.below) :
    e.Answers s stack t (.ok ⟨.pass before (.call resume (.expression x 0 false)), none, none⟩)
      ((Action.pushExpression r x.table).run { e with desk := e.desk.cutBefore before }) :=
  h.call rfl (.reading rfl rfl rfl rfl (h.label.trans hlabel) rfl rfl trivial)
    (f := ⟨r, e.counter, e.context⟩) ⟨hr, by simp [hcount], hneeds⟩ rfl rfl below rfl

theorem Ready.beforeExpression (h : e.Ready s stack ts t) {kind : BlockKind} {resume : State}
    {r : Routine} {x : Expression} (hr : r = resume.routine) (hcount : resume.count? = none)
    (hneeds : resume.Needs e.context) (hlabel : s.label? = none) (below : resume.below = s.below) :
    e.Answers s stack t (.cutCall kind resume (.expression x 0 false))
      ((Action.beforeExpression kind r x).run e) := by
  rw [Action.beforeExpression, Action.bind_emitBefore]
  exact h.pushExpression hr hcount hneeds hlabel below

end Engine

end VhdlOutline
