import VhdlOutline.Proofs.Engine.Nested

/-!
# A routine does what a turn does

`Engine.Matches` relates an engine to a machine that is in the same place and has the same to show
for it. An engine that faces a token, and runs its routine, comes to match the machine after the
turn (`Engine.Matches.visit`); and in the end a token that is issued again and again leads the
engine where it leads the machine that is handed it from state to state.
-/

namespace VhdlOutline

namespace Action

variable {e e' : Engine} {t : Token}

/-! ## Blanks and comments -/

/-- Between constructs, a blank or comment becomes a block of its own. -/
theorem run_apart_trivia (h : e.desk.Faces t) (ht : t.kind.isTrivia = true) {body : Action Unit} :
    (apart body).run e =
      .ok () { e with desk := e.desk.emitAside (e.desk.sheet.triviaKind t.kind) } := by
  have htrivia : regionTrivia.run e =
      .ok true { e with desk := e.desk.emitAside (e.desk.sheet.triviaKind t.kind) } := by
    rw [regionTrivia, bind_current h, bind_get, Desk.triviaKind?_eq, ht]
    rfl
  rw [apart, run_bind_of_eq htrivia]
  rfl

theorem run_inside_trivia (h : absorbTrivia.run e = .ok true e') {body : Action Unit} :
    (inside body).run e = .ok () e' := by
  rw [inside, run_bind_of_eq h]
  rfl

theorem run_subtype_trivia (h : absorbTrivia.run e = .ok true e') {rest : Action Unit} :
    (subtypeIndication >>= fun b => if b then pure () else rest).run e = .ok () e' := by
  have hsub : subtypeIndication.run e = .ok true e' := by
    rw [subtypeIndication, run_bind_of_eq h]
    rfl
  rw [run_bind_of_eq hsub]
  rfl

theorem run_labelled {label : Option String} (hl : e.label = label)
    {body : Option String → Action Unit} : (labelled body).run e =
      (let next := setLabel none >>= fun _ => body label
      if label.isSome then inside next else apart next).run e := by
  rw [labelled, bind_get, hl]

/-- A routine inside a block leaves blanks and comments to `absorbTrivia`. -/
theorem run_routine_inside {s : State} (hs : s.trivia = .inside) (hl : e.label = s.label?)
    (h : absorbTrivia.run e = .ok true e') : s.routine.action.run e = .ok () e' := by
  cases s with
  | documentStart | documentRegion | declarations => cases hs
  | statements part label =>
    cases label with
    | none => cases hs
    | some name =>
      cases part with
      | concurrent =>
        change concurrentRegion.run e = _
        rw [concurrentRegion, run_labelled hl]
        exact run_inside_trivia h
      | sequential =>
        change sequentialRegion.run e = _
        rw [sequentialRegion, run_labelled hl]
        exact run_inside_trivia h
  | expression => exact run_inside_trivia h
  | reference _ phase | entity phase | architecture phase | package phase | procedure phase
  | process _ phase | end_ _ phase | simple _ phase | target _ _ phase | assignment _ _ phase
  | assertion phase | report phase | ifStatement _ phase | loop _ phase =>
    cases phase <;> first | exact run_inside_trivia h | cases hs
  | function phase | object _ phase | interface _ phase =>
    cases phase <;> first | exact run_inside_trivia h | exact run_subtype_trivia h | cases hs

/-- A routine between constructs makes blocks of blanks and comments. -/
theorem run_routine_apart {s : State} (hs : s.trivia = .apart) (hl : e.label = s.label?)
    (h : e.desk.Faces t) (ht : t.kind.isTrivia = true) :
    s.routine.action.run e =
      .ok () { e with desk := e.desk.emitAside (e.desk.sheet.triviaKind t.kind) } := by
  cases s with
  | documentRegion | declarations => exact run_apart_trivia h ht
  | statements part label =>
    cases label with
    | some name => cases hs
    | none =>
      cases part with
      | concurrent =>
        change concurrentRegion.run e = _
        rw [concurrentRegion, run_labelled hl]
        exact run_apart_trivia h ht
      | sequential =>
        change sequentialRegion.run e = _
        rw [sequentialRegion, run_labelled hl]
        exact run_apart_trivia h ht
  | documentStart | expression => cases hs
  | package phase => cases phase <;> first | exact run_apart_trivia h ht | cases hs
  | reference _ phase | entity phase | architecture phase | procedure phase
  | process _ phase | end_ _ phase | simple _ phase | target _ _ phase | assignment _ _ phase
  | assertion phase | report phase | ifStatement _ phase | loop _ phase | function phase
  | object _ phase | interface _ phase =>
    cases phase <;> cases hs

end Action

theorem Control.isAside_follow {c c' : Control} {next : Next} (hc : c.follow next = .ok c') :
    c'.isAside = c.isAside := by
  unfold follow at hc
  split at hc
  · cases hc
    rfl
  · cases hc
    rfl
  · split at hc <;> cases hc
    rfl

namespace Engine

variable {e e' : Engine} {m m' : Machine} {ts : List Token} {t : Token} {k : Nat}

/-! ## An engine and a machine -/

/-- The registers that say where the engine is. -/
def place (e : Engine) :
    Routine × Int32 × Tables × Option String × Bool × Option UInt32 × List Frame :=
  (e.next, e.counter, e.context, e.label, e.content, e.endName, e.stack)

theorem At.congr {s : State} {stack : List State} (h : e.At s stack) (hp : e'.place = e.place) :
    e'.At s stack := by
  simp only [place, Prod.mk.injEq] at hp
  obtain ⟨hnext, hcounter, hcontext, hlabel, hcontent, hend, hstack⟩ := hp
  obtain ⟨⟨hframe, hl, hb, he⟩, hf⟩ := h
  refine ⟨⟨?_, hlabel.trans hl, fun b h => hcontent.trans (hb b h), hend ▸ he⟩, hstack ▸ hf⟩
  rw [hnext, hcounter, hcontext]
  exact hframe

/-- The engine stands where the control is. While blanks and comments interrupt a state, the frame
on top is there to resume it. -/
def Stands (e : Engine) (c : Control) : Prop :=
  if c.isAside then e.next = .commentAside ∧ ∃ f frames, e.stack = f :: frames ∧
    (Action.resume e f frames).At c.state c.stack
  else e.At c.state c.stack

theorem Stands.congr {c : Control} (h : e.Stands c) (hp : e'.place = e.place) : e'.Stands c := by
  unfold Stands at h ⊢
  split
  · rename_i ha
    rw [if_pos ha] at h
    obtain ⟨hnext, f, frames, hstack, hat⟩ := h
    have hp' := hp
    simp only [place, Prod.mk.injEq] at hp'
    refine ⟨hp'.1.trans hnext, f, frames, hp'.2.2.2.2.2.2.trans hstack, hat.congr ?_⟩
    simp [place, Action.resume, hp']
  · rename_i ha
    rw [if_neg ha] at h
    exact h.congr hp

/-- The engine is where the machine is, and has the same to show for it. -/
structure Matches (e : Engine) (m : Machine) : Prop where
  stands : e.Stands m.control
  sheet : e.desk.sheet = m.sheet
  openings : e.names = m.control.openings
  warnings : e.warnings = m.warnings
  options : e.options = m.options
  done : e.done = m.done

/-- The engine comes to match the machine `m` as the verdict on the token `t` says, and has handed
out the first `k` blocks. After an error, it still has the same to show. -/
inductive Follows (k : Nat) (m : Machine) (t : Token) :
    Verdict → EStateM.Result Stop Engine Unit → Prop
  | taken {e : Engine} (h : e.Matches m) (rests : e.desk.Rests) (hands : e.desk.Hands k)
      (reissue : e.reissue = false) : Follows k m t .taken (.ok () e)
  | handedOn {e : Engine} (h : e.Matches m) (faces : e.desk.Faces t) (hands : e.desk.Hands k)
      (reissue : e.reissue = true) : Follows k m t .handedOn (.ok () e)
  | failed {e : Engine} {x : OutlineError} (sheet : e.desk.sheet = m.sheet)
      (warnings : e.warnings = m.warnings) (hands : e.desk.Hands k) :
      Follows k m t (.failed x) (.error (.failed x) e)

/-- The engine is about to run its routine for the token `t`, where the machine is about to show it
to a state. -/
structure Meets (e : Engine) (m : Machine) (ts : List Token) (t : Token) (k : Nat) : Prop where
  same : e.Matches m
  faces : e.desk.Faces t
  hands : e.desk.Hands k
  sound : m.Sound ts
  regular : m.Regular ts
  tokens : m.sheet.tokens.toList = ts ++ [t]
  countable : ts.length + 1 < 2147483648

/-- The engine that has been told to run the routine that is next. -/
def begun (e : Engine) : Engine := { e with reissue := false, running := e.next }

/-! ## Turns -/

/-- Where a move leads the machine, the engine stands if it has landed there. -/
theorem Lands.stands {c c' : Control} {next : Next} (h : e.Lands c.state c.stack next)
    (ha : c.isAside = false) (hc : c.follow next = .ok c') : e.Stands c' := by
  obtain ⟨s, aside, stack⟩ := c
  obtain rfl : aside = false := ha
  rw [Stands, Control.isAside_follow hc, if_neg (by simp)]
  exact h c' hc

theorem Meets.tokens_eq (h : e.Meets m ts t k) : e.desk.tokens = m.sheet.tokens :=
  congrArg Sheet.tokens h.same.sheet

/-- Unless it is interrupted, the engine is at the state of the machine. -/
theorem Meets.at_state (h : e.Meets m ts t k) (ha : m.control.isAside = false) :
    e.At m.control.state m.control.stack := by
  have := h.same.stands
  rwa [Stands, ha, if_neg (by simp)] at this

theorem Meets.next_eq (h : e.Meets m ts t k) (ha : m.control.isAside = false) :
    e.next = m.control.state.routine :=
  (h.at_state ha).suits.frame.routine

theorem Meets.ready (h : e.Meets m ts t k) (ha : m.control.isAside = false) :
    e.begun.Ready m.control.state m.control.stack ts t where
  here := (h.at_state ha).congr rfl
  openings := h.same.openings
  running := h.next_eq ha
  reissue := rfl
  faces := h.faces
  tokens := h.tokens_eq ▸ h.tokens
  linked := h.tokens_eq ▸ h.sound.laid.tokens_linked
  fits := h.sound.fits
  grounded := h.regular.grounded _ List.mem_cons_self
  recalls := h.regular.recalls
  depth_lt := by
    have := h.regular.depth_le _ List.mem_cons_self
    have := h.countable
    omega

/-- What the routine does is what the machine has for the state. -/
theorem Meets.answers (h : e.Meets m ts t k) (ha : m.control.isAside = false)
    (ht : t.kind.isTrivia = true → m.control.state.trivia = .seen) :
    e.begun.Answers m.control.state m.control.stack t (m.control.state.react m.sheet.index t)
      (e.next.action.run e.begun) := by
  have hans := (h.ready ha).answers ht
  rwa [show e.begun.desk.sheet = m.sheet from h.same.sheet,
    ← h.next_eq ha] at hans

/-- An engine that has landed where the machine goes, with the same to show, matches it. -/
theorem matches_of_becomes {c : Control} {sheet : Sheet} {warnings : Array NameMismatch}
    {done b : Bool} (hm : m.Becomes m' c sheet warnings done) (hstands : e.Stands c)
    (hsheet : e.desk.sheet = sheet)
    (ledger : e.ledger = (c.openings, warnings, m.options, done, b)) :
    e.Matches m' ∧ e.reissue = b := by
  simp only [Engine.ledger, Prod.mk.injEq] at ledger
  obtain ⟨hnames, hwarnings, hoptions, hdone, hb⟩ := ledger
  refine ⟨⟨?_, ?_, ?_, ?_, ?_, ?_⟩, hb⟩
  · rwa [hm.control]
  · rw [hm.sheet, hsheet]
  · rw [hm.control, hnames]
  · rw [hm.warnings, hwarnings]
  · rw [hm.options, hoptions]
  · rw [hm.done, hdone]

/-- A state that takes the token. -/
theorem Meets.take (h : e.Meets m ts t k) {before closing : Option BlockKind} {next : Next}
    {note : Option Note} {x : Option NameMismatch} {c : Control}
    (ha : m.control.isAside = false) (ht : t.kind.isTrivia = true → m.control.state.trivia = .seen)
    (hr : m.control.state.react m.sheet.index t = .ok ⟨.take before closing next, note, x⟩)
    (hx : m.options.strictNames = true → x = none) (hc : m.control.follow next = .ok c)
    (hm : m.Becomes m' c (m.sheet.taking before closing (m.control.state.reading t))
      (m.warnings ++ x.toArray) m.done) :
    Follows k m' t .taken (e.next.action.run e.begun) := by
  have hans := h.answers ha ht
  rw [hr] at hans
  have hopen := Control.openings_follow hr (h.regular.grounded _ List.mem_cons_self) rfl hc
  rw [← h.same.openings] at hopen
  have hsheet := h.faces.sheet_taking before closing (m.control.state.reading t)
  rw [h.same.sheet] at hsheet
  rw [← h.same.warnings, ← h.same.done] at hm
  generalize e.next.action.run e.begun = r at hans ⊢
  cases hans with
  | take desk lands ledger =>
    obtain ⟨hsame, hreissue⟩ := matches_of_becomes (b := false) hm (lands.stands ha hc)
      (desk ▸ hsheet) (ledger.trans (by simp [hopen, begun, h.same.options]))
    exact .taken hsame (desk ▸ h.faces.rests_taking _ _ _) (desk ▸ h.hands.taking _ _ _) hreissue
  | warn strict desk lands ledger =>
    obtain ⟨hsame, hreissue⟩ := matches_of_becomes (b := false) hm (lands.stands ha hc)
      (desk ▸ hsheet) (ledger.trans (by simp [hopen, begun, h.same.options]))
    exact .taken hsame (desk ▸ h.faces.rests_taking _ _ _) (desk ▸ h.hands.taking _ _ _) hreissue
  | mismatch strict =>
    have := hx (h.same.options ▸ strict)
    cases this

/-- A state that hands the token on. -/
theorem Meets.pass (h : e.Meets m ts t k) {before : Option BlockKind} {next : Next}
    {note : Option Note} {x : Option NameMismatch} {c : Control}
    (ha : m.control.isAside = false) (ht : t.kind.isTrivia = true → m.control.state.trivia = .seen)
    (hr : m.control.state.react m.sheet.index t = .ok ⟨.pass before next, note, x⟩)
    (hc : m.control.follow next = .ok c)
    (hm : m.Becomes m' c (m.sheet.cutBefore before) m.warnings m.done) :
    Follows k m' t .handedOn (e.next.action.run e.begun) := by
  have hans := h.answers ha ht
  rw [hr] at hans
  have hopen := Control.openings_follow hr (h.regular.grounded _ List.mem_cons_self) rfl hc
  rw [← h.same.openings] at hopen
  obtain ⟨hfaces, hsheet⟩ := h.faces.cutBefore before
  rw [h.same.sheet] at hsheet
  rw [← h.same.warnings, ← h.same.done] at hm
  generalize e.next.action.run e.begun = r at hans ⊢
  cases hans with
  | pass desk lands ledger =>
    obtain ⟨hsame, hreissue⟩ := matches_of_becomes (b := true) hm (lands.stands ha hc)
      (desk ▸ hsheet) (ledger.trans (by simp [hopen, begun, h.same.options]))
    exact .handedOn hsame (desk ▸ hfaces) (desk ▸ h.hands.cutBefore _) hreissue

/-- Blanks and comments form blocks of their own between constructs, and while they interrupt
one. -/
theorem Meets.trivium (h : e.Meets m ts t k) (ht : t.kind.isTrivia = true)
    (hs : m.control.isAside = true ∨ m.control.state.trivia = .apart)
    (hm : m.Becomes m' m.control (m.sheet.closeAside (m.sheet.triviaKind t.kind)) m.warnings
      m.done) :
    Follows k m' t .taken (e.next.action.run e.begun) := by
  have hf : e.begun.desk.Faces t := h.faces
  have hrun : e.next.action.run e.begun = .ok () { e.begun with
      desk := e.desk.emitAside (m.sheet.triviaKind t.kind) } := by
    rw [← h.same.sheet]
    cases ha : m.control.isAside with
    | true =>
      have hstands := h.same.stands
      rw [Stands, ha, if_pos rfl] at hstands
      rw [hstands.1]
      change Action.commentAside.run e.begun = _
      rw [Action.commentAside, Action.bind_current hf, Action.bind_get, Desk.triviaKind?_eq, ht]
      rfl
    | false =>
      have hat := h.at_state ha
      have hs' : m.control.state.trivia = .apart := hs.resolve_left (by simp [ha])
      rw [h.next_eq ha]
      exact Action.run_routine_apart hs' hat.suits.label hf ht
  have hsheet := h.faces.sheet_emitAside (m.sheet.triviaKind t.kind)
  rw [h.same.sheet] at hsheet
  have hstands : Engine.Stands { e.begun with
      desk := e.desk.emitAside (m.sheet.triviaKind t.kind) } m.control := h.same.stands.congr rfl
  obtain ⟨hsame, hreissue⟩ := matches_of_becomes (b := false) hm hstands hsheet
    (by simp [Engine.ledger, begun, h.same.openings, h.same.warnings, h.same.options, h.same.done])
  rw [hrun]
  exact .taken hsame (.of_marker rfl) (h.hands.emitAside _) hreissue

/-- A space joins the block under construction. -/
theorem Meets.absorb (h : e.Meets m ts t k) (ha : m.control.isAside = false)
    (hs : m.control.state.trivia = .inside)
    (hm : m.Becomes m' m.control m.sheet m.warnings m.done) (hk : t.kind = .space) :
    Follows k m' t .taken (e.next.action.run e.begun) := by
  have hf : e.begun.desk.Faces t := h.faces
  have hat := h.at_state ha
  have habsorb : Action.absorbTrivia.run e.begun = .ok true e.begun := by
    rw [Action.absorbTrivia, Action.bind_current hf, hk]
    rfl
  have hrun : e.next.action.run e.begun = .ok () e.begun := by
    rw [h.next_eq ha]
    exact Action.run_routine_inside hs hat.suits.label habsorb
  have hstands : e.begun.Stands m.control := h.same.stands.congr rfl
  obtain ⟨hsame, hreissue⟩ := matches_of_becomes (b := false) hm hstands h.same.sheet
    (by simp [Engine.ledger, begun, h.same.openings, h.same.warnings, h.same.options, h.same.done])
  rw [hrun]
  exact .taken hsame h.faces.rests h.hands hreissue

/-- A blank or comment sets the block under construction aside, and the frame on top is there to go
on with it. -/
theorem Meets.interrupt (h : e.Meets m ts t k) (ht : t.kind.isTrivia = true)
    (hspace : t.kind ≠ .space) (ha : m.control.isAside = false)
    (hs : m.control.state.trivia = .inside)
    (hm : m.Becomes m' { m.control with isAside := true } m.sheet.interrupt m.warnings m.done) :
    Follows k m' t .handedOn (e.next.action.run e.begun) := by
  have hf : e.begun.desk.Faces t := h.faces
  have hat := h.at_state ha
  obtain ⟨d, hd, hsheet, hfaces, hhands⟩ := hf.interrupt?
  rw [show e.begun.desk.sheet = m.sheet from h.same.sheet] at hsheet
  let e' : Engine := { e.begun with
    desk := d
    stack := ⟨e.next, e.counter, e.context⟩ :: e.stack
    counter := 0
    next := .commentAside
    reissue := true }
  have hinterrupt : Action.interrupt.run e.begun = .ok () e' := by
    rw [Action.interrupt, Action.bind_get, Action.run_bind_of_eq (Action.run_demand hd)]
    rfl
  have habsorb : Action.absorbTrivia.run e.begun = .ok true e' := by
    rw [Action.absorbTrivia, Action.bind_current hf]
    generalize t.kind = kind at ht hspace
    cases kind <;> first | exact Action.run_bind_of_eq hinterrupt | contradiction
  have hrun : e.next.action.run e.begun = .ok () e' := by
    rw [h.next_eq ha]
    exact Action.run_routine_inside hs hat.suits.label habsorb
  have hstands : e'.Stands { m.control with isAside := true } :=
    ⟨rfl, _, _, rfl, hat.congr rfl⟩
  obtain ⟨hsame, hreissue⟩ := matches_of_becomes (b := true) hm hstands hsheet
    (by simp [e', Engine.ledger, begun, h.same.openings, h.same.warnings, h.same.options,
      h.same.done, Control.openings])
  rw [hrun]
  exact .handedOn hsame hfaces (hhands _ h.hands) hreissue

/-- The first other token resumes the interrupted state. -/
theorem Meets.resume (h : e.Meets m ts t k) (ht : t.kind.isTrivia = false)
    (ha : m.control.isAside = true)
    (hm : m.Becomes m' { m.control with isAside := false } m.sheet m.warnings m.done) :
    Follows k m' t .handedOn (e.next.action.run e.begun) := by
  have hf : e.begun.desk.Faces t := h.faces
  have hstands := h.same.stands
  rw [Stands, ha, if_pos rfl] at hstands
  obtain ⟨hnext, f, frames, hstack, hat⟩ := hstands
  have hpop : (Action.pop 1).run e.begun = .ok () (Action.resume e.begun f frames) :=
    Action.run_pop hstack
  have hrun : e.next.action.run e.begun =
      .ok () { Action.resume e.begun f frames with reissue := true } := by
    rw [hnext]
    change Action.commentAside.run e.begun = _
    rw [Action.commentAside, Action.bind_current hf, Action.bind_get, Desk.triviaKind?_eq, ht]
    exact Action.run_bind_of_eq hpop
  have hback : ({ Action.resume e.begun f frames with reissue := true } : Engine).Stands
      { m.control with isAside := false } := hat.congr rfl
  obtain ⟨hsame, hreissue⟩ := matches_of_becomes (b := true) hm hback h.same.sheet
    (by simp [Engine.ledger, Action.resume, begun, h.same.openings, h.same.warnings,
      h.same.options, h.same.done, Control.openings])
  rw [hrun]
  exact .handedOn hsame h.faces h.hands hreissue

theorem Meets.finish (h : e.Meets m ts t k) {note : Option Note} {x : Option NameMismatch}
    (ha : m.control.isAside = false) (ht : t.kind.isTrivia = true → m.control.state.trivia = .seen)
    (hr : m.control.state.react m.sheet.index t = .ok ⟨.finish, note, x⟩)
    (hm : m.Becomes m' m.control (m.sheet.close .endOfDocument) m.warnings true) :
    Follows k m' t .taken (e.next.action.run e.begun) := by
  have hans := h.answers ha ht
  rw [hr] at hans
  have hsheet := h.faces.sheet_emit .endOfDocument
  rw [h.same.sheet] at hsheet
  generalize e.next.action.run e.begun = r at hans ⊢
  cases hans with
  | finish =>
    have hstands : Engine.Stands { e.begun with
        desk := e.begun.desk.emit .endOfDocument
        done := true } m.control := h.same.stands.congr rfl
    obtain ⟨hsame, hreissue⟩ := matches_of_becomes (b := false) hm hstands hsheet
      (by simp [Engine.ledger, begun, h.same.openings, h.same.warnings, h.same.options])
    exact .taken hsame (.of_marker rfl) (h.hands.emit _) hreissue

/-- **A routine does what a turn of the machine does.** -/
theorem Meets.visit (h : e.Meets m ts t k) {v : Verdict} (hv : m.visit t = (m', v)) :
    Follows k m' t v (e.next.action.run e.begun) := by
  have hturn := Machine.turn_of_visit h.sound.fits hv
  generalize m.completed t = cs at hturn
  cases hturn with
  | trivium ht hs hm => exact h.trivium ht hs hm
  | resume ht ha hm => exact h.resume ht ha hm
  | absorb ht ha hs hm hk => exact h.absorb ha hs hm hk
  | interrupt ht ha hs hm =>
    refine h.interrupt ht (fun hk => ?_) ha hs hm
    simp [Machine.visit, Machine.log, ha, hs, hk, TokenKind.isTrivia] at hv
  | take ha ht hr hx hc hm => exact h.take ha ht hr hx hc hm
  | pass ha ht hr hc hm => exact h.pass ha ht hr hc hm
  | finish ha ht hr hm => exact h.finish ha ht hr hm
  | mismatch ha ht hr hx hm =>
    have hans := h.answers ha ht
    rw [hr] at hans
    generalize e.next.action.run e.begun = r at hans ⊢
    cases hans with
    | mismatch _ desk warnings =>
      refine .failed ?_ ?_ (desk ▸ h.hands.taking _ _ _)
      · rw [desk, hm.sheet, ← h.same.sheet]
        exact h.faces.sheet_taking _ _ _
      · rw [warnings, hm.warnings]
        exact h.same.warnings
    | warn strict =>
      have := strict.symm.trans ((congrArg Options.strictNames h.same.options).trans hx)
      cases this
  | refuse ha ht hr hm =>
    have hans := h.answers ha ht
    rw [hr] at hans
    generalize e.next.action.run e.begun = r at hans ⊢
    cases hans with
    | refuse desk warnings =>
      refine .failed ?_ ?_ (desk ▸ h.hands)
      · rw [desk, hm.sheet]
        exact h.same.sheet
      · rw [warnings, hm.warnings]
        exact h.same.warnings

end Engine

end VhdlOutline
