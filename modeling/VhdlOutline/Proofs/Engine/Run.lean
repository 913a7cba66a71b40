import VhdlOutline.Proofs.Engine.Visit
import VhdlOutline.Proofs.Outline.Delivery

/-!
# The engine runs as the machine does

A token leads the engine where it leads the machine, and blocks are handed out by number as a parser
delivers them. `Feed.Tracks` relates a feed to a parser, and every call keeps it.

`Feed.calls_faultless` puts it together: with fewer than 2³¹ tokens, of any kinds and in any order,
no call finds the engine inconsistent, none panics, and the answers are those of the parser.
-/

namespace VhdlOutline

/-! ## Blocks are not more than tokens -/

theorem Tiles.length_le {lo hi : Nat} {es : List (Nat × Nat)} (h : Tiles lo es hi) :
    lo + es.length ≤ hi := by
  induction es generalizing lo with
  | nil => exact Nat.le_of_eq h
  | cons x es ih =>
    obtain ⟨rfl, hle, htiles⟩ := h
    have := ih htiles
    rw [List.length_cons]
    omega

theorem Sheet.Laid.size_blocks_le {s : Sheet} {n : Nat} (h : s.Laid n) : s.blocks.size ≤ n := by
  have hlen := h.tiles.length_le
  rw [List.length_append, List.length_map, List.length_map, Chain.length_toList] at hlen
  have := h.start_le
  omega

namespace Engine

variable {e e' : Engine} {m m' : Machine} {ts : List Token} {t : Token} {k : Nat}

/-! ## Tokens -/

/-- What a token makes of the engine is what it makes of the machine. -/
inductive Feeds (k : Nat) (m : Machine) :
    Option OutlineError → EStateM.Result Stop Engine Unit → Prop
  | taken {e : Engine} (h : e.Matches m) (rests : e.desk.Rests) (hands : e.desk.Hands k) :
      Feeds k m none (.ok () e)
  | failed {e : Engine} {x : OutlineError} (sheet : e.desk.sheet = m.sheet)
      (warnings : e.warnings = m.warnings) (hands : e.desk.Hands k)
      (few : m.sheet.blocks.size < 2147483648) : Feeds k m (some x) (.error (.failed x) e)

theorem Meets.size_blocks_lt (h : e.Meets m ts t k) {x : OutlineError} {cs : List Completion}
    (hm : Machine.Turn m t cs m' (.failed x)) : m'.sheet.blocks.size < 2147483648 := by
  have hi := Sheet.index_eq h.tokens
  have hlaid : m.sheet.Laid m.sheet.index := hi ▸ h.sound.laid
  have hlt := h.countable
  cases hm with
  | mismatch _ _ _ _ hm =>
    rw [hm.sheet]
    exact Nat.lt_of_le_of_lt (hlaid.taking _ _ _).size_blocks_le (by omega)
  | refuse _ _ _ hm =>
    have := h.sound.laid.size_blocks_le
    rw [hm.sheet]
    omega

/-- A token that is issued again and again comes where the machine has it in the end. -/
theorem Meets.issue (h : e.Meets m ts t k) {n : Nat} (hn : m.handovers t < n)
    {r : Option OutlineError} (hr : m.settleToken t n = (m', r)) :
    Feeds k m' r ((Action.issue n).run e) := by
  induction n generalizing e m with
  | zero => omega
  | succ n ih =>
    have hissue : (Action.issue (n + 1)).run e =
        (e.next.action >>= fun _ => get >>= fun e' : Engine =>
          if e'.reissue then Action.onDesk Desk.mark >>= fun _ => Action.issue n
          else pure ()).run e.begun := rfl
    rw [Machine.settleToken] at hr
    generalize hv : m.visit t = p at hr
    obtain ⟨m₁, v⟩ := p
    have hturn := Machine.turn_of_visit h.sound.fits hv
    have hfollows := h.visit hv
    generalize hrun : e.next.action.run e.begun = R at hfollows
    cases hfollows with
    | taken hsame rests hands reissue =>
      cases hr
      rw [hissue, Action.run_bind_of_eq hrun, Action.bind_get, if_neg (by simp [reissue])]
      exact .taken hsame rests hands
    | @handedOn e₁ hsame faces hands reissue =>
      obtain ⟨htok, hsound, hlt⟩ := h.sound.handedOn h.tokens hturn
      have hmark : (Action.onDesk Desk.mark).run e₁ = .ok () e₁ := by
        have : ({ e₁ with desk := e₁.desk.mark } : Engine) = e₁ := by rw [faces.mark]
        exact congrArg (EStateM.Result.ok ()) this
      rw [hissue, Action.run_bind_of_eq hrun, Action.bind_get, if_pos reissue,
        Action.run_bind_of_eq hmark]
      exact ih ⟨hsame, faces, hands, hsound, h.regular.handedOn h.sound hturn, htok, h.countable⟩
        (by omega) hr
    | failed sheet warnings hands =>
      cases hr
      rw [hissue, EStateM.run_bind, hrun]
      exact .failed sheet warnings hands (h.size_blocks_lt hturn)

/-- **Feeding the engine a token** does what feeding it to the machine does. -/
theorem Matches.step (h : e.Matches m) (rests : e.desk.Rests) (hands : e.desk.Hands k)
    (hs : m.Sound ts) (hr : m.Regular ts) (ht : m.sheet.tokens.toList = ts)
    (hlt : ts.length + 1 < 2147483648) {r : Option OutlineError} (hf : m.feed t = (m', r)) :
    Feeds k m' r ((Action.step t).run e) := by
  have hsize : e.desk.tokens.size = ts.length := by
    rw [← ht, Chain.length_toList]
    exact congrArg (Chain.size ∘ Sheet.tokens) h.sheet
  have hsmall : e.desk.tokens.size < UInt32.size := by
    rw [hsize, UInt32.size]
    omega
  obtain ⟨hfaces, hsheet, hhands⟩ := rests.push hsmall t
  let e' : Engine := { e with desk := (e.desk.push t).mark }
  have hmeets : e'.Meets { m with sheet := m.sheet.push t } ts t k := {
    same := ⟨h.stands.congr rfl, h.sheet ▸ hsheet, h.openings, h.warnings, h.options, h.done⟩
    faces := hfaces
    hands := hhands k hands
    sound := hs.push t
    regular := ⟨hr.grounded, hr.depth_le, hr.recalls⟩
    tokens := by simp [Sheet.push, ht]
    countable := hlt }
  exact hmeets.issue (Machine.handovers_lt _ t) hf

end Engine

/-! ## Calls -/

namespace Desk

variable {d : Desk} {k : Nat}

/-- There is a block to be handed out if not all have been. -/
theorem Hands.fresh_of_lt (h : d.Hands k) (hk : k < d.blocks.size) :
    ∃ fresh, d.fresh = .ofNat k :: fresh ∧ ({ d with fresh } : Desk).Hands (k + 1) := by
  have hlen : k < (List.range d.blocks.size).length := by simpa using hk
  refine ⟨((List.range d.blocks.size).drop (k + 1)).map .ofNat, ?_, hk, rfl⟩
  rw [h.fresh, List.drop_eq_getElem_cons hlen, List.map_cons, List.getElem_range]

theorem Hands.fresh_of_le (h : d.Hands k) (hk : d.blocks.size ≤ k) : d.fresh = [] := by
  rw [h.fresh, List.drop_eq_nil_of_le (by simpa using hk), List.map_nil]

end Desk

theorem Engine.Stands.name_next {e : Engine} {c : Control} (h : e.Stands c) :
    e.next.name = c.name := by
  unfold Engine.Stands at h
  unfold Control.name
  split
  · rename_i ha
    rw [if_pos ha] at h
    rw [h.1]
    rfl
  · rename_i ha
    rw [if_neg ha] at h
    rw [show e.next = c.state.routine from h.suits.frame.routine, State.name_routine]

theorem Engine.matches_start (options : Options) :
    ({ options } : Engine).Matches { options } where
  stands := show Engine.At _ _ _ from ⟨.plain rfl rfl trivial rfl rfl trivial, .nil⟩
  sheet := rfl
  openings := rfl
  warnings := rfl
  options := rfl
  done := rfl

namespace Feed

/-- The answer of a parser to a call, for the answer of a feed. -/
def toAnswer (a : Option (Except OutlineError UInt32)) : Answer := a.map fun x => x.map UInt32.toNat

/-- The feed and the parser have read and handed out the same. Unless they have failed, the engine
matches the machine, and can go on. -/
structure Tracks (f : Feed) (p : Parser) : Prop where
  input : f.input = p.input
  failed : f.failed = p.failed
  sheet : f.engine.desk.sheet = p.machine.sheet
  warnings : f.engine.warnings = p.machine.warnings
  hands : f.engine.desk.Hands p.delivered
  few : p.machine.sheet.blocks.size < 2147483648
  same : p.failed = false → f.engine.Matches p.machine ∧ f.engine.desk.Rests
  regular : p.failed = false → p.machine.Sound p.machine.sheet.tokens.toList ∧
    p.machine.Regular p.machine.sheet.tokens.toList
  countable : p.failed = false → p.machine.sheet.tokens.size + p.input.length < 2147483648

theorem tracks_start {input : List (Except LexError Token)} (options : Options)
    (h : input.length < 2147483648) : (start input options).Tracks (.start input options) where
  input := rfl
  failed := rfl
  sheet := rfl
  warnings := rfl
  hands := ⟨Nat.le_refl _, rfl⟩
  few := show 0 < 2147483648 by decide
  same := fun _ => ⟨Engine.matches_start options, .of_marker rfl⟩
  regular := fun _ => ⟨Machine.sound_start options, Machine.regular_start options⟩
  countable := fun _ => (Nat.zero_add _).symm ▸ h

/-- The next call gives the parser's answer, and keeps the feed abreast of the parser. -/
def NextTracks (f : Feed) (p : Parser) : Prop :=
  ∃ a f', f.next = some (a, f') ∧ toAnswer a = p.next.1 ∧ f'.Tracks p.next.2

variable {f : Feed} {p : Parser}

/-- A block is handed out by its number. -/
theorem Tracks.next_fresh (h : f.Tracks p) (hk : p.delivered < p.machine.sheet.blocks.size) :
    f.NextTracks p := by
  have hblocks : f.engine.desk.blocks = p.machine.sheet.blocks := congrArg Sheet.blocks h.sheet
  obtain ⟨fresh, hfresh, hhands⟩ := h.hands.fresh_of_lt (hblocks ▸ hk)
  have hnext : p.next = (some (.ok p.delivered), { p with delivered := p.delivered + 1 }) :=
    if_pos hk
  refine ⟨some (.ok (.ofNat p.delivered)), ⟨f.input,
    { f.engine with desk := { f.engine.desk with fresh } }, f.failed⟩, ?_, ?_, ?_⟩
  · rw [Feed.next, pull.eq_def, hfresh]
  · rw [hnext]
    have hlt : p.delivered < UInt32.size := Nat.lt_trans hk (Nat.lt_trans h.few (by decide))
    simpa [toAnswer, Except.map] using hlt
  · rw [hnext]
    refine { h with hands := hhands, same := fun hf => ?_ }
    obtain ⟨hsame, hrests⟩ := h.same hf
    exact ⟨⟨hsame.stands.congr rfl, hsame.sheet, hsame.openings, hsame.warnings, hsame.options,
      hsame.done⟩, hrests⟩

/-- There is nothing more after an error, or once the document has ended. -/
theorem Tracks.next_stopped (h : f.Tracks p) (hk : ¬ p.delivered < p.machine.sheet.blocks.size)
    (hs : (p.failed || p.machine.done) = true) : f.NextTracks p := by
  have hblocks : f.engine.desk.blocks = p.machine.sheet.blocks := congrArg Sheet.blocks h.sheet
  have hfresh := h.hands.fresh_of_le (hblocks ▸ Nat.le_of_not_lt hk)
  have hnext : p.next = (none, p) := by rw [Parser.next, if_neg hk, if_pos hs]
  have hs' : (f.failed || f.engine.done) = true := by
    rw [h.failed]
    cases hf : p.failed with
    | true => rfl
    | false => rwa [(h.same hf).1.done, ← hf]
  refine ⟨none, f, ?_, by rw [hnext]; rfl, by rw [hnext]; exact h⟩
  rw [Feed.next, pull.eq_def, hfresh]
  exact if_pos hs'

/-- With no block left, the feed reads on. -/
theorem pull_of_reading {e : Engine} (hfresh : e.desk.fresh = []) (hdone : e.done = false)
    (input : List (Except LexError Token)) :
    pull e false input =
      match input with
      | [] => some (some (.error (.unexpectedEnd e.next.name)), ⟨[], e, true⟩)
      | .error x :: xs => some (some (.error (.lexical x)), ⟨xs, e, true⟩)
      | .ok t :: xs =>
        match (Action.step t).run e with
        | .ok () e => pull e false xs
        | .error (.failed x) e => some (some (.error x), ⟨xs, e, true⟩)
        | .error .panicked _ => none := by
  rw [pull.eq_def, hfresh]
  exact if_neg (by simp [hdone])

/-- An error is the last that the feed and the parser read. -/
theorem Tracks.fail {xs : List (Except LexError Token)} {e : Engine} {m : Machine} {k : Nat}
    (hsheet : e.desk.sheet = m.sheet) (hwarnings : e.warnings = m.warnings) (hands : e.desk.Hands k)
    (few : m.sheet.blocks.size < 2147483648) :
    (⟨xs, e, true⟩ : Feed).Tracks ⟨xs, m, k, true⟩ :=
  ⟨rfl, rfl, hsheet, hwarnings, hands, few, Bool.noConfusion, Bool.noConfusion, Bool.noConfusion⟩

/-- A token that the engine and the machine have taken keeps the feed abreast of the parser. -/
theorem Tracks.taken {xs : List (Except LexError Token)} {e e' : Engine} {m m' : Machine}
    {k : Nat} {t : Token} (h : (⟨.ok t :: xs, e, false⟩ : Feed).Tracks ⟨.ok t :: xs, m, k, false⟩)
    (hdone : m.done = false) (hf : m.feed t = (m', none)) (same : e'.Matches m')
    (rests : e'.desk.Rests) (hands : e'.desk.Hands k) :
    (⟨xs, e', false⟩ : Feed).Tracks ⟨xs, m', k, false⟩ := by
  obtain ⟨hsound, hregular⟩ := h.regular rfl
  have hcount : m.sheet.tokens.size + (xs.length + 1) < 2147483648 := h.countable rfl
  obtain ⟨t', -, htok, hsound', -, hregular'⟩ :=
    @Machine.Kept.feed _ Machine.kept_regular _ _ _ [] hsound rfl hdone hregular t hf
  have hsize : m'.sheet.tokens.size = m.sheet.tokens.size + 1 := by
    rw [← Chain.length_toList, htok, List.length_append, Chain.length_toList]
    rfl
  have hfew := hsound'.laid.size_blocks_le
  rw [← htok, Chain.length_toList] at hfew
  have hfew' : m'.sheet.blocks.size < 2147483648 := by omega
  have hcount' : m'.sheet.tokens.size + xs.length < 2147483648 := by omega
  exact {
    input := rfl
    failed := rfl
    sheet := same.sheet
    warnings := same.warnings
    hands
    few := hfew'
    same := fun _ => ⟨same, rests⟩
    regular := fun _ => htok ▸ ⟨hsound', hregular'⟩
    countable := fun _ => hcount' }

/-- A feed and a parser that read on come to the same, if they do after the next token. -/
theorem Tracks.next_reading {xs : List (Except LexError Token)} {e : Engine} {m : Machine} {k : Nat}
    (h : (⟨xs, e, false⟩ : Feed).Tracks ⟨xs, m, k, false⟩) (hk : ¬ k < m.sheet.blocks.size)
    (hdone : m.done = false)
    (ih : ∀ t ys e' m', xs = .ok t :: ys → (⟨ys, e', false⟩ : Feed).Tracks ⟨ys, m', k, false⟩ →
      (⟨ys, e', false⟩ : Feed).NextTracks ⟨ys, m', k, false⟩) :
    (⟨xs, e, false⟩ : Feed).NextTracks ⟨xs, m, k, false⟩ := by
  obtain ⟨hsame, hrests⟩ := h.same rfl
  have hsound : m.Sound m.sheet.tokens.toList := (h.regular rfl).1
  have hregular : m.Regular m.sheet.tokens.toList := (h.regular rfl).2
  have hblocks : e.desk.blocks = m.sheet.blocks := congrArg Sheet.blocks h.sheet
  have hfresh := h.hands.fresh_of_le (hblocks ▸ Nat.le_of_not_lt hk)
  have hnext : (⟨xs, e, false⟩ : Feed).next = _ :=
    pull_of_reading hfresh (hsame.done.trans hdone) xs
  have hparser : Parser.next ⟨xs, m, k, false⟩ = Parser.pull m k xs := by
    rw [Parser.next, if_neg hk, if_neg (by simp [hdone])]
  rw [NextTracks, hnext, hparser]
  cases xs with
  | nil =>
    refine ⟨_, _, rfl, ?_, .fail h.sheet h.warnings h.hands h.few⟩
    rw [hsame.stands.name_next]
    rfl
  | cons x ys =>
    cases x with
    | error x => exact ⟨_, _, rfl, rfl, .fail h.sheet h.warnings h.hands h.few⟩
    | ok t =>
      have hcount : m.sheet.tokens.size + (ys.length + 1) < 2147483648 := h.countable rfl
      dsimp only
      rw [Parser.pull]
      generalize hf : m.feed t = fed
      obtain ⟨m', r⟩ := fed
      have hfeeds := hsame.step hrests h.hands hsound hregular rfl
        (by rw [Chain.length_toList]; omega) hf
      generalize (Action.step t).run e = R at hfeeds
      cases hfeeds with
      | failed sheet warnings hands few => exact ⟨_, _, rfl, rfl, .fail sheet warnings hands few⟩
      | @taken e' same rests hands =>
        have hagree : (if k < m'.sheet.blocks.size then
            (some (.ok k), ⟨ys, m', k + 1, false⟩)
          else if m'.done then (none, ⟨ys, m', k, false⟩)
          else Parser.pull m' k ys) = Parser.next ⟨ys, m', k, false⟩ := by
          rw [Parser.next, Bool.false_or]
        dsimp only
        rw [hagree]
        exact ih t ys e' m' rfl (h.taken hdone hf same rests hands)

/-- **Every call keeps a feed abreast of a parser**, and gives the parser's answer. -/
theorem Tracks.next (h : f.Tracks p) : f.NextTracks p := by
  obtain ⟨xs, e, failed⟩ := f
  obtain ⟨input, m, k, failed'⟩ := p
  obtain rfl : xs = input := h.input
  obtain rfl : failed = failed' := h.failed
  have hstep (xs : List (Except LexError Token)) (e : Engine) (m : Machine) (failed : Bool)
      (h : (⟨xs, e, failed⟩ : Feed).Tracks ⟨xs, m, k, failed⟩)
      (ih : ∀ t ys e' m', xs = .ok t :: ys → (⟨ys, e', false⟩ : Feed).Tracks ⟨ys, m', k, false⟩ →
        (⟨ys, e', false⟩ : Feed).NextTracks ⟨ys, m', k, false⟩) :
      (⟨xs, e, failed⟩ : Feed).NextTracks ⟨xs, m, k, failed⟩ := by
    by_cases hk : k < m.sheet.blocks.size
    · exact h.next_fresh hk
    by_cases hs : (failed || m.done) = true
    · exact h.next_stopped hk hs
    obtain ⟨rfl, hdone⟩ : failed = false ∧ m.done = false := by simpa using hs
    exact h.next_reading hk hdone ih
  induction xs generalizing e m failed with
  | nil =>
    refine hstep [] e m failed h ?_
    rintro t ys e' m' ⟨⟩
  | cons x xs ih =>
    refine hstep _ e m failed h ?_
    rintro t ys e' m' ⟨⟩ htracks
    exact ih _ _ _ htracks

/-- The answers to the first `n` calls, and the feed after them. -/
def calls (f : Feed) : (n : Nat) → Option (List (Option (Except OutlineError UInt32)) × Feed)
  | 0 => some ([], f)
  | n + 1 => do
    let (answers, f) ← f.calls n
    let (a, f) ← f.next
    return (answers ++ [a], f)

theorem Tracks.calls (h : f.Tracks p) (n : Nat) : ∃ answers f', f.calls n = some (answers, f') ∧
    answers.map toAnswer = (p.calls n).1 ∧ f'.Tracks (p.calls n).2 := by
  induction n with
  | zero => exact ⟨[], f, rfl, rfl, h⟩
  | succ n ih =>
    obtain ⟨answers, f₁, hcalls, hanswers, htracks⟩ := ih
    obtain ⟨a, f₂, hnext, ha, htracks'⟩ := htracks.next
    refine ⟨answers ++ [a], f₂, ?_, ?_, ?_⟩
    · simp [Feed.calls, hcalls, hnext]
    · rw [List.map_append, hanswers, List.map_singleton, ha]
      rfl
    · exact htracks'

/-- The feed and the parser have read and written the same. -/
structure Agrees (f : Feed) (p : Parser) : Prop where
  input : f.input = p.input
  failed : f.failed = p.failed
  tokens : f.engine.desk.tokens = p.machine.sheet.tokens
  blocks : f.engine.desk.blocks = p.machine.sheet.blocks
  warnings : f.engine.warnings = p.machine.warnings

theorem Tracks.agrees (h : f.Tracks p) : f.Agrees p where
  input := h.input
  failed := h.failed
  tokens := congrArg Sheet.tokens h.sheet
  blocks := congrArg Sheet.blocks h.sheet
  warnings := h.warnings

/-- **The engine is consistent.** Given fewer than 2³¹ tokens, of any kinds and in any order, and
however often a feed is called, it does not panic, and never answers that the engine is at fault:
there is always a frame to return to, every table that is asked for is in the context, an end is
that of a construct that has been declared, the document ends where nothing is open, a label has a
name before it, a token that is referred to is there, and no token is issued too often. Moreover,
the answers, the tokens, the blocks and the warnings are those of a parser. -/
theorem calls_faultless {input : List (Except LexError Token)} (options : Options)
    (h : input.length < 2 ^ 31) (n : Nat) :
    ∃ answers f, (start input options).calls n = some (answers, f) ∧
      (∀ state fault, some (.error (.internal state fault)) ∉ answers) ∧
      answers.map toAnswer = ((Parser.start input options).calls n).1 ∧
      f.Agrees ((Parser.start input options).calls n).2 := by
  obtain ⟨answers, f, hcalls, hanswers, htracks⟩ := (tracks_start options h).calls n
  refine ⟨answers, f, hcalls, ?_, hanswers, htracks.agrees⟩
  intro state fault hmem
  obtain ⟨xs, e, -, hrun, herror⟩ := (Parser.delivers_calls input options n).exists_run
  have hends := Machine.run_ends_start Machine.kept_framed (Machine.framed_start options) hrun
  refine hends.ne_internal state fault (herror _ ?_)
  rw [← hanswers]
  exact List.mem_map_of_mem hmem

/-- Tokens that end before the document does. -/
def brokenOff : List (Except LexError Token) :=
  [.ok (.synthetic .startOfDocument ""), .ok (.synthetic .word "package"),
    .ok (.synthetic .space " "), .ok (.synthetic .word "p")]

theorem calls_faultless_brokenOff :
    brokenOff.length < 2 ^ 31 ∧
      ∃ answers f, (start brokenOff {}).calls 3 = some (answers, f) ∧
        (∀ state fault, some (.error (.internal state fault)) ∉ answers) ∧
        answers.map toAnswer = [some (.ok 0), some (.error (.unexpectedEnd "after_name")), none] ∧
        f.Agrees ((Parser.start brokenOff {}).calls 3).2 := by
  have h : brokenOff.length < 2 ^ 31 := by decide
  obtain ⟨answers, f, hcalls, hfaultless, hanswers, hagrees⟩ := calls_faultless {} h 3
  exact ⟨h, answers, f, hcalls, hfaultless, hanswers.trans (by decide +kernel), hagrees⟩

end Feed

end VhdlOutline
