import VhdlOutline.Proofs.Outline.Table
import VhdlOutline.Outline.Machine

/-!
# The discipline of the stack

Which states may stand on the stack below a state, and how long a token may be handed on.

* `State.Fits` relates a state to the stack below it. Every move leads from a fitting control to a
  fitting control (`State.Fits.follow`), so that no return finds the stack empty.
* `State.Arrives` says how a move leads from one state to another, and `State.Fits.arrives` that it
  does so in no other way: what holds wherever a move leads is proved by these cases.
* `State.rank` bounds how often a token is handed on: it falls with every move that hands the token
  on (`State.Fits.rank_lt`).
* `State.posture` says how far the block under construction has come, as far as a state relies on
  it: nothing of it has been read, or something has.
-/

namespace VhdlOutline

namespace State

/-- The states between design units, below which the stack is empty. -/
def isOuter : State → Bool
  | .documentStart | .documentRegion => true
  | _ => false

def isExpression : State → Bool
  | .expression .. => true
  | _ => false

/-- The states that a construct returns to when its last token has been taken. -/
def isFrame : State → Bool
  | .declarations _ | .statements _ none | .procedure (.afterParameters _)
  | .function (.afterParameters _) => true
  | _ => false

/-- The states that an expression returns to with the token after it. -/
def isAfterExpression : State → Bool
  | .object _ .end_ | .interface _ .afterDefault | .simple _ .end_ | .assignment _ _ .end_
  | .assertion .afterCondition | .assertion .afterMessage | .assertion .end_
  | .report .afterMessage | .report .end_ | .ifStatement _ .then_ | .ifStatement _ .elsifThen
  | .loop _ .forAfterRange | .loop _ .body => true
  | _ => false

/-- How often a token that the state sees may at most be handed on. -/
def rank : State → Nat
  | .package (.afterIs _) | .process _ .afterKeyword | .process _ .afterSensitivity => 3
  | .declarations _ | .procedure (.afterName _) | .function (.afterName _)
  | .object _ .default_ | .interface _ .default_ | .simple _ (.afterKeyword _) | .simple _ .value
  | .assignment _ _ .value | .assertion .afterKeyword | .assertion .message | .assertion .level
  | .report .afterKeyword | .report .level | .ifStatement _ .afterKeyword
  | .ifStatement _ .elsifAfterKeyword | .loop _ .forAfterIn | .loop _ .bound
  | .loop _ .whileAfterKeyword => 2
  | .documentRegion | .statements .. | .expression .. | .interface _ .start | .interface _ .mode
  | .target _ _ (.afterHead _) | .end_ _ .afterFirstKeyword => 1
  | _ => 0

theorem rank_le (s : State) : s.rank ≤ 3 := by
  unfold rank
  split <;> omega

theorem rank_of_isExpression {s : State} (h : s.isExpression) : s.rank = 1 := by
  cases s <;> first | rfl | cases h

theorem rank_of_isAfterExpression {s : State} (h : s.isAfterExpression) : s.rank = 0 := by
  unfold isAfterExpression at h
  split at h <;> first | rfl | cases h

/-- The states that may be resumed, innermost first, while no expression is read. -/
inductive Frames : List State → Prop
  | base : Frames [.documentRegion]
  | cons {s : State} {stack : List State} (h : s.isFrame) (hs : Frames stack) :
      Frames (s :: stack)

/-- A state and a stack that may stand below it. -/
inductive Fits : State → List State → Prop
  | outer {s : State} (h : s.isOuter) : Fits s []
  | inner {s : State} {stack : List State} (ho : s.isOuter = false)
      (hx : s.isExpression = false) (hs : Frames stack) : Fits s stack
  | expression {x : Expression} {depth : Nat} {begun : Bool} {s : State} {stack : List State}
      (h : s.isAfterExpression) (hs : Frames stack) :
      Fits (.expression x depth begun) (s :: stack)

theorem isFrame_inner {s : State} (h : s.isFrame) :
    s.isOuter = false ∧ s.isExpression = false := by
  unfold isFrame at h
  split at h <;> first | exact ⟨rfl, rfl⟩ | cases h

theorem isAfterExpression_inner {s : State} (h : s.isAfterExpression) :
    s.isOuter = false ∧ s.isExpression = false := by
  unfold isAfterExpression at h
  split at h <;> first | exact ⟨rfl, rfl⟩ | cases h

/-- Where a move may lead from the state `s`. -/
def Leads (s : State) : Next → Prop
  | .goto s' => s'.isOuter = s.isOuter ∧ s'.isExpression = s.isExpression
  | .call resume sub =>
    s.isExpression = false ∧ sub.isOuter = false ∧
      (if s.isOuter then resume = .documentRegion ∧ sub.isExpression = false
      else if sub.isExpression then resume.isAfterExpression else resume.isFrame)
  | .return_ => s.isOuter = false

theorem declarationState?_inner {k : Keyword} {s : State}
    (h : Outline.declarationState? k = some s) :
    s.isOuter = false ∧ s.isExpression = false := by
  unfold Outline.declarationState? at h
  split at h <;> cases h <;> exact ⟨rfl, rfl⟩

theorem Allows.leads_take {s : State} {t : Token} {before closing : Option BlockKind} {next : Next}
    (h : s.Allows t (.take before closing next)) : s.Leads next := by
  cases h
  all_goals simp [Leads, isOuter, isExpression, Outline.thenBranch]

theorem Allows.leads_pass {s : State} {t : Token} {before : Option BlockKind} {next : Next}
    (h : s.Allows t (.pass before next)) : s.Leads next := by
  cases h with
  | declaration _ _ hs =>
    obtain ⟨ho, hx⟩ := declarationState?_inner hs
    exact ⟨rfl, ho, by rw [hx]; rfl⟩
  | _ => simp [Leads, isOuter, isExpression, isFrame, isAfterExpression]

/-- Only an expression hands its last token to the state that called it. -/
theorem Allows.isExpression_of_pass_return {s : State} {t : Token} {before : Option BlockKind}
    (h : s.Allows t (.pass before .return_)) : s.isExpression := by
  cases h
  rfl

/-- An expression takes no token as its last. -/
theorem Allows.isExpression_of_take_return {s : State} {t : Token}
    {before closing : Option BlockKind} (h : s.Allows t (.take before closing .return_)) :
    s.isExpression = false := by
  cases h <;> rfl

theorem Allows.rank_goto_lt {s s' : State} {t : Token} {before : Option BlockKind}
    (h : s.Allows t (.pass before (.goto s'))) : s'.rank < s.rank := by
  cases h with
  | processDeclarations hp => rcases hp with rfl | rfl <;> simp [rank]
  | _ => simp [rank]

theorem Allows.rank_call_lt {s resume sub : State} {t : Token} {before : Option BlockKind}
    (h : s.Allows t (.pass before (.call resume sub))) : sub.rank < s.rank := by
  cases h with
  | declaration _ _ hs =>
    unfold Outline.declarationState? at hs
    split at hs <;> cases hs <;> simp [rank]
  | _ => simp [rank]

theorem Allows.eq_documentRegion_of_finish {s : State} {t : Token} (h : s.Allows t .finish) :
    s = .documentRegion ∧ t.kind = .endOfDocument := by
  cases h
  exact ⟨rfl, ‹_›⟩

theorem Frames.exists_cons {stack : List State} (h : Frames stack) :
    ∃ s rest, stack = s :: rest ∧ s.isExpression = false ∧ Fits s rest := by
  cases h with
  | base => exact ⟨_, _, rfl, rfl, .outer rfl⟩
  | cons h hs =>
    obtain ⟨ho, hx⟩ := isFrame_inner h
    exact ⟨_, _, rfl, hx, .inner ho hx hs⟩

theorem Fits.stack_eq_nil {s : State} {stack : List State} (h : Fits s stack) (ho : s.isOuter) :
    stack = [] := by
  cases h with
  | outer => rfl
  | inner h => exact absurd (ho.symm.trans h) (by simp)
  | expression => cases ho

/-- From a state that fits its stack, a move leads to a state that fits its stack. -/
theorem Fits.follow {c : Control} (hf : Fits c.state c.stack) {next : Next}
    (hl : c.state.Leads next) : ∃ c', c.follow next = .ok c' ∧ c'.isAside = c.isAside ∧
      Fits c'.state c'.stack := by
  obtain ⟨s, aside, stack⟩ := c
  cases next with
  | goto s' =>
    refine ⟨⟨s', aside, stack⟩, rfl, rfl, ?_⟩
    obtain ⟨ho, hx⟩ := hl
    cases hf with
    | outer h => exact .outer (ho.trans h)
    | inner h h' hs => exact .inner (ho.trans h) (hx.trans h') hs
    | expression h hs =>
      cases s' <;> first | exact .expression h hs | cases hx
  | call resume sub =>
    refine ⟨⟨sub, aside, resume :: stack⟩, rfl, rfl, ?_⟩
    obtain ⟨hs, ho, hr⟩ := hl
    cases hf with
    | outer h =>
      rw [if_pos h] at hr
      obtain ⟨rfl, hx⟩ := hr
      exact .inner ho hx .base
    | inner h h' hf =>
      rw [if_neg (by simp [h])] at hr
      cases sub with
      | expression => exact .expression hr hf
      | _ => exact .inner ho rfl (.cons hr hf)
    | expression => cases hs
  | return_ =>
    cases hf with
    | outer h => exact absurd (h.symm.trans hl) (by simp)
    | inner h h' hs =>
      obtain ⟨s', rest, rfl, -, hf⟩ := hs.exists_cons
      exact ⟨⟨s', aside, rest⟩, rfl, rfl, hf⟩
    | expression h hs =>
      obtain ⟨ho, hx⟩ := isAfterExpression_inner h
      exact ⟨⟨_, aside, _⟩, rfl, rfl, .inner ho hx hs⟩

/-- How a move leads from the state `s` to another: to the one that it names, or back to one that has
waited for `s` to come to its end. -/
inductive Arrives (s : State) : Next → State → Prop
  | goto {s' : State} : s.Arrives (.goto s') s'
  | call {resume sub : State} : s.Arrives (.call resume sub) sub
  | document (hx : s.isExpression = false) : s.Arrives .return_ .documentRegion
  | frame {s' : State} (hx : s.isExpression = false) (h : s'.isFrame) : s.Arrives .return_ s'
  | expression {s' : State} (hx : s.isExpression) (h : s'.isAfterExpression) :
      s.Arrives .return_ s'

theorem Fits.arrives {c c' : Control} {next : Next} (hf : Fits c.state c.stack)
    (hc : c.follow next = .ok c') : c.state.Arrives next c'.state := by
  obtain ⟨s, aside, stack⟩ := c
  cases next with
  | goto s' =>
    cases hc
    exact .goto
  | call resume sub =>
    cases hc
    exact .call
  | return_ =>
    cases hf with
    | outer => cases hc
    | inner _ hx hs =>
      cases hs with
      | base =>
        cases hc
        exact .document hx
      | cons h =>
        cases hc
        exact .frame hx h
    | expression h =>
      cases hc
      exact .expression rfl h

/-- Handing a token on lowers the rank. -/
theorem Fits.rank_lt {c c' : Control} (hf : Fits c.state c.stack) {t : Token}
    {before : Option BlockKind} {next : Next} (h : c.state.Allows t (.pass before next))
    (hc : c.follow next = .ok c') : c'.state.rank < c.state.rank := by
  have harrives := hf.arrives hc
  generalize c'.state = s' at harrives ⊢
  cases harrives with
  | goto => exact h.rank_goto_lt
  | call => exact h.rank_call_lt
  -- Only an expression returns this way, to a state that takes the token or refuses it.
  | document hx | frame hx => exact absurd (h.isExpression_of_pass_return.symm.trans hx) (by simp)
  | expression hx hr =>
    rw [rank_of_isAfterExpression hr, rank_of_isExpression hx]
    exact Nat.one_pos

end State

/-! ## How far the block under construction has come -/

/-- What a state relies on about the block under construction. -/
inductive Posture
  /-- The block before it has just ended. -/
  | clean
  /-- Something of it has been read. -/
  | begun
  | any
  deriving DecidableEq

namespace State

/-- What the state relies on about the block under construction when it sees a token. -/
def posture : State → Posture
  | .documentRegion | .declarations _ | .package (.afterIs _) | .statements _ none => .clean
  | .statements _ (some _) | .reference _ .afterKeyword | .reference _ (.name _)
  | .entity .afterKeyword | .entity (.afterName _)
  | .architecture .afterKeyword | .architecture (.afterName _) | .architecture (.afterOf _)
  | .architecture (.afterEntity _)
  | .package .afterKeyword | .package (.afterName _) | .package .bodyAfterKeyword
  | .package (.bodyAfterName _) | .procedure .name | .procedure (.afterName _)
  | .function .keyword | .function .name | .function (.afterName _) | .function (.returnType ..)
  | .process _ .afterKeyword | .process _ (.sensitivity _) | .process _ .afterSensitivity
  | .end_ _ .afterEnd | .end_ _ .afterFirstKeyword | .end_ _ .afterKeyword
  | .end_ _ (.afterName _) | .object _ .afterShared | .object _ (.names _)
  | .object _ (.subtype ..) | .interface _ (.names _) | .interface _ .mode
  | .interface _ (.subtype ..) | .interface _ .typeName | .interface _ .afterTypeName
  | .interface _ .closeSemicolon | .expression _ _ true | .simple _ (.afterKeyword _)
  | .target _ _ (.afterHead _) | .target _ _ (.rest _) | .assertion .afterKeyword
  | .report .afterKeyword | .ifStatement _ .afterKeyword | .ifStatement _ .elsifAfterKeyword
  | .loop _ .forParameter | .loop _ .forIn | .loop _ .forAfterIn
  | .loop _ .whileAfterKeyword => .begun
  | _ => .any

/-- Blanks and comments are blocks of their own exactly where a block has just ended. -/
theorem posture_eq_clean_iff (s : State) : s.posture = .clean ↔ s.trivia = .apart := by
  constructor
  · intro h
    unfold posture at h
    split at h <;> first | rfl | cases h
  · intro h
    unfold trivia at h
    split at h <;> first | rfl | cases h

/-- The state may be entered while the block under construction is in the posture `p`. -/
def Accepts (s : State) (p : Posture) : Prop := s.posture = .any ∨ s.posture = p

theorem isFrame_accepts_clean {s : State} (h : s.isFrame) : s.Accepts .clean := by
  unfold isFrame at h
  split at h <;> first | exact .inr rfl | exact .inl rfl | cases h

theorem isAfterExpression_accepts_clean {s : State} (h : s.isAfterExpression) :
    s.Accepts .clean := by
  unfold isAfterExpression at h
  split at h <;> first | exact .inl rfl | cases h

end State

/-- A move may lead there while the block under construction is in the posture `p`. What is resumed
later finds the block before it just ended. -/
def Next.Lands (p : Posture) : Next → Prop
  | .goto s => s.Accepts p
  | .call resume sub => sub.Accepts p ∧ resume.Accepts .clean
  | .return_ => p = .clean

namespace State

/-- A block ends before a token only where something of it has been read. -/
theorem Allows.begun_of_take {s : State} {t : Token} {kind : BlockKind}
    {closing : Option BlockKind} {next : Next} (h : s.Allows t (.take (some kind) closing next)) :
    s.posture = .begun := by
  cases h <;> rfl

theorem Allows.begun_of_pass {s : State} {t : Token} {kind : BlockKind} {next : Next}
    (h : s.Allows t (.pass (some kind) next)) : s.posture = .begun := by
  cases h with
  | processDeclarations hp => rcases hp with rfl | rfl <;> rfl
  | _ => rfl

/-- A token that is taken either ends its block or makes the block begun. -/
theorem Allows.lands_take {s : State} {t : Token} {before closing : Option BlockKind} {next : Next}
    (h : s.Allows t (.take before closing next)) :
    next.Lands (if closing.isSome then .clean else .begun) := by
  cases h with
  | @objectKeyword _ o _ => cases o <;> exact .inr rfl
  | _ => simp [Next.Lands, Accepts, posture, Outline.thenBranch]

theorem Allows.lands_pass {s : State} {t : Token} {before : Option BlockKind} {next : Next}
    (h : s.Allows t (.pass before next)) :
    next.Lands (if before.isSome then .clean else s.posture) := by
  cases h with
  | declaration _ _ hs =>
    unfold Outline.declarationState? at hs
    split at hs <;> cases hs <;> simp [Next.Lands, Accepts, posture]
  | _ => simp [Next.Lands, Accepts, posture]

end State

end VhdlOutline
