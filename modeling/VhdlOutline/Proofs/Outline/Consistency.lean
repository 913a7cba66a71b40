import Mathlib.Algebra.Group.Nat.Defs
import VhdlOutline.Proofs.Outline.Delivery

/-!
# The machine is consistent

Whatever tokens a machine is shown, in whatever order, it never comes to a point where something it
relies on is not there. `visits` lists the points where a state is shown a token, and with each the
constructs that have been opened and not closed by then. `Visit.Consistent` says what is there at
such a point: somewhere to return to, what the state looks up, the construct that an end belongs to,
the tokens it refers to, and numbers that fit.

* `Machine.kept_regular`: every turn keeps what the states look up and recall.
* `Machine.Turn.openings`: the constructs of the states are those that have been opened and not
  closed.
* `Parser.calls_consistent` puts these together: however often a parser is called, it never answers
  that the machine is inconsistent, and every visit finds what it needs.
-/

namespace VhdlOutline

/-! ## What states recall -/

/-- What the state has kept of the tokens `ts` before the current one is true of them: a name that
may turn out to be a label is the last of them but for blanks and comments, and a name after `end`
stands where it was found. -/
def State.Recalls (s : State) (ts : List Token) : Prop :=
  match s with
  | .target _ _ (.afterHead head) => (significant ts).getLast?.map Token.text = some head
  | .end_ _ (.afterName found) =>
    ∃ t, ts[found.index]? = some t ∧ t.text = found.text ∧ t.first = found.position
  | _ => True

/-- What the state that goes on has kept is true of the tokens `ts`. -/
def Next.Recalls (ts : List Token) : Next → Prop
  | .goto s => s.Recalls ts
  | .call _ sub => sub.Recalls ts
  | .return_ => True

namespace State

variable {s : State} {ts : List Token} {t t' : Token}

theorem Recalls.trivium (h : s.Recalls ts) (ht : t.kind.isTrivia = true) :
    s.Recalls (ts ++ [t]) := by
  unfold Recalls at h ⊢
  split
  · rwa [significant_append, significant_trivium ht, List.append_nil]
  · obtain ⟨u, hu, htext⟩ := h
    exact ⟨u, List.getElem?_append_left (List.getElem?_eq_some_iff.1 hu).1 ▸ hu, htext⟩
  · trivial

/-- What is resumed has kept nothing. -/
theorem recalls_of_isFrame (h : s.isFrame) : s.Recalls ts := by
  unfold isFrame at h
  split at h <;> trivial

theorem recalls_of_isAfterExpression (h : s.isAfterExpression) : s.Recalls ts := by
  unfold isAfterExpression at h
  split at h <;> trivial

theorem recalls_of_declarationState? {k : Keyword} (h : Outline.declarationState? k = some s) :
    s.Recalls ts := by
  unfold Outline.declarationState? at h
  split at h <;> cases h <;> trivial

/-- The name after `end` is the token that has been seen. -/
theorem eq_of_react_afterName {i : Nat} {before closing : Option BlockKind} {scope : Scope}
    {found : EndName} {note : Option Note} {x : Option NameMismatch}
    (h : s.react i t =
      .ok ⟨.take before closing (.goto (.end_ scope (.afterName found))), note, x⟩) :
    found = ⟨t.text, i, t.first⟩ := by
  cases allows_of_react h with
  | endName hp =>
    rcases hp with rfl | rfl <;>
    · simp only [react, Outline.end_, Outline.endName, Outline.endFinish] at h
      repeat' split at h
      all_goals cases h
      rfl

theorem recalls_take {before closing : Option BlockKind} {next : Next} {note : Option Note}
    {x : Option NameMismatch} (h : s.react ts.length t = .ok ⟨.take before closing next, note, x⟩)
    (ht : t.kind.isTrivia = false) (hset : t.Settles t') : next.Recalls (ts ++ [t']) := by
  cases allows_of_react h with
  | targetName =>
    have hlast := significant_singleton (hset.isTrivia.trans ht)
    simp [Next.Recalls, Recalls, hlast, hset.text]
  | endName =>
    cases eq_of_react_afterName h
    refine ⟨t', by simp, hset.text, ?_⟩
    obtain ⟨_, rfl, -⟩ := hset
    rfl
  | _ => trivial

theorem Allows.recalls_pass {before : Option BlockKind} {next : Next}
    (h : s.Allows t (.pass before next)) : next.Recalls ts := by
  cases h with
  | declaration _ _ hs => exact recalls_of_declarationState? hs
  | _ => trivial

theorem recalls_follow {c c' : Control} {next : Next} (hf : Fits c.state c.stack)
    (hc : c.follow next = .ok c') (hn : next.Recalls ts) : c'.state.Recalls ts := by
  have harrives := hf.arrives hc
  generalize c'.state = s' at harrives ⊢
  cases harrives with
  | goto | call => exact hn
  | document => trivial
  | frame _ h => exact recalls_of_isFrame h
  | expression _ h => exact recalls_of_isAfterExpression h

end State

/-! ## What every turn keeps -/

namespace Machine

variable {m m' : Machine} {ts : List Token} {t t' : Token} {cs : List Completion} {v : Verdict}

/-- The states look up what is there and recall what was read, and no more parentheses are open than
tokens have been read. -/
structure Regular (m : Machine) (ts : List Token) : Prop where
  grounded : m.control.All fun s => s.isGrounded = true
  depth_le : m.control.All fun s => s.depth ≤ ts.length
  recalls : m.control.state.Recalls ts

theorem regular_start (options : Options) : ({ options } : Machine).Regular [] where
  grounded := by simp [Control.All, State.isGrounded]
  depth_le := by simp [Control.All, State.depth]
  recalls := trivial

/-- Nothing changes but that a blank or comment has been read. -/
theorem Regular.trivium (h : m.Regular ts) (ht : t.kind.isTrivia = true)
    (hc : m'.control = m.control) : m'.Regular (ts ++ [t]) where
  grounded := by
    rw [hc]
    exact h.grounded
  depth_le := by
    rw [hc]
    exact h.depth_le.mono fun s hs => Nat.le_trans hs (by simp)
  recalls := by
    rw [hc]
    exact h.recalls.trivium ht

theorem Regular.taken (h : m.Regular ts) (hs : m.Sound ts) (ht : m.sheet.tokens.toList = ts ++ [t])
    (hm : Turn m t cs m' .taken) (ht' : m'.sheet.tokens.toList = ts ++ [t']) :
    m'.Regular (ts ++ [t']) := by
  cases hm with
  | trivium htr _ hm =>
    rw [hm.sheet, Sheet.tokens_closeAside, ht] at ht'
    cases List.append_cancel_left ht'
    exact h.trivium htr hm.control
  | absorb htr _ _ hm =>
    rw [hm.sheet, ht] at ht'
    cases List.append_cancel_left ht'
    exact h.trivium htr hm.control
  | take _ htr hr _ hc hm =>
    have hallows := State.allows_of_react hr
    rw [hm.sheet, Sheet.toList_tokens_taking ht] at ht'
    cases List.append_cancel_left ht'
    refine ⟨?_, ?_, ?_⟩
    · rw [hm.control]
      exact h.grounded.follow (hallows.isGrounded rfl (h.grounded _ List.mem_cons_self)) hc
    · rw [hm.control, List.length_append, List.length_singleton]
      have hdepth := h.depth_le _ List.mem_cons_self
      refine (h.depth_le.mono fun s hs => Nat.le_succ_of_le hs).follow ?_ hc
      exact hallows.depth_take.mono fun s hs => Nat.le_trans hs (Nat.succ_le_succ hdepth)
    · rw [hm.control]
      rw [Sheet.index_eq ht] at hr
      exact State.recalls_follow hs.fits hc
        (State.recalls_take hr (hallows.not_isTrivia htr) (Token.settles_reading _ t))
  | finish _ _ hr hm =>
    obtain ⟨hregion, -⟩ := (State.allows_of_react hr).eq_documentRegion_of_finish
    refine ⟨?_, ?_, ?_⟩
    · rw [hm.control]
      exact h.grounded
    · rw [hm.control]
      exact h.depth_le.mono fun s hs => Nat.le_trans hs (by simp)
    · rw [hm.control, hregion]
      trivial

theorem Regular.handedOn (h : m.Regular ts) (hs : m.Sound ts) (hm : Turn m t cs m' .handedOn) :
    m'.Regular ts := by
  cases hm with
  | resume _ _ hm | interrupt _ _ _ hm =>
    refine ⟨?_, ?_, ?_⟩
    · rw [hm.control]
      exact h.grounded
    · rw [hm.control]
      exact h.depth_le
    · rw [hm.control]
      exact h.recalls
  | pass _ _ hr hc hm =>
    have hallows := State.allows_of_react hr
    have hdepth := h.depth_le _ List.mem_cons_self
    refine ⟨?_, ?_, ?_⟩
    · rw [hm.control]
      exact h.grounded.follow (hallows.isGrounded rfl (h.grounded _ List.mem_cons_self)) hc
    · rw [hm.control]
      exact h.depth_le.follow (hallows.depth_pass.mono fun s hs => Nat.le_trans hs hdepth) hc
    · rw [hm.control]
      exact State.recalls_follow hs.fits hc hallows.recalls_pass

theorem kept_regular : Kept fun m ts _ => m.Regular ts where
  push _ h := ⟨h.grounded, h.depth_le, h.recalls⟩
  handedOn hs _ _ hm h := h.handedOn hs hm
  taken hs ht _ hm ht' h := h.taken hs ht hm ht'

/-! ## Open constructs -/

/-- The open constructs once the machine has been shown the token `t`. -/
def openingsAfter (m : Machine) (t : Token) (os : List Opening) : List Opening :=
  if m.reacts t then
    match m.control.state.react m.sheet.index t with
    | .ok r => r.openings os
    | .error _ => os
  else os

theorem openingsAfter_of_react {r : Reaction} (ha : m.control.isAside = false)
    (ht : t.kind.isTrivia = true → m.control.state.trivia = .seen)
    (hr : m.control.state.react m.sheet.index t = .ok r) (os : List Opening) :
    m.openingsAfter t os = r.openings os := by
  rw [openingsAfter, if_pos (reacts_eq_true ha ht), hr]

/-- **A turn opens and closes constructs** as the notes and the ends say. -/
theorem Turn.openings (hm : Turn m t cs m' v) (hg : m.control.state.isGrounded = true)
    (hv : ∀ e, v ≠ .failed e) :
    m'.control.openings = m.openingsAfter t m.control.openings := by
  cases hm with
  | trivium htr h hm =>
    have hno : m.reacts t = false := by
      rcases h with ha | hs
      · simp [reacts, ha]
      · exact reacts_eq_false htr (by simp [hs])
    simp [openingsAfter, hno, hm.control]
  | resume _ ha hm => simp [openingsAfter, reacts, ha, hm.control, Control.openings]
  | absorb htr _ hs hm | interrupt htr _ hs hm =>
    have hno := @reacts_eq_false m t htr (by simp [hs])
    simp [openingsAfter, hno, hm.control, Control.openings]
  | take ha htr hr _ hc hm =>
    rw [openingsAfter_of_react ha htr hr, hm.control]
    exact Control.openings_follow hr hg rfl hc
  | pass ha htr hr hc hm =>
    rw [openingsAfter_of_react ha htr hr, hm.control]
    exact Control.openings_follow hr hg rfl hc
  | finish ha htr hr hm =>
    have hnone := (State.announces_of_react hr).1
    rw [openingsAfter_of_react ha htr hr, hm.control, Reaction.openings, hnone]
    rfl
  | mismatch | refuse => exact absurd rfl (hv _)

end Machine

/-! ## The visits of a run -/

/-- A token is shown to whatever goes on in a machine. -/
structure Visit where
  machine : Machine
  token : Token
  /-- How often the token has been handed on. -/
  handed : Nat
  /-- The constructs that have been opened and not closed. -/
  openings : List Opening

namespace Machine

/-- The visits while the token `t` is handed from state to state, at most `n` times more, and the
open constructs after them. -/
def settleVisits (m : Machine) (t : Token) (handed : Nat) (os : List Opening) :
    (n : Nat) → List Visit × List Opening
  | 0 => ([], os)
  | n + 1 =>
    match m.visit t with
    | (k, .handedOn) =>
      let (visits, os') := k.settleVisits t (handed + 1) (m.openingsAfter t os) n
      (⟨m, t, handed, os⟩ :: visits, os')
    | _ => ([⟨m, t, handed, os⟩], m.openingsAfter t os)

/-- The visits of a run that starts with the given open constructs. -/
def visitsFrom (m : Machine) (os : List Opening) : List (Except LexError Token) → List Visit
  | .ok t :: xs =>
    if m.done then []
    else
      let (visits, os') := { m with sheet := m.sheet.push t }.settleVisits t 0 os visitLimit
      visits ++ match m.feed t with
        | (k, none) => k.visitsFrom os' xs
        | (_, some _) => []
  | _ => []

end Machine

/-- The visits of the run over a sequence of tokens. -/
def visits (input : List (Except LexError Token)) (options : Options) : List Visit :=
  Machine.visitsFrom { options } [] input

/-- What holds whenever a token is shown, after the tokens `ts`. -/
structure Visit.Holds (v : Visit) (ts : List Token) : Prop where
  sound : v.machine.Sound ts
  tokens : v.machine.sheet.tokens.toList = ts ++ [v.token]
  regular : v.machine.Regular ts
  framed : v.machine.Framed
  handed_le : v.handed + v.machine.handovers v.token ≤ 4
  openings : v.machine.control.openings = v.openings

namespace Machine

variable {m k : Machine} {ts : List Token} {t : Token} {os : List Opening}

/-- The properties that every turn keeps, as far as visits depend on them. -/
theorem kept_orderly : Kept fun m ts _ => m.Regular ts ∧ m.Framed := kept_regular.and kept_framed

theorem settleVisits_holds {handed n : Nat} (hs : m.Sound ts)
    (ht : m.sheet.tokens.toList = ts ++ [t]) (hd : m.done = false)
    (hp : m.Regular ts ∧ m.Framed) (hle : handed + m.handovers t ≤ 4)
    (hos : m.control.openings = os) :
    (∀ v ∈ (m.settleVisits t handed os n).1, v.Holds ts) ∧
      ∀ k, m.settleToken t n = (k, none) →
        k.control.openings = (m.settleVisits t handed os n).2 := by
  induction n generalizing m handed os with
  | zero => simp [settleVisits, Machine.settleToken]
  | succ n ih =>
    have hhere : Visit.Holds ⟨m, t, handed, os⟩ ts := ⟨hs, ht, hp.1, hp.2, hle, hos⟩
    have hg := hp.1.grounded _ List.mem_cons_self
    rw [settleVisits, Machine.settleToken]
    generalize hv : m.visit t = r
    obtain ⟨k, v⟩ := r
    have hturn := turn_of_visit hs.fits hv
    cases v with
    | taken =>
      refine ⟨by simpa using hhere, ?_⟩
      rintro _ ⟨⟩
      rw [← hos]
      exact hturn.openings hg (by simp)
    | handedOn =>
      obtain ⟨htok, hsound, hlt⟩ := hs.handedOn ht hturn
      have hk := @Kept.handedOn _ kept_orderly _ _ _ _ [] _ hs ht hd hturn hp
      have hopen := hturn.openings hg (by simp)
      rw [hos] at hopen
      have hle' : handed + 1 + k.handovers t ≤ 4 := by omega
      obtain ⟨hall, hend⟩ := ih hsound htok (hturn.done_of_handedOn.trans hd) hk hle' hopen
      exact ⟨List.forall_mem_cons.2 ⟨hhere, hall⟩, hend⟩
    | failed e =>
      refine ⟨by simpa using hhere, ?_⟩
      rintro _ ⟨⟩

/-- What holds at every visit of a run. A visit comes after fewer tokens than the run has. -/
theorem visitsFrom_holds {xs : List (Except LexError Token)} (hs : m.Sound ts)
    (ht : m.sheet.tokens.toList = ts) (hp : m.Regular ts ∧ m.Framed)
    (hos : m.control.openings = os) :
    ∀ v ∈ m.visitsFrom os xs, ∃ us, v.Holds us ∧ us.length < ts.length + xs.length := by
  induction xs generalizing m ts os with
  | nil => simp [visitsFrom]
  | cons x xs ih =>
    cases x with
    | error l => simp [visitsFrom]
    | ok t =>
      rw [visitsFrom]
      by_cases hd : m.done = true
      · simp [hd]
      · rw [if_neg hd]
        rw [Bool.not_eq_true] at hd
        have hpush := @Kept.push _ kept_orderly _ _ [] t hp
        have htok : (m.sheet.push t).tokens.toList = ts ++ [t] := by simp [Sheet.push, ht]
        obtain ⟨hall, hend⟩ :=
          @settleVisits_holds _ _ _ _ 0 visitLimit (hs.push t) htok hd hpush
            ((Nat.zero_add _).symm ▸ handovers_le _ t) hos
        generalize { m with sheet := m.sheet.push t }.settleVisits t 0 os visitLimit = r
          at hall hend ⊢
        obtain ⟨vs, os'⟩ := r
        intro v hv
        rcases List.mem_append.1 hv with hv | hv
        · exact ⟨ts, hall v hv, by simp⟩
        · generalize hf : m.feed t = r at hv
          obtain ⟨k, _ | e⟩ := r
          · obtain ⟨t', -, htok', hsound, -, hk⟩ :=
              @Kept.feed _ kept_orderly _ _ _ [] hs ht hd hp t hf
            obtain ⟨us, hus, hlt⟩ := ih hsound htok' hk (hend k hf) v hv
            refine ⟨us, hus, ?_⟩
            rw [List.length_append, List.length_singleton] at hlt
            rw [List.length_cons]
            omega
          · cases hv

end Machine

/-! ## Consistency -/

/-- The block that a move ends before the current token. -/
def Move.before? : Move → Option BlockKind
  | .take before _ _ | .pass before _ => before
  | .finish => none

/-- Everything is there that the visit relies on. -/
structure Visit.Consistent (v : Visit) : Prop where
  /-- The visit finds no fault with the machine itself. -/
  faultless : ∀ state fault, (v.machine.visit v.token).2 ≠ .failed (.internal state fault)
  /-- The token has not been handed on without end. -/
  handed_le : v.handed ≤ 4
  /-- A state that returns has been called. -/
  called : ∀ r, v.machine.control.state.react v.machine.sheet.index v.token = .ok r →
    r.move.next? = some .return_ → v.machine.control.stack ≠ []
  /-- Between design units, where the end of the document is read, nothing is to be resumed. -/
  outermost : v.machine.control.state = .documentRegion → v.machine.control.stack = []
  /-- The states find what they look up, those to be resumed included. -/
  grounded : v.machine.control.All fun s => s.isGrounded = true
  /-- The constructs of the states are those that have been opened and not closed. -/
  openings : v.machine.control.openings = v.openings
  /-- An end is that of the construct opened last. -/
  closes : ∀ scope phase, v.machine.control.state = .end_ scope phase →
    v.openings.head? = some scope.opening
  /-- The token is the current one. -/
  current : v.machine.sheet.tokens.get? v.machine.sheet.index = some v.token
  /-- Names that have been kept are those of tokens that have been read. -/
  recalls : v.machine.control.state.Recalls v.machine.sheet.tokens.toList.dropLast
  /-- A block that ends before the token, or is interrupted by it, does so after another token. -/
  previous : (∃ r, v.machine.control.state.react v.machine.sheet.index v.token = .ok r ∧
    r.move.before? ≠ none) ∨ v.machine.control.state.trivia = .inside → 0 < v.machine.sheet.index
  /-- Blocks and fragments are made of tokens that have been read. -/
  laid : v.machine.sheet.Laid v.machine.sheet.index
  /-- Tokens and open parentheses can be counted. -/
  countable : v.machine.sheet.tokens.size < 2 ^ 31 ∧
    v.machine.control.All fun s => s.depth + 1 < 2 ^ 31

/-- Only the start of the document has no token before it. -/
theorem Machine.Framed.index_pos {m : Machine} {ts : List Token} {t : Token} (h : m.Framed)
    (hs : m.Sound ts) (ht : m.sheet.tokens.toList = ts ++ [t])
    (hstate : m.control.state ≠ .documentStart) : 0 < m.sheet.index := by
  obtain ⟨body, hbody, -⟩ := h.opened hstate
  obtain ⟨b, rest, hblocks, -⟩ := List.map_eq_cons_iff.1 hbody
  have htiles := hs.laid.tiles
  rw [hblocks, List.map_cons, List.cons_append] at htiles
  have hb := htiles.mem List.mem_cons_self
  have hle := hs.laid.start_le
  rw [Sheet.index_eq ht]
  omega

theorem Visit.Holds.consistent {v : Visit} {ts : List Token} (h : v.Holds ts)
    (hlen : ts.length + 1 < 2 ^ 31) : v.Consistent where
  faultless := by
    intro state fault hv
    generalize hr : v.machine.visit v.token = r at hv
    obtain ⟨k, w⟩ := r
    obtain rfl : w = .failed (.internal state fault) := hv
    rcases (Machine.turn_of_visit h.sound.fits hr).failed with ⟨c, he⟩ | ⟨x, he⟩ <;> cases he
  handed_le := Nat.le_trans (Nat.le_add_right _ _) h.handed_le
  called := by
    intro r hr hreturn hstack
    obtain ⟨c, hc, -⟩ := h.sound.fits.follow ((State.allows_of_react hr).leads hreturn)
    rw [Control.follow, hstack] at hc
    cases hc
  outermost := fun hs => h.sound.fits.stack_eq_nil (by rw [hs]; rfl)
  grounded := h.regular.grounded
  openings := h.openings
  closes := by
    intro scope phase hs
    rw [← h.openings, Control.openings_eq, hs]
    rfl
  current := by
    rw [Chain.get?_eq, Sheet.index_eq h.tokens, h.tokens]
    simp
  recalls := by
    rw [h.tokens, List.dropLast_concat]
    exact h.regular.recalls
  previous := by
    intro hbefore
    apply h.framed.index_pos h.sound h.tokens
    intro hs
    rw [hs] at hbefore
    rcases hbefore with ⟨r, hr, hne⟩ | htrivia
    · have hallows := State.allows_of_react hr
      generalize r.move = move at hallows hne
      cases hallows
      exact hne rfl
    · cases htrivia
  laid := by
    rw [Sheet.index_eq h.tokens]
    exact h.sound.laid
  countable := by
    have hsize : v.machine.sheet.tokens.size = ts.length + 1 := by
      rw [← Chain.length_toList, h.tokens, List.length_append, List.length_singleton]
    exact ⟨by omega, h.regular.depth_le.mono fun s hs => by omega⟩

namespace Parser

/-- **The machine is consistent.** Given fewer than 2³¹ tokens, of any kinds and in any order, and
however often a parser is called, it never answers that the machine itself is at fault. What it has
read is the start of the run over all tokens, and every visit of that run finds what it relies
on. -/
theorem calls_consistent {input : List (Except LexError Token)} (options : Options)
    (h : input.length < 2 ^ 31) :
    (∀ n state fault, some (.error (.internal state fault)) ∉
      ((start input options).calls n).1) ∧
    (∀ n, ∃ read, read <+: input ∧
      (Machine.run { options } read).1 = ((start input options).calls n).2.machine) ∧
    ∀ v ∈ visits input options, v.Consistent := by
  refine ⟨?_, ?_, ?_⟩
  · intro n state fault hmem
    obtain ⟨xs, e, -, hrun, herror⟩ := (delivers_calls input options n).exists_run
    have hends := Machine.run_ends_start Machine.kept_framed (Machine.framed_start options) hrun
    exact hends.ne_internal state fault (herror _ hmem)
  · intro n
    obtain ⟨xs, e, hpre, hrun, -⟩ := (delivers_calls input options n).exists_run
    exact ⟨xs, hpre, by rw [hrun]⟩
  · intro v hv
    obtain ⟨ts, hholds, hlt⟩ := Machine.visitsFrom_holds (Machine.sound_start options) rfl
      ⟨Machine.regular_start options, Machine.framed_start options⟩ rfl v hv
    rw [List.length_nil, Nat.zero_add] at hlt
    exact hholds.consistent (by omega)

/-- The visits of a package with a name after its end. -/
theorem calls_consistent_package :
    (tokenize "package p is end p;").length < 2 ^ 31 ∧
      0 < (visits (tokenize "package p is end p;") {}).length ∧
      ∀ v ∈ visits (tokenize "package p is end p;") {}, v.Consistent := by
  have h : (tokenize "package p is end p;").length < 2 ^ 31 := by decide +kernel
  exact ⟨h, by decide +kernel, (calls_consistent {} h).2.2⟩

end Parser

end VhdlOutline
