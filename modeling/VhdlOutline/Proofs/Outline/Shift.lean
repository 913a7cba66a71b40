import VhdlOutline.Proofs.Outline.Openings
import VhdlOutline.Proofs.Outline.Run

/-!
# Machines that have read other units before

Two documents may end with the same tokens. What is made of these tokens does not depend on what
comes before them, except that the numbers of tokens are shifted.

* `State.react_shift`: a state does the same, with all numbers of tokens shifted.
* `Sheet.Behind` relates the sheet of one document to that of another with a `Past` in front of it.
  Every operation on sheets keeps it. The only trace of the past is that a line break right after
  its last block is an empty line if that block is a line break.
-/

namespace VhdlOutline

/-! ## Shifted numbers -/

/-- The block, `n` tokens further on. -/
def Block.shift (n : Nat) (b : Block) : Block := { b with first := b.first + n, last := b.last + n }

/-- The fragment, `n` tokens further on. -/
def Fragment.shift (n : Nat) (f : Fragment) : Fragment :=
  { f with first := f.first + n, last := f.last + n }

/-- The name after an end, `n` tokens further on. -/
def EndName.shift (n : Nat) (x : EndName) : EndName := { x with index := x.index + n }

/-- The mismatch, `n` tokens further on. -/
def NameMismatch.shift (n : Nat) (x : NameMismatch) : NameMismatch :=
  { x with index := x.index + n }

/-- The error, `n` tokens further on. -/
def OutlineError.shift (n : Nat) : OutlineError → OutlineError
  | .nameMismatch x => .nameMismatch (x.shift n)
  | e => e

/-- The state, `n` tokens further on. Only a name after `end` is known by its number. -/
def State.shift (n : Nat) : State → State
  | .end_ scope (.afterName found) => .end_ scope (.afterName (found.shift n))
  | s => s

def Next.shift (n : Nat) : Next → Next
  | .goto s => .goto (s.shift n)
  | .call resume sub => .call (resume.shift n) (sub.shift n)
  | .return_ => .return_

def Move.shift (n : Nat) : Move → Move
  | .take before closing next => .take before closing (next.shift n)
  | .pass before next => .pass before (next.shift n)
  | .finish => .finish

def Reaction.shift (n : Nat) (r : Reaction) : Reaction :=
  ⟨r.move.shift n, r.note, r.mismatch.map (NameMismatch.shift n)⟩

def Control.shift (n : Nat) (c : Control) : Control :=
  ⟨c.state.shift n, c.isAside, c.stack.map (State.shift n)⟩

namespace State

variable (n : Nat) (s : State)

@[simp] theorem name_shift : (s.shift n).name = s.name := by
  cases s with
  | end_ scope phase => cases phase <;> rfl
  | _ => rfl

@[simp] theorem trivia_shift : (s.shift n).trivia = s.trivia := by
  cases s with
  | end_ scope phase => cases phase <;> rfl
  | _ => rfl

@[simp] theorem reading_shift (t : Token) : (s.shift n).reading t = s.reading t := by
  cases s with
  | end_ scope phase => cases phase <;> rfl
  | _ => rfl

/-- No state outside of ends leads to a name after `end`. -/
theorem Allows.shift_eq {s : State} {t : Token} {move : Move} (h : s.Allows t move)
    (hs : ∀ scope phase, s ≠ .end_ scope phase) : move.shift n = move := by
  cases h with
  | @objectKeyword _ o => cases o <;> rfl
  | declaration _ _ h =>
    unfold Outline.declarationState? at h
    split at h <;> cases h <;> rfl
  | _ => first | rfl | exact absurd rfl (hs _ _)

theorem map_react_shift {s : State} (hs : ∀ scope phase, s ≠ .end_ scope phase) (i : Nat)
    (t : Token) : (s.react i t).map (Reaction.shift n) = s.react i t := by
  cases hr : s.react i t with
  | error c => rfl
  | ok r =>
    obtain ⟨move, note, x⟩ := r
    have hmove := (allows_of_react hr).shift_eq n hs
    cases x with
    | none => simp only [Except.map, Reaction.shift, hmove, Option.map_none]
    | some x =>
      obtain ⟨scope, phase, hend, -⟩ := (announces_of_react hr).2 x rfl
      exact absurd hend (hs scope phase)

end State

theorem Scope.mismatch?_shift (n : Nat) (scope : Scope) (found : EndName) :
    scope.mismatch? (found.shift n) = (scope.mismatch? found).map (NameMismatch.shift n) := by
  unfold mismatch? EndName.shift
  dsimp only
  split <;> rfl

theorem Outline.endFinish_shift (n : Nat) (scope : Scope) (found : EndName) :
    endFinish scope (some (found.shift n)) =
      (endFinish scope (some found)).map (Reaction.shift n) := by
  unfold endFinish
  rw [Option.bind_some, scope.mismatch?_shift]
  rfl

/-- **A state does the same** whatever the numbers of tokens are, and only passes them on. -/
theorem State.react_shift (n : Nat) (s : State) (i : Nat) (t : Token) :
    (s.shift n).react (i + n) t = (s.react i t).map (Reaction.shift n) := by
  cases s with
  | end_ scope phase =>
    cases phase with
    | afterName found =>
      simp only [State.shift, State.react, Outline.end_]
      split
      · exact Outline.endFinish_shift n scope found
      · rfl
    | _ =>
      simp only [State.shift, State.react, Outline.end_]
      repeat' split
      all_goals rfl
  | statements part label =>
    rw [map_react_shift n (by simp)]
    cases part <;> rfl
  | _ =>
    rw [map_react_shift n (by simp)]
    rfl

namespace Control

variable (n : Nat) (c : Control)

@[simp] theorem name_shift : (c.shift n).name = c.name := by
  simp [Control.name, Control.shift]

theorem follow_shift (next : Next) :
    (c.shift n).follow (next.shift n) = (c.follow next).map (Control.shift n) := by
  obtain ⟨s, aside, stack⟩ := c
  cases next with
  | goto s' => rfl
  | call resume sub => rfl
  | return_ => cases stack <;> rfl

end Control

/-! ## Line breaks -/

/-- Whether a line break after a block of this kind is an empty line. -/
def isBreak (kind : Option BlockKind) : Bool := kind = some .linebreak || kind = some .emptyLine

/-- The blocks after a line break, or after something else. The first of them is an empty line if
it is a line break after another. -/
def afterBreak (broken : Bool) : List Block → List Block
  | [] => []
  | b :: bs =>
    (if broken = true ∧ b.kind = .linebreak then { b with kind := .emptyLine } else b) :: bs

@[simp] theorem afterBreak_nil (broken : Bool) : afterBreak broken [] = [] := rfl

theorem afterBreak_append (broken : Bool) {bs : List Block} (h : bs ≠ []) (cs : List Block) :
    afterBreak broken (bs ++ cs) = afterBreak broken bs ++ cs := by
  cases bs with
  | nil => exact absurd rfl h
  | cons b bs => rfl

theorem afterBreak_eq (broken : Bool) {bs : List Block}
    (h : ∀ b ∈ bs.head?, b.kind ≠ .linebreak) : afterBreak broken bs = bs := by
  cases bs with
  | nil => rfl
  | cons b bs =>
    have := h b rfl
    simp [afterBreak, this]

theorem Sheet.triviaKind_linebreak (s : Sheet) :
    s.triviaKind .linebreak = if isBreak s.last? then .emptyLine else .linebreak := by
  simp [triviaKind, isBreak]

/-- Only what a line break is depends on the block before it. -/
theorem Sheet.triviaKind_of_ne (s s' : Sheet) {kind : TokenKind} (h : kind ≠ .linebreak) :
    s'.triviaKind kind = s.triviaKind kind ∧ s.triviaKind kind ≠ .linebreak := by
  unfold triviaKind
  cases kind <;> simp_all

theorem assemble_shift (n : Nat) (kind : BlockKind) (waiting : List Fragment)
    (rest : Option (Nat × Nat)) :
    assemble kind (waiting.map (Fragment.shift n)) (rest.map fun (i, j) => (i + n, j + n)) =
      (assemble kind waiting rest).map (Block.shift n) := by
  have hfragments : waiting.map (Fragment.shift n) ++
      ((rest.map fun (i, j) => (i + n, j + n)).map fun (first, last) =>
        (⟨first, last, none⟩ : Fragment)).toList =
      (waiting ++ (rest.map fun (first, last) => (⟨first, last, none⟩ : Fragment)).toList).map
        (Fragment.shift n) := by
    cases rest <;> simp [Fragment.shift]
  have hblock : ∀ split f, Fragment.block kind split (Fragment.shift n f) =
      (Fragment.block kind split f).shift n := by
    intro split f
    unfold Fragment.block Fragment.shift Block.shift
    cases f.kind? <;> rfl
  simp only [assemble, hfragments, List.map_map, List.countP_map]
  apply List.map_congr_left
  intro f _
  exact hblock _ f

/-- The first part of a completed block has the kind of the block. -/
theorem kind_head_assemble {kind : BlockKind} {waiting : List Fragment}
    {rest : Option (Nat × Nat)} (h : ∀ f ∈ waiting.head?, f.kind? = none) :
    ∀ b ∈ (assemble kind waiting rest).head?, b.kind = kind := by
  intro b hb
  cases waiting with
  | nil =>
    cases rest with
    | none => simp [assemble] at hb
    | some p =>
      simp [assemble, Fragment.block] at hb
      rw [← hb]
  | cons f fs =>
    simp only [assemble, List.cons_append, List.map_cons, List.head?_cons, Option.mem_some_iff]
      at hb
    rw [← hb, Fragment.block, h f rfl]

/-! ## Sheets with a past -/

/-- What has been read before: tokens, blocks and warnings. -/
structure Past where
  tokens : List Token
  blocks : List Block
  warnings : List NameMismatch

/-- How far the numbers of tokens are shifted. The start of the document counts only once. -/
def Past.offset (p : Past) : Nat := p.tokens.length - 1

/-- Whether the past ends with a line break. -/
def Past.broken (p : Past) : Bool := isBreak (p.blocks.getLast?.map Block.kind)

/-- Nothing has been made of the tokens after the first one, and nothing has been read of the block
under construction when token number `k` comes. -/
def Sheet.IsFresh (s : Sheet) (k : Nat) : Prop :=
  s.blocks.toList.tail = [] ∧ s.waiting = [] ∧ s.start = k

/-- The sheet `s'` is `s` with the past `p` in place of the first token and block, when token number
`k` comes. -/
structure Sheet.Behind (p : Past) (k : Nat) (s s' : Sheet) : Prop where
  tokens_ne : s.tokens.toList ≠ []
  tokens : s'.tokens.toList = p.tokens ++ s.tokens.toList.tail
  blocks_ne : s.blocks.toList ≠ []
  blocks : s'.blocks.toList =
    p.blocks ++ afterBreak p.broken (s.blocks.toList.tail.map (Block.shift p.offset))
  waiting : s'.waiting = s.waiting.map (Fragment.shift p.offset)
  head : ∀ f ∈ s.waiting.head?, f.kind? = none
  start_pos : 0 < s.start
  start : s'.start = s.start + p.offset
  /-- The next line break shows the past. -/
  fresh : s.IsFresh k → isBreak s.last? = false ∧ isBreak s'.last? = p.broken
  /-- Once something has been read, the past makes no difference to a line break. -/
  read : ¬ s.IsFresh k → s.start < k ∨ isBreak s'.last? = isBreak s.last?

namespace Sheet

variable {p : Past} {k : Nat} {s s' : Sheet}

theorem Behind.size (h : s.Behind p k s') (hp : p.tokens ≠ []) :
    s'.tokens.size = s.tokens.size + p.offset := by
  have hlen := congrArg List.length h.tokens
  have hpos := List.length_pos_iff.2 h.tokens_ne
  have hpos' := List.length_pos_iff.2 hp
  simp only [Chain.length_toList, List.length_append, List.length_tail] at hlen hpos
  simp only [Past.offset]
  omega

theorem Behind.index (h : s.Behind p k s') (hp : p.tokens ≠ []) :
    s'.index = s.index + p.offset := by
  have hsize := h.size hp
  have hpos := List.length_pos_iff.2 h.tokens_ne
  simp only [Chain.length_toList] at hpos
  simp only [Sheet.index]
  omega

theorem Behind.push (h : s.Behind p k s') (t : Token) : (s.push t).Behind p k (s'.push t) :=
  { h with
    tokens_ne := by simp [Sheet.push]
    tokens := by
      simp only [Sheet.push, Chain.toList_push, h.tokens, List.append_assoc,
        List.tail_append_of_ne_nil h.tokens_ne] }

theorem Behind.settle (h : s.Behind p k s') {ts : List Token} {t : Token}
    (ht : s.tokens.toList = ts ++ [t]) (hts : ts ≠ []) (kind : TokenKind) :
    (s.settle kind).Behind p k (s'.settle kind) := by
  have ht' : s'.tokens.toList = (p.tokens ++ ts.tail) ++ [t] := by
    rw [h.tokens, ht, List.tail_append_of_ne_nil hts, List.append_assoc]
  have hs := Chain.toList_modifyLast ht fun t => { t with kind }
  have hs' := Chain.toList_modifyLast ht' fun t => { t with kind }
  refine { h with tokens_ne := ?_, tokens := ?_ }
  · simp only [Sheet.settle, hs]
    simp
  · simp only [Sheet.settle, hs, hs', List.tail_append_of_ne_nil hts, List.append_assoc]

/-- Reading a token that ends no block. -/
theorem Behind.succ (h : s.Behind p k s') (hs : s.start ≤ k) : s.Behind p (k + 1) s' :=
  { h with
    fresh := fun hf => by
      have := hf.2.2
      omega
    read := fun _ => .inl (by omega) }

/-- Completing a block. -/
theorem Behind.blocks_complete (h : s.Behind p k s') {kind : BlockKind} (hk : kind ≠ .linebreak)
    (rest : Option (Nat × Nat)) :
    (s'.complete kind (rest.map fun (i, j) => (i + p.offset, j + p.offset))).blocks.toList =
      p.blocks ++ afterBreak p.broken
        ((s.complete kind rest).blocks.toList.tail.map (Block.shift p.offset)) := by
  simp only [Sheet.complete, Chain.toList_append, h.waiting, assemble_shift, h.blocks,
    List.tail_append_of_ne_nil h.blocks_ne, List.map_append, List.append_assoc]
  congr 1
  cases htail : s.blocks.toList.tail with
  | nil =>
    simp only [List.map_nil, List.nil_append, afterBreak_nil]
    rw [afterBreak_eq]
    intro b hb
    rw [List.head?_map] at hb
    obtain ⟨b', hb', rfl⟩ := Option.map_eq_some_iff.1 hb
    have hkind := kind_head_assemble h.head b' hb'
    rwa [← hkind] at hk
  | cons b bs =>
    rw [afterBreak_append _ (by simp)]

/-- After a block the kind of the last one is the same with the past. -/
theorem Behind.last_complete (h : s.Behind p k s') {kind : BlockKind} {rest : Option (Nat × Nat)}
    (hne : assemble kind s.waiting rest ≠ []) :
    (s'.complete kind (rest.map fun (i, j) => (i + p.offset, j + p.offset))).last? =
      (s.complete kind rest).last? := by
  obtain ⟨b, hb⟩ : ∃ b, (assemble kind s.waiting rest).getLast? = some b :=
    Option.ne_none_iff_exists'.1 fun hn => hne (List.getLast?_eq_none_iff.1 hn)
  simp only [Sheet.complete, h.waiting, assemble_shift, List.getLast?_map, hb, Option.map_some,
    Option.some_or]
  rfl

theorem tail_complete_ne (h : s.Behind p k s') {kind : BlockKind} {rest : Option (Nat × Nat)}
    (hne : assemble kind s.waiting rest ≠ []) :
    (s.complete kind rest).blocks.toList.tail ≠ [] := by
  simp only [Sheet.complete, Chain.toList_append, List.tail_append_of_ne_nil h.blocks_ne]
  simp [hne]

/-- Completing a block that is not empty. The next one begins with token number `start`. -/
theorem Behind.complete (h : s.Behind p k s') {kind : BlockKind} (hk : kind ≠ .linebreak)
    {rest : Option (Nat × Nat)} (hne : assemble kind s.waiting rest ≠ []) {start j : Nat}
    (hj : 0 < start) :
    { s.complete kind rest with start }.Behind p j
      { s'.complete kind (rest.map fun (i, j) => (i + p.offset, j + p.offset)) with
        start := start + p.offset } := by
  have htail := tail_complete_ne h hne
  refine { h with
    blocks_ne := ?_, blocks := h.blocks_complete hk rest, waiting := rfl
    head := by simp [Sheet.complete], start_pos := hj, start := rfl, fresh := ?_, read := ?_ }
  · exact fun hn => htail (by rw [show (s.complete kind rest).blocks.toList = [] from hn]; rfl)
  · exact fun hf => absurd hf.1 htail
  · exact fun _ => .inr (congrArg isBreak (h.last_complete hne))

theorem Behind.close (h : s.Behind p k s') (hp : p.tokens ≠ [])
    {kind : BlockKind} (hk : kind ≠ .linebreak) :
    (s.close kind).Behind p (k + 1) (s'.close kind) := by
  have hindex := h.index hp
  have hrest : some (s'.start, s'.index) =
      (some (s.start, s.index)).map fun (i, j) => (i + p.offset, j + p.offset) := by
    rw [h.start, hindex]
    rfl
  have hstart : s'.index + 1 = s.index + 1 + p.offset := by omega
  rw [Sheet.close, Sheet.close, hrest, hstart]
  exact h.complete hk (by simp [assemble]) (Nat.succ_pos _)

/-- Where nothing has been read, there is nothing to complete. -/
theorem cut_eq_self (hw : s.waiting = []) (hs : s.start = s.index) (kind : BlockKind) :
    s.cut kind = s := by
  have hrest : (if s.start < s.index then some (s.start, s.index - 1) else none) = none :=
    if_neg (by omega)
  rw [Sheet.cut, hrest, ← hs, Sheet.complete, hw]
  cases s
  cases hw
  rfl

theorem Behind.cut (h : s.Behind p k s') (hp : p.tokens ≠ []) (hs : s.start ≤ s.index)
    {kind : BlockKind} (hk : kind ≠ .linebreak) : (s.cut kind).Behind p k (s'.cut kind) := by
  have hindex := h.index hp
  have hstart := h.start
  have hpos := h.start_pos
  by_cases hne : assemble kind s.waiting
      (if s.start < s.index then some (s.start, s.index - 1) else none) = []
  · have hlt : ¬ s.start < s.index := fun hlt => by simp [assemble, hlt] at hne
    have hw : s.waiting = [] := by
      simp only [assemble, List.map_eq_nil_iff, List.append_eq_nil_iff] at hne
      exact hne.1
    have hw' : s'.waiting = [] := by
      rw [h.waiting, hw]
      rfl
    rw [cut_eq_self hw (by omega), cut_eq_self hw' (by omega)]
    exact h
  · have hrest : (if s'.start < s'.index then some (s'.start, s'.index - 1) else none) =
        (if s.start < s.index then some (s.start, s.index - 1) else none).map
          fun (i, j) => (i + p.offset, j + p.offset) := by
      rw [hstart, hindex]
      by_cases hlt : s.start < s.index
      · rw [if_pos hlt, if_pos (by omega)]
        simp only [Option.map_some]
        congr 2
        omega
      · rw [if_neg hlt, if_neg (by omega)]
        rfl
    rw [Sheet.cut, Sheet.cut, hrest, hindex]
    exact h.complete hk hne (by omega)

/-- A blank or comment becomes a block, which is the same with the past unless it is the first one
and a line break. -/
theorem Behind.aside_of_eq_nil (h : s.Behind p k s') (hw : s.waiting = []) {kind kind' : BlockKind}
    (hk : kind' =
      if s.blocks.toList.tail = [] ∧ p.broken = true ∧ kind = .linebreak then .emptyLine else kind)
    {first last start j : Nat} (hj : 0 < start) :
    { s.aside kind first last with start }.Behind p j
      { s'.aside kind' (first + p.offset) (last + p.offset) with start := start + p.offset } := by
  have hbreak : isBreak (some kind') = isBreak (some kind) := by
    rw [hk]
    split
    · rename_i hc
      rw [hc.2.2]
      rfl
    · rfl
  have hw' : s'.waiting = [] := by
    rw [h.waiting, hw]
    rfl
  have ha : s.aside kind first last =
      { s with blocks := s.blocks.push ⟨kind, first, last, false⟩, last? := some kind } := by
    simp [Sheet.aside, hw]
  have ha' : s'.aside kind' (first + p.offset) (last + p.offset) =
      { s' with
        blocks := s'.blocks.push ⟨kind', first + p.offset, last + p.offset, false⟩
        last? := some kind' } := by
    simp [Sheet.aside, hw']
  rw [ha, ha']
  refine { h with
    blocks_ne := by simp, blocks := ?_, start_pos := hj, start := rfl, fresh := ?_
    read := fun _ => .inr hbreak }
  · simp only [Chain.toList_push, h.blocks, List.tail_append_of_ne_nil h.blocks_ne,
      List.map_append, List.append_assoc]
    congr 1
    cases htail : s.blocks.toList.tail with
    | nil =>
      by_cases hc : p.broken = true ∧ kind = .linebreak <;>
        simp [afterBreak, hk, htail, Block.shift, hc]
    | cons b bs =>
      rw [afterBreak_append _ (by simp)]
      simp [hk, htail, Block.shift]
  · intro hf
    have := hf.1
    simp [List.tail_append_of_ne_nil h.blocks_ne] at this

/-- A blank or comment waits behind other fragments. -/
theorem Behind.aside_of_ne_nil (h : s.Behind p k s') (hw : s.waiting ≠ []) (kind : BlockKind)
    {first last start j : Nat} (hj : 0 < start) :
    { s.aside kind first last with start }.Behind p j
      { s'.aside kind (first + p.offset) (last + p.offset) with start := start + p.offset } := by
  have hw' : s'.waiting ≠ [] := by simp [h.waiting, hw]
  have ha : s.aside kind first last =
      { s with waiting := s.waiting ++ [⟨first, last, some kind⟩], last? := some kind } := by
    simp [Sheet.aside, hw]
  have ha' : s'.aside kind (first + p.offset) (last + p.offset) =
      { s' with
        waiting := s'.waiting ++ [⟨first + p.offset, last + p.offset, some kind⟩]
        last? := some kind } := by
    simp [Sheet.aside, hw']
  rw [ha, ha']
  refine { h with
    waiting := by simp [h.waiting, Fragment.shift], head := ?_, start_pos := hj, start := rfl
    fresh := ?_, read := fun _ => .inr rfl }
  · rw [List.head?_append_of_ne_nil _ hw]
    exact h.head
  · intro hf
    simp [IsFresh] at hf

/-- A blank or comment, which is the same with the past unless it is the first block and a line
break. -/
theorem Behind.aside (h : s.Behind p k s') {kind kind' : BlockKind}
    (hk : kind' = if s.blocks.toList.tail = [] ∧ s.waiting = [] ∧ p.broken = true ∧
      kind = .linebreak then .emptyLine else kind) {first last start j : Nat} (hj : 0 < start) :
    { s.aside kind first last with start }.Behind p j
      { s'.aside kind' (first + p.offset) (last + p.offset) with start := start + p.offset } := by
  by_cases hw : s.waiting = []
  · exact h.aside_of_eq_nil hw (by simpa [hw] using hk) hj
  · obtain rfl : kind' = kind := by rw [hk, if_neg (by simp [hw])]
    exact h.aside_of_ne_nil hw kind' hj

/-- A blank or comment where the block before it has just ended, or an interruption has set
everything aside. -/
theorem Behind.closeAside (h : s.Behind p k s') (hp : p.tokens ≠ [])
    (hs : s.start = k) (kind : TokenKind) :
    (s.closeAside (s.triviaKind kind)).Behind p (k + 1) (s'.closeAside (s'.triviaKind kind)) := by
  have hindex := h.index hp
  have hkind : s'.triviaKind kind = if s.blocks.toList.tail = [] ∧ s.waiting = [] ∧
      p.broken = true ∧ s.triviaKind kind = .linebreak then .emptyLine else s.triviaKind kind := by
    by_cases hl : kind = .linebreak
    · rw [hl, s.triviaKind_linebreak, s'.triviaKind_linebreak]
      by_cases hf : s.IsFresh k
      · obtain ⟨hbreak, hbreak'⟩ := h.fresh hf
        simp [hbreak, hbreak', hf.1, hf.2.1]
      · rw [(h.read hf).resolve_left (by omega)]
        by_cases hb : s.blocks.toList.tail = []
        · have hw : s.waiting ≠ [] := fun hw => hf ⟨hb, hw, hs⟩
          simp [hw]
        · simp [hb]
    · obtain ⟨hkind, hne⟩ := s.triviaKind_of_ne s' hl
      rw [hkind, if_neg fun hc => hne hc.2.2.2]
  have := @Behind.aside p k s s' h _ _ hkind s.start s.index (s.index + 1) (k + 1) (Nat.succ_pos _)
  rw [← h.start, ← hindex, Nat.add_right_comm, ← hindex] at this
  exact this

theorem Behind.range (h : s.Behind p k s') (hp : p.tokens ≠ []) (hs : s.start < s.index) :
    s'.tokens.range s'.start (s'.index - 1) = s.tokens.range s.start (s.index - 1) := by
  have hpos := h.start_pos
  have hlen : p.tokens.length = p.offset + 1 := by
    have := List.length_pos_iff.2 hp
    simp only [Past.offset]
    omega
  have hi : s'.index - 1 + 1 = s.index + p.offset := by
    rw [h.index hp]
    omega
  have hi' : s.index - 1 + 1 = s.index := by omega
  obtain ⟨j, hj⟩ : ∃ j, s.start = j + 1 := ⟨s.start - 1, by omega⟩
  obtain ⟨t, us, hus⟩ := List.exists_cons_of_ne_nil h.tokens_ne
  rw [TokenChain.range_eq, TokenChain.range_eq, hi, hi', h.start, h.tokens, hus, List.tail_cons,
    List.drop_take, List.drop_take, List.drop_append, List.drop_eq_nil_of_le (by omega),
    List.nil_append, hj, List.drop_succ_cons]
  congr 1
  · omega
  · congr 1
    omega

theorem Behind.interrupt (h : s.Behind p k s') (hp : p.tokens ≠ []) (hi : s.index = k) :
    s.interrupt.Behind p k s'.interrupt := by
  have hindex := h.index hp
  have hstart := h.start
  unfold Sheet.interrupt
  by_cases hlt : s.start < s.index
  · have hlt' : s'.start < s'.index := by omega
    have hpred : s'.index - 1 = s.index - 1 + p.offset := by omega
    rw [if_pos hlt, if_pos hlt', h.range hp hlt]
    by_cases hall : ((s.tokens.range s.start (s.index - 1)).all fun t => t.kind = .space) = true
    · rw [if_pos hall, if_pos hall]
      have := @Behind.aside p k s s' h .whitespace .whitespace (by simp) s.start (s.index - 1)
        s.index k (by omega)
      rw [← h.start, ← hpred, ← hindex] at this
      exact this
    · rw [if_neg hall, if_neg hall]
      refine { h with
        waiting := by simp [h.waiting, Fragment.shift, hstart, hpred], head := ?_
        start_pos := by dsimp only; omega, start := hindex, fresh := ?_, read := fun _ => .inr rfl }
      · have := h.head
        cases hw : s.waiting with
        | nil => simp
        | cons f fs => simpa [hw] using this
      · intro hf
        simp [IsFresh] at hf
  · rw [if_neg hlt, if_neg (by omega)]
    exact h

theorem Behind.cutBefore (h : s.Behind p k s') (hp : p.tokens ≠ []) (hi : s.index = k)
    (hs : s.start ≤ k) {before : Option BlockKind} (hb : ∀ kind ∈ before, kind ≠ .linebreak) :
    (s.cutBefore before).Behind p k (s'.cutBefore before) := by
  cases before with
  | none => exact h
  | some kind => exact h.cut hp (by omega) (hb kind rfl)

/-- Taking a token. -/
theorem Behind.taking (h : s.Behind p k s') (hp : p.tokens ≠ []) (hs : s.start ≤ k)
    {ts : List Token} {t : Token} (ht : s.tokens.toList = ts ++ [t]) (hk : ts.length = k)
    (hpos : 0 < k) {before closing : Option BlockKind} (hb : ∀ kind ∈ before, kind ≠ .linebreak)
    (hc : ∀ kind ∈ closing, kind ≠ .linebreak) (kind : TokenKind) :
    (s.taking before closing kind).Behind p (k + 1) (s'.taking before closing kind) := by
  have hi : s.index = k := hk ▸ index_eq ht
  have hts : ts ≠ [] := List.length_pos_iff.1 (hk ▸ hpos)
  have hcut := h.cutBefore hp hi hs hb
  have hset := hcut.settle (by rw [tokens_cutBefore, ht]) hts kind
  have hle : ((s.cutBefore before).settle kind).start ≤ k := by
    cases before with
    | none => exact hs
    | some kind => exact Nat.le_of_eq hi
  cases closing with
  | none => exact hset.succ hle
  | some closing => exact hset.close hp (hc closing rfl)

end Sheet

end VhdlOutline
