import VhdlOutline.Text.Lookahead

/-!
# Looking ahead is reading a list

Whatever a reader does with a supply that has a buffer in front of it, the answers are those of a
plain list, from which elements are taken at the front and put back there. The end marks in the
buffer do not show, because they only ever stand behind all elements, and only once nothing is left
to be read (`Lookahead.Shows`). This needs of the supply that it delivers its elements without
stopping and then goes on to say that it ended (`Supply.Yields`).

`Lookahead.reads_as_list_iff` says this of any number of operations on a text, and also how much of
the text each of them reads. The one exception is a look so far ahead that the number of elements to
be read does not fit its machine word.
-/

namespace VhdlOutline.Text

variable {ι α : Type}

/-! ## What a supply delivers -/

section

variable [Supply ι α]

/-- The supply delivers the elements of the list, and then stands at its end as `e`. -/
inductive Supply.Yields : ι → List α → ι → Prop
  | nil {e : ι} (h : pull? e = some (none, e)) : Yields e [] e
  | cons {i j e : ι} {a : α} {xs : List α} (h : pull? i = some (some a, j)) (hs : Yields j xs e) :
      Yields i (a :: xs) e

variable {i e : ι} {xs : List α}

theorem Supply.Yields.pull?_eq (h : Yields i xs e) :
    ∃ j, pull? i = some (xs.head?, j) ∧ Yields j xs.tail e := by
  cases h with
  | nil h => exact ⟨_, h, nil h⟩
  | cons h hs => exact ⟨_, h, hs⟩

end

/-- A list delivers its elements. -/
theorem Supply.yields_list (xs : List α) : Yields xs xs [] := by
  induction xs with
  | nil => exact .nil rfl
  | cons a xs ih => exact .cons rfl ih

theorem Supply.Yields.eq_of_list {xs ys e : List α} (h : Yields xs ys e) : xs = ys := by
  induction ys generalizing xs with
  | nil =>
    cases xs with
    | nil => rfl
    | cons b xs =>
      cases h with
      | nil h => cases h
  | cons a ys ih =>
    cases h with
    | @cons _ zs _ _ _ h hs =>
      obtain rfl := ih hs
      cases xs with
      | nil => cases h
      | cons b xs =>
        cases h
        rfl

namespace Lookahead

/-! ## Where the end marks stand -/

section

variable [Supply ι α] {e i : ι} {l : Lookahead ι α} {xs rest : List α}

/-- A reader sees the elements `xs`, the last ones of which, `rest`, are still to be read from the
supply. Behind the elements in the buffer there are end marks only if the supply has ended. -/
inductive Shows (e : ι) : Lookahead ι α → List α → List α → Prop
  | ahead {i : ι} {rest : List α} (xs : List α) (h : Supply.Yields i rest e) :
      Shows e ⟨xs.map some, i⟩ (xs ++ rest) rest
  | ended (xs : List α) (k : Nat) (h : Supply.pull? e = some (none, e)) :
      Shows e ⟨xs.map some ++ List.replicate k none, e⟩ xs []

theorem shows_ofSupply (h : Supply.Yields i xs e) : (ofSupply i).Shows e xs xs := .ahead [] h

namespace Shows

theorem suffix (h : l.Shows e xs rest) : rest <:+ xs := by
  cases h with
  | ahead ys => exact List.suffix_append ys rest
  | ended => exact List.nil_suffix

/-- Once nothing is to come, the supply stands at its end. -/
theorem unread_eq (h : l.Shows e [] rest) : l.unread = e := by
  generalize hxs : ([] : List α) = xs at h
  cases h with
  | ahead ys h =>
    obtain ⟨rfl, rfl⟩ := List.append_eq_nil_iff.1 hxs.symm
    cases h with
    | nil => rfl
  | ended => rfl

theorem undo (h : l.Shows e xs rest) (a : α) : (l.undo a).Shows e (a :: xs) rest := by
  cases h with
  | ahead ys h => exact .ahead (a :: ys) h
  | ended _ k h => exact .ended (a :: xs) k h

/-- The next element is the first one to come, and the others stay. One element is read from the
supply if all of them are still to be read, and otherwise none. -/
theorem next? (h : l.Shows e xs rest) : ∃ k rest', l.next? = some (xs.head?, k) ∧
    k.Shows e xs.tail rest' ∧ (xs = rest → rest' = rest.tail) ∧ (xs ≠ rest → rest' = rest) := by
  cases h with
  | @ahead i _ ys h =>
    cases ys with
    | nil =>
      obtain ⟨j, hpull, hj⟩ := h.pull?_eq
      refine ⟨⟨[], j⟩, rest.tail, ?_, .ahead [] hj, fun _ => rfl, fun hne => absurd rfl hne⟩
      simp [Lookahead.next?, hpull]
    | cons y ys =>
      refine ⟨⟨ys.map some, i⟩, rest, rfl, .ahead ys h, fun he => ?_, fun _ => rfl⟩
      cases List.append_left_eq_self.1 he
  | ended _ k h =>
    cases xs with
    | cons x xs => exact ⟨_, [], rfl, .ended xs k h, fun _ => rfl, fun _ => rfl⟩
    | nil =>
      cases k with
      | zero => exact ⟨_, [], by simp [Lookahead.next?, h], .ended [] 0 h, fun _ => rfl, fun _ => rfl⟩
      | succ k => exact ⟨_, [], rfl, .ended [] k h, fun _ => rfl, fun _ => rfl⟩

/-- Reading one element or end mark into the buffer changes nothing for a reader. -/
theorem read (h : l.Shows e xs rest) : ∃ j, Supply.pull? l.unread = some (rest.head?, j) ∧
    Shows e ⟨l.buffer ++ [rest.head?], j⟩ xs rest.tail := by
  cases h with
  | ahead ys h =>
    obtain ⟨j, hpull, hj⟩ := h.pull?_eq
    refine ⟨j, hpull, ?_⟩
    cases rest with
    | nil =>
      cases hj
      rw [List.append_nil]
      exact .ended ys 1 ‹_›
    | cons a rest => simpa using Shows.ahead (ys ++ [a]) hj
  | ended _ k h =>
    refine ⟨e, h, ?_⟩
    rw [List.append_assoc]
    show Shows e ⟨xs.map some ++ (List.replicate k none ++ List.replicate 1 none), e⟩ xs []
    rw [List.replicate_append_replicate]
    exact .ended xs (k + 1) h

/-- Nor does reading any number of them. -/
theorem fill? (h : l.Shows e xs rest) (n : Nat) : ∃ k, l.fill? n = some k ∧
    k.Shows e xs (rest.drop n) ∧ k.buffer.length = l.buffer.length + n := by
  induction n generalizing l rest with
  | zero => exact ⟨l, rfl, h, rfl⟩
  | succ n ih =>
    obtain ⟨j, hpull, hread⟩ := h.read
    obtain ⟨k, hk, hshows, hlength⟩ := ih hread
    refine ⟨k, ?_, by rwa [List.drop_tail] at hshows, ?_⟩
    · rw [Lookahead.fill?, hpull]
      exact hk
    · rw [hlength, List.length_append, List.length_singleton]
      omega

/-- In a buffer that reaches so far, the element or end mark at index `n` is what stands `n` places
ahead. -/
theorem getElem?_buffer (h : l.Shows e xs rest) {n : Nat} (hn : n < l.buffer.length) :
    l.buffer[n]? = some xs[n]? := by
  cases h with
  | ahead ys =>
    rw [List.length_map] at hn
    simp [hn, List.getElem?_append_left]
  | ended _ k =>
    rw [List.length_append, List.length_map, List.length_replicate] at hn
    rcases Nat.lt_or_ge n xs.length with hx | hx
    · simp [List.getElem?_append_left, hx]
    · rw [List.getElem?_append_right (by simpa using hx), List.getElem?_eq_none hx,
        List.getElem?_replicate, List.length_map, if_pos (by omega)]

/-- What is missing in the buffer for `n` elements has to be read, and is read if there is as much. -/
theorem drop_eq (h : l.Shows e xs rest) (n : Nat) :
    rest.drop (n - l.buffer.length) = rest.drop (n - (xs.length - rest.length)) := by
  cases h with
  | ahead ys => simp
  | ended => simp

/-- A look ahead within reach finds the element at index `n` of those to come. It takes nothing away,
and reads as many elements as it takes for `n + 1` of those to come to be read. -/
theorem peek? (h : l.Shows e xs rest) {n : UInt64} (hn : n.toNat + 1 < UInt64.size) :
    ∃ k, l.peek? n = some (xs[n.toNat]?, k) ∧
      k.Shows e xs (rest.drop (n.toNat + 1 - (xs.length - rest.length))) := by
  obtain ⟨count, hcount, hvalue⟩ := Word.succ64?_of_lt hn
  obtain ⟨k, hk, hshows, hlength⟩ := h.fill? (n.toNat + 1 - l.buffer.length)
  have helement := hshows.getElem?_buffer (n := n.toNat) (by omega)
  refine ⟨k, ?_, h.drop_eq _ ▸ hshows⟩
  simp only [Lookahead.peek?, hcount, hvalue, hk, helement, Option.bind_eq_bind, Option.bind_some]
  rfl

end Shows

/-- A look ahead out of reach breaks off. -/
theorem peek?_eq_none (l : Lookahead ι α) {n : UInt64} (hn : UInt64.size ≤ n.toNat + 1) :
    l.peek? n = none := by
  rw [peek?, Word.succ64?_eq_none hn]
  rfl

end

end Lookahead

/-! ## Any number of operations -/

/-- What a reader may do with a sequence. -/
inductive Reading (α : Type)
  /-- Take the next element. -/
  | next
  /-- Look at the element `n` places ahead. -/
  | peek (n : UInt64)
  /-- Put the element `a` back. -/
  | undo (a : α)

namespace Reading

/-- What the reader is answered by a list, and the list that is left. -/
def onList : Reading α → List α → Option α × List α
  | next, xs => (xs.head?, xs.tail)
  | peek n, xs => (xs[n.toNat]?, xs)
  | undo a, xs => (none, a :: xs)

/-- All answers of a list, and what is left of it in the end. -/
def allOnList : List (Reading α) → List α → List (Option α) × List α
  | [], xs => ([], xs)
  | r :: rs, xs =>
    let later := allOnList rs (r.onList xs).2
    ((r.onList xs).1 :: later.1, later.2)

/-- The operation does not look so far ahead that the number of elements up to there overflows. -/
def InReach : Reading α → Prop
  | peek n => n.toNat + 1 < UInt64.size
  | _ => True

variable [Supply ι α] {e : ι} {l : Lookahead ι α} {xs rest : List α}

/-- What the reader is answered by a supply with a buffer, and what that becomes. There is no
answer if the operation breaks off. -/
def onLookahead : Reading α → Lookahead ι α → Option (Option α × Lookahead ι α)
  | next, l => l.next?
  | peek n, l => l.peek? n
  | undo a, l => some (none, l.undo a)

/-- All answers of a supply with a buffer, and what that becomes in the end, unless an operation
breaks off. -/
def allOnLookahead : List (Reading α) → Lookahead ι α → Option (List (Option α) × Lookahead ι α)
  | [], l => some ([], l)
  | r :: rs, l => do
    let (answer, l) ← r.onLookahead l
    let (answers, l) ← allOnLookahead rs l
    return (answer :: answers, l)

/-- A supply with a buffer answers within reach as the list of what is to come. -/
theorem onLookahead_eq (h : l.Shows e xs rest) {r : Reading α} (hr : r.InReach) :
    ∃ k rest', r.onLookahead l = some ((r.onList xs).1, k) ∧ k.Shows e (r.onList xs).2 rest' ∧
      rest' <:+ rest := by
  cases r with
  | next =>
    obtain ⟨k, rest', hk, hshows, hall, hsome⟩ := h.next?
    refine ⟨k, rest', hk, hshows, ?_⟩
    rcases Classical.em (xs = rest) with he | hne
    · exact hall he ▸ List.tail_suffix rest
    · exact hsome hne ▸ List.suffix_refl rest
  | peek n =>
    obtain ⟨k, hk, hshows⟩ := h.peek? hr
    exact ⟨k, _, hk, hshows, List.drop_suffix _ _⟩
  | undo a => exact ⟨_, _, rfl, h.undo a, List.suffix_refl _⟩

theorem allOnLookahead_eq (h : l.Shows e xs rest) {rs : List (Reading α)}
    (hr : ∀ r ∈ rs, r.InReach) :
    ∃ k rest', allOnLookahead rs l = some ((allOnList rs xs).1, k) ∧
      k.Shows e (allOnList rs xs).2 rest' ∧ rest' <:+ rest := by
  induction rs generalizing l xs rest with
  | nil => exact ⟨l, rest, rfl, h, List.suffix_refl _⟩
  | cons r rs ih =>
    obtain ⟨hr, hrs⟩ := List.forall_mem_cons.1 hr
    obtain ⟨k, _, hk, hshows, hsuffix⟩ := onLookahead_eq h hr
    obtain ⟨k', rest', hk', hshows', hsuffix'⟩ := ih hshows hrs
    refine ⟨k', rest', ?_, hshows', hsuffix'.trans hsuffix⟩
    simp only [allOnLookahead, hk, hk', Option.bind_eq_bind, Option.bind_some]
    rfl

/-- An operation out of reach breaks off, and with it all. -/
theorem allOnLookahead_eq_none {rs : List (Reading α)} {r : Reading α} (hmem : r ∈ rs)
    (hr : ¬ r.InReach) : allOnLookahead rs l = none := by
  induction rs generalizing l with
  | nil => cases hmem
  | cons s rs ih =>
    rw [allOnLookahead]
    rcases List.mem_cons.1 hmem with rfl | hmem
    · have hnone : r.onLookahead l = none := by
        cases r with
        | peek n => exact l.peek?_eq_none (Nat.le_of_not_lt hr)
        | next | undo => exact absurd trivial hr
      rw [hnone]
      rfl
    · cases hs : s.onLookahead l with
      | none => rfl
      | some x => simp [ih hmem]

end Reading

namespace Lookahead

/-! ## In front of a list -/

theorem Shows.eq_of_list {e xs rest : List α} {l : Lookahead (List α) α} (h : l.Shows e xs rest) :
    l.toList = xs ∧ l.unread = rest := by
  cases h with
  | ahead ys h =>
    obtain rfl := h.eq_of_list
    simp [toList]
  | ended _ k h =>
    obtain rfl : e = [] := by
      cases e with
      | nil => rfl
      | cons => cases h
    simp [toList]

/-- The buffer `l` in front of a list, which once was `text`, stands for the list `xs`. -/
structure StandsFor (l : Lookahead (List α) α) (text xs : List α) : Prop where
  toList : l.toList = xs
  /-- What has not been read is a suffix of the text and of the list. -/
  unread_text : l.unread <:+ text
  unread_list : l.unread <:+ xs
  /-- Putting an element back reads nothing. -/
  undo : ∀ a, (l.undo a).unread = l.unread
  /-- Taking an element reads one if the whole list is unread, and nothing otherwise. -/
  next : ∃ k, l.next? = some (xs.head?, k) ∧ (xs = l.unread → k.unread = l.unread.tail) ∧
    (xs ≠ l.unread → k.unread = l.unread)
  /-- Looking `n` places ahead reads the elements that are missing for `n + 1` of the list to be read,
  or all if there are fewer. -/
  peek : ∀ n : UInt64, n.toNat + 1 < UInt64.size → ∃ k, l.peek? n = some (xs[n.toNat]?, k) ∧
    k.unread = l.unread.drop (n.toNat + 1 - (xs.length - l.unread.length))

/-- **Looking ahead is reading a list**, as long as no look is out of reach. After any operations on a
text, the answers have been those of a list that starts as the text, and what is to come is that
list. An operation out of reach breaks off. -/
theorem reads_as_list_iff (text : List α) (rs : List (Reading α)) :
    (∃ l, Reading.allOnLookahead rs (ofSupply text) = some ((Reading.allOnList rs text).1, l) ∧
      l.StandsFor text (Reading.allOnList rs text).2) ↔ ∀ r ∈ rs, r.InReach := by
  constructor
  · rintro ⟨l, hl, -⟩ r hmem
    refine Classical.byContradiction fun hr => ?_
    rw [Reading.allOnLookahead_eq_none hmem hr] at hl
    cases hl
  · intro hr
    obtain ⟨l, rest, hl, hshows, hsuffix⟩ :=
      Reading.allOnLookahead_eq (shows_ofSupply (Supply.yields_list text)) hr
    obtain ⟨hlist, rfl⟩ := hshows.eq_of_list
    refine ⟨l, hl, hlist, hsuffix, hshows.suffix, fun _ => rfl, ?_, fun n hn => ?_⟩
    · obtain ⟨k, rest, hk, hk', hall, hsome⟩ := hshows.next?
      obtain ⟨-, rfl⟩ := hk'.eq_of_list
      exact ⟨k, hk, hall, hsome⟩
    · obtain ⟨k, hk, hk'⟩ := hshows.peek? hn
      exact ⟨k, hk, hk'.eq_of_list.2⟩

/-- The farthest look breaks off, though the list has nothing there. -/
theorem peek_breaks_off :
    Reading.allOnLookahead [.peek 18446744073709551615] (ofSupply ['a', 'b']) = none ∧
      (Reading.allOnList [.peek 18446744073709551615] ['a', 'b']).1 = [none] := by
  decide

end Lookahead

end VhdlOutline.Text
