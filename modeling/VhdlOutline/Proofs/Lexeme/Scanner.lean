import VhdlOutline.Lexeme.Buffered
import VhdlOutline.Proofs.Text.Lookahead

/-!
# Scanning through a buffer is scanning a list

What a scanner does depends only on the list of characters that its buffer shows
(`Scanner.Gives`). With that list, each scanner finds the lexeme that the function of the same name
finds in the list of plain characters, takes just its characters, and stamps it with their marks
(`Scanner.Finds`). `Scanner.finds_scan` puts them together.
-/

namespace VhdlOutline

/-! ## Tokens under construction -/

namespace Stamped

theorem isFigure_eq : isFigure = VhdlOutline.isFigure ∘ char := by
  funext x
  simp [isFigure, VhdlOutline.isFigure, isDigit, x.isCategory]

theorem isWordPart_eq : isWordPart = VhdlOutline.isWordPart ∘ char := by
  funext x
  simp [isWordPart, VhdlOutline.isWordPart, isLetter, isDigit, x.isCategory]

end Stamped

namespace Scan

/-- Take several characters into a token. -/
def pushAll (s : Scan) (xs : List Stamped) : Scan := xs.foldl push s

@[simp] theorem pushAll_nil (s : Scan) : s.pushAll [] = s := rfl

@[simp] theorem pushAll_cons (s : Scan) (x : Stamped) (xs : List Stamped) :
    s.pushAll (x :: xs) = (s.push x).pushAll xs := rfl

theorem pushAll_append (s : Scan) (xs ys : List Stamped) :
    s.pushAll (xs ++ ys) = (s.pushAll xs).pushAll ys :=
  List.foldl_append

@[simp] theorem toList_push (s : Scan) (x : Stamped) :
    (s.push x).text.toList = s.text.toList ++ [x.char] :=
  String.toList_push _

theorem toList_pushAll (s : Scan) (xs : List Stamped) :
    (s.pushAll xs).text.toList = s.text.toList ++ xs.map Stamped.char := by
  induction xs generalizing s with
  | nil => simp
  | cons x xs ih => simp [ih]

@[simp] theorem first_pushAll (s : Scan) (xs : List Stamped) :
    (s.pushAll xs).first = s.first := by
  induction xs generalizing s with
  | nil => rfl
  | cons x xs ih => exact ih (s.push x)

@[simp] theorem fail_push (s : Scan) (x : Stamped) (fault : LexFault) :
    (s.push x).fail fault = s.fail fault := rfl

@[simp] theorem fail_pushAll (s : Scan) (xs : List Stamped) (fault : LexFault) :
    (s.pushAll xs).fail fault = s.fail fault := by
  rw [fail, first_pushAll, fail]

end Scan

namespace Scanner

open Scan (bumpWhile delimited commentBody)

variable {α β : Type} {xs ys zs : List Stamped} {x : Stamped} {s : Scan}

/-! ## Reading from a buffer -/

/-- With the characters `xs` to come, the computation results in `b`, and then `ys` are to come. -/
def Gives (f : Scanner β) (xs : List Stamped) (b : β) (ys : List Stamped) : Prop :=
  ∀ ⦃e : Stamper⦄ ⦃l : Text.Lookahead Stamper Stamped⦄ ⦃rest : List Stamped⦄, l.Shows e xs rest →
    ∃ k rest', f l = some (b, k) ∧ k.Shows e ys rest'

theorem gives_pure (b : β) (xs : List Stamped) : Gives (pure b) xs b xs :=
  fun _ _ _ h => ⟨_, _, rfl, h⟩

theorem Gives.bind {f : Scanner α} {g : α → Scanner β} {a : α} {b : β} (hf : Gives f xs a ys)
    (hg : Gives (g a) ys b zs) : Gives (f >>= g) xs b zs := by
  intro e l rest h
  obtain ⟨k, rest', hk, hshows⟩ := hf h
  obtain ⟨k', rest'', hk', hshows'⟩ := hg hshows
  refine ⟨k', rest'', ?_, hshows'⟩
  show (f l).bind (fun x => g x.1 x.2) = _
  rw [hk]
  exact hk'

theorem Gives.map {f : Scanner α} {a : α} (g : α → β) (hf : Gives f xs a ys) :
    Gives (g <$> f) xs (g a) ys := by
  rw [map_eq_pure_bind]
  exact hf.bind (gives_pure _ _)

theorem gives_take (xs : List Stamped) : Gives take xs xs.head? xs.tail := by
  intro e l rest h
  obtain ⟨k, rest', hk, hshows, -⟩ := h.next?
  exact ⟨k, rest', hk, hshows⟩

theorem gives_look (xs : List Stamped) (n : Nat) (hn : n + 1 < UInt64.size) :
    Gives (look n.toUInt64) xs xs[n]? xs := by
  intro e l rest h
  have hvalue : n.toUInt64.toNat = n := UInt64.toNat_ofNat_of_lt' (Nat.lt_of_succ_lt hn)
  obtain ⟨k, hk, hshows⟩ := h.peek? (n := n.toUInt64) (by rwa [hvalue])
  rw [hvalue] at hk
  exact ⟨k, _, hk, hshows⟩

theorem gives_peek (xs : List Stamped) (n : Nat) (hn : n + 1 < UInt64.size) :
    Gives (peek n.toUInt64) xs (xs[n]?.map Stamped.char) xs :=
  (gives_look xs n hn).bind (gives_pure _ _)

theorem gives_isAt (xs : List Stamped) (n : Nat) (hn : n + 1 < UInt64.size) (c : Char) :
    Gives (isAt n.toUInt64 c) xs (xs[n]?.map Stamped.char == some c) xs :=
  (gives_peek xs n hn).bind (gives_pure _ _)

theorem gives_isOf (xs : List Stamped) (n : Nat) (hn : n + 1 < UInt64.size) (category : Category) :
    Gives (isOf n.toUInt64 category) xs (xs[n]?.map Stamped.category == some category) xs :=
  (gives_look xs n hn).bind (gives_pure _ _)

/-- Of two questions the second one is asked only if the answer to the first one is yes. -/
theorem Gives.and {f g : Scanner Bool} {a b : Bool} (hf : Gives f xs a xs)
    (hg : a = true → Gives g xs b xs) : Gives (f <&&> g) xs (a && b) xs := by
  refine hf.bind ?_
  cases a with
  | false => exact gives_pure _ _
  | true => exact hg rfl

theorem gives_bump (s : Scan) (x : Stamped) (xs : List Stamped) :
    Gives (bump s) (x :: xs) (s.push x) xs :=
  (gives_take (x :: xs)).bind (gives_pure _ _)

theorem gives_bumps (s : Scan) (as bs : List Stamped) :
    Gives (bumps s as.length) (as ++ bs) (s.pushAll as) bs := by
  induction as generalizing s with
  | nil => exact gives_pure s bs
  | cons a as ih => exact (gives_bump s a (as ++ bs)).bind (ih (s.push a))

theorem gives_bumpWhile (p : Stamped → Bool) (s : Scan) (xs : List Stamped) :
    Gives (bumpWhile p s) xs (s.pushAll (xs.takeWhile p)) (xs.dropWhile p) := by
  induction xs generalizing s with
  | nil =>
    rw [bumpWhile]
    exact (gives_look [] 0 (by decide)).bind (gives_pure _ _)
  | cons x xs ih =>
    rw [bumpWhile]
    refine (gives_look (x :: xs) 0 (by decide)).bind ?_
    rw [List.getElem?_cons_zero]
    dsimp only
    by_cases hp : p x = true
    · rw [if_pos hp, List.takeWhile_cons_of_pos hp, List.dropWhile_cons_of_pos hp]
      exact (gives_take (x :: xs)).bind (ih (s.push x))
    · rw [if_neg hp, List.takeWhile_cons_of_neg hp, List.dropWhile_cons_of_neg hp]
      exact gives_pure _ _

/-! ## Finding a lexeme -/

/-- With the characters `xs` to come, the computation makes the token under construction the one of
the lexeme or fails with the same fault, and takes just the characters of the lexeme. -/
def Finds (f : Scanner (Except LexError Token)) (s : Scan) (xs : List Stamped) :
    Except LexFault Lexeme → Prop
  | .error fault => ∃ ys, Gives f xs (.error (s.fail fault)) ys
  | .ok l => ∃ as bs, xs = as ++ bs ∧ l.text = s.text.toList ++ as.map Stamped.char ∧
      l.rest = bs.map Stamped.char ∧ Gives f xs (.ok ((s.pushAll as).finish l.kind)) bs

variable {r : Except LexFault Lexeme} {f : Scan → Scanner (Except LexError Token)}

theorem finds_ok {l : Lexeme} (htext : l.text = s.text.toList)
    (hrest : l.rest = xs.map Stamped.char) :
    Finds (pure (.ok (s.finish l.kind))) s xs (.ok l) :=
  ⟨[], xs, rfl, by simp [htext], hrest, gives_pure _ _⟩

theorem finds_error (s : Scan) (xs : List Stamped) (fault : LexFault) :
    Finds (pure (.error (s.fail fault))) s xs (.error fault) :=
  ⟨xs, gives_pure _ _⟩

/-- To ask for what is to come before going on takes nothing. -/
theorem Finds.ask {g : Scanner α} {f : α → Scanner (Except LexError Token)} {a : α}
    (hf : Finds (f a) s xs r) (hg : Gives g xs a xs) : Finds (g >>= f) s xs r := by
  cases r with
  | error fault =>
    obtain ⟨ys, h⟩ := hf
    exact ⟨ys, hg.bind h⟩
  | ok l =>
    obtain ⟨as, bs, hxs, htext, hrest, h⟩ := hf
    exact ⟨as, bs, hxs, htext, hrest, hg.bind h⟩

/-- A question decides how to go on. -/
theorem Finds.ite {g : Scanner Bool} {f f' : Scanner (Except LexError Token)} {b : Bool}
    {p : Prop} [Decidable p] {r r' : Except LexFault Lexeme} (hg : Gives g xs b xs)
    (hb : b = true ↔ p) (hpos : p → Finds f s xs r) (hneg : ¬p → Finds f' s xs r') :
    Finds (do if ← g then f else f') s xs (if p then r else r') := by
  refine ask ?_ hg
  by_cases hp : p
  · rw [if_pos (hb.2 hp), if_pos hp]
    exact hpos hp
  · rw [if_neg (mt hb.1 hp), if_neg hp]
    exact hneg hp

/-- A lexeme is found by taking some of its characters first. -/
theorem Finds.after {g : Scanner Scan} {as bs : List Stamped}
    (hf : Finds (f (s.pushAll as)) (s.pushAll as) bs r)
    (hg : Gives g (as ++ bs) (s.pushAll as) bs) : Finds (g >>= f) s (as ++ bs) r := by
  cases r with
  | error fault =>
    obtain ⟨ys, h⟩ := hf
    rw [Scan.fail_pushAll] at h
    exact ⟨ys, hg.bind h⟩
  | ok l =>
    obtain ⟨more, ys, rfl, htext, hrest, h⟩ := hf
    refine ⟨as ++ more, ys, (List.append_assoc ..).symm, ?_, hrest, ?_⟩
    · rw [htext, Scan.toList_pushAll, List.map_append, List.append_assoc]
    · rw [Scan.pushAll_append]
      exact hg.bind h

theorem Finds.bump (h : Finds (f (s.push x)) (s.push x) xs r) :
    Finds (bump s >>= f) s (x :: xs) r := by
  have hg : Gives (Scanner.bump s) ([x] ++ xs) (s.pushAll [x]) xs := gives_bump s x xs
  exact after h hg

theorem Finds.bumpWhile {p : Stamped → Bool}
    (h : Finds (f (s.pushAll (xs.takeWhile p))) (s.pushAll (xs.takeWhile p)) (xs.dropWhile p) r) :
    Finds (bumpWhile p s >>= f) s xs r := by
  have hg := gives_bumpWhile p s xs
  have hxs := xs.takeWhile_append_dropWhile (p := p)
  rw [← hxs] at hg
  rw [← hxs]
  exact h.after (by simpa using hg)

theorem takeWhile_map_char {p : Stamped → Bool} {q : Char → Bool} (h : p = q ∘ Stamped.char)
    (xs : List Stamped) :
    (xs.map Stamped.char).takeWhile q = (xs.takeWhile p).map Stamped.char ∧
      (xs.map Stamped.char).dropWhile q = (xs.dropWhile p).map Stamped.char :=
  ⟨h ▸ List.takeWhile_map, h ▸ List.dropWhile_map⟩

/-! ## Delimited text -/

/-- With the characters `xs` to come, the computation takes the first part of a division of them into
the token under construction, or fails if there is none. -/
def Takes (f : Scanner (Except LexError Scan)) (s : Scan) (xs : List Stamped) (fault : LexFault) :
    Option (List Char × List Char) → Prop
  | none => ∃ ys, Gives f xs (.error (s.fail fault)) ys
  | some (body, rest) => ∃ as bs, xs = as ++ bs ∧ body = as.map Stamped.char ∧
      rest = bs.map Stamped.char ∧ Gives f xs (.ok (s.pushAll as)) bs

variable {fault : LexFault}

theorem takes_some (as bs : List Stamped) (s : Scan) (fault : LexFault)
    {f : Scanner (Except LexError Scan)} (hf : Gives f (as ++ bs) (.ok (s.pushAll as)) bs) :
    Takes f s (as ++ bs) fault (some (as.map Stamped.char, bs.map Stamped.char)) :=
  ⟨as, bs, rfl, rfl, rfl, hf⟩

/-- A character that belongs to the text is taken into the token before what follows it. -/
theorem Takes.cons {f g : Scanner (Except LexError Scan)} {r : Option (List Char × List Char)}
    (hg : Takes g (s.push x) xs fault r)
    (h : ∀ b ys, Gives g xs b ys → Gives f (x :: xs) b ys) :
    Takes f s (x :: xs) fault (r.map fun (body, rest) => (x.char :: body, rest)) := by
  cases r with
  | none =>
    obtain ⟨ys, hg⟩ := hg
    exact ⟨ys, h _ _ hg⟩
  | some r =>
    obtain ⟨as, bs, rfl, hbody, hrest, hg⟩ := hg
    exact ⟨x :: as, bs, rfl, congrArg _ hbody, hrest, h _ _ hg⟩

theorem category_eq_linebreak (x : Stamped) :
    x.category = .linebreak ↔ isLineEnd x.char = true := by
  rw [x.isCategory, isLineEnd, decide_eq_true_iff]

/-- At a mark, the character after it decides whether the text goes on. -/
theorem gives_delimited_mark {q : Char} (hend : ¬ isLineEnd q = true) (hx : x.char = q)
    {b : Except LexError Scan} {ys : List Stamped}
    (h : Gives (if xs[0]?.map Stamped.char == some q then bump (s.push x) >>= delimited q fault
      else pure (.ok (s.push x))) xs b ys) : Gives (delimited q fault s) (x :: xs) b ys := by
  rw [delimited]
  refine (gives_take (x :: xs)).bind ?_
  dsimp only [List.head?_cons, List.tail_cons]
  rw [if_neg (mt (category_eq_linebreak x).1 (hx ▸ hend)), if_pos hx]
  exact (gives_isAt xs 0 (by decide) q).bind h

/-- Delimited text is taken as far as it reaches in the list. -/
theorem takes_delimited (q : Char) (fault : LexFault) (s : Scan) (xs : List Stamped) :
    Takes (delimited q fault s) s xs fault (Lexeme.delimited? q (xs.map Stamped.char)) := by
  generalize hcs : xs.map Stamped.char = cs
  fun_induction Lexeme.delimited? q cs generalizing xs s with
  | case1 =>
    obtain rfl := List.map_eq_nil_iff.1 hcs
    rw [delimited]
    exact ⟨[], (gives_take []).bind (gives_pure _ _)⟩
  | case2 c cs hend =>
    obtain ⟨x, xs, rfl, rfl, rfl⟩ := List.map_eq_cons_iff.1 hcs
    rw [delimited]
    refine ⟨xs, (gives_take (x :: xs)).bind ?_⟩
    dsimp only [List.head?_cons, List.tail_cons]
    rw [if_pos ((category_eq_linebreak x).2 hend)]
    exact gives_pure _ _
  | case3 ds hend ih =>
    obtain ⟨x, ys, rfl, hx, hys⟩ := List.map_eq_cons_iff.1 hcs
    obtain ⟨y, zs, rfl, hy, rfl⟩ := List.map_eq_cons_iff.1 hys
    have hsecond : Takes (bump (s.push x) >>= delimited q fault) (s.push x) (y :: zs) fault _ :=
      (ih _ zs rfl).cons fun _ _ h => (gives_bump (s.push x) y zs).bind h
    have hfirst := hsecond.cons (f := delimited q fault s) fun b ws h =>
      gives_delimited_mark hend hx (by simpa [hy] using h)
    rw [Option.map_map, hx, hy] at hfirst
    exact hfirst
  | case4 d ds hd hend =>
    obtain ⟨x, ys, rfl, hx, hys⟩ := List.map_eq_cons_iff.1 hcs
    obtain ⟨y, zs, rfl, rfl, rfl⟩ := List.map_eq_cons_iff.1 hys
    have hfirst := takes_some [x] (y :: zs) s fault (f := delimited q fault s)
      (gives_delimited_mark hend hx (by simpa [hd] using gives_pure _ _))
    simpa [hx] using hfirst
  | case5 hend =>
    obtain ⟨x, ys, rfl, hx, hys⟩ := List.map_eq_cons_iff.1 hcs
    obtain rfl := List.map_eq_nil_iff.1 hys
    have hfirst := takes_some [x] [] s fault (f := delimited q fault s)
      (gives_delimited_mark hend hx (gives_pure _ _))
    simpa [hx] using hfirst
  | case6 c cs hend hq ih =>
    obtain ⟨x, xs, rfl, rfl, rfl⟩ := List.map_eq_cons_iff.1 hcs
    refine (ih (s.push x) xs rfl).cons fun b ys h => ?_
    rw [delimited]
    refine (gives_take (x :: xs)).bind ?_
    dsimp only [List.head?_cons, List.tail_cons]
    rw [if_neg (mt (category_eq_linebreak x).1 hend), if_neg hq]
    exact h

/-- A comment is taken as far as it reaches in the list. -/
theorem takes_commentBody (s : Scan) (xs : List Stamped) :
    Takes (commentBody s) s xs .unterminatedComment
      (Lexeme.commentBody? (xs.map Stamped.char)) := by
  generalize hcs : xs.map Stamped.char = cs
  fun_induction Lexeme.commentBody? cs generalizing xs s with
  | case1 =>
    obtain rfl := List.map_eq_nil_iff.1 hcs
    rw [commentBody]
    exact ⟨[], (gives_take []).bind (gives_pure _ _)⟩
  | case2 c d ds h =>
    obtain ⟨x, ys, rfl, rfl, hys⟩ := List.map_eq_cons_iff.1 hcs
    obtain ⟨y, zs, rfl, rfl, rfl⟩ := List.map_eq_cons_iff.1 hys
    refine takes_some [x, y] zs s .unterminatedComment ?_
    rw [commentBody]
    refine (gives_take (x :: y :: zs)).bind ?_
    refine ((gives_pure _ _).and fun _ => gives_isAt (y :: zs) 0 (by decide) '/').bind ?_
    simpa [h] using (gives_bump (s.push x) y zs).map Except.ok
  | case3 c d ds h ih =>
    obtain ⟨x, ys, rfl, rfl, hys⟩ := List.map_eq_cons_iff.1 hcs
    obtain ⟨y, zs, rfl, rfl, rfl⟩ := List.map_eq_cons_iff.1 hys
    refine (ih (s.push x) (y :: zs) rfl).cons fun b ws hlater => ?_
    rw [commentBody]
    refine (gives_take (x :: y :: zs)).bind ?_
    refine ((gives_pure _ _).and fun _ => gives_isAt (y :: zs) 0 (by decide) '/').bind ?_
    simpa [h] using hlater
  | case4 c =>
    obtain ⟨x, ys, rfl, rfl, hys⟩ := List.map_eq_cons_iff.1 hcs
    obtain rfl := List.map_eq_nil_iff.1 hys
    have hlater : Gives (commentBody (s.push x)) [] (.error (s.fail .unterminatedComment)) [] := by
      rw [commentBody]
      exact (gives_take []).bind (gives_pure _ _)
    refine ⟨[], ?_⟩
    rw [commentBody]
    refine (gives_take [x]).bind ?_
    refine ((gives_pure _ _).and fun _ => gives_isAt [] 0 (by decide) '/').bind ?_
    simpa using hlater

/-- What takes a text into a token finds the lexeme of that text. -/
theorem Takes.finds {f : Scanner (Except LexError Scan)} (kind : TokenKind)
    {o : Option (List Char × List Char)} : Takes f s xs fault o →
    Finds (do return (← f).map (Scan.finish · kind)) s xs
      (match o with
        | some (body, rest) => .ok ⟨kind, s.text.toList ++ body, rest⟩
        | none => .error fault) := by
  intro h
  match o, h with
  | none, ⟨ys, h⟩ => exact ⟨ys, h.bind (gives_pure _ _)⟩
  | some (_, _), ⟨as, bs, hxs, rfl, rfl, h⟩ =>
    exact ⟨as, bs, hxs, rfl, rfl, h.bind (gives_pure _ _)⟩

theorem finds_closed (q : Char) (fault : LexFault) (kind : TokenKind) (s : Scan)
    (xs : List Stamped) :
    Finds (closed q fault kind s) s xs <|
      match Lexeme.delimited? q (xs.map Stamped.char) with
      | some (body, rest) => .ok ⟨kind, s.text.toList ++ body, rest⟩
      | none => .error fault :=
  Takes.finds kind (takes_delimited q fault s xs)

/-! ## Words and numbers -/

/-- What an exponent consists of before its digits: its letter, and a sign if there is one. -/
theorem exists_sign (xs : List Stamped) : ∃ as bs, xs = as ++ bs ∧
    Lexeme.sign (xs.map Stamped.char) = (as.map Stamped.char, bs.map Stamped.char) ∧
      (if xs[0]?.map Stamped.char = some '+' ∨ xs[0]?.map Stamped.char = some '-' then 2 else 1) =
        as.length + 1 := by
  cases xs with
  | nil => exact ⟨[], [], rfl, rfl, rfl⟩
  | cons x xs =>
    by_cases h : x.char = '+' ∨ x.char = '-'
    · exact ⟨[x], xs, rfl, by simp [Lexeme.sign, h], by simp [h]⟩
    · exact ⟨[], x :: xs, rfl, by simp [Lexeme.sign, h], by simp [h]⟩

theorem startsWithDigit_map (xs : List Stamped) :
    Lexeme.startsWithDigit (xs.map Stamped.char) = (xs[0]?.map Stamped.category == some .digit) := by
  cases xs with
  | nil => rfl
  | cons x xs =>
    rw [List.map_cons, Lexeme.startsWithDigit, isDigit, ← x.isCategory]
    simp [Bool.beq_eq_decide_eq]

/-- An exponent is taken as far as it reaches in the list. -/
theorem gives_exponent (s : Scan) (xs : List Stamped) : ∃ as bs, xs = as ++ bs ∧
    Lexeme.exponent (xs.map Stamped.char) = (as.map Stamped.char, bs.map Stamped.char) ∧
      Gives (exponent s) xs (s.pushAll as) bs := by
  cases xs with
  | nil => exact ⟨[], [], rfl, rfl, (gives_peek [] 0 (by decide)).bind (gives_pure _ _)⟩
  | cons x xs =>
    by_cases hx : x.char = 'e' ∨ x.char = 'E'
    · obtain ⟨as, bs, rfl, hsign, hcount⟩ := exists_sign xs
      have hexponent : Lexeme.exponent ((x :: (as ++ bs)).map Stamped.char) =
          if bs[0]?.map Stamped.category == some .digit then
            ((x :: (as ++ bs.takeWhile Stamped.isFigure)).map Stamped.char,
              (bs.dropWhile Stamped.isFigure).map Stamped.char)
          else ([], (x :: (as ++ bs)).map Stamped.char) := by
        obtain ⟨htake, hdrop⟩ := takeWhile_map_char Stamped.isFigure_eq bs
        rw [List.map_cons, Lexeme.exponent, hsign]
        simp [hx, startsWithDigit_map, htake, hdrop]
      have hlength : as.length + 2 < UInt64.size := by
        have hsize : 3 < UInt64.size := by decide
        split at hcount <;> omega
      have hask : ∀ {b ys}, Gives (do
            if ← isOf (as.length + 1).toUInt64 .digit then
              bumpWhile Stamped.isFigure (← bumps s (as.length + 1))
            else return s) (x :: (as ++ bs)) b ys →
          Gives (exponent s) (x :: (as ++ bs)) b ys := by
        intro b ys h
        refine (gives_peek (x :: (as ++ bs)) 0 (by decide)).bind ?_
        rw [if_pos (by simpa using hx)]
        refine (gives_peek (x :: (as ++ bs)) 1 (by decide)).bind ?_
        rw [List.getElem?_cons_succ, hcount]
        exact h
      have hof := gives_isOf (x :: (as ++ bs)) (as.length + 1) hlength .digit
      rw [List.getElem?_cons_succ, List.getElem?_append_right (Nat.le_refl _), Nat.sub_self] at hof
      cases hd : bs[0]?.map Stamped.category == some .digit with
      | true =>
        rw [hd] at hof hexponent
        refine ⟨x :: (as ++ bs.takeWhile Stamped.isFigure), bs.dropWhile Stamped.isFigure,
          by simp, hexponent, hask (hof.bind ((gives_bumps s (x :: as) bs).bind ?_))⟩
        have := gives_bumpWhile Stamped.isFigure (s.pushAll (x :: as)) bs
        rwa [← Scan.pushAll_append] at this
      | false =>
        rw [hd] at hof hexponent
        exact ⟨[], x :: (as ++ bs), rfl, hexponent, hask (hof.bind (gives_pure _ _))⟩
    · refine ⟨[], x :: xs, rfl, by simp [Lexeme.exponent, hx], ?_⟩
      refine (gives_peek (x :: xs) 0 (by decide)).bind ?_
      simpa [hx] using gives_pure _ _

theorem finds_withExponent (kind : TokenKind) (s : Scan) (xs : List Stamped) :
    Finds (withExponent kind s) s xs
      (.ok (Lexeme.withExponent kind s.text.toList (xs.map Stamped.char))) := by
  obtain ⟨as, bs, hxs, he, h⟩ := gives_exponent s xs
  exact ⟨as, bs, hxs, by simp [Lexeme.withExponent, he], by simp [Lexeme.withExponent, he],
    h.bind (gives_pure _ _)⟩

theorem finds_fraction (s : Scan) (xs : List Stamped) :
    Finds (fraction s) s xs (.ok (Lexeme.fraction s.text.toList (xs.map Stamped.char))) := by
  obtain ⟨htake, hdrop⟩ := takeWhile_map_char Stamped.isFigure_eq xs
  rw [Lexeme.fraction, htake, hdrop, ← Scan.toList_pushAll]
  exact (finds_withExponent _ _ _).bumpWhile

theorem finds_bitString (s : Scan) (as bs : List Stamped) (x : Stamped) :
    Finds (bitString as.length s) s (as ++ x :: bs)
      (Lexeme.bitString (s.text.toList ++ (as ++ [x]).map Stamped.char) (bs.map Stamped.char)) := by
  have h := finds_closed '\x22' .unterminatedString .bitStringLiteral (s.pushAll (as ++ [x])) bs
  have hbumps := gives_bumps s (as ++ [x]) bs
  rw [List.length_append] at hbumps
  rw [Scan.toList_pushAll] at h
  rw [List.append_cons as x bs]
  exact h.after hbumps

theorem finds_word (c : Char) (s : Scan) (xs : List Stamped) (hs : s.text.toList = [c]) :
    Finds (word s) s xs (Lexeme.word c (xs.map Stamped.char)) := by
  obtain ⟨htake, hdrop⟩ := takeWhile_map_char Stamped.isWordPart_eq xs
  have htext := Scan.toList_pushAll s (xs.takeWhile Stamped.isWordPart)
  rw [hs] at htext
  rw [Lexeme.word, htake, hdrop]
  refine Finds.bumpWhile (Finds.ask ?_ ((gives_isAt _ 0 (by decide) _).and fun _ => gives_pure _ _))
  cases hrest : xs.dropWhile Stamped.isWordPart with
  | nil => exact finds_ok (l := ⟨_, _, _⟩) (by simp [htext]) rfl
  | cons y ys =>
    have hquote : (y.char = '\x22' ∧ Lexeme.isBase (c :: (xs.takeWhile Stamped.isWordPart).map
        Stamped.char) = true) ↔ ((y :: ys)[0]?.map Stamped.char == some '\x22' &&
          Lexeme.isBase (s.pushAll (xs.takeWhile Stamped.isWordPart)).text.toList) = true := by
      simp [htext]
    rw [List.map_cons]
    simp only [hquote]
    split
    · have := finds_bitString (s.pushAll (xs.takeWhile Stamped.isWordPart)) [] ys y
      rwa [htext] at this
    · exact finds_ok (l := ⟨_, _, _⟩) (by simp [htext]) rfl

theorem finds_basedEnd (kind : TokenKind) (s : Scan) (xs : List Stamped) :
    Finds (basedEnd kind s) s xs
      (match xs.map Stamped.char with
        | [] => .error .unterminatedBasedLiteral
        | d :: ds =>
          if d = '#' then .ok (Lexeme.withExponent kind (s.text.toList ++ [d]) ds)
          else .error .unterminatedBasedLiteral) := by
  refine Finds.ask ?_ (gives_isAt xs 0 (by decide) '#')
  cases xs with
  | nil => exact finds_error s [] _
  | cons x xs =>
    by_cases hx : x.char = '#'
    · have := finds_withExponent kind (s.push x) xs
      rw [Scan.toList_push] at this
      simpa [hx] using this.bump
    · simpa [hx] using finds_error s (x :: xs) .unterminatedBasedLiteral

theorem finds_based (s : Scan) (xs : List Stamped) :
    Finds (based s) s xs (Lexeme.based s.text.toList (xs.map Stamped.char)) := by
  obtain ⟨htake, hdrop⟩ := takeWhile_map_char Stamped.isWordPart_eq xs
  rw [Lexeme.based, htake, hdrop, ← Scan.toList_pushAll]
  refine Finds.bumpWhile (Finds.ask ?_ (gives_isAt _ 0 (by decide) '.'))
  generalize s.pushAll (xs.takeWhile Stamped.isWordPart) = s
  cases xs.dropWhile Stamped.isWordPart with
  | nil => exact finds_basedEnd .integerLiteral s []
  | cons y ys =>
    by_cases hy : y.char = '.'
    · have hend := finds_basedEnd .realLiteral
        ((s.push y).pushAll (ys.takeWhile Stamped.isWordPart)) (ys.dropWhile Stamped.isWordPart)
      have := Finds.bump (s := s) (x := y)
        (f := fun s => bumpWhile Stamped.isWordPart s >>= basedEnd .realLiteral) hend.bumpWhile
      obtain ⟨htake, hdrop⟩ := takeWhile_map_char Stamped.isWordPart_eq ys
      cases hrest : ys.dropWhile Stamped.isWordPart with
      | nil => simpa [hy, hdrop, hrest] using this
      | cons z zs => simpa [hy, htake, hdrop, hrest, Scan.toList_pushAll] using this
    · have := finds_basedEnd .integerLiteral s (y :: ys)
      simpa [hy] using this

theorem gives_isBaseNext_one (x : Stamped) (xs : List Stamped) :
    Gives (isBaseNext 1) (x :: xs)
      (xs[0]?.map Stamped.char == some '\x22' && Lexeme.isBase [x.char]) (x :: xs) := by
  refine (gives_isAt (x :: xs) 1 (by decide) '\x22').bind ?_
  rw [List.getElem?_cons_succ]
  cases xs[0]?.map Stamped.char == some '\x22' with
  | false => exact gives_pure _ _
  | true =>
    refine Gives.bind (a := [some x.char]) ?_ (gives_pure _ _)
    simpa [List.range_succ] using (gives_peek (x :: xs) 0 (by decide)).map fun a => [a]

theorem gives_isBaseNext_two (x y : Stamped) (xs : List Stamped) :
    Gives (isBaseNext 2) (x :: y :: xs)
      (xs[0]?.map Stamped.char == some '\x22' && Lexeme.isBase [x.char, y.char]) (x :: y :: xs) := by
  refine (gives_isAt (x :: y :: xs) 2 (by decide) '\x22').bind ?_
  rw [List.getElem?_cons_succ, List.getElem?_cons_succ]
  cases xs[0]?.map Stamped.char == some '\x22' with
  | false => exact gives_pure _ _
  | true =>
    refine Gives.bind (a := [some x.char, some y.char]) ?_ (gives_pure _ _)
    have := (gives_peek (x :: y :: xs) 0 (by decide)).bind
      (g := fun a => (fun b => [a, b]) <$> peek (Nat.toUInt64 1))
      ((gives_peek (x :: y :: xs) 1 (by decide)).map _)
    simpa [List.range_succ] using this

theorem finds_sized_nil (s : Scan) :
    Finds (sized s) s [] (.ok ⟨.integerLiteral, s.text.toList, []⟩) := by
  have hone : Gives (isBaseNext 1) [] false [] :=
    (gives_isAt [] 1 (by decide) '\x22').bind (gives_pure _ _)
  have htwo : Gives (isBaseNext 2) [] false [] :=
    (gives_isAt [] 2 (by decide) '\x22').bind (gives_pure _ _)
  refine Finds.ask (Finds.ask ?_ htwo) hone
  simpa [Lexeme.withExponent, Lexeme.exponent] using finds_withExponent .integerLiteral s []

theorem finds_sized (s : Scan) (x : Stamped) (xs : List Stamped) :
    Finds (sized s) s (x :: xs)
      (match Lexeme.bitStringStart? (x.char :: xs.map Stamped.char) with
        | some (start, rest) => Lexeme.bitString (s.text.toList ++ start) rest
        | none => .ok (Lexeme.withExponent .integerLiteral s.text.toList
            (x.char :: xs.map Stamped.char))) := by
  refine Finds.ask ?_ (gives_isBaseNext_one x xs)
  cases xs with
  | nil =>
    have hshort : Gives (isBaseNext 2) [x] false [x] :=
      (gives_isAt [x] 2 (by decide) '\x22').bind (gives_pure _ _)
    refine Finds.ask ?_ hshort
    exact finds_withExponent .integerLiteral s [x]
  | cons y ys =>
    by_cases h₁ : y.char = '\x22' ∧ Lexeme.isBase [x.char] = true
    · simpa [Lexeme.bitStringStart?, h₁] using finds_bitString s [x] ys y
    · have h₁' : ((y :: ys)[0]?.map Stamped.char == some '\x22' && Lexeme.isBase [x.char]) =
          false := by simpa using h₁
      rw [h₁', List.map_cons]
      simp only [Lexeme.bitStringStart?, if_neg h₁]
      refine Finds.ask ?_ (gives_isBaseNext_two x y ys)
      cases ys with
      | nil => exact finds_withExponent .integerLiteral s [x, y]
      | cons z zs =>
        by_cases h₂ : z.char = '\x22' ∧ Lexeme.isBase [x.char, y.char] = true
        · simpa [h₂] using finds_bitString s [x, y] zs z
        · simpa [h₂] using finds_withExponent .integerLiteral s (x :: y :: z :: zs)

theorem finds_number (c : Char) (s : Scan) (xs : List Stamped) (hs : s.text.toList = [c]) :
    Finds (number s) s xs (Lexeme.number c (xs.map Stamped.char)) := by
  obtain ⟨htake, hdrop⟩ := takeWhile_map_char Stamped.isFigure_eq xs
  have htext := Scan.toList_pushAll s (xs.takeWhile Stamped.isFigure)
  rw [hs, List.singleton_append] at htext
  rw [Lexeme.number, htake, hdrop, ← htext]
  refine Finds.bumpWhile (Finds.ask ?_ (gives_isAt _ 0 (by decide) '#'))
  generalize s.pushAll (xs.takeWhile Stamped.isFigure) = s
  cases xs.dropWhile Stamped.isFigure with
  | nil =>
    refine Finds.ask ?_ ((gives_isAt [] 0 (by decide) '.').and fun _ =>
      gives_isOf [] 1 (by decide) .digit)
    exact finds_sized_nil s
  | cons y ys =>
    by_cases hbase : y.char = '#'
    · have := Finds.bump (s := s) (x := y) (f := based) (finds_based _ ys)
      simpa [hbase] using this
    · have hask : Gives _ (y :: ys) _ (y :: ys) :=
        (gives_isAt (y :: ys) 0 (by decide) '.').and fun _ =>
          gives_isOf (y :: ys) 1 (by decide) .digit
      rw [List.getElem?_cons_succ, ← startsWithDigit_map] at hask
      rw [if_neg (by simpa using hbase)]
      refine Finds.ask ?_ hask
      by_cases hpoint : y.char = '.' ∧ Lexeme.startsWithDigit (ys.map Stamped.char) = true
      · have := Finds.bump (s := s) (x := y) (f := fraction) (finds_fraction _ ys)
        simpa [hpoint] using this
      · rw [if_neg (by simpa using hpoint), List.map_cons]
        simp only [if_neg hbase, if_neg hpoint]
        exact finds_sized s y ys

/-! ## Symbols, comments and the rest -/

theorem gives_triple? (c : Char) (xs : List Stamped) :
    Gives (triple? c) xs ((xs[0]?.map Stamped.char).bind fun d =>
      (xs[1]?.map Stamped.char).bind fun e => Compound.ofTriple? c d e) xs :=
  (gives_peek xs 0 (by decide)).bind ((gives_peek xs 1 (by decide)).bind (gives_pure _ _))

theorem gives_pair? (c : Char) (xs : List Stamped) :
    Gives (pair? c) xs ((xs[0]?.map Stamped.char).bind fun d => Compound.ofPair? c d) xs :=
  (gives_peek xs 0 (by decide)).bind (gives_pure _ _)

theorem finds_pair (c : Char) (s : Scan) (xs : List Stamped) (hs : s.text.toList = [c]) :
    Finds (pair c s) s xs
      (match Lexeme.pair? c (xs.map Stamped.char) with
        | some l => .ok l
        | none => if isPunctuation c then .ok ⟨.character c, [c], xs.map Stamped.char⟩
          else .error (.illegalCharacter c)) := by
  refine Finds.ask ?_ (gives_pair? c xs)
  have hnone : Finds (if isPunctuation c = true then pure (.ok (s.finish (.character c)))
      else pure (.error (s.fail (.illegalCharacter c)))) s xs
      (if isPunctuation c then .ok ⟨.character c, [c], xs.map Stamped.char⟩
        else .error (.illegalCharacter c)) := by
    split
    · exact finds_ok (l := ⟨_, _, _⟩) hs.symm rfl
    · exact finds_error s xs _
  cases xs with
  | nil => exact hnone
  | cons x xs =>
    cases hp : Compound.ofPair? c x.char with
    | none => simpa [Lexeme.pair?, hp] using hnone
    | some f =>
      have hpush : (s.push x).text.toList = [c, x.char] := by simp [hs]
      have hfinds : Finds (pure (.ok ((s.push x).finish (.compound f)))) (s.push x) xs
          (.ok ⟨.compound f, [c, x.char], xs.map Stamped.char⟩) := finds_ok hpush.symm rfl
      have := hfinds.bump (f := fun s => pure (.ok (s.finish (.compound f))))
      simpa [Lexeme.pair?, hp] using this

theorem finds_symbol (c : Char) (s : Scan) (xs : List Stamped) (hs : s.text.toList = [c]) :
    Finds (symbol c s) s xs (Lexeme.symbol c (xs.map Stamped.char)) := by
  refine Finds.ask ?_ (gives_triple? c xs)
  have hnone : Finds (incomplete c s) s xs
      (if c = '?' ∧ (xs.map Stamped.char).head? = some '/' then .error .incompleteOperator
        else match Lexeme.pair? c (xs.map Stamped.char) with
          | some l => .ok l
          | none => if isPunctuation c then .ok ⟨.character c, [c], xs.map Stamped.char⟩
            else .error (.illegalCharacter c)) := by
    refine Finds.ask ?_ ((gives_pure (c == '?') xs).and fun _ => gives_isAt xs 0 (by decide) '/')
    by_cases h : c = '?' ∧ (xs.map Stamped.char).head? = some '/'
    · obtain ⟨x, ys, rfl⟩ : ∃ x ys, xs = x :: ys := by
        cases xs with
        | nil => simp at h
        | cons x ys => exact ⟨x, ys, rfl⟩
      rw [if_pos h, if_pos (by simpa using h)]
      exact ⟨ys, (gives_bump s x ys).bind (gives_pure _ _)⟩
    · rw [if_neg h, if_neg (by simpa [List.head?_eq_getElem?] using h)]
      exact finds_pair c s xs hs
  match xs with
  | [] => exact hnone
  | [x] => exact hnone
  | x :: y :: ys =>
    cases ht : Compound.ofTriple? c x.char y.char with
    | none =>
      have hlist : Lexeme.triple? c ((x :: y :: ys).map Stamped.char) = none := by
        simp [Lexeme.triple?, ht]
      rw [Lexeme.symbol, hlist]
      simp only [List.getElem?_cons_zero, List.getElem?_cons_succ, Option.map_some,
        Option.bind_some, ht]
      exact hnone
    | some f =>
      have hpush : (s.pushAll [x, y]).text.toList = [c, x.char, y.char] := by simp [hs]
      have := Finds.after (s := s) (f := fun s => pure (.ok (s.finish (.compound f))))
        (finds_ok (l := ⟨_, _, _⟩) hpush.symm rfl) (gives_bumps s [x, y] ys)
      simpa [Lexeme.symbol, Lexeme.triple?, ht] using this

/-- A line feed is taken if it comes next. -/
theorem gives_lineFeed (s : Scan) (xs : List Stamped) : ∃ as bs, xs = as ++ bs ∧
    Lexeme.lineEnd ('\r' :: xs.map Stamped.char) =
      ('\r' :: as.map Stamped.char, bs.map Stamped.char) ∧
    Gives (lineFeed s) xs (s.pushAll as) bs := by
  have hask := gives_isAt xs 0 (by decide) '\n'
  cases xs with
  | nil => exact ⟨[], [], rfl, rfl, hask.bind (gives_pure _ _)⟩
  | cons x xs =>
    by_cases hx : x.char = '\n'
    · refine ⟨[x], xs, rfl, by simp [Lexeme.lineEnd, hx], hask.bind ?_⟩
      simpa [hx] using gives_bump s x xs
    · refine ⟨[], x :: xs, rfl, by simp [Lexeme.lineEnd, hx], hask.bind ?_⟩
      simpa [hx] using gives_pure _ _

/-- The end of a line is taken if it comes next. -/
theorem gives_lineEnd (s : Scan) (xs : List Stamped) : ∃ as bs, xs = as ++ bs ∧
    Lexeme.lineEnd (xs.map Stamped.char) = (as.map Stamped.char, bs.map Stamped.char) ∧
    Gives (lineEnd s) xs (s.pushAll as) bs := by
  have hask := gives_peek xs 0 (by decide)
  cases xs with
  | nil => exact ⟨[], [], rfl, rfl, hask.bind (gives_pure _ _)⟩
  | cons x xs =>
    by_cases hr : x.char = '\r'
    · obtain ⟨as, bs, rfl, hend, h⟩ := gives_lineFeed (s.push x) xs
      refine ⟨x :: as, bs, rfl, by simpa [hr] using hend, hask.bind ?_⟩
      simpa [hr] using (gives_bump s x (as ++ bs)).bind h
    · by_cases hn : x.char = '\n'
      · refine ⟨[x], xs, rfl, by simp [Lexeme.lineEnd, hn], hask.bind ?_⟩
        simpa [hn] using gives_bump s x xs
      · refine ⟨[], x :: xs, rfl, by simp [Lexeme.lineEnd, hr, hn], hask.bind ?_⟩
        simpa [hr, hn] using gives_pure _ _

theorem finds_singleLineComment (c : Char) (s : Scan) (xs : List Stamped)
    (hs : s.text.toList = [c]) :
    Finds (singleLineComment s) s xs (.ok (Lexeme.singleLineComment c (xs.map Stamped.char))) := by
  have hcategory : (fun x : Stamped => x.category != .linebreak) =
      (fun d => !isLineEnd d) ∘ Stamped.char := by
    funext x
    simp [bne, isLineEnd, x.isCategory, Bool.beq_eq_decide_eq]
  obtain ⟨htake, hdrop⟩ := takeWhile_map_char hcategory xs
  have htext := Scan.toList_pushAll s (xs.takeWhile fun x => x.category != .linebreak)
  rw [hs, List.singleton_append] at htext
  rw [Lexeme.singleLineComment, htake, hdrop]
  obtain ⟨as, bs, hrest, hend, h⟩ := gives_lineEnd
    (s.pushAll (xs.takeWhile fun x => x.category != .linebreak))
    (xs.dropWhile fun x => x.category != .linebreak)
  refine Finds.bumpWhile ⟨as, bs, hrest, ?_, ?_, h.bind (gives_pure _ _)⟩
  · simp [hend, htext]
  · simp [hend]

theorem finds_multiLineComment (c : Char) (s : Scan) (x : Stamped) (xs : List Stamped)
    (hs : s.text.toList = [c]) :
    Finds (multiLineComment s) s (x :: xs)
      (Lexeme.multiLineComment c (x.char :: xs.map Stamped.char)) := by
  have h := Takes.finds .multiLineComment (takes_commentBody (s.push x) xs)
  rw [Scan.toList_push, hs] at h
  exact h.bump (f := fun s => do
    return (← commentBody s).map (Scan.finish · .multiLineComment))

theorem finds_apostrophe (x : Lexeme.Context) (s : Scan) (xs : List Stamped)
    (hs : s.text.toList = ['\x27']) :
    Finds (apostrophe x s) s xs (.ok (Lexeme.apostrophe x '\x27' (xs.map Stamped.char))) := by
  have hask := (gives_pure (!x.afterName) xs).and fun _ =>
    (gives_isAt xs 1 (by decide) '\x27').and fun _ =>
      ((gives_isOf xs 0 (by decide) .linebreak).map not).and fun _ =>
        (gives_peek xs 0 (by decide)).bind (g := fun a => pure a.isSome) (gives_pure _ _)
  refine Finds.ask ?_ hask
  have hsingle : Finds (pure (.ok (s.finish (.character '\x27')))) s xs
      (.ok ⟨.character '\x27', ['\x27'], xs.map Stamped.char⟩) :=
    finds_ok (l := ⟨_, _, _⟩) hs.symm rfl
  match xs with
  | [] => simpa [Lexeme.apostrophe] using hsingle
  | [y] => simpa [Lexeme.apostrophe] using hsingle
  | y :: z :: zs =>
    have hend : y.category = .linebreak ↔ isLineEnd y.char = true := category_eq_linebreak y
    by_cases h : x.afterName = false ∧ z.char = '\x27' ∧ isLineEnd y.char = false
    · have hpush : (s.pushAll [y, z]).text.toList = ['\x27', y.char, z.char] := by simp [hs]
      have := Finds.after (s := s) (f := fun s => pure (.ok (s.finish .characterLiteral)))
        (finds_ok (l := ⟨_, _, _⟩) hpush.symm rfl) (gives_bumps s [y, z] zs)
      simpa [Lexeme.apostrophe, h, hend] using this
    · rw [if_neg (by simpa [← hend] using h)]
      simp only [List.map_cons, Lexeme.apostrophe]
      rw [if_neg (by simpa using h)]
      exact hsingle

/-- A lexeme that starts with a special character is found. -/
theorem finds_special (x : Lexeme.Context) (c : Char) (s : Scan) (xs : List Stamped)
    (hs : s.text.toList = [c]) :
    Finds (special x c s) s xs (Lexeme.special x c (xs.map Stamped.char)) := by
  have hafter : ∀ a d, Gives (pure (c == a) <&&> isAt 0 d) xs
      (c == a && xs[0]?.map Stamped.char == some d) xs := fun a d =>
    (gives_pure (c == a) xs).and fun _ => gives_isAt xs 0 (by decide) d
  have hafter_iff : ∀ a d, (c == a && xs[0]?.map Stamped.char == some d) = true ↔
      c = a ∧ (xs.map Stamped.char).head? = some d := fun a d => by
    simp [List.head?_eq_getElem?]
  refine Finds.ite ((gives_pure (c == '.') xs).and fun _ => gives_isOf xs 0 (by decide) .digit)
    (by simp [startsWithDigit_map]) (fun _ => ?_) fun _ => ?_
  · have := finds_fraction s xs
    rwa [hs] at this
  refine Finds.ite (hafter '-' '-') (hafter_iff '-' '-') (fun _ => ?_) fun _ => ?_
  · exact finds_singleLineComment c s xs hs
  refine Finds.ite (hafter '/' '*') (hafter_iff '/' '*') (fun h => ?_) fun _ => ?_
  · cases xs with
    | nil => simp at h
    | cons y ys => exact finds_multiLineComment c s y ys hs
  have hclosed := fun q fault kind => finds_closed q fault kind s xs
  rw [hs] at hclosed
  split
  · rename_i h
    obtain rfl := h
    have := hclosed '\x22' .unterminatedString .stringLiteral
    cases hd : Lexeme.delimited? '\x22' (xs.map Stamped.char) <;> simpa [hd] using this
  split
  · rename_i h
    obtain rfl := h
    exact finds_apostrophe x s xs hs
  split
  · rename_i h
    obtain rfl := h
    have := hclosed '\x5c' .unterminatedExtendedIdentifier .extendedIdentifier
    cases hd : Lexeme.delimited? '\x5c' (xs.map Stamped.char) <;> simpa [hd] using this
  · exact finds_symbol c s xs hs

/-- **Scanning through a buffer is scanning a list**: behind the character `c`, the buffered scanner
finds the lexeme that the list of the characters to come starts with. -/
theorem finds_scan (x : Lexeme.Context) (c : Stamped) (xs : List Stamped) :
    Finds (scan x c) (.start c) xs (Lexeme.scan x c.char (xs.map Stamped.char)) := by
  have hs : (Scan.start c).text.toList = [c.char] := by simp [Scan.start]
  unfold scan Lexeme.scan
  by_cases hr : c.char = '\r'
  · obtain ⟨as, bs, rfl, hend, h⟩ := gives_lineFeed (.start c) xs
    have hcategory : Category.ofChar '\r' = .linebreak := by decide
    rw [if_pos hr, hr, hcategory]
    dsimp only
    rw [hend]
    exact ⟨as, bs, rfl, by rw [hs, hr]; rfl, rfl, h.bind (gives_pure _ _)⟩
  · rw [if_neg hr, ← c.isCategory]
    cases hc : c.category with
    | linebreak =>
      have hn : c.char = '\n' := by
        rw [c.isCategory, Category.ofChar] at hc
        grind
      exact finds_ok (l := ⟨_, _, _⟩) (by rw [hs, hn]; rfl) (by rw [hn]; rfl)
    | space =>
      obtain ⟨htake, hdrop⟩ := takeWhile_map_char (p := fun x => x.category = .space)
        (q := isSpace) (by funext x; simp [isSpace, x.isCategory]) xs
      have htext := Scan.toList_pushAll (.start c) (xs.takeWhile fun x => x.category = .space)
      rw [hs] at htext
      rw [htake, hdrop]
      exact Finds.bumpWhile (finds_ok (l := ⟨_, _, _⟩) htext.symm rfl)
    | letter => exact finds_word c.char _ xs hs
    | digit => exact finds_number c.char _ xs hs
    | special => exact finds_special x c.char _ xs hs
    | other => exact finds_error _ xs _

end Scanner

end VhdlOutline
