import VhdlOutline.Lexeme.Stamper
import VhdlOutline.Proofs.Source.Mark
import VhdlOutline.Proofs.Text.Lookahead

/-!
# A stamper follows a cursor

A stamper moves over a text as a cursor does, as long as its machine words do not overflow: for that
the text has to be shorter by two than there are numbers of 32 bits. Then it delivers each character
of the text at the place where the cursor meets it (`Stamper.exists_yields`).

The bound is exact: a line of blanks that is longer by one stops the stamper
(`Stamper.characters?_blanks`).
-/

namespace VhdlOutline

/-- A place that `n` characters may lead to. -/
inductive Cursor.Within : Cursor → Nat → Prop
  | plain {p : Position} {n : Nat} (h : p.Within n) : Within ⟨p, false⟩ n
  | afterReturn {p : Position} {n : Nat} (h : p.Within n) : Within ⟨p, true⟩ (n + 1)

/-- The characters stand where a cursor meets them that passes over them from `k` on. -/
inductive Cursor.Stamps : Cursor → List Stamped → Prop
  | nil (k : Cursor) : Stamps k []
  | cons {k : Cursor} {x : Stamped} {xs : List Stamped} (h : x.mark.position = k.stamp x.char)
      (hs : Stamps (k.advance x.char) xs) : Stamps k (x :: xs)

namespace Stamper

variable {s : Stamper} {n : Nat} {c : Char} {cs : List Char}

/-- The place of the stamper. -/
def cursor (s : Stamper) : Cursor := ⟨s.mark.position, s.afterReturn⟩

/-- The mark of a character means the position that the cursor gives it. -/
theorem stamp?_eq (h : s.cursor.Within n) (hn : n + 1 < UInt32.size) (c : Char) :
    ∃ m, s.stamp? c = some m ∧ m.position = s.cursor.stamp c ∧ m.position.Within n := by
  obtain ⟨rest, mark, afterReturn⟩ := s
  cases h with
  | plain h => exact ⟨mark, rfl, rfl, h⟩
  | afterReturn h =>
    by_cases hc : c = '\n'
    · obtain ⟨m, hm, hp⟩ := Mark.advance?_eq h hn '\r'
      refine ⟨m, by simp [stamp?, hc, hm], by simp [cursor, Cursor.stamp, hc, hp], ?_⟩
      exact hp ▸ h.advance '\r'
    · obtain ⟨m, hm, hp⟩ := Mark.advanceLine?_eq h hn
      refine ⟨m, by simp [stamp?, hc, hm], by simp [cursor, Cursor.stamp, hc, hp], ?_⟩
      exact hp ▸ h.advanceLine

/-- The next character is delivered with its mark, and passed as by the cursor. -/
theorem next?_cons (h : s.cursor.Within n) (hn : n + 2 < UInt32.size) (hs : s.rest = c :: cs) :
    ∃ m s', s.next? = some (some (.of c m), s') ∧ m.position = s.cursor.stamp c ∧ s'.rest = cs ∧
      s'.cursor = s.cursor.advance c ∧ s'.cursor.Within (n + 1) := by
  obtain ⟨m, hm, hp, hwithin⟩ := stamp?_eq h (by omega) c
  by_cases hc : c = '\r'
  · refine ⟨m, ⟨cs, m, true⟩, ?_, hp, rfl, ?_, .afterReturn hwithin⟩
    · subst hc
      simp [next?, hs, hm]
    · rw [Cursor.advance, if_pos hc, ← hp]
      rfl
  · obtain ⟨k, hk, hkp⟩ := Mark.advance?_eq hwithin hn c
    refine ⟨m, ⟨cs, k, false⟩, ?_, hp, rfl, ?_, .plain (hkp ▸ hwithin.advance c)⟩
    · simp [next?, hs, hm, hc, hk]
    · rw [Cursor.advance, if_neg hc, ← hp, ← hkp]
      rfl

theorem next?_nil (hs : s.rest = []) : s.next? = some (none, s) := by
  simp [next?, hs]

/-- The mark in the end means the position that the cursor gives. -/
theorem end?_eq (h : s.cursor.Within n) (hn : n + 1 < UInt32.size) :
    ∃ m, s.end? = some m ∧ m.position = s.cursor.endPosition := by
  obtain ⟨rest, mark, afterReturn⟩ := s
  cases h with
  | plain h => exact ⟨mark, rfl, rfl⟩
  | afterReturn h => exact Mark.advanceLine?_eq h hn

/-- **A stamper delivers its text**, each character where the cursor meets it, and then its mark is
that of the end of the text. -/
theorem exists_yields (h : s.cursor.Within n) (hn : n + s.rest.length + 1 < UInt32.size) :
    ∃ xs e, Text.Supply.Yields s xs e ∧ xs.map Stamped.char = s.rest ∧ s.cursor.Stamps xs ∧
      ∃ m, e.end? = some m ∧ m.position = (s.cursor.advanceAll s.rest).endPosition := by
  generalize hcs : s.rest = cs at hn
  induction cs generalizing s n with
  | nil => exact ⟨[], s, .nil (next?_nil hcs), rfl, .nil _, end?_eq h hn⟩
  | cons c cs ih =>
    rw [List.length_cons] at hn
    obtain ⟨m, s', hnext, hp, hrest, hcursor, hwithin⟩ := next?_cons h (by omega) hcs
    obtain ⟨xs, e, hyields, hchars, hstamps, hend⟩ := ih hwithin hrest (by omega)
    rw [hcursor] at hstamps hend
    exact ⟨.of c m :: xs, e, .cons hnext hyields, congrArg (c :: ·) hchars, .cons hp hstamps, hend⟩

/-- Driven through its text, a stamper delivers the characters of the text. -/
theorem characters?_eq (h : s.cursor.Within n) (hn : n + s.rest.length + 1 < UInt32.size) :
    s.characters? =
      some (charactersFrom s.cursor s.rest, (s.cursor.advanceAll s.rest).endPosition) := by
  generalize hcs : s.rest = cs at hn
  induction cs generalizing s n with
  | nil =>
    obtain ⟨m, hm, hp⟩ := end?_eq h hn
    rw [characters?, next?_nil hcs]
    simp [hm, hp, charactersFrom]
  | cons c cs ih =>
    rw [List.length_cons] at hn
    obtain ⟨m, s', hnext, hp, hrest, hcursor, hwithin⟩ := next?_cons h (by omega) hcs
    obtain ⟨after, hafter, hap⟩ := end?_eq hwithin (by omega)
    have hlater := ih hwithin hrest (by omega)
    rw [hcursor] at hap hlater
    rw [characters?, hnext]
    simp [hafter, hlater, charactersFrom, Stamped.of, hp, hap]

/-- Blanks that lead to a column out of range stop a stamper. -/
theorem characters?_blanks {m : Mark} (h : UInt32.size ≤ m.column.toNat + n) :
    characters? ⟨List.replicate n ' ', m, false⟩ = none := by
  induction n generalizing m with
  | zero => exact absurd m.column.toNat_lt (Nat.not_lt_of_le h)
  | succ n ih =>
    rw [characters?, List.replicate_succ]
    cases hm : m.advance? ' ' with
    | none => simp [next?, stamp?, hm]
    | some k =>
      have hlater := @ih k (by rw [Mark.column_of_advance? hm]; omega)
      simp [next?, stamp?, hm, end?, hlater]

end Stamper

end VhdlOutline
