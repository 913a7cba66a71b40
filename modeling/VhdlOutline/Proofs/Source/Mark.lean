import VhdlOutline.Source.Cursor
import VhdlOutline.Source.Mark

/-!
# Marks are positions

As long as no count overflows, passing over a character in machine words leads to the same position
as passing over it in numbers. A bound on the characters passed bounds every count
(`Position.Within`).
-/

namespace VhdlOutline

/-- A place that `n` characters may lead to: each of them adds one to a line or column at most, and
four bytes at most. -/
structure Position.Within (p : Position) (n : Nat) : Prop where
  line : p.line ≤ n + 1
  column : p.column ≤ n + 1
  nonneg : 0 ≤ p.offset
  offset : p.offset ≤ 4 * n

namespace Position.Within

variable {p : Position} {n : Nat}

theorem start : Position.start.Within 0 := by constructor <;> decide

theorem advance (h : p.Within n) (c : Char) : (p.advance c).Within (n + 1) := by
  obtain ⟨hline, hcolumn, hnonneg, hoffset⟩ := h
  have := c.utf8Size_le_four
  unfold Position.advance
  split <;> constructor <;> dsimp only <;> omega

theorem advanceLine (h : p.Within n) : p.advanceLine.Within (n + 1) := by
  obtain ⟨hline, hcolumn, hnonneg, hoffset⟩ := h
  unfold Position.advanceLine
  constructor <;> dsimp only <;> omega

end Position.Within

namespace Mark

variable {m : Mark} {n : Nat}

@[simp] theorem position_start : start.position = .start := by decide

/-- A character is passed as long as the lines and columns after it fit 32 bits. -/
theorem advance?_eq (h : m.position.Within n) (hn : n + 2 < UInt32.size) (c : Char) :
    ∃ k, m.advance? c = some k ∧ k.position = m.position.advance c := by
  obtain ⟨hline, hcolumn, hnonneg, hoffset⟩ := h
  dsimp only [position] at hline hcolumn hnonneg hoffset
  have hsize : UInt32.size = 2 ^ 32 := rfl
  have hc := c.utf8Size_le_four
  obtain ⟨offset, ho, hov⟩ := Word.add64?_of_bounds (n := m.offset) (d := c.utf8Size)
    (by omega) (by omega)
  unfold advance? Position.advance
  rw [ho]
  split
  · obtain ⟨line, hl, hlv⟩ := Word.succ32?_of_lt (n := m.line) (by omega)
    refine ⟨⟨line, 1, offset⟩, ?_, ?_⟩
    · simp [hl]
    · simp [position, hlv, hov]
  · obtain ⟨column, hl, hlv⟩ := Word.succ32?_of_lt (n := m.column) (by omega)
    refine ⟨⟨m.line, column, offset⟩, ?_, ?_⟩
    · simp [hl]
    · simp [position, hlv, hov]

theorem advanceLine?_eq (h : m.position.Within n) (hn : n + 2 < UInt32.size) :
    ∃ k, m.advanceLine? = some k ∧ k.position = m.position.advanceLine := by
  obtain ⟨hline, -, hnonneg, hoffset⟩ := h
  dsimp only [position] at hline hnonneg hoffset
  have hsize : UInt32.size = 2 ^ 32 := rfl
  obtain ⟨line, hl, hlv⟩ := Word.succ32?_of_lt (n := m.line) (by omega)
  obtain ⟨offset, ho, hov⟩ := Word.add64?_of_bounds (n := m.offset) (d := 1) (by omega) (by omega)
  refine ⟨⟨line, 1, offset⟩, ?_, ?_⟩
  · simp [advanceLine?, hl, ho]
  · simp [position, Position.advanceLine, hlv, hov]

/-- A blank that is passed adds one to the column. -/
theorem column_of_advance? {k : Mark} (h : m.advance? ' ' = some k) :
    k.column.toNat = m.column.toNat + 1 := by
  simp only [advance?, Option.bind_eq_bind, Option.bind_eq_some_iff] at h
  obtain ⟨offset, -, h⟩ := h
  rw [if_neg (by decide), Option.bind_eq_some_iff] at h
  obtain ⟨column, hcolumn, hk⟩ := h
  cases hk
  exact Word.toNat_of_succ32? hcolumn

end Mark

end VhdlOutline
