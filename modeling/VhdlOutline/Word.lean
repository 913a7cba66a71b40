/-!
# Machine words

Lines, columns, byte offsets and counts are kept in machine words. Where a result does not fit its
word, there is none, and the computation it belongs to stops.

* `Word.succ32?` and `Word.succ64?` count on by one, without a sign, and `Word.pred32?` back.
* `Word.add32?` and `Word.add64?` add a number to a word with a sign.
-/

namespace VhdlOutline.Word

/-- The number after `n`, in 32 bits. -/
def succ32? (n : UInt32) : Option UInt32 :=
  if n.toNat + 1 < UInt32.size then some (n + 1) else none

/-- The number after `n`, in 64 bits. -/
def succ64? (n : UInt64) : Option UInt64 :=
  if n.toNat + 1 < UInt64.size then some (n + 1) else none

/-- The number before `n`, in 32 bits. -/
def pred32? (n : UInt32) : Option UInt32 := if n = 0 then none else some (n - 1)

/-- The sum of `n` and `d`, in 32 bits with a sign. -/
def add32? (n : Int32) (d : Int) : Option Int32 :=
  if -2147483648 ≤ n.toInt + d ∧ n.toInt + d < 2147483648 then some (.ofInt (n.toInt + d))
  else none

/-- The sum of `n` and `d`, in 64 bits with a sign. -/
def add64? (n : Int64) (d : Int) : Option Int64 :=
  if -9223372036854775808 ≤ n.toInt + d ∧ n.toInt + d < 9223372036854775808 then
    some (.ofInt (n.toInt + d))
  else none

theorem succ32?_of_lt {n : UInt32} (h : n.toNat + 1 < UInt32.size) :
    ∃ m, succ32? n = some m ∧ m.toNat = n.toNat + 1 := by
  refine ⟨n + 1, if_pos h, ?_⟩
  rw [UInt32.toNat_add]
  exact Nat.mod_eq_of_lt h

theorem succ32?_eq_none {n : UInt32} (h : UInt32.size ≤ n.toNat + 1) : succ32? n = none :=
  if_neg (Nat.not_lt_of_le h)

theorem toNat_of_succ32? {n m : UInt32} (h : succ32? n = some m) : m.toNat = n.toNat + 1 := by
  rcases Nat.lt_or_ge (n.toNat + 1) UInt32.size with hlt | hge
  · obtain ⟨k, hk, hv⟩ := succ32?_of_lt hlt
    rw [hk] at h
    cases h
    exact hv
  · rw [succ32?_eq_none hge] at h
    cases h

theorem succ64?_of_lt {n : UInt64} (h : n.toNat + 1 < UInt64.size) :
    ∃ m, succ64? n = some m ∧ m.toNat = n.toNat + 1 := by
  refine ⟨n + 1, if_pos h, ?_⟩
  rw [UInt64.toNat_add]
  exact Nat.mod_eq_of_lt h

theorem succ64?_eq_none {n : UInt64} (h : UInt64.size ≤ n.toNat + 1) : succ64? n = none :=
  if_neg (Nat.not_lt_of_le h)

theorem add32?_of_bounds {n : Int32} {d : Int} (hlo : -2147483648 ≤ n.toInt + d)
    (hhi : n.toInt + d < 2147483648) : ∃ m, add32? n d = some m ∧ m.toInt = n.toInt + d :=
  ⟨.ofInt (n.toInt + d), if_pos ⟨hlo, hhi⟩, Int32.toInt_ofInt_of_le (by omega) (by omega)⟩

theorem add64?_of_bounds {n : Int64} {d : Int} (hlo : -9223372036854775808 ≤ n.toInt + d)
    (hhi : n.toInt + d < 9223372036854775808) : ∃ m, add64? n d = some m ∧ m.toInt = n.toInt + d :=
  ⟨.ofInt (n.toInt + d), if_pos ⟨hlo, hhi⟩, Int64.toInt_ofInt_of_le (by omega) (by omega)⟩

end VhdlOutline.Word
