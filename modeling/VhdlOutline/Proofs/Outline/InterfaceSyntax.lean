import VhdlOutline.Proofs.Outline.Expressions

/-!
# The syntax of interface lists

Generic clauses, port clauses and parameter lists as trees: `InterfaceClause` and `InterfaceItem`
hold the tokens of a list by their parts. `IsOf` says which tokens the parts may be, `tokens` lists
them in order, and `blocks` are the blocks that are made of them.
-/

namespace VhdlOutline

/-! ## Tokens and their parentheses -/

/-- The token as it is read outside of expressions. -/
def Token.asRead (t : Token) : Token := { t with kind := t.settled }

/-- The tokens keep to `ok`, which is told how many parentheses are open before each token, and
leave none open. At first there are `depth` open. -/
def Nests (ok : Int → Token → Prop) (depth : Int) : List Token → Prop
  | [] => depth = 0
  | t :: ts => ok depth t ∧ Nests ok (depth + parenDepth [t]) ts

/-- The token may be part of a subtype in which `depth` parentheses are open. -/
def Token.IsOfSubtype (depth : Int) (t : Token) : Prop :=
  t.kind ≠ .endOfDocument ∧ ¬ t.isChar ';' ∧
    (depth = 0 → ¬ t.isChar ')' ∧ ¬ t.isCompound .varAssign ∧ ¬ (t.kind = .word ∧ t.isKeyword .is))

/-- The token may be part of a default expression in which `depth` parentheses are open. -/
def Token.IsOfDefault (depth : Int) (t : Token) : Prop :=
  t.kind ≠ .endOfDocument ∧ ¬ t.isChar ';' ∧ ¬ t.isCompound .varAssign ∧
    (depth = 0 → ¬ t.isChar ')')

/-- The token is the word of a mode. -/
def Token.IsMode (t : Token) : Prop := ∃ k ∈ InterfaceList.modes, t.isKeyword k

instance decNests (ok : Int → Token → Prop) [∀ depth t, Decidable (ok depth t)] (depth : Int) :
    (ts : List Token) → Decidable (Nests ok depth ts)
  | [] => inferInstanceAs (Decidable (depth = 0))
  | t :: ts =>
    have : Decidable (Nests ok (depth + parenDepth [t]) ts) := decNests ok _ ts
    inferInstanceAs (Decidable (ok depth t ∧ Nests ok (depth + parenDepth [t]) ts))

instance (depth : Int) (t : Token) : Decidable (t.IsOfSubtype depth) := by
  delta Token.IsOfSubtype
  infer_instance

instance (depth : Int) (t : Token) : Decidable (t.IsOfDefault depth) := by
  delta Token.IsOfDefault
  infer_instance

instance (t : Token) : Decidable t.IsMode := by
  delta Token.IsMode
  infer_instance

/-- The tokens are names with commas between them. -/
inductive IsNameList : List Token → Prop
  | single {n : Token} (h : n.isName) : IsNameList [n]
  | cons {n c : Token} {ns : List Token} (hn : n.isName) (hc : c.isChar ',') (h : IsNameList ns) :
      IsNameList (n :: c :: ns)

theorem isNameList_cons_cons {n c : Token} {ns : List Token} :
    IsNameList (n :: c :: ns) ↔ n.isName ∧ c.isChar ',' ∧ IsNameList ns := by
  refine ⟨fun h => ?_, fun ⟨hn, hc, h⟩ => .cons hn hc h⟩
  cases h with
  | cons hn hc h => exact ⟨hn, hc, h⟩

instance decIsNameList : (ns : List Token) → Decidable (IsNameList ns)
  | [] => isFalse nofun
  | [n] => decidable_of_iff n.isName
    ⟨.single, fun h => by cases h with | single h => exact h⟩
  | n :: c :: ns =>
    have := decIsNameList ns
    decidable_of_iff _ isNameList_cons_cons.symm

/-! ## Items and lists -/

/-- An item of an interface list. -/
inductive InterfaceItem
  /-- Objects, with the word for their class, the colon after their names, the word for their mode,
  and the default value with the symbol before it. -/
  | object (class_ : Option Token) (names : List Token) (colon : Token) (mode : Option Token)
      (subtype : List Token) (default_ : Option (Token × List Token))
  /-- A type, with the word before it. -/
  | type (word name : Token)

namespace InterfaceItem

/-- The parts are what an item of the list has. A word for a mode after the colon is the mode, so
the subtype of an item without a mode starts with no such word. -/
def IsOf (l : InterfaceList) : InterfaceItem → Prop
  | .object class_ names colon mode subtype default_ =>
    (∀ t ∈ class_, ∃ k ∈ l.classes, t.isKeyword k) ∧ IsNameList names ∧ colon.isChar ':' ∧
      (∀ t ∈ mode, t.IsMode) ∧ (mode = none → ∀ t ∈ subtype.head?, ¬ t.IsMode) ∧
      subtype ≠ [] ∧ Nests Token.IsOfSubtype 0 subtype ∧
      ∀ d ∈ default_, d.1.isCompound .varAssign ∧ d.2 ≠ [] ∧ Nests Token.IsOfDefault 0 d.2
  | .type word name => l.typeKind?.isSome ∧ word.isKeyword .type ∧ name.isName

instance (l : InterfaceList) (item : InterfaceItem) : Decidable (item.IsOf l) := by
  cases item <;> dsimp only [IsOf] <;> infer_instance

/-- The tokens of the item. -/
def tokens : InterfaceItem → List Token
  | .object class_ names colon mode subtype none =>
    class_.toList ++ names ++ colon :: (mode.toList ++ subtype)
  | .object class_ names colon mode subtype (some (assign, value)) =>
    class_.toList ++ names ++ colon :: (mode.toList ++ subtype) ++ assign :: value
  | .type word name => [word, name]

/-- The blocks that are made of the item. The symbol before a default value belongs to the first. -/
def blocks (l : InterfaceList) : InterfaceItem → List LogicalBlock
  | .object class_ names colon mode subtype none =>
    [⟨l.itemKind,
      (class_.toList ++ names ++ colon :: (mode.toList ++ subtype)).map Token.asRead⟩]
  | .object class_ names colon mode subtype (some (assign, value)) =>
    [⟨l.itemKind,
      (class_.toList ++ names ++ colon :: (mode.toList ++ subtype) ++ [assign]).map Token.asRead⟩,
      ⟨l.default_.kind, value.map Token.inExpression⟩]
  | .type word name => [⟨l.typeKind?.getD l.itemKind, [word, name].map Token.asRead⟩]

end InterfaceItem

/-- An interface list, with the semicolon before each of its items but the first. -/
structure InterfaceClause where
  keyword : Option Token
  opening : Token
  first : InterfaceItem
  others : List (Token × InterfaceItem)
  closing : Token
  semicolon : Option Token

namespace InterfaceClause

/-- The parts are what the list has. -/
@[mk_iff]
structure IsOf (l : InterfaceList) (c : InterfaceClause) : Prop where
  keyword_isSome : c.keyword.isSome = l.keyword?.isSome
  keyword : ∀ t ∈ c.keyword, ∀ k ∈ l.keyword?, t.isKeyword k
  opening : c.opening.isChar '('
  first : c.first.IsOf l
  others : ∀ p ∈ c.others, p.1.isChar ';' ∧ p.2.IsOf l
  closing : c.closing.isChar ')'
  semicolon_isSome : c.semicolon.isSome = l.endsWithSemicolon
  semicolon : ∀ t ∈ c.semicolon, t.isChar ';'

instance (l : InterfaceList) (c : InterfaceClause) : Decidable (c.IsOf l) :=
  decidable_of_iff _ (isOf_iff l c).symm

/-- The tokens of the list. -/
def tokens (c : InterfaceClause) : List Token :=
  c.keyword.toList ++ c.opening :: (c.first.tokens ++
    (c.others.flatMap fun p => p.1 :: p.2.tokens) ++ c.closing :: c.semicolon.toList)

/-- The blocks that are made of the list. -/
def blocks (l : InterfaceList) (c : InterfaceClause) : List LogicalBlock :=
  ⟨l.openKind, (c.keyword.toList ++ [c.opening]).map Token.asRead⟩ :: (c.first.blocks l ++
    (c.others.flatMap fun p => ⟨l.delimiterKind, [p.1.asRead]⟩ :: p.2.blocks l) ++
      [⟨l.closeKind, (c.closing :: c.semicolon.toList).map Token.asRead⟩])

end InterfaceClause

end VhdlOutline
