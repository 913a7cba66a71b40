import VhdlOutline.Proofs.Outline.Parts

/-!
# Ends and the blocks they belong to

The logical blocks of a document nest like brackets: the first line of a construct opens it, and its
`end` closes it. `pairing` matches them with a stack, and looks at nothing but the kinds of the
blocks. What a construct is called, and what stands after its `end`, is read off the tokens of the
two blocks: `Opened.name?` and `Completion.endName?`. Put together, `Opened.mismatch?` is the
mismatch of names that an end calls for, with no regard to how the blocks have been found.
-/

namespace VhdlOutline

/-! ## Names -/

/-- Whether two names are the same: letter by letter if one of them is an extended identifier, and
up to case otherwise. -/
def NamesMatch (a b : String) : Prop :=
  if a.toList.head? = some '\x5c' ∨ b.toList.head? = some '\x5c' then a = b
  else Text.lower a = Text.lower b

instance (a b : String) : Decidable (NamesMatch a b) :=
  inferInstanceAs (Decidable (ite _ _ _))

theorem sameName_eq (a b : String) : sameName a b = decide (NamesMatch a b) := by
  unfold sameName NamesMatch
  by_cases h : a.toList.head? = some '\x5c' ∨ b.toList.head? = some '\x5c'
  · simp only [if_pos h, Bool.or_eq_true, decide_eq_true_eq]
    exact beq_eq_decide a b
  · simp only [if_neg h, Bool.or_eq_true, decide_eq_true_eq]
    exact beq_eq_decide _ _

/-- The token is a designator: an identifier, or the string literal that names an operator. -/
def Token.isDesignator (t : Token) : Bool :=
  t.kind = .identifier || t.kind = .extendedIdentifier || t.kind = .stringLiteral

namespace Token

variable {t : Token}

theorem isSignificant_of_isDesignator (h : t.isDesignator = true) : t.isSignificant = true := by
  simp only [isDesignator, Bool.or_eq_true, decide_eq_true_eq] at h
  rcases h with (h | h) | h <;> simp [isSignificant, TokenKind.isTrivia, h]

theorem isDesignator_settled (h : t.isName || t.kind = .stringLiteral) :
    ({ t with kind := t.settled } : Token).isDesignator = true := by
  unfold isName at h
  unfold isDesignator settled
  split at h <;> simp_all

theorem not_isDesignator_of_keyword? {k : Keyword} (h : t.keyword? = some k) :
    ({ t with kind := t.settled } : Token).isDesignator = false := by
  unfold keyword? at h
  unfold isDesignator settled
  split at h <;> simp_all

theorem not_isDesignator_of_isKeyword {k : Keyword} (h : t.isKeyword k) :
    ({ t with kind := t.settled } : Token).isDesignator = false :=
  not_isDesignator_of_keyword? (of_decide_eq_true h)

theorem not_isDesignator_of_isChar {c : Char} (h : t.isChar c) :
    ({ t with kind := t.settled } : Token).isDesignator = false := by
  have hk : t.kind = .character c := of_decide_eq_true h
  simp [isDesignator, settled, hk]

end Token

/-- The label in front of a statement that begins with the given tokens. -/
def labelIn (ts : List Token) : Option String :=
  (ts.head?.filter Token.isDesignator).map Token.text

/-- The designators among the tokens. -/
def designatorsIn (ts : List Token) : List String :=
  (ts.filter Token.isDesignator).map Token.text

/-- A construct that is a statement is called by the label in front of it. -/
def Construct.isStatement : Construct → Bool
  | .process | .if_ | .loop => true
  | _ => false

/-- What a construct is called whose first block has the given tokens: a statement by its label, any
other construct by the first designator. -/
def Construct.nameIn (c : Construct) (ts : List Token) : Option String :=
  if c.isStatement then labelIn ts else (designatorsIn ts).head?

theorem designatorsIn_append (ts us : List Token) :
    designatorsIn (ts ++ us) = designatorsIn ts ++ designatorsIn us := by
  simp [designatorsIn]

theorem designatorsIn_singleton {t : Token} (h : t.isDesignator = true) :
    designatorsIn [t] = [t.text] := by
  simp [designatorsIn, h]

theorem designatorsIn_eq_nil {t : Token} (h : t.isDesignator = false) : designatorsIn [t] = [] := by
  simp [designatorsIn, h]

theorem labelIn_append_of_ne_nil {ts : List Token} (h : ts ≠ []) (us : List Token) :
    labelIn (ts ++ us) = labelIn ts := by
  rw [labelIn, List.head?_append_of_ne_nil _ h]
  rfl

theorem labelIn_append {t : Token} (h : t.isDesignator = false) (ts : List Token) :
    labelIn (ts ++ [t]) = labelIn ts := by
  cases ts with
  | nil => simp [labelIn, h]
  | cons => rfl

/-- A token that is no designator names nothing. -/
theorem Construct.nameIn_append {t : Token} (h : t.isDesignator = false) (c : Construct)
    (ts : List Token) : c.nameIn (ts ++ [t]) = c.nameIn ts := by
  rw [nameIn, nameIn, labelIn_append h, designatorsIn_append, designatorsIn_eq_nil h,
    List.append_nil]

/-! ## Names in completed blocks -/

theorem take_drop_eq_filterMap {α : Type} (l : List α) (a n : Nat) :
    (l.drop a).take n = (List.range' a n).filterMap (l[·]?) := by
  induction n generalizing a with
  | zero => simp
  | succ n ih =>
    rw [List.range'_succ, List.filterMap_cons, ← ih]
    by_cases ha : a < l.length
    · rw [List.drop_eq_getElem_cons ha, List.take_succ_cons, List.getElem?_eq_getElem ha]
    · rw [List.drop_eq_nil_of_le (by omega), List.drop_eq_nil_of_le (by omega),
        List.getElem?_eq_none (by omega)]
      simp

namespace Completion

variable {c : Completion} {ts : List Token}

/-- The numbers of the tokens of a completed block, without those between its parts. -/
def numbers (c : Completion) : List Nat :=
  c.pieces.flatMap fun f => List.range' f.first (f.last + 1 - f.first)

/-- Token number `i` as a name with its place, if it is a designator. -/
def designatorAt (ts : List Token) (i : Nat) : Option EndName :=
  (ts[i]?.filter Token.isDesignator).map fun t => ⟨t.text, i, t.first⟩

/-- The designators of a completed block, with their places. -/
def designators (c : Completion) (ts : List Token) : List EndName :=
  c.numbers.filterMap (designatorAt ts)

/-- The name that an end carries. -/
def endName? (c : Completion) (ts : List Token) : Option EndName := (c.designators ts).head?

theorem exists_of_designatorAt {i : Nat} {found : EndName} (h : designatorAt ts i = some found) :
    ∃ t, ts[i]? = some t ∧ t.isDesignator = true := by
  obtain ⟨t, ht, -⟩ := Option.map_eq_some_iff.1 h
  exact ⟨t, Option.filter_eq_some_iff.1 ht⟩

theorem designatorAt_append {i : Nat} {found : EndName} (h : designatorAt ts i = some found)
    (us : List Token) : designatorAt (ts ++ us) i = some found := by
  obtain ⟨t, ht, -⟩ := exists_of_designatorAt h
  have hi := (List.getElem?_eq_some_iff.1 ht).1
  rw [← h, designatorAt, designatorAt, List.getElem?_append_left hi]

theorem mem_numbers {i : Nat} :
    i ∈ c.numbers ↔ ∃ f ∈ c.pieces, f.first ≤ i ∧ i ≤ f.last := by
  simp only [numbers, List.mem_flatMap, List.mem_range'_1]
  refine exists_congr fun f => and_congr_right fun _ => ?_
  omega

theorem flatMap_tokensIn_eq (c : Completion) (ts : List Token) :
    c.pieces.flatMap (·.tokensIn ts) = c.numbers.filterMap (ts[·]?) := by
  rw [numbers, List.filterMap_flatMap, List.flatMap_def, List.flatMap_def]
  congr 1
  apply List.map_congr_left
  intro f _
  rw [Fragment.tokensIn, List.drop_take, take_drop_eq_filterMap]

/-- The designators of a block are those of its tokens. -/
theorem map_text_designators (c : Completion) (ts : List Token) :
    (c.designators ts).map EndName.text = designatorsIn (c.content ts) := by
  have hfilter : ∀ us : List Token,
      (significant us).filter Token.isDesignator = us.filter Token.isDesignator := by
    intro us
    rw [significant, List.filter_filter]
    apply List.filter_congr
    intro t _
    cases h : t.isDesignator with
    | false => rfl
    | true => simp [Token.isSignificant_of_isDesignator h]
  rw [designatorsIn, content, hfilter, flatMap_tokensIn_eq, designators, List.map_filterMap,
    List.filter_filterMap, List.map_filterMap]
  apply List.filterMap_congr
  intro i _
  simp [designatorAt]
  rfl

theorem Within.numbers_lt {n : Nat} (h : c.Within n) {i : Nat} (hi : i ∈ c.numbers) : i < n := by
  obtain ⟨f, hf, -, hle⟩ := mem_numbers.1 hi
  exact Nat.lt_of_le_of_lt hle (h f hf)

theorem Within.endName?_append (h : c.Within ts.length) (us : List Token) :
    c.endName? (ts ++ us) = c.endName? ts := by
  rw [endName?, endName?, designators, designators]
  congr 1
  apply List.filterMap_congr
  intro i hi
  rw [designatorAt, designatorAt, List.getElem?_append_left (h.numbers_lt hi)]

end Completion

/-! ## Brackets -/

/-- What a block means for the nesting of constructs. -/
inductive Bracket
  /-- It opens a construct, and the word that begins the body of a loop may be still to come. -/
  | opening (c : Construct) (awaitsBody : Bool)
  /-- It begins the body of a loop, and opens the loop if nothing has. -/
  | body
  /-- It is the end of a construct. -/
  | closing (c : Construct)
  /-- It ends a subprogram that has no body and no end. -/
  | dropping
  | inner
  deriving DecidableEq

def Bracket.isClosing : Bracket → Bool
  | .closing _ => true
  | _ => false

/-- The construct that a block opens, or may open. -/
def Bracket.opens? : Bracket → Option Construct
  | .opening c _ => some c
  | .body => some .loop
  | _ => none

/-- What a block of the kind means for the nesting of constructs. -/
def BlockKind.bracket : BlockKind → Bracket
  | .entityName => .opening .entity false
  | .architectureName => .opening .architecture false
  | .packageName => .opening .package false
  | .packageBodyName => .opening .packageBody false
  | .procedureName => .opening .procedure false
  | .functionName => .opening .function false
  | .processName => .opening .process false
  | .ifStart => .opening .if_ false
  | .forStart | .whileStart => .opening .loop true
  | .loopBegin => .body
  | .entityEnd => .closing .entity
  | .architectureEnd => .closing .architecture
  | .packageEnd => .closing .package
  | .packageBodyEnd => .closing .packageBody
  | .procedureEnd => .closing .procedure
  | .functionEnd => .closing .function
  | .processEnd => .closing .process
  | .ifEnd => .closing .if_
  | .loopEnd => .closing .loop
  | .procedureDeclarationEnd | .functionDeclarationEnd => .dropping
  | _ => .inner

@[simp] theorem Construct.bracket_endKind (c : Construct) : c.endKind.bracket = .closing c := by
  cases c <;> rfl

/-! The blocks of declarations, of statements without an end and of expressions stand inside
constructs. -/

@[simp] theorem Reference.bracket_kinds (r : Reference) :
    r.startKind.bracket = .inner ∧ r.nameKind.bracket = .inner ∧
      r.delimiterKind.bracket = .inner ∧ r.endKind.bracket = .inner := by
  cases r <;> exact ⟨rfl, rfl, rfl, rfl⟩

@[simp] theorem ObjectClass.bracket_kinds (o : ObjectClass) :
    o.declarationKind.bracket = .inner ∧ o.endKind.bracket = .inner := by
  cases o <;> exact ⟨rfl, rfl⟩

@[simp] theorem InterfaceList.bracket_kinds (l : InterfaceList) :
    l.openKind.bracket = .inner ∧ l.itemKind.bracket = .inner ∧
      (l.typeKind?.getD l.itemKind).bracket = .inner ∧ l.delimiterKind.bracket = .inner ∧
      l.closeKind.bracket = .inner := by
  cases l <;> exact ⟨rfl, rfl, rfl, rfl, rfl⟩

@[simp] theorem SimpleStatement.bracket_kinds (s : SimpleStatement) :
    s.startKind.bracket = .inner ∧ s.endKind.bracket = .inner := by
  cases s <;> exact ⟨rfl, rfl⟩

@[simp] theorem Assignment.bracket_kinds (a : Assignment) :
    a.startKind.bracket = .inner ∧ a.endKind.bracket = .inner := by
  cases a <;> exact ⟨rfl, rfl⟩

@[simp] theorem Expression.bracket_kind (x : Expression) : x.kind.bracket = .inner := by
  cases x <;> rfl

theorem Construct.bracket_beginKind {c : Construct} {kind : BlockKind} {rule : StatementRule}
    (h : c.begin? = some (kind, rule)) : kind.bracket = .inner := by
  cases c <;> cases h <;> rfl

/-- A construct that has been opened, with the block that has opened it. -/
structure Opened where
  construct : Construct
  block : Completion
  /-- Whether the word that begins the body of a loop is still to come. -/
  awaitsBody : Bool
  deriving DecidableEq

/-- What the construct is called, if it has a name or a label. -/
def Opened.name? (o : Opened) (ts : List Token) : Option String :=
  o.construct.nameIn (o.block.content ts)

/-- The mismatch of names that the end `e` of a construct calls for: it carries a name, and the
construct is called otherwise or has no name. -/
def Opened.mismatch? (o : Opened) (e : Completion) (ts : List Token) : Option NameMismatch :=
  (e.endName? ts).bind fun t =>
    if (o.name? ts).any (NamesMatch · t.text) then none
    else some {
      keyword := o.construct.keyword
      expected := o.name? ts
      found := t.text
      index := t.index
      position := t.position }

/-- The constructs that are open, innermost first, and each end so far with what it ends. -/
structure Pairing where
  opened : List Opened := []
  closed : List (Opened × Completion) := []
  deriving DecidableEq

namespace Pairing

/-- One more block. -/
def add (p : Pairing) (c : Completion) : Pairing :=
  match c.kind.bracket, p.opened with
  | .opening k awaitsBody, os => { p with opened := ⟨k, c, awaitsBody⟩ :: os }
  | .body, ⟨k, o, true⟩ :: os => { p with opened := ⟨k, o, false⟩ :: os }
  | .body, os => { p with opened := ⟨.loop, c, false⟩ :: os }
  | .closing _, o :: os => ⟨os, p.closed ++ [(o, c)]⟩
  | .dropping, _ :: os => { p with opened := os }
  | _, _ => p

/-- More blocks. -/
def addAll (p : Pairing) (cs : List Completion) : Pairing := cs.foldl add p

variable {p : Pairing} {c : Completion} {o : Opened} {os : List Opened}

theorem addAll_append (p : Pairing) (cs ds : List Completion) :
    p.addAll (cs ++ ds) = (p.addAll cs).addAll ds :=
  List.foldl_append

theorem addAll_singleton (p : Pairing) (c : Completion) : p.addAll [c] = p.add c := rfl

theorem add_opening {k : Construct} {awaitsBody : Bool}
    (h : c.kind.bracket = .opening k awaitsBody) :
    p.add c = { p with opened := ⟨k, c, awaitsBody⟩ :: p.opened } := by
  simp [add, h]

theorem add_body (h : c.kind.bracket = .body) (ho : p.opened = o :: os)
    (ha : o.awaitsBody = true) :
    p.add c = { p with opened := { o with awaitsBody := false } :: os } := by
  obtain ⟨k, b, a⟩ := o
  obtain rfl : a = true := ha
  simp [add, h, ho]

theorem add_loop (h : c.kind.bracket = .body) (ho : ∀ o ∈ p.opened, o.awaitsBody = false) :
    p.add c = { p with opened := ⟨.loop, c, false⟩ :: p.opened } := by
  unfold add
  rw [h]
  split <;> simp_all

theorem add_closing {k : Construct} (h : c.kind.bracket = .closing k) (ho : p.opened = o :: os) :
    p.add c = ⟨os, p.closed ++ [(o, c)]⟩ := by
  simp [add, h, ho]

theorem add_dropping (h : c.kind.bracket = .dropping) (ho : p.opened = o :: os) :
    p.add c = { p with opened := os } := by
  simp [add, h, ho]

theorem add_inner (h : c.kind.bracket = .inner) : p.add c = p := by
  simp [add, h]

theorem addAll_inner {cs : List Completion} (h : ∀ c ∈ cs, c.kind.bracket = .inner) :
    p.addAll cs = p := by
  induction cs with
  | nil => rfl
  | cons c cs ih =>
    rw [addAll, List.foldl_cons, add_inner (h c List.mem_cons_self)]
    exact ih fun c hc => h c (List.mem_cons_of_mem _ hc)

/-- What a pairing of the blocks `cs` holds: open constructs with the blocks that opened them, and
ends with constructs that were opened before. -/
structure IsOf (p : Pairing) (cs : List Completion) : Prop where
  opened : ∀ o ∈ p.opened, o.block ∈ cs ∧ o.block.kind.bracket.opens? = some o.construct
  closed : ∀ x ∈ p.closed,
    [x.1.block, x.2].Sublist cs ∧ x.1.block.kind.bracket.opens? = some x.1.construct

theorem IsOf.append {cs : List Completion} (h : p.IsOf cs) (ds : List Completion) :
    p.IsOf (cs ++ ds) where
  opened o ho := ⟨List.mem_append_left _ (h.opened o ho).1, (h.opened o ho).2⟩
  closed x hx := ⟨(h.closed x hx).1.trans (List.sublist_append_left ..), (h.closed x hx).2⟩

theorem IsOf.push {cs : List Completion} (h : p.IsOf cs) (hc : c ∈ cs) {k : Construct}
    (hk : c.kind.bracket.opens? = some k) (awaitsBody : Bool) :
    { p with opened := ⟨k, c, awaitsBody⟩ :: p.opened }.IsOf cs where
  opened := List.forall_mem_cons.2 ⟨⟨hc, hk⟩, h.opened⟩
  closed := h.closed

theorem IsOf.add {cs : List Completion} (h : p.IsOf cs) (c : Completion) :
    (p.add c).IsOf (cs ++ [c]) := by
  have hcs := h.append [c]
  have hc : c ∈ cs ++ [c] := List.mem_append_right _ (List.mem_singleton_self c)
  unfold Pairing.add
  split
  · rename_i hk
    exact hcs.push hc (by rw [hk]; rfl) _
  · rename_i k b os hk ho
    have := hcs.opened
    rw [ho] at this
    obtain ⟨htop, hos⟩ := List.forall_mem_cons.1 this
    exact ⟨List.forall_mem_cons.2 ⟨htop, hos⟩, hcs.closed⟩
  · rename_i hk _
    exact hcs.push hc (by rw [hk]; rfl) _
  · rename_i o os hk ho
    obtain ⟨htop, hos⟩ := List.forall_mem_cons.1 (ho ▸ h.opened)
    refine ⟨fun o' ho' => hcs.opened o' (by rw [ho]; exact List.mem_cons_of_mem _ ho'), ?_⟩
    refine List.forall_mem_append.2 ⟨hcs.closed, ?_⟩
    rintro x hx
    obtain rfl := List.mem_singleton.1 hx
    exact ⟨(List.singleton_sublist.2 htop.1).append (List.Sublist.refl [c]), htop.2⟩
  · rename_i o os hk ho
    exact ⟨fun o' ho' => hcs.opened o' (by rw [ho]; exact List.mem_cons_of_mem _ ho'), hcs.closed⟩
  · exact hcs

theorem IsOf.addAll {cs : List Completion} (h : p.IsOf cs) (ds : List Completion) :
    (p.addAll ds).IsOf (cs ++ ds) := by
  induction ds generalizing p cs with
  | nil =>
    rw [List.append_nil]
    exact h
  | cons d ds ih =>
    have := ih (h.add d)
    rw [List.append_assoc] at this
    exact this

end Pairing

/-- The blocks of a document, each end paired with the block that opened its construct. -/
def pairing (cs : List Completion) : Pairing := Pairing.addAll {} cs

theorem pairing_append (cs ds : List Completion) :
    pairing (cs ++ ds) = (pairing cs).addAll ds :=
  Pairing.addAll_append ..

/-- Every end is paired with a block before it that opens a construct, and every open construct has
such a block. -/
theorem pairing_isOf (cs : List Completion) : (pairing cs).IsOf cs := by
  have hstart : Pairing.IsOf {} [] := ⟨by simp, by simp⟩
  exact hstart.addAll cs

end VhdlOutline
