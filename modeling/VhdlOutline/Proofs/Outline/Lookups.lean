import VhdlOutline.Proofs.Outline.Discipline

/-!
# What states look up

Some states rely on the construct or the list they belong to: the second word after `end` is read
only where there is one, the name of a type only in a list that admits types. Each of them is
reached only where what it looks up is there.

* `State.isGrounded` says that a state finds what it looks up, and `State.Allows.isGrounded` that
  every move leads from a grounded state to grounded states.
* `State.depth` is the number of open parentheses, which a token raises by one at most
  (`State.Allows.depth_take`, `State.Allows.depth_pass`).
-/

namespace VhdlOutline

/-- The construct of a statement part has such a part. -/
def Part.isGrounded : Part → Bool
  | .concurrent scope => scope.construct.begin?.map Prod.snd = some .concurrent
  | .sequential scope .plain =>
    scope.construct.begin?.map Prod.snd = some .sequential ∨ scope.construct = .loop
  | .sequential scope _ => scope.construct = .if_

/-- The state finds what it looks up. -/
def State.isGrounded : State → Bool
  | .declarations scope =>
    !scope.construct.items.isEmpty &&
      scope.construct.items.all fun k => (Outline.declarationState? k).isSome
  | .statements part _ | .target part _ _ | .assignment _ part _ => part.isGrounded
  | .end_ scope .afterFirstKeyword => scope.construct.secondKeyword?.isSome
  | .interface l .typeName | .interface l .afterTypeName => l.typeKind?.isSome
  | .interface l .closeSemicolon => l.endsWithSemicolon
  | .simple s .value | .simple s .end_ => s.expression?.isSome
  | .simple s (.afterKeyword true) => s.isLoopControl
  | .object o .afterShared => o = .sharedVariable
  | .process _ (.sensitivity depth) => 0 < depth
  | _ => true

/-- The number of open parentheses, in a state that counts them. -/
def State.depth : State → Nat
  | .function (.returnType _ depth _) | .process _ (.sensitivity depth)
  | .object _ (.subtype depth _) | .interface _ (.subtype depth _) | .expression _ depth _
  | .target _ _ (.rest depth) => depth
  | _ => 0

/-- Where a move leads. -/
def Move.next? : Move → Option Next
  | .take _ _ next | .pass _ next => some next
  | .finish => none

/-- Whatever states the machine goes on with, now and later, `p` holds of them. -/
def Next.All (p : State → Prop) : Next → Prop
  | .goto s => p s
  | .call resume sub => p resume ∧ p sub
  | .return_ => True

/-- The property holds of the current state and of all states on the stack. -/
def Control.All (p : State → Prop) (c : Control) : Prop := ∀ s ∈ c.state :: c.stack, p s

theorem Control.All.follow {p : State → Prop} {c c' : Control} {next : Next} (h : c.All p)
    (hn : next.All p) (hc : c.follow next = .ok c') : c'.All p := by
  obtain ⟨s, aside, stack⟩ := c
  have hstack : ∀ s ∈ stack, p s := fun s hs => h s (List.mem_cons_of_mem _ hs)
  cases next with
  | goto s' =>
    cases hc
    exact List.forall_mem_cons.2 ⟨hn, hstack⟩
  | call resume sub =>
    cases hc
    exact List.forall_mem_cons.2 ⟨hn.2, List.forall_mem_cons.2 ⟨hn.1, hstack⟩⟩
  | return_ =>
    cases stack with
    | nil => cases hc
    | cons s' stack =>
      cases hc
      exact hstack

theorem Next.All.mono {p q : State → Prop} {next : Next} (h : next.All p)
    (hpq : ∀ s, p s → q s) : next.All q := by
  cases next with
  | goto s => exact hpq s h
  | call resume sub => exact ⟨hpq resume h.1, hpq sub h.2⟩
  | return_ => trivial

theorem Control.All.mono {p q : State → Prop} {c : Control} (h : c.All p)
    (hpq : ∀ s, p s → q s) : c.All q :=
  fun s hs => hpq s (h s hs)

namespace State

theorem Allows.leads {s : State} {t : Token} {move : Move} {next : Next}
    (h : s.Allows t move) (hn : move.next? = some next) : s.Leads next := by
  cases move with
  | take =>
    cases hn
    exact h.leads_take
  | pass =>
    cases hn
    exact h.leads_pass
  | finish => cases hn

/-! ## Grounded states -/

theorem isGrounded_part {c : Construct} {kind : BlockKind} {rule : StatementRule}
    (h : c.begin? = some (kind, rule)) (name : Option String) :
    (rule.part ⟨c, name⟩).isGrounded = true := by
  cases rule <;> simp [StatementRule.part, Part.isGrounded, h]

theorem isGrounded_declarationState? {k : Keyword} {s : State}
    (h : Outline.declarationState? k = some s) : s.isGrounded = true := by
  unfold Outline.declarationState? at h
  split at h <;> cases h <;> rfl

theorem depth_pos_of_process {label : Option String} {depth depth' : Nat} {t : Token}
    (h : Outline.process label (.sensitivity depth) t =
      .take (.process label (.sensitivity depth'))) (hd : 0 < depth) : 0 < depth' := by
  simp only [Outline.process] at h
  split at h
  · cases h
    omega
  · split at h <;> cases h
    omega
  · cases h
  · cases h
  · cases h
    exact hd

/-- Every move leads from a grounded state to grounded states. -/
theorem Allows.isGrounded {s : State} {t : Token} {move : Move} {next : Next}
    (h : s.Allows t move) (hn : move.next? = some next) (hg : s.isGrounded = true) :
    next.All fun s => s.isGrounded = true := by
  cases h with
  | declaration _ _ hs =>
    cases hn
    exact ⟨hg, isGrounded_declarationState? hs⟩
  | declarationsBegin hb =>
    cases hn
    exact isGrounded_part hb _
  | processToken h =>
    cases hn
    simp only [State.isGrounded, decide_eq_true_eq] at hg
    exact decide_eq_true (depth_pos_of_process h hg)
  | documentEnd => cases hn
  | @objectKeyword _ o =>
    cases hn
    cases o <;> rfl
  | @simpleWhen _ s _ hs =>
    cases hn
    cases s <;> first | rfl | cases hs
  | _ =>
    cases hn
    first
    | rfl
    | trivial
    | simp_all [Next.All, State.isGrounded, Part.isGrounded]

/-! ## Open parentheses -/

theorem depth_le_of_subtypeStep {depth depth' : Nat} {t : Token}
    (h : Outline.subtypeStep depth t = .inside depth') : depth' ≤ depth + 1 := by
  unfold Outline.subtypeStep at h
  repeat' split at h
  all_goals cases h <;> omega

theorem depth_le_of_expressionToken {x : Expression} {depth depth' : Nat} {t : Token}
    (h : Outline.expressionToken x depth t = .take (.expression x depth' true)) :
    depth' ≤ depth + 1 := by
  unfold Outline.expressionToken at h
  repeat' split at h
  all_goals cases h <;> omega

theorem depth_le_of_targetRest {part : Part} {label : Option String} {depth depth' : Nat}
    {t : Token}
    (h : Outline.targetRest part label depth t = .take (.target part label (.rest depth'))) :
    depth' ≤ depth + 1 := by
  unfold Outline.targetRest at h
  repeat' split at h
  all_goals cases h <;> omega

theorem depth_le_of_process {label : Option String} {depth depth' : Nat} {t : Token}
    (h : Outline.process label (.sensitivity depth) t =
      .take (.process label (.sensitivity depth'))) : depth' ≤ depth + 1 := by
  simp only [Outline.process] at h
  repeat' split at h
  all_goals cases h <;> omega

theorem declarationState?_depth {k : Keyword} {s : State}
    (h : Outline.declarationState? k = some s) : s.depth = 0 := by
  unfold Outline.declarationState? at h
  split at h <;> cases h <;> rfl

/-- A token that is taken raises the depth by one at most. -/
theorem Allows.depth_take {s : State} {t : Token} {before closing : Option BlockKind} {next : Next}
    (h : s.Allows t (.take before closing next)) : next.All fun s' => s'.depth ≤ s.depth + 1 := by
  cases h with
  | functionType h => exact depth_le_of_subtypeStep h
  | objectType h => exact depth_le_of_subtypeStep h
  | interfaceSubtype h => exact depth_le_of_subtypeStep h
  | expressionToken h => exact depth_le_of_expressionToken h
  | targetToken h => exact depth_le_of_targetRest h
  | processToken h => exact depth_le_of_process h
  | @objectKeyword _ o => cases o <;> exact Nat.zero_le _
  | _ => simp [Next.All, depth, Outline.thenBranch]

/-- A token that is handed on does not raise the depth. -/
theorem Allows.depth_pass {s : State} {t : Token} {before : Option BlockKind} {next : Next}
    (h : s.Allows t (.pass before next)) : next.All fun s' => s'.depth ≤ s.depth := by
  cases h with
  | declaration _ _ hs => exact ⟨Nat.le_refl _, Nat.le_of_eq (declarationState?_depth hs)⟩
  | _ => simp [Next.All, depth]

end State

end VhdlOutline
