import VhdlOutline.Proofs.Outline.Consistency
import VhdlOutline.Proofs.Outline.Headings
import VhdlOutline.Proofs.Outline.Trivia

/-!
# Names after `end` are checked exactly

The names that states carry, and the stack of states below them, agree with what the blocks say that
have been completed.

* `Machine.Carries`: what the current state carries is in the block under construction, and a name
  found after `end` stands where it was found.
* `Machine.Accounts`: the constructs of the states are those that the blocks so far have opened and
  not closed, and the warnings are the mismatches that their pairs call for.

Every turn keeps both. So the warnings of an outline are those that its paired blocks call for, each
once and in order (`outline_warnings`).
-/

namespace VhdlOutline

/-! ## Pairing the blocks of a move -/

/-- An open construct as states carry it. -/
def Opened.view (ts : List Token) (o : Opened) : Scope × Bool :=
  (⟨o.construct, o.name? ts⟩, o.awaitsBody)

/-- The mismatch that an end calls for, in terms of what states carry. -/
theorem Opened.mismatch?_eq {o : Opened} {e : Completion} {ts : List Token} {scope : Scope}
    {awaitsBody : Bool} (h : o.view ts = (scope, awaitsBody)) :
    o.mismatch? e ts = (e.endName? ts).bind scope.mismatch? := by
  obtain rfl : ⟨o.construct, o.name? ts⟩ = scope := congrArg Prod.fst h
  rw [mismatch?]
  congr 1
  funext t
  simp only [Scope.mismatch?, sameName_eq]

/-- The blocks that a move completes pair as the move nests. Only an end is paired. -/
theorem State.Nests.addAll {s : State} {ks : List BlockKind} {top rest : List (Scope × Bool)}
    (h : s.Nests ks top) {p : Pairing} {ds : List Completion} {ts : List Token}
    (hd : ds.map Completion.kind = ks)
    (hp : p.opened.map (·.view ts) = s.opened?.toList ++ rest)
    (hname : ∀ scope d, s.heading? = some scope → ds.head? = some d →
      scope.construct.nameIn (d.content ts) = scope.name)
    (hrest : s.isExpression = false → ∀ x ∈ rest, x.2 = false) :
    (p.addAll ds).opened.map (·.view ts) = top ++ rest ∧
    ((p.addAll ds).closed = p.closed ∧ (∀ d ∈ ds, d.kind.bracket.isClosing = false) ∨
      ∃ scope phase o e, s = .end_ scope phase ∧ ds = [e] ∧ e.kind = scope.construct.endKind ∧
        o.view ts = (scope, false) ∧ (p.addAll ds).closed = p.closed ++ [(o, e)]) := by
  cases h with
  | inner hk =>
    have hds : ∀ d ∈ ds, d.kind.bracket = .inner := fun d hmem =>
      hk _ (hd ▸ List.mem_map_of_mem hmem)
    rw [Pairing.addAll_inner hds]
    exact ⟨hp, .inl ⟨rfl, fun d hmem => by rw [hds d hmem]; rfl⟩⟩
  | @opening k scope awaitsBody ho hs hk =>
    obtain ⟨d, rfl, rfl⟩ := List.map_eq_singleton_iff.1 hd
    rw [Pairing.addAll_singleton, Pairing.add_opening hk]
    refine ⟨?_, .inl ⟨rfl, by simp [hk, Bracket.isClosing]⟩⟩
    rw [List.map_cons, hp, ho, Opened.view, Opened.name?, hname scope d hs rfl]
    rfl
  | declared ho hk hk' =>
    obtain ⟨d, _, rfl, rfl, hd'⟩ := List.map_eq_cons_iff.1 hd
    obtain ⟨d', rfl, rfl⟩ := List.map_eq_singleton_iff.1 hd'
    rw [← List.singleton_append, Pairing.addAll_append, Pairing.addAll_singleton,
      Pairing.addAll_singleton, Pairing.add_opening hk, Pairing.add_dropping hk' rfl]
    refine ⟨?_, .inl ⟨rfl, by simp [hk, hk', Bracket.isClosing]⟩⟩
    rw [hp, ho]
    rfl
  | @loop k scope ho hx hs hc hk =>
    obtain ⟨d, rfl, rfl⟩ := List.map_eq_singleton_iff.1 hd
    rw [ho, Option.toList_none, List.nil_append] at hp
    have hbody : ∀ o ∈ p.opened, o.awaitsBody = false := fun o hmem =>
      hrest hx (o.view ts) (hp ▸ List.mem_map_of_mem hmem)
    rw [Pairing.addAll_singleton, Pairing.add_loop hk hbody]
    refine ⟨?_, .inl ⟨rfl, by simp [hk, Bracket.isClosing]⟩⟩
    rw [List.map_cons, hp, Opened.view, Opened.name?, ← hc, hname scope d hs rfl]
    rfl
  | @body k scope ho hk =>
    obtain ⟨d, rfl, rfl⟩ := List.map_eq_singleton_iff.1 hd
    rw [ho, Option.toList_some, List.singleton_append] at hp
    obtain ⟨o, os, hopened, hview, hos⟩ := List.map_eq_cons_iff.1 hp
    have hscope : ⟨o.construct, o.name? ts⟩ = scope := congrArg Prod.fst hview
    have hawaits : o.awaitsBody = true := congrArg Prod.snd hview
    rw [Pairing.addAll_singleton, Pairing.add_body hk hopened hawaits]
    refine ⟨?_, .inl ⟨rfl, by simp [hk, Bracket.isClosing]⟩⟩
    rw [List.map_cons, hos, ← hscope]
    rfl
  | @closing scope phase hs =>
    obtain ⟨e, rfl, hkind⟩ := List.map_eq_singleton_iff.1 hd
    rw [hs] at hp
    obtain ⟨o, os, hopened, hview, hos⟩ := List.map_eq_cons_iff.1 hp
    have hk : e.kind.bracket = .closing scope.construct := by rw [hkind, Construct.bracket_endKind]
    rw [Pairing.addAll_singleton, Pairing.add_closing hk hopened]
    exact ⟨hos, .inr ⟨scope, phase, o, e, hs, rfl, hkind, hview, rfl⟩⟩
  | dropping ho hks hk =>
    obtain ⟨ds, ds', rfl, hds, hd'⟩ := List.map_eq_append_iff.1 hd
    obtain ⟨d, rfl, rfl⟩ := List.map_eq_singleton_iff.1 hd'
    obtain ⟨x, hx⟩ := Option.isSome_iff_exists.1 ho
    rw [hx] at hp
    obtain ⟨o, os, hopened, -, hos⟩ := List.map_eq_cons_iff.1 hp
    have hinner : ∀ d ∈ ds, d.kind.bracket = .inner := fun d hmem =>
      hks _ (hds ▸ List.mem_map_of_mem hmem)
    rw [Pairing.addAll_append, Pairing.addAll_inner hinner, Pairing.addAll_singleton,
      Pairing.add_dropping hk hopened]
    refine ⟨hos, .inl ⟨rfl, ?_⟩⟩
    intro d' hmem
    rcases List.mem_append.1 hmem with hmem | hmem
    · rw [hinner d' hmem]
      rfl
    · rw [List.mem_singleton.1 hmem, hk]
      rfl

/-! ## Where the name after `end` stands -/

namespace Sheet

variable {s : Sheet} {ts : List Token} {t : Token} {found : EndName}

/-- The name stands in the block under construction. -/
def Marks (s : Sheet) (ts : List Token) (found : EndName) : Prop :=
  Completion.designatorAt ts found.index = some found ∧
    (s.start ≤ found.index ∨ ∃ f ∈ s.pieces, f.first ≤ found.index ∧ found.index ≤ f.last)

theorem Marks.index_lt (h : s.Marks ts found) : found.index < ts.length := by
  obtain ⟨t, ht, -⟩ := Completion.exists_of_designatorAt h.1
  exact (List.getElem?_eq_some_iff.1 ht).1

theorem Marks.append (h : s.Marks ts found) (us : List Token) : s.Marks (ts ++ us) found :=
  ⟨Completion.designatorAt_append h.1 us, h.2⟩

/-- Blanks and comments of their own come after the name. -/
theorem Marks.closeAside (h : s.Marks ts found) (hs : s.start = ts.length) (kind : BlockKind)
    (us : List Token) : (s.closeAside kind).Marks (ts ++ us) found := by
  have hlt := h.index_lt
  obtain ⟨hat, hle | hpiece⟩ := h
  · omega
  · have hpieces : (s.closeAside kind).pieces = s.pieces := s.pieces_aside ..
    exact ⟨Completion.designatorAt_append hat us, .inr (hpieces ▸ hpiece)⟩

/-- An interruption moves the name to a fragment. -/
theorem Marks.interrupt (h : s.Marks ts found) (ht : s.tokens.toList = ts ++ [t]) :
    s.interrupt.Marks ts found := by
  have hi := index_eq ht
  have hlt := h.index_lt
  obtain ⟨hat, hplace⟩ := h
  refine ⟨hat, ?_⟩
  unfold Sheet.interrupt
  split
  · split
    · -- There are only spaces since the last fragment, and a name is none.
      rename_i hstart hspaces
      right
      show ∃ f ∈ (s.aside .whitespace s.start (s.index - 1)).pieces, _
      rw [pieces_aside]
      rcases hplace with hle | hpiece
      · obtain ⟨u, hu, hdes⟩ := Completion.exists_of_designatorAt hat
        have hmem : u ∈ s.tokens.range s.start (s.index - 1) := by
          rw [range_start ht hstart]
          apply List.mem_of_getElem? (i := found.index - s.start)
          rw [List.getElem?_drop, Nat.add_sub_of_le hle, hu]
        have hspace := List.all_eq_true.1 hspaces u hmem
        simp [Token.isDesignator, of_decide_eq_true hspace] at hdes
      · exact hpiece
    · right
      rcases hplace with hle | ⟨f, hf, hbetween⟩
      · exact ⟨⟨s.start, s.index - 1, none⟩, by simp [pieces], hle, by dsimp only; omega⟩
      · exact ⟨f, by simp_all [pieces], hbetween⟩
  · exact hplace

/-- The name at an end is the only designator of its block. -/
theorem Laid.endName?_close (h : s.Laid ts.length) (ht : s.tokens.toList = ts ++ [t])
    {phase : EndPhase} (hr : designatorsIn (s.pending ts) = (phase.found?.map EndName.text).toList)
    (hm : ∀ found, phase.found? = some found → s.Marks ts found) (kind : BlockKind) {t' : Token}
    (ht' : t'.isDesignator = false) :
    (s.closeCompletion kind).endName? (ts ++ [t']) = phase.found? := by
  have hsig : designatorsIn (significant [t']) = [] := by
    cases hk : t'.kind.isTrivia with
    | true => rw [significant_trivium hk]; rfl
    | false => rw [significant_singleton hk, designatorsIn_eq_nil ht']
  have htexts := (s.closeCompletion kind).map_text_designators (ts ++ [t'])
  rw [h.content_close ht, designatorsIn_append, hr, hsig, List.append_nil] at htexts
  rw [Completion.endName?]
  cases hfound : phase.found? with
  | none =>
    rw [hfound] at htexts
    rw [List.map_eq_nil_iff.1 htexts]
    rfl
  | some found =>
    rw [hfound] at htexts
    obtain ⟨x, hx, -⟩ := List.map_eq_singleton_iff.1 htexts
    obtain ⟨hat, hplace⟩ := hm found hfound
    have hlt := (hm found hfound).index_lt
    -- The name found is one of the designators, so it is the one.
    have hmem : found ∈ (s.closeCompletion kind).designators (ts ++ [t']) := by
      refine List.mem_filterMap.2 ⟨found.index, Completion.mem_numbers.2 ?_,
        Completion.designatorAt_append hat [t']⟩
      rw [pieces_closeCompletion]
      rcases hplace with hle | ⟨f, hf, hbetween⟩
      · refine ⟨_, List.mem_append_right _ (List.mem_singleton_self _), hle, ?_⟩
        rw [index_eq ht]
        exact Nat.le_of_lt hlt
      · exact ⟨f, List.mem_append_left _ hf, hbetween⟩
    rw [hx] at hmem ⊢
    rw [List.mem_singleton.1 hmem]
    rfl

end Sheet

/-! ## Turns -/

namespace Machine

variable {m m' : Machine} {ts : List Token} {t t' : Token} {cs ds : List Completion}

/-- The names that the current state carries are those of the block under construction. -/
structure Carries (m : Machine) (ts : List Token) : Prop where
  recites : m.control.state.Recites (m.sheet.pending ts)
  marks : ∀ scope found, m.control.state = .end_ scope (.afterName found) → m.sheet.Marks ts found

theorem carries_start (options : Options) : ({ options } : Machine).Carries [] where
  recites := nofun
  marks := nofun

/-- A name that has been taken at an end stands in the block under construction. -/
theorem Sound.marks_taking (h : m.Sound ts) (ht : m.sheet.tokens.toList = ts ++ [t])
    {before closing : Option BlockKind} {scope : Scope} {found : EndName} {note : Option Note}
    {x : Option NameMismatch} (hr : m.control.state.react m.sheet.index t =
      .ok ⟨.take before closing (.goto (.end_ scope (.afterName found))), note, x⟩) :
    (m.sheet.taking before closing (m.control.state.reading t)).Marks
      (ts ++ [{ t with kind := m.control.state.reading t }]) found := by
  have hi := Sheet.index_eq ht
  have hfound := State.eq_of_react_afterName hr
  rw [hi] at hfound
  obtain rfl := hfound
  have hallows := State.allows_of_react hr
  generalize m.control.state = s at hallows
  cases hallows with
  | endName hphase hname =>
    have hd := Token.isDesignator_settled hname
    refine ⟨?_, .inl h.laid.start_le⟩
    rcases hphase with rfl | rfl <;> simp [Completion.designatorAt, State.reading, hd]

/-- The name or label that a state carries stays the one in the block under construction. -/
theorem keptPending_recites : KeptPending State.Recites where
  pass hf hallows hc hclean h := State.recites_follow hf hc (hallows.recites_pass h hclean)
  take hf hallows hc hbegun h := State.recites_follow hf hc (hallows.recites_take h hbegun)
  region _ := nofun

theorem Carries.taken (h : m.Carries ts) (hs : m.Sound ts)
    (ht : m.sheet.tokens.toList = ts ++ [t]) (hm : Turn m t ds m' .taken)
    (ht' : m'.sheet.tokens.toList = ts ++ [t']) : m'.Carries (ts ++ [t']) := by
  refine ⟨keptPending_recites.taken hm hs ht ht' h.recites, fun scope found hstate => ?_⟩
  cases hm with
  | trivium htr haside hm =>
    rw [hm.sheet, Sheet.tokens_closeAside, ht] at ht'
    cases List.append_cancel_left ht'
    rw [hm.control] at hstate
    rw [hm.sheet]
    rcases haside with ha | happart
    · exact (h.marks scope found hstate).closeAside (hs.aside ha).1 _ _
    · rw [hstate] at happart
      cases happart
  | absorb htr _ _ hm =>
    rw [hm.sheet, ht] at ht'
    cases List.append_cancel_left ht'
    rw [hm.control] at hstate
    rw [hm.sheet]
    exact (h.marks scope found hstate).append _
  | finish _ _ hr hm =>
    obtain ⟨hregion, -⟩ := (State.allows_of_react hr).eq_documentRegion_of_finish
    rw [hm.control, hregion] at hstate
    cases hstate
  | take _ _ hr _ hc hm =>
    rw [hm.sheet, Sheet.toList_tokens_taking ht] at ht'
    cases List.append_cancel_left ht'
    rw [hm.control] at hstate
    rw [hm.sheet]
    obtain rfl := hs.fits.goto_of_end (State.allows_of_react hr) rfl hc hstate
    exact hs.marks_taking ht hr

theorem Carries.handedOn (h : m.Carries ts) (hs : m.Sound ts)
    (ht : m.sheet.tokens.toList = ts ++ [t]) (hm : Turn m t ds m' .handedOn) :
    m'.Carries ts := by
  refine ⟨keptPending_recites.handedOn hm hs ht h.recites, fun scope found hstate => ?_⟩
  cases hm with
  | resume _ _ hm =>
    rw [hm.control] at hstate
    rw [hm.sheet]
    exact h.marks scope found hstate
  | interrupt _ _ _ hm =>
    rw [hm.control] at hstate
    rw [hm.sheet]
    exact (h.marks scope found hstate).interrupt ht
  | pass _ _ hr hc hm =>
    have hallows := State.allows_of_react hr
    rw [hm.control] at hstate
    obtain rfl := hs.fits.goto_of_end hallows rfl hc hstate
    generalize m.control.state = s at hallows
    cases hallows

/-- The open constructs and the warnings are those that the blocks so far call for. -/
structure Accounts (m : Machine) (ts : List Token) (cs : List Completion) : Prop where
  within : ∀ c ∈ cs, c.Within ts.length
  opened : (pairing cs).opened.map (·.view ts) = m.control.opened
  warnings : m.warnings.toList = (pairing cs).closed.filterMap fun x => x.1.mismatch? x.2 ts
  ends : (pairing cs).closed.map Prod.snd = cs.filter (·.kind.bracket.isClosing)
  endKind : ∀ x ∈ (pairing cs).closed, x.2.kind = x.1.construct.endKind

theorem accounts_start (options : Options) : ({ options } : Machine).Accounts [] [] where
  within := by simp
  opened := rfl
  warnings := rfl
  ends := rfl
  endKind := by rintro _ ⟨⟩

/-- What the blocks so far say does not change with the tokens after them. -/
theorem Accounts.append (h : m.Accounts ts cs) (us : List Token) : m.Accounts (ts ++ us) cs := by
  have hof := pairing_isOf cs
  have hname : ∀ o : Opened, o.block ∈ cs → o.name? (ts ++ us) = o.name? ts := by
    intro o ho
    rw [Opened.name?, Opened.name?, (h.within _ ho).content_append]
  refine { h with
    within := fun c hc => (h.within c hc).mono (by simp)
    opened := ?_
    warnings := ?_ }
  · rw [← h.opened]
    apply List.map_congr_left
    intro o ho
    rw [Opened.view, Opened.view, hname o (hof.opened o ho).1]
  · rw [h.warnings]
    apply List.filterMap_congr
    rintro ⟨o, e⟩ hx
    obtain ⟨ho, he⟩ : o.block ∈ cs ∧ e ∈ cs := by
      have := (hof.closed _ hx).1.subset
      simpa using this
    rw [Opened.mismatch?, Opened.mismatch?, hname o ho, (h.within e he).endName?_append]

/-- Nothing changes while blanks and comments are dealt with. -/
theorem Accounts.of_eq (h : m.Accounts ts cs) (ho : m'.control.opened = m.control.opened)
    (hw : m'.warnings = m.warnings) : m'.Accounts ts (cs ++ []) := by
  rw [List.append_nil]
  exact { h with opened := h.opened.trans ho.symm, warnings := hw ▸ h.warnings }

/-- A move completes the blocks `ds`, and reports the mismatch `x`. -/
theorem Accounts.add (h : m.Accounts ts cs) (hf : State.Fits m.control.state m.control.stack)
    (hw : ∀ d ∈ ds, d.Within ts.length) {top : List (Scope × Bool)}
    (hn : m.control.state.Nests (ds.map Completion.kind) top)
    (hc : m'.control.opened = top ++ m.control.stack.filterMap State.opened?)
    (hname : ∀ scope d, m.control.state.heading? = some scope → ds.head? = some d →
      scope.construct.nameIn (d.content ts) = scope.name)
    {x : Option NameMismatch} (hwarn : m'.warnings = m.warnings ++ x.toArray)
    (hx : (∀ d ∈ ds, d.kind.bracket.isClosing = false) → x = none)
    (hend : ∀ scope phase (o : Opened) e, m.control.state = .end_ scope phase → ds = [e] →
      o.view ts = (scope, false) → x = o.mismatch? e ts) : m'.Accounts ts (cs ++ ds) := by
  have hp := h.opened
  rw [Control.opened_eq] at hp
  obtain ⟨hopened, hclosed⟩ := hn.addAll rfl hp hname hf.not_awaitsBody
  rw [← pairing_append] at hopened hclosed
  have hwithin := List.forall_mem_append.2 ⟨h.within, hw⟩
  rcases hclosed with ⟨hclosed, hds⟩ | ⟨scope, phase, o, e, hs, rfl, hkind, hview, hclosed⟩
  · refine ⟨hwithin, hopened.trans hc.symm, ?_, ?_, ?_⟩
    · rw [hwarn, hx hds, hclosed]
      simpa using h.warnings
    · have hnone : ds.filter (·.kind.bracket.isClosing) = [] :=
        List.filter_eq_nil_iff.2 (by simpa using hds)
      rw [hclosed, h.ends, List.filter_append, hnone, List.append_nil]
    · rw [hclosed]
      exact h.endKind
  · have hconstruct : o.construct = scope.construct := congrArg (·.1.construct) hview
    refine ⟨hwithin, hopened.trans hc.symm, ?_, ?_, ?_⟩
    · rw [hwarn, hclosed, List.filterMap_append, ← h.warnings, hend scope phase o e hs rfl hview]
      cases ho : o.mismatch? e ts <;> simp [ho]
    · rw [hclosed, List.map_append, h.ends, List.filter_append]
      simp [hkind, Bracket.isClosing]
    · rw [hclosed]
      refine List.forall_mem_append.2 ⟨h.endKind, ?_⟩
      simpa [hconstruct] using hkind

/-- A block that opens a construct, and ends before the current token, says its name. -/
theorem Carries.nameIn_cut (h : m.Carries ts) (ht : m.sheet.tokens.toList = ts ++ [t])
    {scope : Scope} (hs : m.control.state.heading? = some scope) (kind : BlockKind) :
    scope.construct.nameIn ((m.sheet.cutCompletion kind).content ts) = scope.name := by
  rw [Sheet.content_cut ht]
  exact State.recites_of_heading? h.recites hs

/-- A block that opens a construct says its name. -/
theorem Carries.nameIn_taking (h : m.Carries ts) (hs : m.Sound ts)
    (ht : m.sheet.tokens.toList = ts ++ [t]) {before closing : Option BlockKind} {next : Next}
    (hallows : m.control.state.Allows t (.take before closing next)) {scope : Scope}
    (hscope : m.control.state.heading? = some scope) {d : Completion}
    (hd : (m.sheet.completedBy (.take before closing next)).head? = some d) :
    scope.construct.nameIn (d.content (ts ++ [{ t with kind := m.control.state.reading t }])) =
      scope.name := by
  cases before with
  | some kind =>
    obtain rfl : m.sheet.cutCompletion kind = d := Option.some.inj hd
    rw [(hs.laid.within_cut ht kind).content_append]
    exact h.nameIn_cut ht hscope kind
  | none =>
    cases closing with
    | none => cases hd
    | some kind =>
      obtain rfl : m.sheet.closeCompletion kind = d := Option.some.inj hd
      have hdes := hallows.not_isDesignator_of_close hscope
      rw [hs.laid.content_close ht]
      cases hk : (m.control.state.reading t).isTrivia with
      | true =>
        rw [significant_trivium hk, List.append_nil]
        exact State.recites_of_heading? h.recites hscope
      | false =>
        rw [significant_singleton hk, Construct.nameIn_append hdes]
        exact State.recites_of_heading? h.recites hscope

/-- An end reports the mismatch that its block calls for. -/
theorem Carries.mismatch_eq (h : m.Carries ts) (hs : m.Sound ts)
    (ht : m.sheet.tokens.toList = ts ++ [t]) {before closing : Option BlockKind} {next : Next}
    {note : Option Note} {x : Option NameMismatch}
    (hr : m.control.state.react m.sheet.index t = .ok ⟨.take before closing next, note, x⟩)
    {scope : Scope} {phase : EndPhase} (hstate : m.control.state = .end_ scope phase)
    {e : Completion} (he : m.sheet.completedBy (.take before closing next) = [e]) {o : Opened}
    (ho : o.view (ts ++ [{ t with kind := m.control.state.reading t }]) = (scope, false)) :
    x = o.mismatch? e (ts ++ [{ t with kind := m.control.state.reading t }]) := by
  have hallows := State.allows_of_react hr
  have hrecites := h.recites
  have hmarks : ∀ found, phase.found? = some found → m.sheet.Marks ts found := by
    intro found hfound
    cases phase <;> cases hfound
    exact h.marks scope found hstate
  rw [hstate] at hr hallows hrecites ho ⊢
  cases hallows with
  | endSemicolon _ hsemi =>
    obtain rfl := List.singleton_inj.1 he
    have hname := hs.laid.endName?_close ht hrecites hmarks scope.construct.endKind
      (Token.not_isDesignator_of_isChar hsemi)
    rw [Opened.mismatch?_eq ho]
    exact (State.mismatch_of_react_end hr).trans (congrArg (·.bind scope.mismatch?) hname.symm)
  | _ => cases he

theorem Accounts.taken (h : m.Accounts ts cs) (hcarries : m.Carries ts) (hg : m.Regular ts)
    (hs : m.Sound ts) (ht : m.sheet.tokens.toList = ts ++ [t]) (hm : Turn m t ds m' .taken)
    (ht' : m'.sheet.tokens.toList = ts ++ [t']) : m'.Accounts (ts ++ [t']) (cs ++ ds) := by
  have hwithin := hm.within hs ht
  have happend := h.append [t']
  cases hm with
  | trivium _ _ hm | absorb _ _ _ hm =>
    exact happend.of_eq (by rw [hm.control]) hm.warnings
  | finish _ _ hr hm =>
    obtain ⟨hregion, -⟩ := (State.allows_of_react hr).eq_documentRegion_of_finish
    have hnests := @State.Nests.inner m.control.state
      ((m.sheet.completedBy .finish).map Completion.kind)
      (by simp [Sheet.completedBy, Sheet.closeCompletion, BlockKind.bracket])
    refine happend.add (x := none) hs.fits (by simpa using hwithin) hnests ?_ ?_
      (by simpa using hm.warnings) (fun _ => rfl) ?_
    · rw [hm.control, Control.opened_eq]
    · intro scope d hscope
      rw [hregion] at hscope
      cases hscope
    · intro scope phase o e hstate
      rw [hregion] at hstate
      cases hstate
  | @take _ before closing next note x c _ _ hr _ hc hm =>
    have hallows := State.allows_of_react hr
    have hnests := hallows.nests rfl (hg.grounded _ List.mem_cons_self)
    rw [← m.sheet.kinds_completedBy] at hnests
    rw [hm.sheet, Sheet.toList_tokens_taking ht] at ht'
    cases List.append_cancel_left ht'
    refine happend.add hs.fits (by simpa using hwithin) hnests ?_ ?_ hm.warnings ?_ ?_
    · rw [hm.control]
      exact Control.opened_follow hc
    · exact fun scope d hscope hd => hcarries.nameIn_taking hs ht hallows hscope hd
    · intro hnone
      cases x with
      | none => rfl
      | some x =>
        obtain ⟨scope, phase, -, hmove⟩ := (State.announces_of_react hr).2 x rfl
        cases hmove
        have := hnone _ List.mem_cons_self
        simp [Sheet.closeCompletion, Bracket.isClosing] at this
    · exact fun scope phase o e hstate he ho => hcarries.mismatch_eq hs ht hr hstate he ho

theorem Accounts.handedOn (h : m.Accounts ts cs) (hcarries : m.Carries ts) (hg : m.Regular ts)
    (hs : m.Sound ts) (ht : m.sheet.tokens.toList = ts ++ [t])
    (hm : Turn m t ds m' .handedOn) : m'.Accounts ts (cs ++ ds) := by
  have hwithin := hm.within_of_handedOn hs ht
  cases hm with
  | resume _ _ hm | interrupt _ _ _ hm =>
    refine h.of_eq ?_ hm.warnings
    rw [hm.control]
    rfl
  | @pass _ before next _ _ c _ _ hr hc hm =>
    have hallows := State.allows_of_react hr
    have hnests := hallows.nests rfl (hg.grounded _ List.mem_cons_self)
    rw [← m.sheet.kinds_completedBy] at hnests
    refine h.add (x := none) hs.fits hwithin hnests ?_ ?_ (by simpa using hm.warnings)
      (fun _ => rfl) ?_
    · rw [hm.control]
      exact Control.opened_follow hc
    · intro scope d hscope hd
      cases before with
      | none => cases hd
      | some kind =>
        obtain rfl : m.sheet.cutCompletion kind = d := Option.some.inj hd
        exact hcarries.nameIn_cut ht hscope kind
    · intro scope phase o e hstate he _
      rw [hstate] at hallows
      cases hallows
      cases he

theorem kept_accounts : Kept fun m ts cs => m.Regular ts ∧ m.Carries ts ∧ m.Accounts ts cs where
  push t h := ⟨@Kept.push _ kept_regular _ _ [] t h.1, ⟨h.2.1.recites, h.2.1.marks⟩,
    { h.2.2 with }⟩
  handedOn hs ht _ hm h :=
    ⟨h.1.handedOn hs hm, h.2.1.handedOn hs ht hm, h.2.2.handedOn h.2.1 h.1 hs ht hm⟩
  taken hs ht _ hm ht' h :=
    ⟨h.1.taken hs ht hm ht', h.2.1.taken hs ht hm ht', h.2.2.taken h.2.1 h.1 hs ht hm ht'⟩

end Machine

/-- The names after `end` in a document of the logical blocks `cs` are checked exactly. Every end is
paired with the block that opened its construct. -/
structure Document.ChecksNames (d : Document) (cs : List Completion) : Prop where
  /-- The warnings are the mismatches that the pairs call for, each once and in order: the end
  carries a name, and the construct is called otherwise or is a statement without a label. -/
  warnings : d.warnings = (pairing cs).closed.filterMap fun (o, e) => o.mismatch? e d.tokens.toList
  /-- The pairs are all ends. -/
  ends : (pairing cs).closed.map Prod.snd = cs.filter (·.kind.bracket.isClosing)
  /-- Each has a block before it that opens the same construct. -/
  paired : ∀ x ∈ (pairing cs).closed, [x.1.block, x.2].Sublist cs ∧
    x.1.block.kind.bracket.opens? = some x.1.construct ∧ x.2.kind = x.1.construct.endKind
  /-- No construct stays open. -/
  closed : (pairing cs).opened = []
  /-- The blocks of the document are the parts of the logical ones. -/
  parts : d.proper = cs.flatMap Completion.parts

/-- **Names after `end` are checked exactly** in every outline. -/
theorem outline_warnings {tokens : List (Except LexError Token)} {options : Options} {d : Document}
    (h : outline tokens options = .ok d) : d.ChecksNames (logicalBlocks tokens options) := by
  have hparts := (outline_parts h).1
  obtain ⟨m, hrun, rfl⟩ := outline_ok h
  obtain ⟨us, us', rest, -, -, -, htok, hsound, ⟨-, -, haccounts⟩, hframed⟩ :=
    @Machine.run_induction _ (Machine.kept_accounts.and Machine.kept_framed) _ _ _ []
      (Machine.sound_start options) rfl rfl
      ⟨⟨Machine.regular_start options, Machine.carries_start options,
        Machine.accounts_start options⟩, Machine.framed_start options⟩ _ hrun
  rw [← htok, List.nil_append] at haccounts
  have hof := pairing_isOf (logicalBlocks tokens options)
  refine ⟨haccounts.warnings, haccounts.ends, ?_, ?_, hparts⟩
  · exact fun x hx => ⟨(hof.closed x hx).1, (hof.closed x hx).2, haccounts.endKind x hx⟩
  · have hstate := hframed.closed (Machine.done_of_run hrun)
    have hstack := hsound.fits.stack_eq_nil (by rw [hstate]; rfl)
    have hopened := haccounts.opened
    rw [Control.opened, hstate, hstack] at hopened
    exact List.map_eq_nil_iff.1 hopened

/-- A loop whose end repeats another label, in a process without one, in an architecture whose end
repeats its name in another case. -/
theorem outline_warnings_labels : ∃ d,
    outline (tokenize
      "architecture A of e is begin process begin l : loop null; end loop M; end process p; end a;")
      {} = .ok d ∧
    d.warnings = [⟨.loop, some "l", "M", 30, ⟨1, 68, 67⟩⟩, ⟨.process, none, "p", 37, ⟨1, 83, 82⟩⟩] ∧
    d.warnings = (pairing (logicalBlocks (tokenize
      "architecture A of e is begin process begin l : loop null; end loop M; end process p; end a;")
      {})).closed.filterMap (fun (o, e) => o.mismatch? e d.tokens.toList) := by
  generalize hr : outline (tokenize
    "architecture A of e is begin process begin l : loop null; end loop M; end process p; end a;")
    {} = r
  have hwarn : r.toOption.map Document.warnings =
      some [⟨.loop, some "l", "M", 30, ⟨1, 68, 67⟩⟩, ⟨.process, none, "p", 37, ⟨1, 83, 82⟩⟩] := by
    rw [← hr]
    decide +kernel
  cases r with
  | error e => cases hwarn
  | ok d => exact ⟨d, rfl, Option.some.inj hwarn, (outline_warnings hr).warnings⟩

end VhdlOutline
