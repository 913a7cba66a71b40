import VhdlOutline.Proofs.Outline.Headings
import VhdlOutline.Proofs.Outline.Inputs
import VhdlOutline.Proofs.Outline.Settlement
import VhdlOutline.Proofs.Spans

/-!
# Where reports point

Parsing a source text reports an error, or the warnings of the document (`reports`). Each report has
one span, and this begins where a token of the source text begins, or where none does because the
text has no token there. So it begins at a character, or at the end of the text
(`segments_of_mem_reports`).

A name after `end` is compared with the construct's own only after it has been read. What a state
keeps of it meanwhile stays true (`State.Recalls`), so a mismatch has the position of a token on the
sheet: `Machine.Cites`.
-/

namespace VhdlOutline

/-- What is reported about a source text: the error, or the warnings of its document. -/
def reports (source : String) (options : Options) : List Diagnostic :=
  match parseDocument source options with
  | .ok (d, _) => d.warnings.map NameMismatch.diagnostic
  | .error e => [e.diagnostic]

variable {source : String} {options : Options}

/-! ## The tokens of a source text -/

/-- Every token begins at a character of the source text, or at its end. -/
theorem exists_ofIndex_of_mem_tokenize {t : Token} (h : .ok t ∈ tokenize source) :
    ∃ i ≤ source.length, t.first = .ofIndex source.toList i := by
  obtain ⟨ts, q, hr, hq⟩ := (Place.ofSource source).exists_reads
  obtain ⟨last, hlast, hend⟩ := hq.exists_last
  have hmem := h
  rw [tokenize_eq, hr.tokens, hlast] at hmem
  rcases List.mem_cons.1 hmem with hstart | hmem
  · cases hstart
    exact ⟨0, Nat.zero_le _, rfl⟩
  rcases List.mem_append.1 hmem with hmem | hmem
  · obtain ⟨t', ht', heq⟩ := List.mem_map.1 hmem
    cases heq
    obtain ⟨us, vs, rfl⟩ := List.append_of_mem ht'
    obtain ⟨hpre, hfirst, -⟩ := hr.position
    have hle := hpre.length_le
    have htext : 0 < t.text.length := by
      rw [Nat.pos_iff_ne_zero, Ne, String.length_eq_zero_iff]
      exact (hr.of_mem ht').1
    rw [List.length_drop, String.length_toList, String.length_toList] at hle
    exact ⟨_, by omega, hfirst⟩
  · exact ⟨_, Nat.le_refl _, (endOfDocument_position h (hend t (List.mem_singleton.1 hmem).symm)).1⟩

/-- An error of the lexer is about a character of the source text. -/
theorem exists_ofIndex_of_error_mem_tokenize {e : LexError} (h : .error e ∈ tokenize source) :
    ∃ i ≤ source.length, e.position = .ofIndex source.toList i := by
  obtain ⟨ts, q, hr, hq⟩ := (Place.ofSource source).exists_reads
  have hmem : .error e ∈ q.tokens := by
    rw [tokenize_eq, hr.tokens] at h
    simpa using h
  rcases hq.tokens with ⟨-, htokens⟩ | ⟨c, cs, fault, hcons, htokens⟩
  · simp [htokens] at hmem
  · obtain rfl : e = ⟨fault, q.cursor.stamp c⟩ := by simpa [htokens] using hmem
    have hsource : source.toList = (textOf ts).toList ++ c :: cs := hcons ▸ hr.rest
    refine ⟨(textOf ts).length, ?_, hr.cursor_at.stamp ?_⟩
    · rw [← String.length_toList, ← String.length_toList, hsource, List.length_append]
      exact Nat.le_add_right _ _
    · rw [hsource, ← String.length_toList, List.getElem?_append_right (Nat.le_refl _)]
      simp

/-! ## Mismatches of names -/

/-- A mismatch is about a token that has been read. -/
theorem State.exists_mem_of_mismatch {s : State} {ts : List Token} {i : Nat} {t : Token}
    {r : Reaction} {x : NameMismatch} (hs : s.Recalls ts) (hr : s.react i t = .ok r)
    (hx : r.mismatch = some x) : ∃ u ∈ ts, u.first = x.position := by
  obtain ⟨scope, phase, rfl, -⟩ := (State.announces_of_react hr).2 x hx
  rw [State.mismatch_of_react_end hr, Option.bind_eq_some_iff] at hx
  obtain ⟨found, hfound, hx⟩ := hx
  cases phase with
  | afterName found' =>
    cases hfound
    obtain ⟨u, hu, -, hfirst⟩ := hs
    refine ⟨u, List.mem_of_getElem? hu, hfirst.trans ?_⟩
    unfold Scope.mismatch? at hx
    split at hx <;> cases hx
    rfl
  | _ => cases hfound

namespace Machine

variable {m m' : Machine} {ts : List Token} {t t' : Token} {cs : List Completion}

/-- The warnings so far are about tokens that have been read. -/
def Cites (m : Machine) (ts : List Token) : Prop :=
  ∀ x ∈ m.warnings.toList, ∃ u ∈ ts, u.first = x.position

theorem Cites.mono (h : m.Cites ts) {us : List Token} (hw : m'.warnings = m.warnings)
    (hts : ts ⊆ us) : m'.Cites us := by
  rw [Cites, hw]
  exact fun x hx => (h x hx).imp fun _ hu => ⟨hts hu.1, hu.2⟩

theorem Cites.taken (h : m.Cites ts) (hg : m.Regular ts) (hm : Turn m t cs m' .taken) :
    m'.Cites (ts ++ [t']) := by
  have hsub : ts ⊆ ts ++ [t'] := List.subset_append_left _ _
  cases hm with
  | trivium _ _ hm | absorb _ _ _ hm | finish _ _ _ hm => exact h.mono hm.warnings hsub
  | @take _ _ _ _ _ x _ _ _ hr _ _ hm =>
    intro y hy
    rw [hm.warnings, Array.toList_append, List.mem_append] at hy
    have hcited : ∃ u ∈ ts, u.first = y.position := by
      rcases hy with hy | hy
      · exact h y hy
      · exact State.exists_mem_of_mismatch hg.recalls hr (by simpa [eq_comm] using hy)
    exact hcited.imp fun _ hu => ⟨hsub hu.1, hu.2⟩

theorem kept_cites : Kept fun m ts _ => m.Regular ts ∧ m.Cites ts where
  push t h := ⟨@Kept.push _ kept_regular _ _ [] t h.1, h.2⟩
  handedOn hs _ _ hm h := by
    refine ⟨h.1.handedOn hs hm, h.2.mono ?_ (List.Subset.refl _)⟩
    cases hm <;> exact ‹Becomes ..›.warnings
  taken hs ht _ hm ht' h := ⟨h.1.taken hs ht hm ht', h.2.taken h.1 hm⟩

theorem cites_start (options : Options) : ({ options } : Machine).Cites [] := by
  rintro x ⟨⟩

/-! ## Runs over the tokens of a source text -/

/-- A run breaks off for an error of the lexer only if it comes to one. -/
theorem error_mem_of_run (hs : m.Sound ts) (ht : m.sheet.tokens.toList = ts)
    (hp : m.Regular ts) {xs : List (Except LexError Token)} {l : LexError}
    (hr : m.run xs = (m', some (.lexical l))) : .error l ∈ xs := by
  induction xs generalizing m ts with
  | nil =>
    rw [run] at hr
    split at hr <;> cases hr
  | cons x xs ih =>
    simp only [run] at hr
    cases hd : m.done with
    | true =>
      rw [if_pos hd] at hr
      cases hr
    | false =>
      rw [if_neg (by simp [hd])] at hr
      cases x with
      | error e =>
        cases hr
        exact List.mem_cons_self
      | ok t =>
        dsimp only at hr
        generalize hf : m.feed t = r at hr
        obtain ⟨k, _ | f⟩ := r
        · obtain ⟨t', -, htok, hsound, -, hk⟩ :=
            @Kept.feed _ kept_regular _ _ _ [] hs ht hd hp _ hf
          exact List.mem_cons_of_mem _ (ih hsound htok hk hr)
        · cases hr
          obtain ⟨_, _, _, -, -, -, -, hturn⟩ :=
            @Kept.feed_failed _ kept_regular _ _ _ [] hs ht hd hp _ _ hf
          rcases hturn.failed with ⟨c, he⟩ | ⟨x, he⟩ <;> cases he

/-- Whatever tokens a run has put on the sheet, they begin at characters of the source text, or at
its end. -/
theorem exists_ofIndex_of_run {e : Option OutlineError}
    (hr : run { options } (tokenize source) = (m, e)) {u : Token}
    (hu : u ∈ m.sheet.tokens.toList) : ∃ i ≤ source.length, u.first = .ofIndex source.toList i := by
  obtain ⟨us, us', hpre, hset, htok⟩ := run_settles (sound_start options) rfl hr
  have hfirst : u.first ∈ us.map Token.first := by
    rw [← Token.map_of_settles Token.first (fun _ _ => rfl) hset]
    exact List.mem_map_of_mem (by simpa [htok] using hu)
  obtain ⟨v, hv, hvu⟩ := List.mem_map.1 hfirst
  rw [← hvu]
  exact exists_ofIndex_of_mem_tokenize (hpre.subset (List.mem_map_of_mem hv))

/-- The error of a run has a position, that of a character of the source text or of its end. -/
theorem exists_position_of_run {e : OutlineError}
    (hr : run { options } (tokenize source) = (m, some e)) :
    ∃ p, e.position? = some p ∧ ∃ i ≤ source.length, p = .ofIndex source.toList i := by
  have hends := run_ends_start kept_cites ⟨regular_start options, cites_start options⟩ hr
  cases hends with
  | stopped _ _ _ _ he =>
    obtain ⟨l, rfl⟩ : ∃ l, e = .lexical l := by
      rcases he with rfl | he
      · rcases error_of_run_tokenize hr with ⟨_, h⟩ | ⟨_, _, h⟩ | ⟨-, _, h⟩ <;> cases h
      · exact he
    have hmem := error_mem_of_run (sound_start options) rfl (regular_start options) hr
    exact ⟨_, rfl, exists_ofIndex_of_error_mem_tokenize hmem⟩
  | @failed _ _ t _ _ _ hs ht hp _ hm =>
    obtain ⟨t', ⟨kind, rfl, -⟩, htok⟩ := hm.settles hs ht
    cases hm with
    | mismatch _ _ hreact =>
      obtain ⟨u, hu, hfirst⟩ := State.exists_mem_of_mismatch hp.1.recalls hreact rfl
      have hmem : u ∈ m.sheet.tokens.toList := by simp [htok, hu]
      exact ⟨_, rfl, hfirst ▸ exists_ofIndex_of_run hr hmem⟩
    | refuse =>
      have hmem : { t with kind } ∈ m.sheet.tokens.toList := by simp [htok]
      have hindex := exists_ofIndex_of_run hr hmem
      exact ⟨_, rfl, hindex⟩

/-- The warnings of a run are about characters of the source text, or about its end. -/
theorem exists_ofIndex_of_mem_warnings (hr : run { options } (tokenize source) = (m, none))
    {x : NameMismatch} (hx : x ∈ m.warnings.toList) :
    ∃ i ≤ source.length, x.position = .ofIndex source.toList i := by
  cases run_ends_start kept_cites ⟨regular_start options, cites_start options⟩ hr with
  | finished _ ht hp =>
    obtain ⟨u, hu, hfirst⟩ := hp.2 x hx
    exact hfirst ▸ exists_ofIndex_of_run hr (ht ▸ hu)

end Machine

/-! ## Reports -/

theorem NameMismatch.segments_diagnostic (x : NameMismatch) : ∃ notes : List String,
    x.diagnostic.segments = .span (.ofPosition x.position) :: notes.map .note := by
  unfold diagnostic
  split
  · exact ⟨[_], rfl⟩
  · exact ⟨[], rfl⟩

theorem LexError.segments_diagnostic (e : LexError) : ∃ notes : List String,
    e.diagnostic.segments = .span (.ofPosition e.position) :: notes.map .note := by
  unfold diagnostic
  split
  · exact ⟨[_], rfl⟩
  · exact ⟨[_], rfl⟩
  · exact ⟨[], rfl⟩

/-- An error with a position has a span that begins there, and no other. -/
theorem OutlineError.segments_diagnostic {e : OutlineError} {p : Position}
    (h : e.position? = some p) : ∃ (s : Span) (notes : List String),
      e.diagnostic.segments = .span s :: notes.map .note ∧ s.first = p := by
  cases e with
  | refused t c =>
    cases h
    cases c with
    | notImplemented => exact ⟨_, [_], rfl, rfl⟩
    | _ => exact ⟨_, [], rfl, rfl⟩
  | nameMismatch x =>
    cases h
    exact x.segments_diagnostic.imp' (fun _ => _) fun notes hn => ⟨notes, hn, rfl⟩
  | lexical l =>
    cases h
    exact l.segments_diagnostic.imp' (fun _ => _) fun notes hn => ⟨notes, hn, rfl⟩
  | unexpectedEnd | internal => cases h

/-- A report has one span, before all notes. It begins at a character of the source text, or at its
end. -/
theorem segments_of_mem_reports {d : Diagnostic} (hd : d ∈ reports source options) :
    ∃ (s : Span) (notes : List String), d.segments = .span s :: notes.map .note ∧
      ∃ i ≤ source.length, s.first = .ofIndex source.toList i := by
  generalize hr : Machine.run { options } (tokenize source) = r at hd
  obtain ⟨m, e⟩ := r
  rcases parseDocument_of_run hr with ⟨rfl, gs, hok⟩ | ⟨f, rfl, herror⟩
  · rw [reports, hok] at hd
    obtain ⟨x, hx, rfl⟩ := List.mem_map.1 hd
    obtain ⟨notes, hnotes⟩ := x.segments_diagnostic
    exact ⟨_, notes, hnotes, Machine.exists_ofIndex_of_mem_warnings hr hx⟩
  · rw [reports, herror] at hd
    obtain rfl := List.mem_singleton.1 hd
    obtain ⟨p, hp, hindex⟩ := Machine.exists_position_of_run hr
    obtain ⟨s, notes, hnotes, rfl⟩ := OutlineError.segments_diagnostic hp
    exact ⟨s, notes, hnotes, hindex⟩

end VhdlOutline
