import VhdlOutline.Proofs.Reports
import VhdlOutline.Proofs.Source.Line

/-!
# Reports beside the source text

A report is rendered with the line of source text that it is about, and with carets below that line.
The line is looked up by its number, among lines that end at line feeds, while the number counts the
lines that a carriage return ends alone as well. `Diagnostic.shows_iff` says what is shown in terms
of the line that is found, and `reports_show_line_iff` when that is the line of the character that
the report points to.
-/

namespace VhdlOutline

/-- The width of a piece of a line: a tab takes four columns, any other character takes one. -/
def columns : List Char → Nat
  | [] => 0
  | c :: cs => (if c = '\t' then 4 else 1) + columns cs

namespace Diagnostic

/-- What is to be seen below a location: the line, and `n + 1` carets, the first of them below the
character of the line that comes after `before`. -/
def picture (line before : List Char) (n : Nat) : String :=
  "   | \n   | " ++ String.ofList (line.flatMap shownChar) ++ "\n   | " ++
    String.ofList (List.replicate (columns before) ' ') ++
    String.ofList (List.replicate (n + 1) '^') ++ "\n"

/-- Beside the text `content`, the diagnostic shows the line below the location of its only place,
and the first caret below the character of the line that comes after `before`. -/
def Shows (d : Diagnostic) (content : String) (line before : List Char) : Prop :=
  ∃ (s : Span) (notes : List String) (n : Nat), d.segments = .span s :: notes.map .note ∧
    d.render content = d.header ++ locationLine s ++ picture line before n ++
      String.join (notes.map noteLine)

variable {d : Diagnostic} {s : Span} {notes : List String} {content : String}
  {line line' before before' : List Char} {n n' : Nat}

/-! ## Lines as they are shown -/

theorem columns_eq_length (cs : List Char) : columns cs = (cs.flatMap shownChar).length := by
  induction cs with
  | nil => rfl
  | cons c cs ih =>
    rw [columns, ih, List.flatMap_cons, List.length_append, shownChar]
    split <;> rfl

/-- Tabs aside, a line is shown with the characters it has. -/
theorem mem_flatMap_shownChar {c : Char} (hspace : c ≠ ' ') (htab : c ≠ '\t') :
    c ∈ line.flatMap shownChar ↔ c ∈ line := by
  have hshown : ∀ d, c ∈ shownChar d ↔ c = d := by
    intro d
    unfold shownChar
    split <;> simp_all
  simp [List.mem_flatMap, hshown]

theorem toList_picture (line before : List Char) (n : Nat) :
    (picture line before n).toList = "   | \n   | ".toList ++ (line.flatMap shownChar ++
      '\n' :: ("   | ".toList ++ (List.replicate (columns before) ' ' ++
        '^' :: (List.replicate n '^' ++ ['\n'])))) := by
  simp [picture, List.replicate_succ]

/-- A picture tells the line, as it is shown, and the place of the first caret. -/
theorem picture_append_inj {x x' : List Char} (hline : '\n' ∉ line) (hline' : '\n' ∉ line')
    (h : (picture line before n).toList ++ x = (picture line' before' n').toList ++ x') :
    line.flatMap shownChar = line'.flatMap shownChar ∧ columns before = columns before' := by
  have hshown : ∀ l : List Char, '\n' ∉ l → '\n' ∉ l.flatMap shownChar := fun l hl hm =>
    hl ((mem_flatMap_shownChar (by decide) (by decide)).1 hm)
  have hindent : ∀ k, '^' ∉ List.replicate k ' ' := by simp
  simp only [toList_picture, List.append_assoc, List.cons_append] at h
  obtain ⟨hlines, hrest⟩ :=
    Text.append_cons_inj (hshown _ hline) (hshown _ hline') (List.append_cancel_left h)
  obtain ⟨hindents, -⟩ :=
    Text.append_cons_inj (hindent _) (hindent _) (List.append_cancel_left hrest)
  exact ⟨hlines, by simpa using congrArg List.length hindents⟩

/-! ## What is rendered -/

theorem excerpt_eq (s : Span) (line : List Char) :
    excerpt s line = picture line (line.take (s.first.column - 1)) (markWidth s - 1) := by
  have hpos : markWidth s - 1 + 1 = markWidth s := by
    unfold markWidth
    split <;> omega
  rw [picture, hpos, columns_eq_length]
  rfl

theorem render_eq (hd : d.segments = .span s :: notes.map .note) (content : String) :
    d.render content = d.header ++ renderSpan (Text.lines content) s ++
      String.join (notes.map noteLine) := by
  simp only [render, hd, List.map_cons, List.map_map]
  simp [String.append_assoc, Function.comp_def]

/-- The line for a place is looked up by its number. -/
theorem renderSpan_of_known {lines : List (List Char)} (hknown : s.first.isKnown = true)
    (hnumber : 1 ≤ s.first.line) :
    renderSpan lines s = ((lines[s.first.line - 1]?).map fun l =>
      locationLine s ++ excerpt s l).getD (locationLine s) := by
  have hzero : (s.first.line == 0) = false := by
    rw [beq_eq_false_iff_ne]
    omega
  rw [renderSpan, hknown, hzero]
  cases lines[s.first.line - 1]? <;> rfl

/-- A line is shown if the line found under the number of the place looks the same. -/
theorem shows_iff (hd : d.segments = .span s :: notes.map .note) (hknown : s.first.isKnown = true)
    (hnumber : 1 ≤ s.first.line) (hline : '\n' ∉ line) :
    d.Shows content line before ↔ ∃ l, (Text.lines content)[s.first.line - 1]? = some l ∧
      l.flatMap shownChar = line.flatMap shownChar ∧
      columns (l.take (s.first.column - 1)) = columns before := by
  have hrendered := render_eq hd content
  rw [renderSpan_of_known hknown hnumber] at hrendered
  constructor
  · rintro ⟨s', notes', n, hd', hrender⟩
    rw [hd] at hd'
    obtain ⟨hs, hnotes⟩ := List.cons.inj hd'
    cases hs
    obtain rfl := (List.map_inj_right fun _ _ => Segment.note.inj).1 hnotes
    have hchars := congrArg String.toList (hrendered.symm.trans hrender)
    cases hl : (Text.lines content)[s.first.line - 1]? with
    | none =>
      simp only [hl, Option.map_none, Option.getD_none, String.toList_append, List.append_assoc,
        List.append_cancel_left_eq] at hchars
      have hnil := List.self_eq_append_left.1 hchars
      simp [toList_picture] at hnil
    | some l =>
      simp only [hl, Option.map_some, Option.getD_some, String.toList_append, List.append_assoc,
        List.append_cancel_left_eq, excerpt_eq] at hchars
      have hfeed := Text.lineFeed_notMem_of_mem_lines (List.mem_of_getElem? hl)
      exact ⟨l, rfl, picture_append_inj hfeed hline hchars⟩
  · rintro ⟨l, hl, hshown, hcolumns⟩
    refine ⟨s, notes, markWidth s - 1, hd, ?_⟩
    rw [hrendered, hl, Option.map_some, Option.getD_some]
    simp only [excerpt_eq, picture, hshown, hcolumns, String.append_assoc]

end Diagnostic

/-- **When a report shows the line it is about.** A report has one span, which begins at a
character of the source text or at its end, with a line and a column counted from one. If it begins
at the character at index `i`, its column leads to this character in `lineAt _ i`. This line is
shown, with a caret below the character, exactly if no carriage return ends a line alone before the
character, nor its own line; unless one does before, and the line found in place of the right one
happens to look the same. -/
theorem reports_show_line_iff {source : String} {options : Options} {d : Diagnostic}
    (hd : d ∈ reports source options) :
    ∃ (s : Span) (notes : List String), d.segments = .span s :: notes.map .note ∧
      (∃ i ≤ source.length, s.first = .ofIndex source.toList i) ∧
      (1 ≤ s.first.line ∧ 1 ≤ s.first.column) ∧
      ∀ i < source.length, s.first = .ofIndex source.toList i →
        let cs := source.toList
        let before := (lineAt cs i).take (i - lineStart cs i)
        (∀ c, cs[i]? = some c → c ≠ '\n' → c ≠ '\r' →
          (lineAt cs i)[s.first.column - 1]? = some c) ∧
        (d.Shows source (lineAt cs i) before ↔
          ((∀ j < i, isLoneReturn cs j = false) ∧ isLoneReturn cs (lineEnd cs i) = false) ∨
          ((∃ j < i, isLoneReturn cs j = true) ∧
            ∃ l, (Text.lines source)[s.first.line - 1]? = some l ∧
              l.flatMap Diagnostic.shownChar = (lineAt cs i).flatMap Diagnostic.shownChar ∧
              columns (l.take (s.first.column - 1)) = columns before)) := by
  obtain ⟨s, notes, hsegments, k, hk, hfirst⟩ := segments_of_mem_reports hd
  have hline : 1 ≤ s.first.line := by
    rw [hfirst]
    exact Nat.le_add_right 1 _
  have hcolumn : 1 ≤ s.first.column := by
    rw [hfirst]
    exact Nat.le_add_right 1 _
  refine ⟨s, notes, hsegments, ⟨k, hk, hfirst⟩, ⟨hline, hcolumn⟩, fun i hi hindex => ?_⟩
  intro cs before
  have hbefore : s.first.column - 1 = i - lineStart cs i := by
    rw [hindex, Position.ofIndex_column, Nat.add_sub_cancel]
  have hknown : s.first.isKnown = true := by
    simp [hindex, Position.isKnown, Position.ofIndex]
  refine ⟨fun c hc hn hr => hbefore ▸ getElem?_lineAt hc hn hr, ?_⟩
  rw [Diagnostic.shows_iff hsegments hknown hline (lineFeed_notMem_lineAt cs i)]
  constructor
  · rintro ⟨l, hl, hshown, hcolumns⟩
    by_cases hlone : ∃ j < i, isLoneReturn cs j = true
    · exact .inr ⟨hlone, l, hl, hshown, hcolumns⟩
    have hno : ∀ j < i, isLoneReturn cs j = false := by simpa using hlone
    refine .inl ⟨hno, Bool.eq_false_iff.2 fun hend => ?_⟩
    -- The line that is found has a carriage return in it, and the line of the character has none.
    have hreturn : '\r' ∈ l := return_mem_of_lone hno hend (hindex ▸ hl)
    have hshows := @Diagnostic.mem_flatMap_shownChar
    rw [← hshows (by decide) (by decide), hshown, hshows (by decide) (by decide)] at hreturn
    exact return_notMem_lineAt cs i hreturn
  · rintro (⟨hno, hend⟩ | ⟨-, hsame⟩)
    · refine ⟨lineAt cs i, ?_, rfl, by rw [hbefore]⟩
      rw [hindex]
      exact getElem?_lines_of_not_lone (by rwa [String.length_toList]) hno hend
    · exact hsame

/-- A warning in a line that starts with a tab, after a line that ends in two characters. -/
theorem reports_show_line_tab : ∃ d ∈ reports "package p is\r\n\tend q;" {},
    d.Shows "package p is\r\n\tend q;" "\tend q;".toList "\tend ".toList := by
  have hreports : reports "package p is\r\n\tend q;" {} =
      [⟨.warning, "`q` does not match the name `p` of the package",
        [.span (.ofPosition ⟨2, 6, 19⟩), .note "Use `p` or omit the name"]⟩] := by
    decide +kernel
  refine ⟨_, hreports ▸ List.mem_singleton_self _, ?_⟩
  obtain ⟨s, notes, hsegments, -, -, h⟩ :=
    reports_show_line_iff (hreports ▸ List.mem_singleton_self _)
  obtain ⟨hs, -⟩ := List.cons.inj hsegments
  cases hs
  exact (h 19 (by decide) (by decide)).2.2 (.inl ⟨by decide, by decide⟩)

/-- A carriage return ends the first line, and the line that is shown is the one after the line of
the error. -/
theorem reports_show_next_line : ∃ d ∈ reports "entity e is\rgeneric G;\n-- end\n" {},
    ∃ (s : Span) (notes : List String), d.segments = .span s :: notes.map .note ∧
      s.first = .ofIndex "entity e is\rgeneric G;\n-- end\n".toList 20 ∧
      20 < "entity e is\rgeneric G;\n-- end\n".length ∧
      lineAt "entity e is\rgeneric G;\n-- end\n".toList 20 = "generic G;".toList ∧
      d.Shows "entity e is\rgeneric G;\n-- end\n" "-- end".toList "-- end".toList ∧
      ¬ d.Shows "entity e is\rgeneric G;\n-- end\n" "generic G;".toList "generic ".toList := by
  have hreports : reports "entity e is\rgeneric G;\n-- end\n" {} =
      [⟨.error, "Expected `(` after keyword GENERIC but found word `G`.",
        [.span (.ofPosition ⟨2, 9, 20⟩)]⟩] := by
    decide +kernel
  have hlines : Text.lines "entity e is\rgeneric G;\n-- end\n" =
      ["entity e is\rgeneric G;".toList, "-- end".toList] := by decide
  refine ⟨_, hreports ▸ List.mem_singleton_self _, _, [], rfl, by decide, by decide, by decide,
    ?_, ?_⟩
  · rw [@Diagnostic.shows_iff _ _ [] _ _ _ rfl (by decide) (by decide) (by decide), hlines]
    exact ⟨_, rfl, by decide, by decide⟩
  · rw [@Diagnostic.shows_iff _ _ [] _ _ _ rfl (by decide) (by decide) (by decide), hlines]
    rintro ⟨l, hl, hshown, -⟩
    cases hl
    exact absurd hshown (by decide)

end VhdlOutline
