import VhdlOutline.Lexeme.Lexer
import VhdlOutline.Proofs.Lexeme.Persistence

/-!
# Tokens do not depend on letter case

The capital letters of ASCII and their small forms mean the same to the lexer, wherever they stand.
It looks at a letter only through its category, through the spelling of reserved words, and through
the bases of bit strings and the mark of an exponent, which are all blind to case.

* `Text.apply_toLower`: a function of characters is blind to case if it takes each capital letter
  for its small form.
* `Lexeme.scan_toLower`: the lexeme of a text in small letters is the lexeme of the text, in small
  letters. Every scanner has this property.
* `tokenize_toLower`: the tokens of a text in small letters are its tokens, in small letters.
-/

namespace VhdlOutline

/-! ## Characters -/

namespace Text

theorem toList_toLower (s : String) : s.toLower.toList = s.toList.map Char.toLower :=
  String.toList_map

/-- The capital letters of ASCII. -/
def capitals : List Char := "ABCDEFGHIJKLMNOPQRSTUVWXYZ".toList

theorem toLower_eq_or_mem_capitals (c : Char) : c.toLower = c ∨ c ∈ capitals := by
  by_cases h : 'A'.val ≤ c.val ∧ c.val ≤ 'Z'.val
  · have hcode : 65 ≤ c.toNat ∧ c.toNat ≤ 90 := h
    have hall : ∀ i < 26, Char.ofNat (65 + i) ∈ capitals := by decide
    have hmem := hall (c.toNat - 65) (by omega)
    rw [Nat.add_sub_cancel' hcode.1, Char.ofNat_toNat] at hmem
    exact .inr hmem
  · exact .inl (dif_neg h)

/-- A function that takes every capital letter for its small form is blind to case. -/
theorem apply_toLower {α : Type} {f : Char → α}
    (h : capitals.map (fun c => f c.toLower) = capitals.map f) (c : Char) :
    f c.toLower = f c := by
  rcases toLower_eq_or_mem_capitals c with hc | hc
  · rw [hc]
  · exact List.map_inj_left.1 h c hc

/-- No letter becomes, or was, a character that is no letter. -/
theorem toLower_eq_iff {q : Char} (hq : q.isAlpha = false) {c : Char} : c.toLower = q ↔ c = q := by
  rcases toLower_eq_or_mem_capitals c with hc | hc
  · rw [hc]
  · have hall : capitals.all (fun c => c.isAlpha && c.toLower.isAlpha) = true := by decide
    have hletter := List.all_eq_true.1 hall c hc
    rw [Bool.and_eq_true] at hletter
    constructor
    · rintro rfl
      cases hq.symm.trans hletter.2
    · rintro rfl
      cases hq.symm.trans hletter.1

theorem upperAscii_toLower (c : Char) : upperAscii c.toLower = upperAscii c :=
  apply_toLower (by decide) c

/-! ## Lower case by the rules of Unicode -/

theorem isCased_toLower (c : Char) : isCased c.toLower = isCased c :=
  apply_toLower (by decide) c

theorem isCaseIgnorable_toLower (c : Char) : isCaseIgnorable c.toLower = isCaseIgnorable c :=
  apply_toLower (by decide) c

theorem lowerChar_toLower (c : Char) : lowerChar c.toLower = lowerChar c :=
  apply_toLower (by decide) c

theorem meetsCased_toLower (cs : List Char) :
    meetsCased (cs.map Char.toLower) = meetsCased cs := by
  have hp : isCaseIgnorable ∘ Char.toLower = isCaseIgnorable := funext isCaseIgnorable_toLower
  unfold meetsCased
  rw [List.dropWhile_map, hp]
  cases cs.dropWhile isCaseIgnorable with
  | nil => rfl
  | cons c _ => exact isCased_toLower c

theorem lowerFrom_toLower (before cs : List Char) :
    lowerFrom (before.map Char.toLower) (cs.map Char.toLower) = lowerFrom before cs := by
  induction cs generalizing before with
  | nil => rfl
  | cons c cs ih =>
    have hfinal : isFinalSigma (before.map Char.toLower) (cs.map Char.toLower) =
        isFinalSigma before cs := by
      simp only [isFinalSigma, meetsCased_toLower]
    have hsigma : c.toLower = 'Σ' ↔ c = 'Σ' := toLower_eq_iff rfl
    simp only [List.map_cons, lowerFrom, hsigma, hfinal, lowerChar_toLower]
    rw [← ih (c :: before), List.map_cons]

/-- The lower case of a text does not depend on the case of its ASCII letters. -/
theorem lower_toLower (s : String) : lower s.toLower = lower s := by
  have h := lowerFrom_toLower [] s.toList
  simp only [lower, toList_toLower]
  rw [← h]
  rfl

end Text

open Text

theorem Keyword.find?_toLower (s : String) : find? s.toLower = find? s := by
  simp only [find?, lower_toLower]

theorem Category.ofChar_toLower (c : Char) : ofChar c.toLower = ofChar c :=
  apply_toLower (by decide) c

theorem isLineEnd_toLower (c : Char) : isLineEnd c.toLower = isLineEnd c := by
  simp only [isLineEnd, Category.ofChar_toLower]

theorem isSpace_toLower (c : Char) : isSpace c.toLower = isSpace c := by
  simp only [isSpace, Category.ofChar_toLower]

theorem isDigit_toLower (c : Char) : isDigit c.toLower = isDigit c := by
  simp only [isDigit, Category.ofChar_toLower]

theorem isFigure_toLower (c : Char) : isFigure c.toLower = isFigure c :=
  apply_toLower (by decide) c

theorem isWordPart_toLower (c : Char) : isWordPart c.toLower = isWordPart c :=
  apply_toLower (by decide) c

namespace Compound

/-- No symbol is made of letters. -/
theorem ofPair?_toLower (c d : Char) : ofPair? c.toLower d.toLower = ofPair? c d := by
  fun_cases ofPair? c d
  case case14 =>
    unfold ofPair?
    split <;> rename_i hc hd <;> rw [toLower_eq_iff rfl] at hc hd <;> simp_all
  all_goals rfl

theorem ofTriple?_toLower (c d e : Char) :
    ofTriple? c.toLower d.toLower e.toLower = ofTriple? c d e := by
  fun_cases ofTriple? c d e
  case case4 =>
    unfold ofTriple?
    split <;> rename_i hc hd he <;> rw [toLower_eq_iff rfl] at hc hd he <;> simp_all
  all_goals rfl

end Compound

namespace Cursor

/-- A letter takes up as much space as its small form. -/
theorem advance_toLower (k : Cursor) (c : Char) : k.advance c.toLower = k.advance c := by
  have hsize : c.toLower.utf8Size = c.utf8Size := apply_toLower (by decide) c
  have hfeed : c.toLower = '\n' ↔ c = '\n' := toLower_eq_iff rfl
  have hreturn : c.toLower = '\r' ↔ c = '\r' := toLower_eq_iff rfl
  simp only [advance, stamp, Position.advance, hfeed, hreturn, hsize]

theorem stamp_toLower (k : Cursor) (c : Char) : k.stamp c.toLower = k.stamp c := by
  have hfeed : c.toLower = '\n' ↔ c = '\n' := toLower_eq_iff rfl
  simp only [stamp, hfeed]

theorem advanceAll_toLower (k : Cursor) (cs : List Char) :
    k.advanceAll (cs.map Char.toLower) = k.advanceAll cs := by
  simp only [advanceAll, List.foldl_map, advance_toLower]

theorem stampLast_toLower (k : Cursor) (c : Char) (cs : List Char) :
    k.stampLast c.toLower (cs.map Char.toLower) = k.stampLast c cs := by
  induction cs generalizing k c with
  | nil => exact stamp_toLower k c
  | cons d cs ih => rw [List.map_cons, stampLast, stampLast, advance_toLower, ih]

end Cursor

/-! ## Scanners -/

/-- Both parts of a text that has been split, in small letters. -/
def lowerBoth (p : List Char × List Char) : List Char × List Char :=
  (p.1.map Char.toLower, p.2.map Char.toLower)

namespace Lexeme

/-- The lexeme and what follows it, in small letters. -/
def toLower (l : Lexeme) : Lexeme :=
  { l with text := l.text.map Char.toLower, rest := l.rest.map Char.toLower }

section Runs

variable {p : Char → Bool} (hp : ∀ c, p c.toLower = p c) (cs : List Char)
include hp

theorem takeWhile_toLower :
    (cs.map Char.toLower).takeWhile p = (cs.takeWhile p).map Char.toLower := by
  rw [List.takeWhile_map, show p ∘ Char.toLower = p from funext hp]

theorem dropWhile_toLower :
    (cs.map Char.toLower).dropWhile p = (cs.dropWhile p).map Char.toLower := by
  rw [List.dropWhile_map, show p ∘ Char.toLower = p from funext hp]

end Runs

theorem delimited?_toLower {q : Char} (hq : q.isAlpha = false) (cs : List Char) :
    delimited? q (cs.map Char.toLower) = (delimited? q cs).map lowerBoth := by
  fun_induction delimited? q cs with
  | case1 => rfl
  | case2 c cs h =>
    rw [List.map_cons, delimited?.eq_def]
    simp [isLineEnd_toLower, h]
  | case3 ds h ih =>
    rw [List.map_cons, List.map_cons, delimited?.eq_def]
    simp [isLineEnd_toLower, h, toLower_eq_iff hq, ih, Function.comp_def, lowerBoth]
  | case4 d ds hd h =>
    rw [List.map_cons, List.map_cons, delimited?.eq_def]
    simp [isLineEnd_toLower, h, hd, toLower_eq_iff hq, lowerBoth]
  | case5 h =>
    rw [List.map_cons, delimited?.eq_def]
    simp [isLineEnd_toLower, h, toLower_eq_iff hq, lowerBoth]
  | case6 c cs hl hc ih =>
    rw [List.map_cons, delimited?.eq_def]
    simp [isLineEnd_toLower, hl, hc, toLower_eq_iff hq, ih, Function.comp_def, lowerBoth]

theorem commentBody?_toLower (cs : List Char) :
    commentBody? (cs.map Char.toLower) = (commentBody? cs).map lowerBoth := by
  fun_induction commentBody? cs with
  | case1 | case4 => rfl
  | case2 c d ds h =>
    rw [List.map_cons, List.map_cons, commentBody?.eq_def]
    simp [h, lowerBoth]
  | case3 c d ds h ih =>
    rw [List.map_cons] at ih
    rw [List.map_cons, List.map_cons, commentBody?.eq_def]
    simp [toLower_eq_iff, h, lowerBoth, ih, Function.comp_def]

theorem lineEnd_toLower (cs : List Char) :
    lineEnd (cs.map Char.toLower) = lowerBoth (lineEnd cs) := by
  have hne : ∀ {q cs}, q.isAlpha = false → (∀ ds, cs = q :: ds → False) →
      ∀ ds, cs.map Char.toLower = q :: ds → False := by
    intro q cs hq hn ds hds
    obtain ⟨d, es, rfl, hd, -⟩ := List.map_eq_cons_iff.1 hds
    exact hn es (by rw [(toLower_eq_iff hq).1 hd])
  fun_cases lineEnd cs with
  | case1 | case3 => rfl
  | case2 cs h => exact lineEnd.eq_2 _ (hne rfl h)
  | case4 cs _ hr hn =>
    have hr := hne rfl hr
    exact lineEnd.eq_4 _ (fun ds hds => hr _ hds) hr (hne rfl hn)

theorem isBase_toLower (cs : List Char) : isBase (cs.map Char.toLower) = isBase cs := by
  have hup : upperAscii ∘ Char.toLower = upperAscii := funext upperAscii_toLower
  simp only [isBase, List.map_map, hup]

theorem startsWithDigit_toLower (cs : List Char) :
    startsWithDigit (cs.map Char.toLower) = startsWithDigit cs := by
  cases cs with
  | nil => rfl
  | cons c cs => exact isDigit_toLower c

theorem sign_toLower (cs : List Char) : sign (cs.map Char.toLower) = lowerBoth (sign cs) := by
  cases cs with
  | nil => rfl
  | cons c cs =>
    have hplus : c.toLower = '+' ↔ c = '+' := toLower_eq_iff rfl
    have hminus : c.toLower = '-' ↔ c = '-' := toLower_eq_iff rfl
    simp only [List.map_cons, sign, hplus, hminus]
    split <;> rfl

theorem exponent_toLower (cs : List Char) :
    exponent (cs.map Char.toLower) = lowerBoth (exponent cs) := by
  cases cs with
  | nil => rfl
  | cons c cs =>
    have hmark : (c.toLower = 'e' ∨ c.toLower = 'E') ↔ (c = 'e' ∨ c = 'E') :=
      decide_eq_decide.1
        (apply_toLower (f := fun c => decide (c = 'e' ∨ c = 'E')) (by decide) c)
    simp only [List.map_cons, exponent, sign_toLower, lowerBoth, startsWithDigit_toLower, hmark,
      takeWhile_toLower isFigure_toLower, dropWhile_toLower isFigure_toLower]
    split <;> simp

theorem withExponent_toLower (kind : TokenKind) (text cs : List Char) :
    withExponent kind (text.map Char.toLower) (cs.map Char.toLower) =
      (withExponent kind text cs).toLower := by
  simp [withExponent, exponent_toLower, lowerBoth, toLower]

theorem fraction_toLower (start cs : List Char) :
    fraction (start.map Char.toLower) (cs.map Char.toLower) = (fraction start cs).toLower := by
  simp only [fraction, takeWhile_toLower isFigure_toLower, dropWhile_toLower isFigure_toLower,
    ← withExponent_toLower, List.map_append]

theorem bitString_toLower (start cs : List Char) :
    bitString (start.map Char.toLower) (cs.map Char.toLower) =
      (bitString start cs).map toLower := by
  unfold bitString
  rw [delimited?_toLower rfl]
  cases delimited? '\x22' cs with
  | none => rfl
  | some p => simp [lowerBoth, Except.map, toLower]

theorem word_toLower (c : Char) (cs : List Char) :
    word c.toLower (cs.map Char.toLower) = (word c cs).map toLower := by
  have hrest := dropWhile_toLower isWordPart_toLower cs
  simp only [word, takeWhile_toLower isWordPart_toLower, hrest]
  cases cs.dropWhile isWordPart with
  | nil => rfl
  | cons d rest =>
    have hbase := isBase_toLower (c :: cs.takeWhile isWordPart)
    have hquote : d.toLower = '\x22' ↔ d = '\x22' := toLower_eq_iff rfl
    have hstring := bitString_toLower (c :: cs.takeWhile isWordPart ++ [d]) rest
    simp only [List.map_cons, List.map_append, List.map_nil] at hbase hstring ⊢
    simp only [hbase, hquote]
    split
    · exact hstring
    · rfl

theorem based_toLower (start cs : List Char) :
    based (start.map Char.toLower) (cs.map Char.toLower) = (based start cs).map toLower := by
  have htake := takeWhile_toLower isWordPart_toLower
  have hdrop := dropWhile_toLower isWordPart_toLower
  simp only [based, htake, hdrop]
  cases cs.dropWhile isWordPart with
  | nil => rfl
  | cons c ds =>
    have hmark : c.toLower = '#' ↔ c = '#' := toLower_eq_iff rfl
    have hpoint : c.toLower = '.' ↔ c = '.' := toLower_eq_iff rfl
    simp only [List.map_cons, hmark, hpoint, htake, hdrop]
    split
    · simp [Except.map, ← withExponent_toLower]
    split
    · cases ds.dropWhile isWordPart with
      | nil => rfl
      | cons d es =>
        have hmark : d.toLower = '#' ↔ d = '#' := toLower_eq_iff rfl
        simp only [List.map_cons, hmark]
        split
        · simp [Except.map, ← withExponent_toLower]
        · rfl
    · rfl

theorem bitStringStart?_toLower (cs : List Char) :
    bitStringStart? (cs.map Char.toLower) = (bitStringStart? cs).map lowerBoth := by
  match cs with
  | [] | [_] => rfl
  | c :: d :: cs =>
    have hquote {q : Char} : q.toLower = '\x22' ↔ q = '\x22' := toLower_eq_iff rfl
    have hone := isBase_toLower [c]
    have htwo := isBase_toLower [c, d]
    simp only [List.map_cons, List.map_nil] at hone htwo
    simp only [List.map_cons, bitStringStart?, hquote, hone, htwo]
    split
    · rfl
    · cases cs with
      | nil => rfl
      | cons e es =>
        simp only [List.map_cons, hquote]
        split <;> rfl

theorem number_toLower (c : Char) (cs : List Char) :
    number c.toLower (cs.map Char.toLower) = (number c cs).map toLower := by
  have hrest := dropWhile_toLower isFigure_toLower cs
  simp only [number, takeWhile_toLower isFigure_toLower, hrest]
  cases cs.dropWhile isFigure with
  | nil => rfl
  | cons d ds =>
    have hmark : d.toLower = '#' ↔ d = '#' := toLower_eq_iff rfl
    have hpoint : d.toLower = '.' ↔ d = '.' := toLower_eq_iff rfl
    have hstart := bitStringStart?_toLower (d :: ds)
    simp only [List.map_cons] at hstart
    simp only [List.map_cons, hmark, hpoint, startsWithDigit_toLower, hstart]
    split
    · simp [← based_toLower]
    split
    · simp [Except.map, ← fraction_toLower]
    · cases bitStringStart? (d :: ds) with
      | none => simp [Except.map, ← withExponent_toLower]
      | some p => simp [lowerBoth, ← bitString_toLower]

theorem triple?_toLower (c : Char) (cs : List Char) :
    triple? c.toLower (cs.map Char.toLower) = (triple? c cs).map toLower := by
  match cs with
  | [] | [_] => rfl
  | d :: e :: cs =>
    simp [triple?, Compound.ofTriple?_toLower, Function.comp_def, toLower]

theorem pair?_toLower (c : Char) (cs : List Char) :
    pair? c.toLower (cs.map Char.toLower) = (pair? c cs).map toLower := by
  cases cs with
  | nil => rfl
  | cons d cs => simp [pair?, Compound.ofPair?_toLower, Function.comp_def, toLower]

theorem head?_toLower_eq_iff {q : Char} (hq : q.isAlpha = false) {cs : List Char} :
    (cs.map Char.toLower).head? = some q ↔ cs.head? = some q := by
  cases cs with
  | nil => exact .rfl
  | cons c cs => simp [toLower_eq_iff hq]

theorem symbol_toLower {c : Char} (hc : c.toLower = c) (cs : List Char) :
    symbol c (cs.map Char.toLower) = (symbol c cs).map toLower := by
  have htriple := triple?_toLower c cs
  have hpair := pair?_toLower c cs
  rw [hc] at htriple hpair
  have hslash : (cs.map Char.toLower).head? = some '/' ↔ cs.head? = some '/' :=
    head?_toLower_eq_iff rfl
  simp only [symbol, htriple, hpair, hslash]
  cases triple? c cs with
  | some l => rfl
  | none =>
    simp only [Option.map_none]
    split
    · rfl
    · cases pair? c cs with
      | some l => rfl
      | none =>
        simp only [Option.map_none]
        split
        · simp [Except.map, toLower, hc]
        · rfl

theorem singleLineComment_toLower (c : Char) (cs : List Char) :
    singleLineComment c.toLower (cs.map Char.toLower) = (singleLineComment c cs).toLower := by
  have hp : ∀ d, (!isLineEnd (Char.toLower d)) = !isLineEnd d := fun d =>
    congrArg not (isLineEnd_toLower d)
  have htake := takeWhile_toLower (p := fun d => !isLineEnd d) hp cs
  have hdrop := dropWhile_toLower (p := fun d => !isLineEnd d) hp cs
  simp [singleLineComment, htake, hdrop, lineEnd_toLower, lowerBoth, toLower]

theorem multiLineComment_toLower (c : Char) (cs : List Char) :
    multiLineComment c.toLower (cs.map Char.toLower) = (multiLineComment c cs).map toLower := by
  cases cs with
  | nil => rfl
  | cons d cs =>
    simp only [List.map_cons, multiLineComment, commentBody?_toLower]
    cases commentBody? cs with
    | none => rfl
    | some p => rfl

theorem apostrophe_toLower (x : Context) {c : Char} (hc : c.toLower = c) (cs : List Char) :
    apostrophe x c (cs.map Char.toLower) = (apostrophe x c cs).toLower := by
  match cs with
  | [] | [_] => simp [apostrophe, toLower, hc]
  | d :: e :: cs =>
    have hquote : e.toLower = '\x27' ↔ e = '\x27' := toLower_eq_iff rfl
    simp only [List.map_cons, apostrophe, hquote, isLineEnd_toLower]
    split <;> simp [toLower, hc]

theorem special_toLower (x : Context) {c : Char} (hc : c.toLower = c) (cs : List Char) :
    special x c (cs.map Char.toLower) = (special x c cs).map toLower := by
  have hhead {q : Char} (hq : q.isAlpha = false) :
      (cs.map Char.toLower).head? = some q ↔ cs.head? = some q := head?_toLower_eq_iff hq
  have hfraction := fraction_toLower [c] cs
  have hsingle := singleLineComment_toLower c cs
  have hmulti := multiLineComment_toLower c cs
  rw [List.map_singleton, hc] at hfraction
  rw [hc] at hsingle hmulti
  simp only [special, startsWithDigit_toLower, hhead (q := '-') rfl, hhead (q := '*') rfl,
    hfraction, hsingle, hmulti, apostrophe_toLower x hc, symbol_toLower hc]
  split
  · rfl
  split
  · rfl
  split
  · rfl
  split
  · subst c
    rw [delimited?_toLower rfl]
    cases delimited? '\x22' cs with
    | none => rfl
    | some p => rfl
  split
  · rfl
  split
  · subst c
    rw [delimited?_toLower rfl]
    cases delimited? '\x5c' cs with
    | none => rfl
    | some p => rfl
  · rfl

/-- Only letters have two cases. -/
theorem toLower_eq_self {c : Char} (h : Category.ofChar c ≠ .letter) : c.toLower = c := by
  have hall : capitals.all (Category.ofChar · == .letter) = true := by decide
  refine (toLower_eq_or_mem_capitals c).resolve_right fun hc => h ?_
  exact eq_of_beq (List.all_eq_true.1 hall c hc)

/-- **A lexeme in small letters** is what a text in small letters starts with. -/
theorem scan_toLower (x : Context) (c : Char) (cs : List Char) :
    scan x c.toLower (cs.map Char.toLower) = (scan x c cs).map toLower := by
  have hself := @toLower_eq_self c
  unfold scan
  rw [Category.ofChar_toLower]
  cases h : Category.ofChar c with
  | linebreak =>
    have hline := lineEnd_toLower (c :: cs)
    rw [List.map_cons] at hline
    simp [hline, lowerBoth, Except.map, toLower]
  | space =>
    simp [takeWhile_toLower isSpace_toLower, dropWhile_toLower isSpace_toLower, Except.map, toLower]
  | letter => exact word_toLower c cs
  | digit => exact number_toLower c cs
  | special =>
    have hc := hself (by simp [h])
    simp only [hc]
    exact special_toLower x hc cs
  | other =>
    rw [hself (by simp [h])]
    rfl

/-- What the lexer remembers of a lexeme does not depend on case. -/
theorem context_toLower (l : Lexeme) : l.toLower.context = l.context := by
  have htext : String.ofList (l.text.map Char.toLower) = (String.ofList l.text).toLower := by
    simp [toList_toLower, ← String.toList_inj]
  obtain ⟨kind, text, rest⟩ := l
  cases kind <;> simp_all [context, toLower, Keyword.find?_toLower]

end Lexeme

theorem toLower_empty : "".toLower = "" := by
  simp [toList_toLower, ← String.toList_inj]

/-- The token in small letters. -/
def Token.toLower (t : Token) : Token := { t with text := t.text.toLower }

theorem Lexeme.token_toLower (l : Lexeme) (k : Cursor) (c : Char) :
    l.toLower.token k c.toLower = (l.token k c).toLower := by
  have htail : l.toLower.text.tail = l.text.tail.map Char.toLower := List.map_tail.symm
  simp only [token, Token.toLower, htail, Cursor.stamp_toLower, Cursor.stampLast_toLower]
  simp [toLower, toList_toLower, ← String.toList_inj]

theorem tokensFrom_toLower (x : Lexeme.Context) (k : Cursor) (cs : List Char) :
    tokensFrom x k (cs.map Char.toLower) =
      (tokensFrom x k cs).map (Except.map Token.toLower) := by
  fun_induction tokensFrom x k cs with
  | case1 x k =>
    refine Place.tokens_nil.trans ?_
    simp [Except.map, Token.toLower, Token.endOfDocument, toLower_empty]
  | case2 x k c cs fault h =>
    have hscan := Lexeme.scan_toLower x c cs
    rw [h] at hscan
    have herror := Place.tokens_of_error (k := k) hscan
    rwa [Cursor.stamp_toLower] at herror
  | case3 x k c cs l h ih =>
    have hscan := Lexeme.scan_toLower x c cs
    rw [h] at hscan
    refine (Place.tokens_of_ok (k := k) hscan).trans ?_
    rw [List.map_cons, ← ih, Lexeme.token_toLower, Place.after, l.context_toLower]
    simp only [Place.tokens, Lexeme.toLower, Cursor.advanceAll_toLower]
    rfl

/-- **The tokens of a text in small letters** are the tokens of the text, in small letters. -/
theorem tokenize_toLower (source : String) :
    tokenize source.toLower = (tokenize source).map (Except.map Token.toLower) := by
  simp only [tokenize, toList_toLower, tokensFrom_toLower, List.map_cons]
  simp [Except.map, Token.toLower, toLower_empty]

end VhdlOutline
