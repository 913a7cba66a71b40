import VhdlOutline.Lexeme.Category
import VhdlOutline.Token.Kind

/-!
# Lexemes

A lexeme is the piece of text at the start of a source text that forms its first token. `scan` finds
it; the functions before it do so for one sort of lexeme each. They split the text into the lexeme
and what follows, so that no character is lost: this is `scan_extends`.
-/

namespace VhdlOutline

/-- Why a text does not start with a lexeme. -/
inductive LexFault
  /-- A string literal does not end in its line. -/
  | unterminatedString
  /-- An extended identifier does not end in its line. -/
  | unterminatedExtendedIdentifier
  /-- A comment that may span lines does not end. -/
  | unterminatedComment
  /-- A literal with a base lacks its second `#`. -/
  | unterminatedBasedLiteral
  /-- A question mark and a slash without an equals sign after them. -/
  | incompleteOperator
  /-- A character that starts no lexeme. -/
  | illegalCharacter (c : Char)
  deriving DecidableEq

/-- The first piece of a text, the kind of token it forms, and the text after it. -/
structure Lexeme where
  kind : TokenKind
  text : List Char
  rest : List Char
  deriving DecidableEq

namespace Lexeme

/-- What the lexer remembers of the token before. -/
structure Context where
  /-- A line just ended, with a line break or a comment. -/
  afterLine : Bool := false
  /-- An apostrophe here belongs to the name just read. -/
  afterName : Bool := false
  deriving DecidableEq

/-- What the lexer remembers of a lexeme. -/
def context (l : Lexeme) : Context where
  afterLine := l.kind = .linebreak || l.kind = .singleLineComment
  afterName := match l.kind with
    | .word => (Keyword.find? (String.ofList l.text)).isNone
    | .extendedIdentifier => true
    | .character c => c = ')' || c = ']'
    | _ => false

/-! ## Delimited text -/

/-- The text up to and including the mark `q`, within a line. A doubled mark stands for a single
one and does not end the text. -/
def delimited? (q : Char) : List Char → Option (List Char × List Char)
  | [] => none
  | c :: cs =>
    if isLineEnd c then none
    else if c = q then
      match cs with
      | d :: ds =>
        if d = q then (delimited? q ds).map fun (text, rest) => (c :: d :: text, rest)
        else some ([c], d :: ds)
      | [] => some ([c], [])
    else (delimited? q cs).map fun (text, rest) => (c :: text, rest)

/-- The text up to and including the first `*/`. -/
def commentBody? : List Char → Option (List Char × List Char)
  | [] => none
  | c :: cs =>
    match cs with
    | d :: ds =>
      if c = '*' ∧ d = '/' then some ([c, d], ds)
      else (commentBody? (d :: ds)).map fun (text, rest) => (c :: text, rest)
    | [] => none

/-- The line end that a text starts with, if it starts with one. -/
def lineEnd : List Char → List Char × List Char
  | '\r' :: '\n' :: cs => (['\r', '\n'], cs)
  | '\r' :: cs => (['\r'], cs)
  | '\n' :: cs => (['\n'], cs)
  | cs => ([], cs)

/-! ## Words, numbers and bit strings -/

/-- Whether a text is the base of a bit string literal. -/
def isBase (cs : List Char) : Bool :=
  cs.map Text.upperAscii ∈
    [['B'], ['O'], ['X'], ['D'], ['U', 'B'], ['U', 'O'], ['U', 'X'], ['S', 'B'], ['S', 'O'],
      ['S', 'X']]

/-- A bit string literal with the characters `start` up to and including its opening quote. -/
def bitString (start cs : List Char) : Except LexFault Lexeme :=
  match delimited? '\x22' cs with
  | some (body, rest) => .ok ⟨.bitStringLiteral, start ++ body, rest⟩
  | none => .error .unterminatedString

/-- A word, or a bit string literal if the word is a base and a quote follows. -/
def word (c : Char) (cs : List Char) : Except LexFault Lexeme :=
  let text := c :: cs.takeWhile isWordPart
  match cs.dropWhile isWordPart with
  | [] => .ok ⟨.word, text, []⟩
  | d :: rest =>
    if d = '\x22' ∧ isBase text then bitString (text ++ [d]) rest
    else .ok ⟨.word, text, d :: rest⟩

/-- The sign of an exponent, if a text starts with one. -/
def sign : List Char → List Char × List Char
  | c :: cs => if c = '+' ∨ c = '-' then ([c], cs) else ([], c :: cs)
  | [] => ([], [])

/-- Whether a text starts with a digit. -/
def startsWithDigit : List Char → Bool
  | c :: _ => isDigit c
  | [] => false

/-- The exponent that a text starts with, such as `E6` or `e-12`, if it starts with one. -/
def exponent : List Char → List Char × List Char
  | [] => ([], [])
  | c :: cs =>
    let (mark, digits) := sign cs
    if (c = 'e' ∨ c = 'E') ∧ startsWithDigit digits then
      (c :: mark ++ digits.takeWhile isFigure, digits.dropWhile isFigure)
    else ([], c :: cs)

/-- A lexeme of the given kind that an exponent may end. -/
def withExponent (kind : TokenKind) (text cs : List Char) : Lexeme :=
  ⟨kind, text ++ (exponent cs).1, (exponent cs).2⟩

/-- The end of a based literal, such as `FF#` or `1.01#E3`, after the characters `start`. -/
def based (start cs : List Char) : Except LexFault Lexeme :=
  let whole := start ++ cs.takeWhile isWordPart
  match cs.dropWhile isWordPart with
  | [] => .error .unterminatedBasedLiteral
  | c :: cs =>
    if c = '#' then .ok (withExponent .integerLiteral (whole ++ [c]) cs)
    else if c = '.' then
      match cs.dropWhile isWordPart with
      | [] => .error .unterminatedBasedLiteral
      | d :: ds =>
        if d = '#' then
          .ok (withExponent .realLiteral (whole ++ c :: cs.takeWhile isWordPart ++ [d]) ds)
        else .error .unterminatedBasedLiteral
    else .error .unterminatedBasedLiteral

/-- The digits of a number after the point, with its exponent. -/
def fraction (start cs : List Char) : Lexeme :=
  withExponent .realLiteral (start ++ cs.takeWhile isFigure) (cs.dropWhile isFigure)

/-- The base and the opening quote of a bit string literal, if a text starts with them. -/
def bitStringStart? : List Char → Option (List Char × List Char)
  | c :: d :: cs =>
    if d = '\x22' ∧ isBase [c] then some ([c, d], cs)
    else match cs with
      | e :: es => if e = '\x22' ∧ isBase [c, d] then some ([c, d, e], es) else none
      | [] => none
  | _ => none

/-- A number, or a bit string literal with its length in front. -/
def number (c : Char) (cs : List Char) : Except LexFault Lexeme :=
  let digits := c :: cs.takeWhile isFigure
  match cs.dropWhile isFigure with
  | [] => .ok ⟨.integerLiteral, digits, []⟩
  | d :: ds =>
    if d = '#' then based (digits ++ [d]) ds
    else if d = '.' ∧ startsWithDigit ds then .ok (fraction (digits ++ [d]) ds)
    else match bitStringStart? (d :: ds) with
      | some (start, rest) => bitString (digits ++ start) rest
      | none => .ok (withExponent .integerLiteral digits (d :: ds))

/-! ## Symbols, comments and the rest -/

/-- A symbol of three characters. -/
def triple? (c : Char) : List Char → Option Lexeme
  | d :: e :: cs => (Compound.ofTriple? c d e).map fun s => ⟨.compound s, [c, d, e], cs⟩
  | _ => none

/-- A symbol of two characters. -/
def pair? (c : Char) : List Char → Option Lexeme
  | d :: cs => (Compound.ofPair? c d).map fun s => ⟨.compound s, [c, d], cs⟩
  | [] => none

/-- The longest symbol. -/
def symbol (c : Char) (cs : List Char) : Except LexFault Lexeme :=
  match triple? c cs with
  | some l => .ok l
  | none =>
    if c = '?' ∧ cs.head? = some '/' then .error .incompleteOperator
    else match pair? c cs with
      | some l => .ok l
      | none =>
        if isPunctuation c then .ok ⟨.character c, [c], cs⟩ else .error (.illegalCharacter c)

/-- A comment up to and including the end of its line. -/
def singleLineComment (c : Char) (cs : List Char) : Lexeme :=
  let close := lineEnd (cs.dropWhile fun d => !isLineEnd d)
  ⟨.singleLineComment, c :: cs.takeWhile (fun d => !isLineEnd d) ++ close.1, close.2⟩

/-- A comment up to and including its closing mark. -/
def multiLineComment (c : Char) : List Char → Except LexFault Lexeme
  | [] => .error .unterminatedComment
  | d :: cs =>
    match commentBody? cs with
    | some (body, rest) => .ok ⟨.multiLineComment, c :: d :: body, rest⟩
    | none => .error .unterminatedComment

/-- An apostrophe, or the character literal that it starts. -/
def apostrophe (x : Context) (c : Char) : List Char → Lexeme
  | d :: e :: cs =>
    if !x.afterName ∧ e = '\x27' ∧ !isLineEnd d then ⟨.characterLiteral, [c, d, e], cs⟩
    else ⟨.character c, [c], d :: e :: cs⟩
  | cs => ⟨.character c, [c], cs⟩

/-- A lexeme that starts with a special character. -/
def special (x : Context) (c : Char) (cs : List Char) : Except LexFault Lexeme :=
  if c = '.' ∧ startsWithDigit cs then .ok (fraction [c] cs)
  else if c = '-' ∧ cs.head? = some '-' then .ok (singleLineComment c cs)
  else if c = '/' ∧ cs.head? = some '*' then multiLineComment c cs
  else if c = '\x22' then
    match delimited? c cs with
    | some (body, rest) => .ok ⟨.stringLiteral, c :: body, rest⟩
    | none => .error .unterminatedString
  else if c = '\x27' then .ok (apostrophe x c cs)
  else if c = '\x5c' then
    match delimited? c cs with
    | some (body, rest) => .ok ⟨.extendedIdentifier, c :: body, rest⟩
    | none => .error .unterminatedExtendedIdentifier
  else symbol c cs

/-- The lexeme that the text `c :: cs` starts with. -/
def scan (x : Context) (c : Char) (cs : List Char) : Except LexFault Lexeme :=
  match Category.ofChar c with
  | .linebreak => .ok ⟨.linebreak, (lineEnd (c :: cs)).1, (lineEnd (c :: cs)).2⟩
  | .space =>
    .ok ⟨if x.afterLine then .indentation else .space, c :: cs.takeWhile isSpace,
      cs.dropWhile isSpace⟩
  | .letter => word c cs
  | .digit => number c cs
  | .special => special x c cs
  | .other => .error (.illegalCharacter c)

/-! ## No character is lost -/

theorem map_cons_append {x : Option (List Char × List Char)} {c : Char}
    {cs text rest : List Char} (hx : ∀ {t r}, x = some (t, r) → t ++ r = cs)
    (h : (x.map fun (t, r) => (c :: t, r)) = some (text, rest)) : text ++ rest = c :: cs := by
  obtain ⟨⟨t, r⟩, ht, he⟩ := Option.map_eq_some_iff.1 h
  simp only [Prod.mk.injEq] at he
  simp [← he.1, ← he.2, hx ht]

theorem delimited?_append {q : Char} {cs text rest : List Char}
    (h : delimited? q cs = some (text, rest)) : text ++ rest = cs := by
  fun_induction delimited? q cs generalizing text rest with
  | case1 => simp at h
  | case2 => simp at h
  | case3 ds _ ih =>
    refine map_cons_append (x := (delimited? q ds).map fun (t, r) => (q :: t, r))
      (fun hx => map_cons_append ih hx) ?_
    simpa [Function.comp_def] using h
  | case4 =>
    cases h
    rfl
  | case5 =>
    cases h
    rfl
  | case6 c cs _ _ ih => exact map_cons_append ih h

theorem commentBody?_append {cs text rest : List Char}
    (h : commentBody? cs = some (text, rest)) : text ++ rest = cs := by
  fun_induction commentBody? cs generalizing text rest with
  | case1 => simp at h
  | case2 =>
    cases h
    rfl
  | case3 c d ds _ ih => exact map_cons_append ih h
  | case4 => simp at h

theorem lineEnd_append (cs : List Char) : (lineEnd cs).1 ++ (lineEnd cs).2 = cs := by
  unfold lineEnd
  split <;> simp

theorem sign_append (cs : List Char) : (sign cs).1 ++ (sign cs).2 = cs := by
  unfold sign
  split <;> try split
  all_goals simp

theorem exponent_append (cs : List Char) : (exponent cs).1 ++ (exponent cs).2 = cs := by
  cases cs with
  | nil => rfl
  | cons c cs =>
    have h := sign_append cs
    simp only [exponent]
    split
    · simpa using h
    · rfl

/-- The lexeme consists of `start` and a first part of `cs`, and leaves the rest of `cs`. -/
def Extends (l : Lexeme) (start cs : List Char) : Prop :=
  ∃ text, l.text = start ++ text ∧ text ++ l.rest = cs

theorem Extends.append_eq {l : Lexeme} {start cs : List Char} (h : l.Extends start cs) :
    l.text ++ l.rest = start ++ cs := by
  obtain ⟨text, ht, rfl⟩ := h
  simp [ht]

theorem Extends.trans {l : Lexeme} {start more cs : List Char}
    (h : l.Extends (start ++ more) cs) : l.Extends start (more ++ cs) := by
  obtain ⟨text, ht, rfl⟩ := h
  exact ⟨more ++ text, by simp [ht], by simp⟩

theorem withExponent_extends (kind : TokenKind) (text cs : List Char) :
    (withExponent kind text cs).Extends text cs :=
  ⟨(exponent cs).1, rfl, exponent_append cs⟩

theorem fraction_extends (start cs : List Char) : (fraction start cs).Extends start cs := by
  simpa [fraction] using (withExponent_extends .realLiteral (start ++ cs.takeWhile isFigure)
    (cs.dropWhile isFigure)).trans

theorem bitString_extends {start cs : List Char} {l : Lexeme} (h : bitString start cs = .ok l) :
    l.Extends start cs := by
  unfold bitString at h
  split at h
  · rename_i body rest hd
    cases h
    exact ⟨body, rfl, delimited?_append hd⟩
  · cases h

theorem word_extends {c : Char} {cs : List Char} {l : Lexeme} (h : word c cs = .ok l) :
    l.Extends [c] cs := by
  have hs := cs.takeWhile_append_dropWhile (p := isWordPart)
  simp only [word] at h
  split at h
  · rename_i he
    cases h
    exact ⟨_, rfl, by simpa [he] using hs⟩
  · rename_i d rest he
    rw [he] at hs
    split at h
    · have := (@bitString_extends ([c] ++ (cs.takeWhile isWordPart ++ [d])) rest l
        (by simpa using h)).trans
      simpa [hs] using this
    · cases h
      exact ⟨_, rfl, hs⟩

theorem based_extends {start cs : List Char} {l : Lexeme} (h : based start cs = .ok l) :
    l.Extends start cs := by
  have hs := cs.takeWhile_append_dropWhile (p := isWordPart)
  simp only [based] at h
  split at h
  · cases h
  · rename_i c ds he
    have ht := ds.takeWhile_append_dropWhile (p := isWordPart)
    rw [he] at hs
    split at h
    · cases h
      have := withExponent_extends .integerLiteral (start ++ (cs.takeWhile isWordPart ++ [c])) ds
      simpa [hs] using this.trans
    · split at h
      · split at h
        · cases h
        · rename_i d es hd
          rw [hd] at ht
          split at h
          · cases h
            have := withExponent_extends .realLiteral
              (start ++ (cs.takeWhile isWordPart ++ c :: ds.takeWhile isWordPart ++ [d])) es
            simpa [ht, hs] using this.trans
          · cases h
      · cases h

theorem bitStringStart?_append {cs start rest : List Char}
    (h : bitStringStart? cs = some (start, rest)) : start ++ rest = cs := by
  unfold bitStringStart? at h
  split at h
  · split at h
    · cases h
      rfl
    · split at h
      · split at h
        · cases h
          rfl
        · cases h
      · cases h
  · cases h

theorem number_extends {c : Char} {cs : List Char} {l : Lexeme} (h : number c cs = .ok l) :
    l.Extends [c] cs := by
  have hs := cs.takeWhile_append_dropWhile (p := isFigure)
  simp only [number] at h
  split at h
  · rename_i he
    cases h
    exact ⟨_, rfl, by simpa [he] using hs⟩
  · rename_i d ds he
    rw [he] at hs
    split at h
    · have := (@based_extends ([c] ++ (cs.takeWhile isFigure ++ [d])) ds l
        (by simpa using h)).trans
      simpa [hs] using this
    · split at h
      · cases h
        have := (fraction_extends ([c] ++ (cs.takeWhile isFigure ++ [d])) ds).trans
        simpa [hs] using this
      · split at h
        · rename_i start rest hb
          have := (@bitString_extends ([c] ++ (cs.takeWhile isFigure ++ start)) rest l
            (by simpa using h)).trans
          simpa [bitStringStart?_append hb, hs] using this
        · cases h
          have := (withExponent_extends .integerLiteral ([c] ++ cs.takeWhile isFigure)
            (d :: ds)).trans
          simpa [hs] using this

theorem triple?_extends {c : Char} {cs : List Char} {l : Lexeme} (h : triple? c cs = some l) :
    l.Extends [c] cs := by
  unfold triple? at h
  split at h
  · obtain ⟨s, -, rfl⟩ := Option.map_eq_some_iff.1 h
    exact ⟨_, rfl, rfl⟩
  · cases h

theorem pair?_extends {c : Char} {cs : List Char} {l : Lexeme} (h : pair? c cs = some l) :
    l.Extends [c] cs := by
  unfold pair? at h
  split at h
  · obtain ⟨s, -, rfl⟩ := Option.map_eq_some_iff.1 h
    exact ⟨_, rfl, rfl⟩
  · cases h

theorem symbol_extends {c : Char} {cs : List Char} {l : Lexeme} (h : symbol c cs = .ok l) :
    l.Extends [c] cs := by
  unfold symbol at h
  split at h
  · rename_i ht
    cases h
    exact triple?_extends ht
  · split at h
    · cases h
    · split at h
      · rename_i hp
        cases h
        exact pair?_extends hp
      · split at h
        · cases h
          exact ⟨[], rfl, rfl⟩
        · cases h

theorem singleLineComment_extends (c : Char) (cs : List Char) :
    (singleLineComment c cs).Extends [c] cs :=
  ⟨cs.takeWhile (fun d => !isLineEnd d) ++ (lineEnd (cs.dropWhile fun d => !isLineEnd d)).1,
    rfl, by simp [singleLineComment, lineEnd_append]⟩

theorem multiLineComment_extends {c : Char} {cs : List Char} {l : Lexeme}
    (h : multiLineComment c cs = .ok l) : l.Extends [c] cs := by
  unfold multiLineComment at h
  split at h
  · cases h
  · split at h
    · rename_i hb
      cases h
      exact ⟨_, rfl, by simp [commentBody?_append hb]⟩
    · cases h

theorem apostrophe_extends (x : Context) (c : Char) (cs : List Char) :
    (apostrophe x c cs).Extends [c] cs := by
  unfold apostrophe
  split
  · split
    · exact ⟨_, rfl, rfl⟩
    · exact ⟨[], rfl, rfl⟩
  · exact ⟨[], rfl, rfl⟩

theorem special_extends {x : Context} {c : Char} {cs : List Char} {l : Lexeme}
    (h : special x c cs = .ok l) : l.Extends [c] cs := by
  unfold special at h
  split at h
  · cases h
    exact fraction_extends [c] cs
  split at h
  · cases h
    exact singleLineComment_extends c cs
  split at h
  · exact multiLineComment_extends h
  split at h
  · split at h
    · rename_i hd
      cases h
      exact ⟨_, rfl, delimited?_append hd⟩
    · cases h
  split at h
  · cases h
    exact apostrophe_extends x c cs
  split at h
  · split at h
    · rename_i hd
      cases h
      exact ⟨_, rfl, delimited?_append hd⟩
    · cases h
  · exact symbol_extends h

theorem lineEnd_extends {c : Char} (cs : List Char) (h : Category.ofChar c = .linebreak) :
    (Lexeme.mk .linebreak (lineEnd (c :: cs)).1 (lineEnd (c :: cs)).2).Extends [c] cs := by
  have hc : c = '\n' ∨ c = '\r' := by
    unfold Category.ofChar at h
    grind
  rcases hc with rfl | rfl
  · exact ⟨[], rfl, rfl⟩
  · unfold lineEnd
    split
    · rename_i he
      cases he
      exact ⟨_, rfl, rfl⟩
    · rename_i he
      cases he
      exact ⟨[], rfl, rfl⟩
    · rename_i he
      cases he
    · rename_i h₁ _
      exact absurd rfl (h₁ cs)

/-- A lexeme starts with the first character of the text that was scanned, and with the text after
it makes up that text. -/
theorem scan_extends {x : Context} {c : Char} {cs : List Char} {l : Lexeme}
    (h : scan x c cs = .ok l) : l.Extends [c] cs := by
  unfold scan at h
  split at h
  · rename_i hc
    cases h
    exact lineEnd_extends cs hc
  · cases h
    exact ⟨_, rfl, List.takeWhile_append_dropWhile⟩
  · exact word_extends h
  · exact number_extends h
  · exact special_extends h
  · cases h

/-- What follows a lexeme is shorter than the text that was scanned. -/
theorem length_rest_lt_of_scan {x : Context} {c : Char} {cs : List Char} {l : Lexeme}
    (h : scan x c cs = .ok l) : l.rest.length < (c :: cs).length := by
  obtain ⟨text, -, rfl⟩ := scan_extends h
  rw [List.length_cons, List.length_append]
  omega

end Lexeme

end VhdlOutline
