import VhdlOutline.Lexeme.Scan

/-!
# Lexemes do not depend on what follows them

The lexer looks up to three characters ahead before it decides where a lexeme ends. What it sees
there only ever keeps a lexeme from going on: a text that is cut off somewhere after a lexeme starts
with the same lexeme (`Lexeme.scan_persists`). `Lexeme.Persists` says this of each of the scanners.
-/

namespace VhdlOutline

namespace Lexeme

/-! ## Pieces of lexemes -/

/-- Where a longest run of characters ends, the text may as well be cut off. -/
theorem takeWhile_append_of_isPrefix {p : Char → Bool} {cs r : List Char}
    (h : r <+: cs.dropWhile p) :
    (cs.takeWhile p ++ r).takeWhile p = cs.takeWhile p ∧
      (cs.takeWhile p ++ r).dropWhile p = r := by
  have hall : ∀ d ∈ cs.takeWhile p, p d = true := fun d hd => by
    simpa using List.all_eq_true.1 (List.all_takeWhile (l := cs) (p := p)) d hd
  rw [List.takeWhile_append_of_pos hall, List.dropWhile_append_of_pos hall]
  cases r with
  | nil => simp
  | cons d r =>
    obtain ⟨rest, hrest⟩ := h
    have hd := List.head?_dropWhile_not p cs
    rw [← hrest] at hd
    have hd : p d = false := hd
    simp [hd]

theorem delimited?_of_isPrefix {q : Char} {cs text rest r : List Char}
    (h : delimited? q cs = some (text, rest)) (hr : r <+: rest) :
    delimited? q (text ++ r) = some (text, r) := by
  fun_induction delimited? q cs generalizing text rest with
  | case1 => cases h
  | case2 => cases h
  | case3 ds hq ih =>
    obtain ⟨⟨t, u⟩, ht, he⟩ := Option.map_eq_some_iff.1 h
    cases he
    rw [List.cons_append, List.cons_append, delimited?]
    simp [hq, ih ht hr]
  | case4 d ds hd hq =>
    cases h
    rcases List.prefix_cons_iff.1 hr with rfl | ⟨r, rfl, -⟩
    · simp [delimited?, hq]
    · simp [delimited?, hq, hd]
  | case5 hq =>
    cases h
    rw [List.prefix_nil.1 hr]
    simp [delimited?, hq]
  | case6 c cs hl hq ih =>
    obtain ⟨⟨t, u⟩, ht, he⟩ := Option.map_eq_some_iff.1 h
    cases he
    rw [List.cons_append, delimited?.eq_def]
    simp [hl, hq, ih ht hr]

theorem commentBody?_cons {d : Char} {ds text rest : List Char}
    (h : commentBody? (d :: ds) = some (text, rest)) : ∃ more, text = d :: more := by
  unfold commentBody? at h
  split at h
  · split at h
    · cases h
      exact ⟨_, rfl⟩
    · obtain ⟨⟨t, u⟩, -, he⟩ := Option.map_eq_some_iff.1 h
      cases he
      exact ⟨t, rfl⟩
  · cases h

theorem commentBody?_of_isPrefix {cs text rest r : List Char}
    (h : commentBody? cs = some (text, rest)) (hr : r <+: rest) :
    commentBody? (text ++ r) = some (text, r) := by
  fun_induction commentBody? cs generalizing text rest with
  | case1 => cases h
  | case2 c d ds hc =>
    cases h
    simp [commentBody?, hc]
  | case3 c d ds hc ih =>
    obtain ⟨⟨t, u⟩, ht, he⟩ := Option.map_eq_some_iff.1 h
    cases he
    have hi := ih ht hr
    obtain ⟨t, rfl⟩ := commentBody?_cons ht
    rw [List.cons_append] at hi ⊢
    rw [List.cons_append, commentBody?, if_neg hc, hi]
    rfl
  | case4 => cases h

theorem lineEnd_of_isPrefix {cs r : List Char} (hr : r <+: (lineEnd cs).2) :
    lineEnd ((lineEnd cs).1 ++ r) = ((lineEnd cs).1, r) := by
  fun_cases lineEnd cs with
  | case1 => rfl
  | case2 cs hn =>
    rw [lineEnd.eq_2 cs hn] at hr
    cases r with
    | nil => rfl
    | cons d r =>
      obtain ⟨rest, rfl⟩ := hr
      rw [List.singleton_append]
      exact lineEnd.eq_2 _ fun cs he => hn (cs ++ rest) (by rw [he]; rfl)
  | case3 => rfl
  | case4 cs h₁ h₂ h₃ =>
    rw [lineEnd.eq_4 cs h₁ h₂ h₃] at hr
    obtain ⟨rest, rfl⟩ := hr
    refine lineEnd.eq_4 r ?_ ?_ ?_
    · intro cs he
      exact h₁ (cs ++ rest) (by rw [he]; rfl)
    · intro cs he
      exact h₂ (cs ++ rest) (by rw [he]; rfl)
    · intro cs he
      exact h₃ (cs ++ rest) (by rw [he]; rfl)

/-! ## Looking ahead -/

theorem startsWithDigit_of_isPrefix {cs r : List Char} (hr : r <+: cs)
    (h : startsWithDigit r = true) : startsWithDigit cs = true := by
  cases r with
  | nil => cases h
  | cons d r =>
    obtain ⟨rest, rfl⟩ := hr
    exact h

theorem head?_of_isPrefix {cs r : List Char} {c : Char} (hr : r <+: cs) (h : r.head? = some c) :
    cs.head? = some c := by
  obtain ⟨rest, rfl⟩ := hr
  simp [h]

theorem startsWithDigit_sign_of_isPrefix {cs r : List Char} (hr : r <+: cs)
    (h : startsWithDigit (sign r).2 = true) : startsWithDigit (sign cs).2 = true := by
  cases r with
  | nil => cases h
  | cons d r =>
    obtain ⟨rest, rfl⟩ := hr
    rw [List.cons_append]
    simp only [sign] at h ⊢
    split at h
    · rename_i hd
      rw [if_pos hd]
      exact startsWithDigit_of_isPrefix (List.prefix_append r rest) h
    · rename_i hd
      rw [if_neg hd]
      exact h

/-- A sign, or none, is found again before any digits. -/
theorem sign_append_digits {ds : List Char} (cs : List Char) (h : startsWithDigit ds = true) :
    sign ((sign cs).1 ++ ds) = ((sign cs).1, ds) := by
  have hds : sign ds = ([], ds) := by
    cases ds with
    | nil => cases h
    | cons d ds =>
      refine if_neg fun hd => ?_
      have hd : isDigit d = false := by
        rcases hd with rfl | rfl
        · decide
        · decide
      simp [startsWithDigit, hd] at h
  cases cs with
  | nil => exact hds
  | cons c cs =>
    by_cases hc : c = '+' ∨ c = '-'
    · simp [sign, hc]
    · rw [show (sign (c :: cs)).1 = [] by simp [sign, hc], List.nil_append, hds]

theorem startsWithDigit_takeWhile_append {cs : List Char} (r : List Char)
    (h : startsWithDigit cs = true) :
    startsWithDigit (cs.takeWhile isFigure ++ r) = true := by
  cases cs with
  | nil => cases h
  | cons d cs =>
    have hd : isDigit d = true := h
    simp [isFigure, hd, startsWithDigit]

theorem exponent_of_isPrefix {cs r : List Char} (hr : r <+: (exponent cs).2) :
    exponent ((exponent cs).1 ++ r) = ((exponent cs).1, r) := by
  cases cs with
  | nil =>
    rw [List.prefix_nil.1 hr]
    rfl
  | cons c cs =>
    by_cases hc : (c = 'e' ∨ c = 'E') ∧ startsWithDigit (sign cs).2 = true
    · simp only [exponent, if_pos hc] at hr ⊢
      have hd := startsWithDigit_takeWhile_append r hc.2
      obtain ⟨ht, hw⟩ := takeWhile_append_of_isPrefix hr
      simp only [List.cons_append, List.append_assoc, sign_append_digits cs hd, hd, ht, hw,
        and_true, if_pos hc.1]
    · simp only [exponent, if_neg hc] at hr ⊢
      rcases List.prefix_cons_iff.1 hr with rfl | ⟨u, rfl, hu⟩
      · rfl
      · exact if_neg fun h => hc ⟨h.1, startsWithDigit_sign_of_isPrefix hu h.2⟩

/-! ## Lexemes that persist -/

/-- The lexeme consists of `start` and a first part of `cs`, and leaves the rest of `cs`; and the
scanner `f` finds it also in a text that is cut off anywhere after it. -/
def Persists (f : List Char → Except LexFault Lexeme) (start cs : List Char) (l : Lexeme) : Prop :=
  ∃ text, l.text = start ++ text ∧ text ++ l.rest = cs ∧
    ∀ r, r <+: l.rest → f (text ++ r) = .ok { l with rest := r }

/-- A lexeme that ends here persists if it ends here in every shorter text. -/
theorem Persists.stop {kind : TokenKind} {start cs : List Char}
    {f : List Char → Except LexFault Lexeme} (h : ∀ r, r <+: cs → f r = .ok ⟨kind, start, r⟩) :
    Persists f start cs ⟨kind, start, cs⟩ :=
  ⟨[], by simp, rfl, h⟩

/-- It is enough to know the scanner on the shorter texts. -/
theorem Persists.congr {f g : List Char → Except LexFault Lexeme} {start cs : List Char}
    {l : Lexeme} (h : Persists g start cs l) (hf : ∀ u, u <+: cs → f u = g u) :
    Persists f start cs l := by
  obtain ⟨text, ht, hs, hg⟩ := h
  refine ⟨text, ht, hs, fun r hr => ?_⟩
  rw [hf _ (hs ▸ (List.prefix_append_right_inj text).2 hr), hg r hr]

/-- Where a lexeme goes on with the character `d`, it persists if what is found after that does. -/
theorem Persists.cons {start ds : List Char} {d : Char} {l : Lexeme}
    {f g : List Char → Except LexFault Lexeme} (h : Persists g (start ++ [d]) ds l)
    (hf : ∀ r, r <+: ds → f (d :: r) = g r) : Persists f start (d :: ds) l := by
  obtain ⟨text, ht, hs, hg⟩ := h
  refine ⟨d :: text, by simp [ht], by simp [hs], fun r hr => ?_⟩
  rw [List.cons_append, hf _ (hs ▸ (List.prefix_append_right_inj text).2 hr), hg r hr]

/-- Where a lexeme starts with the longest run of certain characters, it persists if what is found
after them does. -/
theorem Persists.takeWhile {p : Char → Bool} {start cs : List Char} {l : Lexeme}
    {f : List Char → List Char → Except LexFault Lexeme}
    (h : Persists (f (start ++ cs.takeWhile p)) (start ++ cs.takeWhile p) (cs.dropWhile p) l) :
    Persists (fun ds => f (start ++ ds.takeWhile p) (ds.dropWhile p)) start cs l := by
  obtain ⟨text, ht, hs, hf⟩ := h
  refine ⟨cs.takeWhile p ++ text, by simp [ht], ?_, fun r hr => ?_⟩
  · rw [List.append_assoc, hs, List.takeWhile_append_dropWhile]
  · have hp : text ++ r <+: cs.dropWhile p := hs ▸ (List.prefix_append_right_inj text).2 hr
    obtain ⟨hw, hd⟩ := takeWhile_append_of_isPrefix hp
    simp only [List.append_assoc, hw, hd, hf r hr]

theorem withExponent_persists (kind : TokenKind) (start cs : List Char) :
    Persists (fun cs => .ok (withExponent kind start cs)) start cs (withExponent kind start cs) :=
  ⟨_, rfl, exponent_append cs, fun r hr => by simp [withExponent, exponent_of_isPrefix hr]⟩

/-- A lexeme that ends with delimited text. -/
def enclosed (kind : TokenKind) (fault : LexFault) (q : Char) (start cs : List Char) :
    Except LexFault Lexeme :=
  match delimited? q cs with
  | some (body, rest) => .ok ⟨kind, start ++ body, rest⟩
  | none => .error fault

theorem enclosed_persists {kind : TokenKind} {fault : LexFault} {q : Char} {start cs : List Char}
    {l : Lexeme} (h : enclosed kind fault q start cs = .ok l) :
    Persists (enclosed kind fault q start) start cs l := by
  unfold enclosed at h
  split at h
  · rename_i body rest hd
    cases h
    refine ⟨body, rfl, delimited?_append hd, fun r hr => ?_⟩
    rw [enclosed, delimited?_of_isPrefix hd hr]
  · cases h

theorem bitString_persists {start cs : List Char} {l : Lexeme} (h : bitString start cs = .ok l) :
    Persists (bitString start) start cs l := by
  have he : enclosed .bitStringLiteral .unterminatedString '\x22' start cs = .ok l := h
  exact enclosed_persists he

theorem lineEnd_persists (kind : TokenKind) (start cs : List Char) :
    Persists (fun cs => .ok ⟨kind, start ++ (lineEnd cs).1, (lineEnd cs).2⟩) start cs
      ⟨kind, start ++ (lineEnd cs).1, (lineEnd cs).2⟩ :=
  ⟨_, rfl, lineEnd_append cs, fun r hr => by simp [lineEnd_of_isPrefix hr]⟩

/-- The digits of a fraction persist together with what depends on there being one. -/
theorem fraction_persists {start cs : List Char} {f : List Char → Except LexFault Lexeme}
    (hf : ∀ ds, startsWithDigit ds = true → f ds = .ok (fraction start ds))
    (h : startsWithDigit cs = true) : Persists f start cs (fraction start cs) := by
  have hp : Persists (fun ds => .ok (fraction start ds)) start cs (fraction start cs) :=
    (withExponent_persists .realLiteral _ _).takeWhile (p := isFigure)
      (f := fun start ds => .ok (withExponent .realLiteral start ds))
  obtain ⟨text, ht, hs, hp⟩ := hp
  refine ⟨text, ht, hs, fun r hr => (hf _ ?_).trans (hp r hr)⟩
  obtain rfl : cs.takeWhile isFigure ++ (exponent (cs.dropWhile isFigure)).1 = text := by
    simpa [fraction, withExponent] using ht
  rw [List.append_assoc]
  exact startsWithDigit_takeWhile_append _ h

/-! ## Words and numbers -/

/-- What `word` finds after the letters and digits. -/
def afterWord (text : List Char) : List Char → Except LexFault Lexeme
  | [] => .ok ⟨.word, text, []⟩
  | d :: rest =>
    if d = '\x22' ∧ isBase text then bitString (text ++ [d]) rest
    else .ok ⟨.word, text, d :: rest⟩

theorem word_eq (c : Char) :
    word c = fun cs => afterWord ([c] ++ cs.takeWhile isWordPart) (cs.dropWhile isWordPart) := by
  funext cs
  simp only [word, afterWord]
  rfl

theorem afterWord_persists {text cs : List Char} {l : Lexeme} (h : afterWord text cs = .ok l) :
    Persists (afterWord text) text cs l := by
  cases cs with
  | nil =>
    cases h
    exact .stop fun r hr => by rw [List.prefix_nil.1 hr]; rfl
  | cons d ds =>
    by_cases hd : d = '\x22' ∧ isBase text = true
    · rw [afterWord, if_pos hd] at h
      exact (bitString_persists h).cons fun r _ => if_pos hd
    · rw [afterWord, if_neg hd] at h
      cases h
      refine .stop fun r hr => ?_
      rcases List.prefix_cons_iff.1 hr with rfl | ⟨u, rfl, -⟩
      · rfl
      · exact if_neg hd

theorem word_persists {c : Char} {cs : List Char} {l : Lexeme} (h : word c cs = .ok l) :
    Persists (word c) [c] cs l := by
  rw [word_eq] at h ⊢
  exact (afterWord_persists h).takeWhile

/-- What `based` finds after the digits behind the point. -/
def basedEnd (text : List Char) : List Char → Except LexFault Lexeme
  | [] => .error .unterminatedBasedLiteral
  | d :: ds =>
    if d = '#' then .ok (withExponent .realLiteral (text ++ [d]) ds)
    else .error .unterminatedBasedLiteral

/-- What `based` finds after the digits before a point. -/
def afterBased (text : List Char) : List Char → Except LexFault Lexeme
  | [] => .error .unterminatedBasedLiteral
  | c :: cs =>
    if c = '#' then .ok (withExponent .integerLiteral (text ++ [c]) cs)
    else if c = '.' then
      basedEnd (text ++ [c] ++ cs.takeWhile isWordPart) (cs.dropWhile isWordPart)
    else .error .unterminatedBasedLiteral

theorem based_eq (start : List Char) :
    based start =
      fun cs => afterBased (start ++ cs.takeWhile isWordPart) (cs.dropWhile isWordPart) := by
  funext cs
  simp only [based, afterBased, basedEnd, List.append_assoc, List.cons_append]
  rfl

theorem basedEnd_persists {text cs : List Char} {l : Lexeme} (h : basedEnd text cs = .ok l) :
    Persists (basedEnd text) text cs l := by
  cases cs with
  | nil => cases h
  | cons d ds =>
    by_cases hd : d = '#'
    · rw [basedEnd, if_pos hd] at h
      cases h
      exact (withExponent_persists .realLiteral (text ++ [d]) ds).cons fun r _ => if_pos hd
    · rw [basedEnd, if_neg hd] at h
      cases h

theorem afterBased_persists {text cs : List Char} {l : Lexeme} (h : afterBased text cs = .ok l) :
    Persists (afterBased text) text cs l := by
  cases cs with
  | nil => cases h
  | cons d ds =>
    by_cases hd : d = '#'
    · rw [afterBased, if_pos hd] at h
      cases h
      exact (withExponent_persists .integerLiteral (text ++ [d]) ds).cons fun r _ => if_pos hd
    · by_cases hp : d = '.'
      · rw [afterBased, if_neg hd, if_pos hp] at h
        refine (basedEnd_persists h).takeWhile.cons fun r _ => ?_
        rw [afterBased, if_neg hd, if_pos hp]
      · rw [afterBased, if_neg hd, if_neg hp] at h
        cases h

theorem based_persists {start cs : List Char} {l : Lexeme} (h : based start cs = .ok l) :
    Persists (based start) start cs l := by
  rw [based_eq] at h ⊢
  exact (afterBased_persists h).takeWhile

theorem bitStringStart?_start_append {cs start rest : List Char}
    (h : bitStringStart? cs = some (start, rest)) (r : List Char) :
    bitStringStart? (start ++ r) = some (start, r) := by
  unfold bitStringStart? at h
  split at h
  · split at h
    · rename_i hd
      cases h
      simp [bitStringStart?, hd]
    · rename_i hd
      split at h
      · split at h
        · rename_i he
          cases h
          simp only [List.cons_append, List.nil_append, bitStringStart?]
          rw [if_neg hd, if_pos he]
        · cases h
      · cases h
  · cases h

/-- Cutting a text off gives it no base. -/
theorem bitStringStart?_eq_none_of_isPrefix {cs r : List Char} (hr : r <+: cs)
    (h : bitStringStart? cs = none) : bitStringStart? r = none := by
  obtain ⟨more, rfl⟩ := hr
  match hb : bitStringStart? r with
  | none => rfl
  | some (start, rest) =>
    have := bitStringStart?_start_append hb (rest ++ more)
    rw [← List.append_assoc, bitStringStart?_append hb, h] at this
    cases this

/-- What `number` finds after the digits. -/
def afterNumber (digits : List Char) : List Char → Except LexFault Lexeme
  | [] => .ok ⟨.integerLiteral, digits, []⟩
  | d :: ds =>
    if d = '#' then based (digits ++ [d]) ds
    else if d = '.' ∧ startsWithDigit ds then .ok (fraction (digits ++ [d]) ds)
    else match bitStringStart? (d :: ds) with
      | some (start, rest) => bitString (digits ++ start) rest
      | none => .ok (withExponent .integerLiteral digits (d :: ds))

theorem number_eq (c : Char) :
    number c = fun cs => afterNumber ([c] ++ cs.takeWhile isFigure) (cs.dropWhile isFigure) := by
  funext cs
  simp only [number, afterNumber]
  rfl

theorem afterNumber_persists {digits cs : List Char} {l : Lexeme}
    (h : afterNumber digits cs = .ok l) : Persists (afterNumber digits) digits cs l := by
  cases cs with
  | nil =>
    cases h
    exact .stop fun r hr => by rw [List.prefix_nil.1 hr]; rfl
  | cons d ds =>
    by_cases hd : d = '#'
    · rw [afterNumber, if_pos hd] at h
      exact (based_persists h).cons fun r _ => if_pos hd
    by_cases hp : d = '.' ∧ startsWithDigit ds = true
    · rw [afterNumber, if_neg hd, if_pos hp] at h
      cases h
      refine (fraction_persists (f := fun ds => afterNumber digits (d :: ds)) (fun u hu => ?_)
        hp.2).cons fun _ _ => rfl
      rw [afterNumber, if_neg hd, if_pos ⟨hp.1, hu⟩]
    have hn : ∀ u, u <+: ds → ¬(d = '.' ∧ startsWithDigit u = true) :=
      fun u hu hc => hp ⟨hc.1, startsWithDigit_of_isPrefix hu hc.2⟩
    rw [afterNumber, if_neg hd, if_neg hp] at h
    split at h
    · rename_i start rest hb
      obtain ⟨body, ht, hs, hf⟩ := bitString_persists h
      have hstart := bitStringStart?_append hb
      refine ⟨start ++ body, by simp [ht], by rw [List.append_assoc, hs, hstart], fun r hr => ?_⟩
      have hpre : start ++ (body ++ r) <+: d :: ds := by
        rw [← hstart, ← hs]
        exact (List.prefix_append_right_inj _).2 ((List.prefix_append_right_inj _).2 hr)
      have hb' := bitStringStart?_start_append hb (body ++ r)
      rw [List.append_assoc]
      rcases List.prefix_cons_iff.1 hpre with he | ⟨u, he, hu⟩
      · rw [he] at hb'
        cases hb'
      · rw [he] at hb' ⊢
        rw [afterNumber, if_neg hd, if_neg (hn u hu), hb']
        exact hf r hr
    · rename_i hb
      cases h
      obtain ⟨text, ht, hs, hf⟩ := withExponent_persists .integerLiteral digits (d :: ds)
      refine ⟨text, ht, hs, fun r hr => ?_⟩
      have hpre : text ++ r <+: d :: ds := hs ▸ (List.prefix_append_right_inj _).2 hr
      rw [← hf r hr]
      rcases List.prefix_cons_iff.1 hpre with he | ⟨u, he, hu⟩
      · rw [he]
        simp [afterNumber, withExponent, exponent]
      · rw [he] at hpre ⊢
        rw [afterNumber, if_neg hd, if_neg (hn u hu),
          bitStringStart?_eq_none_of_isPrefix hpre hb]

theorem number_persists {c : Char} {cs : List Char} {l : Lexeme} (h : number c cs = .ok l) :
    Persists (number c) [c] cs l := by
  rw [number_eq] at h ⊢
  exact (afterNumber_persists h).takeWhile

/-! ## Symbols, comments and the rest -/

theorem triple?_eq_none_of_isPrefix {c : Char} {cs r : List Char} (hr : r <+: cs)
    (h : triple? c cs = none) : triple? c r = none := by
  obtain ⟨more, rfl⟩ := hr
  match r with
  | [] => rfl
  | [d] => rfl
  | d :: e :: r => simpa [triple?] using h

theorem pair?_eq_none_of_isPrefix {c : Char} {cs r : List Char} (hr : r <+: cs)
    (h : pair? c cs = none) : pair? c r = none := by
  obtain ⟨more, rfl⟩ := hr
  cases r with
  | nil => rfl
  | cons d r => simpa [pair?] using h

theorem symbol_persists {c : Char} {cs : List Char} {l : Lexeme} (h : symbol c cs = .ok l) :
    Persists (symbol c) [c] cs l := by
  unfold symbol at h
  split at h
  · rename_i l ht
    cases h
    unfold triple? at ht
    split at ht
    · obtain ⟨s, hs, rfl⟩ := Option.map_eq_some_iff.1 ht
      exact ⟨[_, _], rfl, rfl, fun r _ => by simp [symbol, triple?, hs]⟩
    · cases ht
  rename_i ht
  split at h
  · cases h
  rename_i hi
  have hq : ∀ u, u <+: cs → ¬(c = '?' ∧ u.head? = some '/') :=
    fun u hu hc => hi ⟨hc.1, head?_of_isPrefix hu hc.2⟩
  split at h
  · rename_i l hp
    cases h
    unfold pair? at hp
    split at hp
    · rename_i d ds
      obtain ⟨s, hs, rfl⟩ := Option.map_eq_some_iff.1 hp
      refine ⟨[d], rfl, rfl, fun r hr => ?_⟩
      have hr : d :: r <+: d :: ds := (List.cons_prefix_cons).2 ⟨rfl, hr⟩
      rw [List.singleton_append, symbol, triple?_eq_none_of_isPrefix hr ht]
      simp only [if_neg (hq _ hr), pair?, hs, Option.map_some]
    · cases hp
  rename_i hp
  split at h
  · rename_i hc
    cases h
    refine .stop fun r hr => ?_
    rw [symbol, triple?_eq_none_of_isPrefix hr ht, pair?_eq_none_of_isPrefix hr hp]
    simp only [if_neg (hq _ hr), if_pos hc]
  · cases h

theorem singleLineComment_persists {c d : Char} (ds : List Char) (hd : isLineEnd d = false) :
    Persists (fun ds => .ok (singleLineComment c (d :: ds))) [c, d] ds
      (singleLineComment c (d :: ds)) := by
  have hp := (lineEnd_persists .singleLineComment
    ([c, d] ++ ds.takeWhile fun d => !isLineEnd d) _).takeWhile (p := fun d => !isLineEnd d)
    (f := fun start cs => .ok ⟨.singleLineComment, start ++ (lineEnd cs).1, (lineEnd cs).2⟩)
  simpa [singleLineComment, hd] using hp

theorem multiLineComment_persists {c d : Char} {ds : List Char} {l : Lexeme}
    (h : multiLineComment c (d :: ds) = .ok l) :
    Persists (fun ds => multiLineComment c (d :: ds)) [c, d] ds l := by
  simp only [multiLineComment] at h
  split at h
  · rename_i body rest hb
    cases h
    refine ⟨body, rfl, commentBody?_append hb, fun r hr => ?_⟩
    simp [multiLineComment, commentBody?_of_isPrefix hb hr]
  · cases h

theorem apostrophe_persists (x : Context) (c : Char) (cs : List Char) :
    Persists (fun cs => .ok (apostrophe x c cs)) [c] cs (apostrophe x c cs) := by
  match cs with
  | [] => exact .stop fun r hr => by rw [List.prefix_nil.1 hr]; rfl
  | [d] =>
    refine .stop fun r hr => ?_
    rcases List.prefix_cons_iff.1 hr with rfl | ⟨u, rfl, hu⟩
    · rfl
    · rw [List.prefix_nil.1 hu]
      rfl
  | d :: e :: ds =>
    by_cases h : !x.afterName ∧ e = '\x27' ∧ !isLineEnd d
    · rw [apostrophe, if_pos h]
      refine ⟨[d, e], rfl, rfl, fun r _ => ?_⟩
      simp only [List.cons_append, List.nil_append, apostrophe, if_pos h]
    · rw [apostrophe, if_neg h]
      refine .stop fun r hr => ?_
      rcases List.prefix_cons_iff.1 hr with rfl | ⟨u, rfl, hu⟩
      · rfl
      rcases List.prefix_cons_iff.1 hu with rfl | ⟨v, rfl, -⟩
      · rfl
      · rw [apostrophe, if_neg h]

theorem special_persists {x : Context} {c : Char} {cs : List Char} {l : Lexeme}
    (h : special x c cs = .ok l) : Persists (special x c) [c] cs l := by
  -- A shorter text meets no condition on the next character that `cs` does not meet.
  by_cases hdot : c = '.' ∧ startsWithDigit cs = true
  · rw [special, if_pos hdot] at h
    cases h
    exact fraction_persists (fun ds hd => if_pos ⟨hdot.1, hd⟩) hdot.2
  have ndot : ∀ u, u <+: cs → ¬(c = '.' ∧ startsWithDigit u = true) :=
    fun u hu hc => hdot ⟨hc.1, startsWithDigit_of_isPrefix hu hc.2⟩
  by_cases hline : c = '-' ∧ cs.head? = some '-'
  · rw [special, if_neg hdot, if_pos hline] at h
    cases h
    obtain ⟨ds, rfl⟩ := List.head?_eq_some_iff.1 hline.2
    refine (singleLineComment_persists ds (by decide)).cons fun r hr => ?_
    rw [special, if_neg (ndot _ (List.cons_prefix_cons.2 ⟨rfl, hr⟩)), if_pos ⟨hline.1, rfl⟩]
  have nline : ∀ u, u <+: cs → ¬(c = '-' ∧ u.head? = some '-') :=
    fun u hu hc => hline ⟨hc.1, head?_of_isPrefix hu hc.2⟩
  by_cases hmulti : c = '/' ∧ cs.head? = some '*'
  · rw [special, if_neg hdot, if_neg hline, if_pos hmulti] at h
    obtain ⟨ds, rfl⟩ := List.head?_eq_some_iff.1 hmulti.2
    refine (multiLineComment_persists h).cons fun r hr => ?_
    have hr : '*' :: r <+: '*' :: ds := List.cons_prefix_cons.2 ⟨rfl, hr⟩
    rw [special, if_neg (ndot _ hr), if_neg (nline _ hr), if_pos ⟨hmulti.1, rfl⟩]
  have nmulti : ∀ u, u <+: cs → ¬(c = '/' ∧ u.head? = some '*') :=
    fun u hu hc => hmulti ⟨hc.1, head?_of_isPrefix hu hc.2⟩
  rw [special, if_neg hdot, if_neg hline, if_neg hmulti] at h
  by_cases hq : c = '\x22'
  · rw [if_pos hq] at h
    have he : enclosed .stringLiteral .unterminatedString c [c] cs = .ok l := h
    refine (enclosed_persists he).congr fun u hu => ?_
    rw [special, if_neg (ndot u hu), if_neg (nline u hu), if_neg (nmulti u hu), if_pos hq]
    rfl
  by_cases ha : c = '\x27'
  · rw [if_neg hq, if_pos ha] at h
    cases h
    refine (apostrophe_persists x c cs).congr fun u hu => ?_
    rw [special, if_neg (ndot u hu), if_neg (nline u hu), if_neg (nmulti u hu), if_neg hq,
      if_pos ha]
  by_cases hb : c = '\x5c'
  · rw [if_neg hq, if_neg ha, if_pos hb] at h
    have he : enclosed .extendedIdentifier .unterminatedExtendedIdentifier c [c] cs = .ok l := h
    refine (enclosed_persists he).congr fun u hu => ?_
    rw [special, if_neg (ndot u hu), if_neg (nline u hu), if_neg (nmulti u hu), if_neg hq,
      if_neg ha, if_pos hb]
    rfl
  · rw [if_neg hq, if_neg ha, if_neg hb] at h
    refine (symbol_persists h).congr fun u hu => ?_
    rw [special, if_neg (ndot u hu), if_neg (nline u hu), if_neg (nmulti u hu), if_neg hq,
      if_neg ha, if_neg hb]

/-- A lexeme is found as well in a text that is cut off anywhere after it. -/
theorem scan_persists {x : Context} {c : Char} {cs : List Char} {l : Lexeme}
    (h : scan x c cs = .ok l) : Persists (scan x c) [c] cs l := by
  rw [scan] at h
  cases hc : Category.ofChar c with
  | linebreak =>
    simp only [hc] at h
    cases h
    obtain ⟨text, ht, hs⟩ := lineEnd_extends cs hc
    refine ⟨text, ht, hs, fun r hr => ?_⟩
    have := lineEnd_of_isPrefix hr
    rw [show (lineEnd (c :: cs)).1 = c :: text from ht, List.cons_append] at this
    simp only [scan, hc, this]
    rw [show (lineEnd (c :: cs)).1 = c :: text from ht]
  | space =>
    simp only [hc] at h
    cases h
    have hp : Persists (fun ds => .ok ⟨if x.afterLine then .indentation else .space,
        [c] ++ ds.takeWhile isSpace, ds.dropWhile isSpace⟩) [c] cs _ :=
      (Persists.stop fun _ _ => rfl).takeWhile (p := isSpace)
        (f := fun start ds => .ok ⟨if x.afterLine then .indentation else .space, start, ds⟩)
    refine hp.congr fun u _ => ?_
    rw [scan, hc]
    rfl
  | letter =>
    simp only [hc] at h
    exact (word_persists h).congr fun u _ => by rw [scan, hc]
  | digit =>
    simp only [hc] at h
    exact (number_persists h).congr fun u _ => by rw [scan, hc]
  | special =>
    simp only [hc] at h
    exact (special_persists h).congr fun u _ => by rw [scan, hc]
  | other =>
    simp only [hc] at h
    cases h

end Lexeme

end VhdlOutline
