import VhdlOutline.Pipeline
import VhdlOutline.Proofs.Lexeme.LetterCase
import VhdlOutline.Proofs.Outline.Renaming

/-!
# Parsing is blind to letter case

Two source texts that are the same in small letters are the same to the parser
(`parseDocument_letterCase`). The lexer cuts them in the same places. Reserved words are found
whatever their case, and all other words are names, which the outline passes on without looking at
them. Only where names are strict the case of extended identifiers counts.
-/

namespace VhdlOutline

theorem keepsWords_toLower : KeepsWords String.toLower := Keyword.find?_toLower

/-- The error with the refused token, if there is one, in small letters. -/
def ParseError.toLower : ParseError → ParseError
  | .outline e => .outline (e.rename String.toLower)
  | .groups e => .groups e

/-- Tokens that are the same in small letters have the same outline. -/
theorem outline_letterCase {xs ys : List (Except LexError Token)}
    (h : xs.map (Except.map Token.toLower) = ys.map (Except.map Token.toLower)) {options : Options}
    (hs : options.strictNames = false) :
    (∃ d d', outline xs options = .ok d ∧ outline ys options = .ok d' ∧
      d.tokens.toList.map Token.toLower = d'.tokens.toList.map Token.toLower ∧
      d.blocks = d'.blocks) ∨
    ∃ e e', outline xs options = .error e ∧ outline ys options = .error e' ∧
      e.rename String.toLower = e'.rename String.toLower := by
  have hx := outline_rename keepsWords_toLower hs xs
  have hy := outline_rename keepsWords_toLower hs ys
  rw [show ys.map (Except.map (Token.rename String.toLower)) = _ from h.symm] at hy
  -- Both are compared with the outline of what they are in small letters.
  rcases hx with ⟨d, c, hd, hc, htokens, hblocks⟩ | ⟨e, he, hc⟩
  · rcases hy with ⟨d', c', hd', hc', htokens', hblocks'⟩ | ⟨e', -, hc'⟩
    · cases hc.symm.trans hc'
      exact .inl ⟨d, d', hd, hd', htokens.symm.trans htokens', hblocks.symm.trans hblocks'⟩
    · cases hc.symm.trans hc'
  · rcases hy with ⟨d', c', -, hc', -⟩ | ⟨e', he', hc'⟩
    · cases hc.symm.trans hc'
    · exact .inr ⟨e, e', he, he', Except.error.inj (hc.symm.trans hc')⟩

/-- **Parsing is blind to letter case.** Of two source texts that are the same in small letters the
lexer makes the same tokens, up to the case of their texts, or the same error after them. Unless
names are strict, both can be parsed or none of them: in the one case the tokens become the same,
and the blocks and groups are the same, in the other case the errors are. -/
theorem parseDocument_letterCase {a b : String} (h : a.toLower = b.toLower) {options : Options}
    (hs : options.strictNames = false) :
    (tokenize a).map (Except.map Token.toLower) = (tokenize b).map (Except.map Token.toLower) ∧
    ((∃ d d' gs, parseDocument a options = .ok (d, gs) ∧
        parseDocument b options = .ok (d', gs) ∧
        d.tokens.toList.map Token.toLower = d'.tokens.toList.map Token.toLower ∧
        d.blocks = d'.blocks) ∨
      ∃ e e', parseDocument a options = .error e ∧ parseDocument b options = .error e' ∧
        e.toLower = e'.toLower) := by
  have htokens : (tokenize a).map (Except.map Token.toLower) =
      (tokenize b).map (Except.map Token.toLower) := by
    rw [← tokenize_toLower, h, tokenize_toLower]
  refine ⟨htokens, ?_⟩
  unfold parseDocument
  rcases outline_letterCase htokens hs with
    ⟨d, d', hd, hd', hlower, hblocks⟩ | ⟨e, e', he, he', hlower⟩
  · simp only [hd, hd', ← hblocks]
    cases groupBlocks d.blocks with
    | error e => exact .inr ⟨_, _, rfl, rfl, rfl⟩
    | ok gs => exact .inl ⟨d, d', gs, rfl, rfl, hlower, hblocks⟩
  · simp only [he, he']
    exact .inr ⟨_, _, rfl, rfl, congrArg ParseError.outline hlower⟩

/-- Case counts neither in reserved words, bit strings and exponents, nor in what stands before an
apostrophe. -/
theorem parseDocument_letterCase_package :
    "Package P Is Constant C : T := X\"aF\" + 1E3 + B'('x'); End;".toLower =
      "PACKAGE p IS CONSTANT c : t := x\"Af\" + 1e3 + b'('X'); END;".toLower ∧
    ∃ d d' gs,
      parseDocument "Package P Is Constant C : T := X\"aF\" + 1E3 + B'('x'); End;" {} =
        .ok (d, gs) ∧
      parseDocument "PACKAGE p IS CONSTANT c : t := x\"Af\" + 1e3 + b'('X'); END;" {} =
        .ok (d', gs) ∧
      d.tokens.toList.map Token.toLower = d'.tokens.toList.map Token.toLower ∧
      d.blocks = d'.blocks := by
  have hlower : "Package P Is Constant C : T := X\"aF\" + 1E3 + B'('x'); End;".toLower =
      "PACKAGE p IS CONSTANT c : t := x\"Af\" + 1e3 + b'('X'); END;".toLower := by
    rw [← String.toList_inj]
    simp only [Text.toList_toLower]
    decide +kernel
  have hok : (parseDocument "Package P Is Constant C : T := X\"aF\" + 1E3 + B'('x'); End;"
      {}).isOk = true := by
    decide +kernel
  obtain ⟨-, h | ⟨e, -, he, -⟩⟩ := @parseDocument_letterCase _ _ hlower {} rfl
  · exact ⟨hlower, h⟩
  · rw [he] at hok
    cases hok

end VhdlOutline
