import VhdlOutline.Lexeme.Lexer
import VhdlOutline.Lexeme.Stamper

/-!
# The lexer behind a buffer

The characters of a token are taken one by one from a stamper, and a buffer in front of it shows the
few that decide where the token ends. A token under construction is a `Scan`: its text so far, and
the marks of its first and last character.

* `Scanner` is a computation that reads from the buffer. It has no result if the stamper stops.
* `Scanner.scan` reads the token that starts with a given character.
* `BufferedLexer.next?` delivers the next token.
* `bufferedTokens?` are all tokens of a source text.
-/

namespace VhdlOutline

/-- The text and extent of a token under construction. -/
structure Scan where
  text : String
  first : Mark
  last : Mark

namespace Scan

/-- A token that starts with the character `x`. -/
def start (x : Stamped) : Scan := ⟨String.singleton x.char, x.mark, x.mark⟩

def push (s : Scan) (x : Stamped) : Scan := { s with text := s.text.push x.char, last := x.mark }

/-- The finished token. -/
def finish (s : Scan) (kind : TokenKind) : Token :=
  ⟨kind, s.text, s.first.position, s.last.position⟩

/-- The error that the text of the token is not that of a lexeme. -/
def fail (s : Scan) (fault : LexFault) : LexError := ⟨fault, s.first.position⟩

end Scan

/-- A computation that reads from a buffer in front of a stamper. -/
abbrev Scanner := StateT (Text.Lookahead Stamper Stamped) Option

namespace Scanner

/-- Take the next character. -/
def take : Scanner (Option Stamped) := fun l => l.next?

/-- The character `n` places ahead, with its category and place. -/
def look (n : UInt64) : Scanner (Option Stamped) := fun l => l.peek? n

/-- The character `n` places ahead. -/
def peek (n : UInt64) : Scanner (Option Char) :=
  return (← look n).map Stamped.char

/-- Whether the character `n` places ahead is `c`. -/
def isAt (n : UInt64) (c : Char) : Scanner Bool :=
  return (← peek n) == some c

/-- Whether the character `n` places ahead belongs to a category. -/
def isOf (n : UInt64) (category : Category) : Scanner Bool :=
  return (← look n).map Stamped.category == some category

/-- Take the next character into the token. -/
def bump (s : Scan) : Scanner Scan := do
  match ← take with
  | some x => return s.push x
  | none => return s

/-- Take `n` characters into the token. -/
def bumps (s : Scan) : Nat → Scanner Scan
  | 0 => return s
  | n + 1 => do bumps (← bump s) n

end Scanner

/-! ## Runs and delimited text -/

namespace Scan

open Scanner

/-- Take characters into the token as long as they satisfy `p`. -/
def bumpWhile (p : Stamped → Bool) (s : Scan) : Scanner Scan := do
  match ← look 0 with
  | none => return s
  | some x =>
    if p x then
      let _ ← take
      s.push x |>.bumpWhile p
    else return s
partial_fixpoint

/-- Take what is left of a text within a line, up to and including the mark `q`. A doubled mark
stands for a single one and does not end the text. -/
def delimited (q : Char) (fault : LexFault) (s : Scan) : Scanner (Except LexError Scan) := do
  match ← take with
  | none => return .error (s.fail fault)
  | some x =>
    if x.category = .linebreak then return .error (s.fail fault)
    else if x.char = q then
      if ← isAt 0 q then (← bump (s.push x)) |>.delimited q fault
      else return .ok (s.push x)
    else s.push x |>.delimited q fault
partial_fixpoint

/-- Take what is left of a comment, up to and including the first `*/`. -/
def commentBody (s : Scan) : Scanner (Except LexError Scan) := do
  match ← take with
  | none => return .error (s.fail .unterminatedComment)
  | some x =>
    if ← pure (x.char == '*') <&&> isAt 0 '/' then return .ok (← bump (s.push x))
    else s.push x |>.commentBody
partial_fixpoint

end Scan

namespace Scanner

open Scan (bumpWhile delimited commentBody)

/-- Take what is left of a token that ends with the mark `q`. -/
def closed (q : Char) (fault : LexFault) (kind : TokenKind) (s : Scan) :
    Scanner (Except LexError Token) := do
  return (← delimited q fault s).map (Scan.finish · kind)

/-- Take a comment after its first slash. -/
def multiLineComment (s : Scan) : Scanner (Except LexError Token) := do
  return (← commentBody (← bump s)).map (Scan.finish · .multiLineComment)

/-! ## Words and numbers -/

/-- Take an exponent, such as `E6` or `e-12`, if one comes next. -/
def exponent (s : Scan) : Scanner Scan := do
  let mark ← peek 0
  if mark = some 'e' ∨ mark = some 'E' then
    let sign ← peek 1
    let digitsAt : Nat := if sign = some '+' ∨ sign = some '-' then 2 else 1
    if ← isOf digitsAt.toUInt64 .digit then bumpWhile Stamped.isFigure (← bumps s digitsAt)
    else return s
  else return s

/-- Finish a number that an exponent may end. -/
def withExponent (kind : TokenKind) (s : Scan) : Scanner (Except LexError Token) := do
  return .ok ((← exponent s).finish kind)

/-- Whether the base of a bit string literal comes next, of `n` characters, and then a quote. -/
def isBaseNext (n : Nat) : Scanner Bool := do
  if ← isAt n.toUInt64 '\x22' then
    let base ← (List.range n).mapM fun i => peek i.toUInt64
    return (base.mapM id).any Lexeme.isBase
  else return false

/-- Take what is left of a bit string literal, from its base of `n` characters on. -/
def bitString (n : Nat) (s : Scan) : Scanner (Except LexError Token) := do
  let s ← bumps s (n + 1)
  closed '\x22' .unterminatedString .bitStringLiteral s

/-- Take a word, or a bit string literal if the word is a base and a quote follows. -/
def word (s : Scan) : Scanner (Except LexError Token) := do
  let s ← bumpWhile Stamped.isWordPart s
  if ← isAt 0 '\x22' <&&> pure (Lexeme.isBase s.text.toList) then bitString 0 s
  else return .ok (s.finish .word)

/-- Take the closing `#` of a based literal and what follows it. -/
def basedEnd (kind : TokenKind) (s : Scan) : Scanner (Except LexError Token) := do
  if ← isAt 0 '#' then withExponent kind (← bump s)
  else return .error (s.fail .unterminatedBasedLiteral)

/-- Take what is left of a based literal, such as `FF#` or `1.01#E3`. -/
def based (s : Scan) : Scanner (Except LexError Token) := do
  let s ← bumpWhile Stamped.isWordPart s
  if ← isAt 0 '.' then basedEnd .realLiteral (← bumpWhile Stamped.isWordPart (← bump s))
  else basedEnd .integerLiteral s

/-- Take the digits of a number after the point, with its exponent. -/
def fraction (s : Scan) : Scanner (Except LexError Token) := do
  withExponent .realLiteral (← bumpWhile Stamped.isFigure s)

/-- Take what is left of a number without a base or point, or of a bit string literal with its length
in front. -/
def sized (s : Scan) : Scanner (Except LexError Token) := do
  if ← isBaseNext 1 then bitString 1 s
  else if ← isBaseNext 2 then bitString 2 s
  else withExponent .integerLiteral s

/-- Take what is left of a number, or a bit string literal with its length in front. -/
def number (s : Scan) : Scanner (Except LexError Token) := do
  let s ← bumpWhile Stamped.isFigure s
  if ← isAt 0 '#' then based (← bump s)
  else if ← isAt 0 '.' <&&> isOf 1 .digit then fraction (← bump s)
  else sized s

/-! ## Symbols, comments and the rest -/

/-- Take a symbol of three characters, if the next two make one with `c`. -/
def triple? (c : Char) : Scanner (Option Compound) := do
  let d ← peek 0
  let e ← peek 1
  return d.bind fun d => e.bind fun e => Compound.ofTriple? c d e

/-- Take a symbol of two characters, if the next one makes one with `c`. -/
def pair? (c : Char) : Scanner (Option Compound) := do
  return (← peek 0).bind fun d => Compound.ofPair? c d

/-- Take a symbol of two characters or one that starts with `c`. -/
def pair (c : Char) (s : Scan) : Scanner (Except LexError Token) := do
  match ← pair? c with
  | some f => return .ok ((← bump s).finish (.compound f))
  | none =>
    if isPunctuation c then return .ok (s.finish (.character c))
    else return .error (s.fail (.illegalCharacter c))

/-- Refuse a question mark and a slash, which only an equals sign would complete. -/
def incomplete (c : Char) (s : Scan) : Scanner (Except LexError Token) := do
  if ← pure (c == '?') <&&> isAt 0 '/' then return .error ((← bump s).fail .incompleteOperator)
  else pair c s

/-- Take the longest symbol that starts with `c`. -/
def symbol (c : Char) (s : Scan) : Scanner (Except LexError Token) := do
  match ← triple? c with
  | some f => return .ok ((← bumps s 2).finish (.compound f))
  | none => incomplete c s

/-- Take a line feed if one comes next. -/
def lineFeed (s : Scan) : Scanner Scan := do
  if ← isAt 0 '\n' then bump s else return s

/-- Take the end of a line if it comes next. -/
def lineEnd (s : Scan) : Scanner Scan := do
  match ← peek 0 with
  | some '\r' => lineFeed (← bump s)
  | some '\n' => bump s
  | _ => return s

/-- Take the rest of a comment, up to and including the end of its line. -/
def singleLineComment (s : Scan) : Scanner (Except LexError Token) := do
  let s ← bumpWhile (fun x => x.category != .linebreak) s
  return .ok ((← lineEnd s).finish .singleLineComment)

/-- Take a character literal after its first apostrophe, unless the apostrophe stands alone. -/
def apostrophe (x : Lexeme.Context) (s : Scan) : Scanner (Except LexError Token) := do
  if ← pure !x.afterName <&&> isAt 1 '\x27' <&&> (not <$> isOf 0 .linebreak) <&&>
      (return (← peek 0).isSome) then
    return .ok ((← bumps s 2).finish .characterLiteral)
  else return .ok (s.finish (.character '\x27'))

/-- Take what is left of a token that starts with a special character, `c`. -/
def special (x : Lexeme.Context) (c : Char) (s : Scan) : Scanner (Except LexError Token) := do
  if ← pure (c == '.') <&&> isOf 0 .digit then fraction s
  else if ← pure (c == '-') <&&> isAt 0 '-' then singleLineComment s
  else if ← pure (c == '/') <&&> isAt 0 '*' then multiLineComment s
  else if c = '\x22' then closed '\x22' .unterminatedString .stringLiteral s
  else if c = '\x27' then apostrophe x s
  else if c = '\x5c' then
    closed '\x5c' .unterminatedExtendedIdentifier .extendedIdentifier s
  else symbol c s

/-- Read the token that starts with the character `c`, which was just taken. -/
def scan (x : Lexeme.Context) (c : Stamped) : Scanner (Except LexError Token) := do
  let s := Scan.start c
  if c.char = '\r' then return .ok ((← lineFeed s).finish .linebreak)
  else match c.category with
    | .linebreak => return .ok (s.finish .linebreak)
    | .space =>
      let s ← bumpWhile (fun x => x.category = .space) s
      return .ok (s.finish (if x.afterLine then .indentation else .space))
    | .letter => word s
    | .digit => number s
    | .special => special x c.char s
    | .other => return .error (s.fail (.illegalCharacter c.char))

end Scanner

/-- What the lexer remembers of a token. -/
def Token.lexContext (t : Token) : Lexeme.Context :=
  Lexeme.context ⟨t.kind, t.text.toList, []⟩

/-- A lexer with a buffer in front of a stamper. -/
structure BufferedLexer where
  inner : Text.Lookahead Stamper Stamped
  started : Bool
  /-- Whether the end of the document or an error was delivered. -/
  finished : Bool
  /-- What the lexer remembers of the token before. -/
  context : Lexeme.Context

namespace BufferedLexer

/-- The lexer at the start of a source text. -/
def ofSource (source : String) : BufferedLexer :=
  ⟨.ofSupply (.ofSource source), false, false, {}⟩

/-- Deliver the next token or the error; nothing once there is nothing more. -/
def next? (t : BufferedLexer) : Option (Option (Except LexError Token) × BufferedLexer) :=
  if t.finished then some (none, t)
  else if !t.started then some (some (.ok .startOfDocument), { t with started := true })
  else do
    match ← t.inner.next? with
    | (none, inner) =>
      let last ← inner.unread.end?
      return (some (.ok (.endOfDocument last.position)), { t with inner, finished := true })
    | (some c, inner) =>
      match ← Scanner.scan t.context c inner with
      | (.ok token, inner) =>
        return (some (.ok token), { t with inner, context := token.lexContext })
      | (.error e, inner) => return (some (.error e), { t with inner, finished := true })

/-- All that the lexer still delivers. -/
def tokens? (t : BufferedLexer) : Option (List (Except LexError Token)) := do
  match ← t.next? with
  | (none, _) => return []
  | (some x, t) => return x :: (← t |>.tokens?)
partial_fixpoint

end BufferedLexer

/-- The tokens of a source text, read through a buffer. -/
def bufferedTokens? (source : String) : Option (List (Except LexError Token)) :=
  (BufferedLexer.ofSource source).tokens?

end VhdlOutline
