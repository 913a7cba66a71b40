import VhdlOutline.Diagnostic
import VhdlOutline.Lexeme.Scan
import VhdlOutline.Source.Cursor
import VhdlOutline.Token.Basic

/-!
# The tokens of a source text

`tokenize` cuts a source text into lexemes and stamps them with their positions. The first token is
the start of the document; the sequence ends with the end of the document, or with an error at the
first place where no lexeme starts.
-/

namespace VhdlOutline

/-- A place where no lexeme starts, and why. -/
structure LexError where
  fault : LexFault
  position : Position
  deriving DecidableEq

namespace LexError

/-- The error in words. -/
def message (e : LexError) : String :=
  match e.fault with
  | .unterminatedString => s!"unterminated string literal starting at {e.position.text}"
  | .unterminatedExtendedIdentifier =>
    s!"unterminated extended identifier starting at {e.position.text}"
  | .unterminatedComment => s!"unterminated multi-line comment starting at {e.position.text}"
  | .unterminatedBasedLiteral =>
    s!"based literal starting at {e.position.text} lacks its closing `#`"
  | .incompleteOperator => s!"`?/` at {e.position.text} is not a valid operator"
  | .illegalCharacter c =>
    s!"character `{c}` at {e.position.text} is not allowed in VHDL source text"

/-- The error for a reader. -/
def diagnostic (e : LexError) : Diagnostic :=
  let d := (Diagnostic.mk .error e.message []).withSpan (.ofPosition e.position)
  match e.fault with
  | .unterminatedString => d.withNote
      "Use string concatenation (e.g. \"abc\" & \"def\") to break strings across lines"
  | .incompleteOperator => d.withNote "Valid matching operators are ?=, ?/=, ?<, ?<=, ?>, ?>="
  | _ => d

end LexError

/-- The token of a lexeme that starts with `c` at the cursor. -/
def Lexeme.token (l : Lexeme) (k : Cursor) (c : Char) : Token :=
  ⟨l.kind, String.ofList l.text, k.stamp c, k.stampLast c l.text.tail⟩

/-- The tokens of the text `cs` at the cursor, up to the end of the document or an error. -/
def tokensFrom (x : Lexeme.Context) (k : Cursor) (cs : List Char) :
    List (Except LexError Token) :=
  match cs with
  | [] => [.ok ⟨.endOfDocument, "", k.endPosition, k.endPosition⟩]
  | c :: cs =>
    match _h : Lexeme.scan x c cs with
    | .error fault => [.error ⟨fault, k.stamp c⟩]
    | .ok l => .ok (l.token k c) :: tokensFrom l.context (k.advanceAll l.text) l.rest
termination_by cs.length
decreasing_by exact Lexeme.length_rest_lt_of_scan _h

/-- The tokens of a source text. -/
def tokenize (source : String) : List (Except LexError Token) :=
  .ok ⟨.startOfDocument, "", .start, .start⟩ :: tokensFrom {} .start source.toList

/-- The tokens of a source text as a chain, or its error. -/
def tokenChain (source : String) : Except LexError TokenChain :=
  (tokenize source).foldlM (fun ts t => t.map ts.push) Chain.empty

/-- A character of a source text with its category, its position, and the position after it. -/
structure Character where
  char : Char
  category : Category
  position : Position
  after : Position
  deriving DecidableEq

/-- The characters of the text `cs` at the cursor. -/
def charactersFrom (k : Cursor) : List Char → List Character
  | [] => []
  | c :: cs =>
    ⟨c, .ofChar c, k.stamp c, (k.advance c).endPosition⟩ :: charactersFrom (k.advance c) cs

/-- The characters of a source text. -/
def characters (source : String) : List Character := charactersFrom .start source.toList

/-- The position after a source text. -/
def endPosition (source : String) : Position :=
  (Cursor.start.advanceAll source.toList).endPosition

end VhdlOutline
