import VhdlOutline.Token.Keyword
import VhdlOutline.Token.Symbol

/-!
# Kinds of tokens

The lexer produces the kinds up to extended identifiers. The last three are given to words and
symbols later, once their role is known.
-/

namespace VhdlOutline

/-- What a token is. -/
inductive TokenKind
  | startOfDocument
  | endOfDocument
  /-- A single character of punctuation. -/
  | character (c : Char)
  /-- A symbol of two or three characters. -/
  | compound (s : Compound)
  /-- A word that may be reserved or not. -/
  | word
  | space
  | linebreak
  /-- Spaces at the start of a line. -/
  | indentation
  | singleLineComment
  | multiLineComment
  | integerLiteral
  | realLiteral
  | characterLiteral
  | stringLiteral
  | bitStringLiteral
  | extendedIdentifier
  /-- A word found to be reserved. -/
  | keyword (k : Keyword)
  /-- A word found not to be reserved. -/
  | identifier
  /-- A symbol found to be an operator. -/
  | operator (o : Operator)
  deriving DecidableEq

namespace TokenKind

/-- Blank text and comments, which carry no meaning. -/
def isTrivia : TokenKind → Bool
  | .space | .linebreak | .indentation | .singleLineComment | .multiLineComment => true
  | _ => false

/-- Comments of both forms. -/
def isComment : TokenKind → Bool
  | .singleLineComment | .multiLineComment => true
  | _ => false

/-- Literals of all sorts. -/
def isLiteral : TokenKind → Bool
  | .integerLiteral | .realLiteral | .characterLiteral | .stringLiteral | .bitStringLiteral => true
  | _ => false

/-- The kind in words. -/
def description : TokenKind → String
  | .startOfDocument => "start of document"
  | .endOfDocument => "end of document"
  | .character _ => "character"
  | .compound _ => "operator"
  | .word => "word"
  | .space => "whitespace"
  | .linebreak => "line break"
  | .indentation => "indentation"
  | .singleLineComment => "comment"
  | .multiLineComment => "comment"
  | .integerLiteral => "integer literal"
  | .realLiteral => "real literal"
  | .characterLiteral => "character literal"
  | .stringLiteral => "string literal"
  | .bitStringLiteral => "bit string literal"
  | .extendedIdentifier => "extended identifier"
  | .keyword _ => "keyword"
  | .identifier => "identifier"
  | .operator _ => "operator"

end TokenKind

end VhdlOutline
