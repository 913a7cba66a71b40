import VhdlOutline.Chain
import VhdlOutline.Source.Position
import VhdlOutline.Text.Escaped
import VhdlOutline.Token.Kind

/-!
# Tokens

A token is a piece of source text with its kind and the positions of its first and last character.

* `Token.keyword?` and `Token.isName` tell reserved words from names, whether or not the token has
  been settled as one of them.
* `Token.settled` is the kind a word gets once it is read, and `Token.settledInExpression` also
  turns symbols into operators.
* `TokenChain.text` is the text of a run of tokens.
-/

namespace VhdlOutline

/-- A piece of source text. -/
structure Token where
  kind : TokenKind
  text : String
  /-- The position of the first character. -/
  first : Position
  /-- The position of the last character. -/
  last : Position
  deriving DecidableEq

namespace Token

/-- A token that comes from no source text. -/
def synthetic (kind : TokenKind) (text : String) : Token := ⟨kind, text, .unknown, .unknown⟩

/-- The stretch of source text that the token covers. -/
def span (t : Token) : Span := ⟨t.first, t.last⟩

/-- Whether the token is the single character `c`. -/
def isChar (t : Token) (c : Char) : Bool := t.kind = .character c

/-- Whether the token is the compound symbol `s`. -/
def isCompound (t : Token) (s : Compound) : Bool := t.kind = .compound s

/-- The reserved word that the token is, or spells. -/
def keyword? (t : Token) : Option Keyword :=
  match t.kind with
  | .keyword k => some k
  | .word => Keyword.find? t.text
  | _ => none

/-- Whether the token is the reserved word `k`. -/
def isKeyword (t : Token) (k : Keyword) : Bool := t.keyword? = some k

/-- Whether the token is a name: an extended identifier, or a word that is not reserved. -/
def isName (t : Token) : Bool :=
  match t.kind with
  | .word => (Keyword.find? t.text).isNone
  | .identifier | .extendedIdentifier => true
  | _ => false

/-- The kind of the token once it is read: a word becomes a keyword or an identifier. -/
def settled (t : Token) : TokenKind :=
  match t.kind with
  | .word => match Keyword.find? t.text with
    | some k => .keyword k
    | none => .identifier
  | kind => kind

/-- The kind of the token once it is read as part of an expression: there a symbol becomes an
operator if it stands for one. -/
def settledInExpression (t : Token) : TokenKind :=
  match t.kind with
  | .character c => match Operator.ofChar? c with
    | some o => .operator o
    | none => .character c
  | .compound s => match Operator.ofCompound? s with
    | some o => .operator o
    | none => .compound s
  | _ => t.settled

/-- The token as it appears in a message. -/
def shown (t : Token) : String :=
  match t.kind with
  | .startOfDocument | .endOfDocument | .linebreak => t.kind.description
  | kind => s!"{kind.description} `{Text.escape t.text}`"

end Token

/-- A linked sequence of tokens. -/
abbrev TokenChain := Chain Token

namespace TokenChain

/-- The text of all tokens. -/
def sourceText (ts : TokenChain) : String :=
  String.join (ts.toList.map Token.text)

/-- The tokens from index `i` up to and including index `j`. -/
def range (ts : TokenChain) (i j : Nat) : List Token :=
  (ts.nodes.extract i (j + 1)).toList.map Linked.item

/-- The text of the tokens from index `i` up to and including index `j`. -/
def text (ts : TokenChain) (i j : Nat) : String :=
  String.join ((ts.range i j).map Token.text)

end TokenChain

end VhdlOutline
