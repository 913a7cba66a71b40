import VhdlOutline.Text.Alphabetic
import VhdlOutline.Text.Blank

/-!
# Categories of characters

The lexer looks at most characters only through their category.
-/

namespace VhdlOutline

/-- What a character is to the lexer. -/
inductive Category
  | letter
  | digit
  /-- A character with a meaning of its own. -/
  | special
  | space
  | linebreak
  /-- A character that is not allowed outside comments and literals. -/
  | other
  deriving DecidableEq

namespace Category

/-- The characters with a meaning of their own. -/
def specials : List Char :=
  ['\x22', '#', '&', '\x27', '(', ')', '*', '+', ',', '-', '.', '/', ':', ';', '<', '=', '>', '?',
    '@', '[', ']', '_', '\x60', '|', '\x5c']

/-- The category of a character. -/
def ofChar (c : Char) : Category :=
  if c ∈ specials then .special
  else if c = '\n' ∨ c = '\r' then .linebreak
  else if Text.isAlphabetic c then .letter
  else if c.isDigit then .digit
  else if Text.isBlank c then .space
  else .other

/-- The name under which an answer writes the category. -/
def tag : Category → String
  | .letter => "Letter"
  | .digit => "Digit"
  | .special => "Special"
  | .space => "Space"
  | .linebreak => "Linebreak"
  | .other => "Other"

end Category

/-- A letter in the widest sense. -/
def isLetter (c : Char) : Bool := Category.ofChar c = .letter

/-- One of the ten digits. -/
def isDigit (c : Char) : Bool := Category.ofChar c = .digit

/-- A blank that does not end a line. -/
def isSpace (c : Char) : Bool := Category.ofChar c = .space

/-- A line feed or carriage return. -/
def isLineEnd (c : Char) : Bool := Category.ofChar c = .linebreak

/-- What a number consists of: digits and underscores. -/
def isFigure (c : Char) : Bool := isDigit c || c = '_'

/-- What a word consists of after its first letter: letters, digits and underscores. -/
def isWordPart (c : Char) : Bool := isLetter c || isDigit c || c = '_'

end VhdlOutline
