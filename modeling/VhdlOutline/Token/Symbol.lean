/-!
# Symbols

Punctuation of one character, compound symbols of two or three, and the operators that both stand
for inside an expression.
-/

namespace VhdlOutline

/-- A symbol of two or three characters. -/
inductive Compound
  | varAssign | leq | geq | neq | pow | matchEq | matchNeq | matchLt | matchLeq | matchGt | matchGeq
  | ltGt | arrow | lshift | rshift | condition
  deriving DecidableEq

namespace Compound

/-- All compound symbols. -/
def values : List Compound := [
  .varAssign, .leq, .geq, .neq, .pow, .matchEq, .matchNeq, .matchLt, .matchLeq, .matchGt,
  .matchGeq, .ltGt, .arrow, .lshift, .rshift, .condition]

/-- How the symbol is written. -/
def text : Compound → String
  | .varAssign => ":="
  | .leq => "<="
  | .geq => ">="
  | .neq => "/="
  | .pow => "**"
  | .matchEq => "?="
  | .matchNeq => "?/="
  | .matchLt => "?<"
  | .matchLeq => "?<="
  | .matchGt => "?>"
  | .matchGeq => "?>="
  | .ltGt => "<>"
  | .arrow => "=>"
  | .lshift => "<<"
  | .rshift => ">>"
  | .condition => "??"

/-- The name under which a serialized document writes the symbol. -/
def tag : Compound → String
  | .varAssign => "VarAssign"
  | .leq => "Leq"
  | .geq => "Geq"
  | .neq => "Neq"
  | .pow => "Pow"
  | .matchEq => "MatchEq"
  | .matchNeq => "MatchNeq"
  | .matchLt => "MatchLt"
  | .matchLeq => "MatchLeq"
  | .matchGt => "MatchGt"
  | .matchGeq => "MatchGeq"
  | .ltGt => "LtGt"
  | .arrow => "Arrow"
  | .lshift => "Lshift"
  | .rshift => "Rshift"
  | .condition => "Condition"

/-- The symbol with the given name. -/
def ofTag? (name : String) : Option Compound :=
  values.find? fun s => s.tag == name

/-- The symbol of the given two characters. -/
def ofPair? : Char → Char → Option Compound
  | ':', '=' => some .varAssign
  | '<', '=' => some .leq
  | '>', '=' => some .geq
  | '/', '=' => some .neq
  | '*', '*' => some .pow
  | '?', '=' => some .matchEq
  | '?', '<' => some .matchLt
  | '?', '>' => some .matchGt
  | '?', '?' => some .condition
  | '<', '>' => some .ltGt
  | '=', '>' => some .arrow
  | '<', '<' => some .lshift
  | '>', '>' => some .rshift
  | _, _ => none

/-- The symbol of the given three characters. -/
def ofTriple? : Char → Char → Char → Option Compound
  | '?', '/', '=' => some .matchNeq
  | '?', '<', '=' => some .matchLeq
  | '?', '>', '=' => some .matchGeq
  | _, _, _ => none

end Compound

/-- The characters that form a token alone. -/
def isPunctuation (c : Char) : Bool :=
  c ∈ ['(', ')', '[', ']', '.', ',', ':', ';', '\x27', '&', '=', '<', '>', '+', '-', '*', '/', '|',
    '?', '@', '#', '\x60']

/-- An operator written with symbols. -/
inductive Operator
  | eq | neq | lt | leq | gt | geq | matchEq | matchNeq | matchLt | matchLeq | matchGt | matchGeq
  | add | sub | mul | div | pow | concat | condition
  deriving DecidableEq

namespace Operator

/-- All operators. -/
def values : List Operator := [
  .eq, .neq, .lt, .leq, .gt, .geq, .matchEq, .matchNeq, .matchLt, .matchLeq, .matchGt, .matchGeq,
  .add, .sub, .mul, .div, .pow, .concat, .condition]

/-- How the operator is written. -/
def text : Operator → String
  | .eq => "="
  | .neq => "/="
  | .lt => "<"
  | .leq => "<="
  | .gt => ">"
  | .geq => ">="
  | .matchEq => "?="
  | .matchNeq => "?/="
  | .matchLt => "?<"
  | .matchLeq => "?<="
  | .matchGt => "?>"
  | .matchGeq => "?>="
  | .add => "+"
  | .sub => "-"
  | .mul => "*"
  | .div => "/"
  | .pow => "**"
  | .concat => "&"
  | .condition => "??"

/-- The name under which a serialized document writes the operator. -/
def tag : Operator → String
  | .eq => "Eq"
  | .neq => "Neq"
  | .lt => "Lt"
  | .leq => "Leq"
  | .gt => "Gt"
  | .geq => "Geq"
  | .matchEq => "MatchEq"
  | .matchNeq => "MatchNeq"
  | .matchLt => "MatchLt"
  | .matchLeq => "MatchLeq"
  | .matchGt => "MatchGt"
  | .matchGeq => "MatchGeq"
  | .add => "Add"
  | .sub => "Sub"
  | .mul => "Mul"
  | .div => "Div"
  | .pow => "Pow"
  | .concat => "Concat"
  | .condition => "Condition"

/-- The operator with the given name. -/
def ofTag? (name : String) : Option Operator :=
  values.find? fun o => o.tag == name

/-- The operator that a single character stands for. -/
def ofChar? : Char → Option Operator
  | '=' => some .eq
  | '<' => some .lt
  | '>' => some .gt
  | '+' => some .add
  | '-' => some .sub
  | '*' => some .mul
  | '/' => some .div
  | '&' => some .concat
  | _ => none

/-- The operator that a compound symbol stands for. Assignments, arrows, boxes and the brackets of
external names are none. -/
def ofCompound? : Compound → Option Operator
  | .leq => some .leq
  | .geq => some .geq
  | .neq => some .neq
  | .pow => some .pow
  | .matchEq => some .matchEq
  | .matchNeq => some .matchNeq
  | .matchLt => some .matchLt
  | .matchLeq => some .matchLeq
  | .matchGt => some .matchGt
  | .matchGeq => some .matchGeq
  | .condition => some .condition
  | .varAssign | .ltGt | .arrow | .lshift | .rshift => none

end Operator

end VhdlOutline
