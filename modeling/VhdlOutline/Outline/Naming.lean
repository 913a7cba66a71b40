import VhdlOutline.Diagnostic
import VhdlOutline.Outline.Construct
import VhdlOutline.Token.Basic

/-!
# Names after `end`

The end of a construct may repeat its name, or the label of the statement that it is. A name that
is not the construct's own is a mismatch, which is reported as a warning or taken for an error.
-/

namespace VhdlOutline

/-- Whether two names are the same. Case counts only for extended identifiers, which start with a
backslash. -/
def sameName (a b : String) : Bool :=
  if a.toList.head? = some '\x5c' || b.toList.head? = some '\x5c' then a == b
  else Text.lower a == Text.lower b

/-- An open construct: its reserved word, and its name or the label of the statement it is. -/
structure Opening where
  keyword : Keyword
  name : Option String
  deriving DecidableEq

/-- A name found after `end`. -/
structure EndName where
  text : String
  /-- The index of its token. -/
  index : Nat
  position : Position
  deriving DecidableEq

/-- A name after `end` that is not the construct's own. -/
structure NameMismatch where
  /-- The reserved word of the construct. -/
  keyword : Keyword
  /-- The construct's own name, if it has one. -/
  expected : Option String
  found : String
  /-- The index of the token found. -/
  index : Nat
  position : Position
  deriving DecidableEq

namespace NameMismatch

/-- The mismatch in words. -/
def message (m : NameMismatch) : String :=
  match m.expected with
  | some name => s!"`{m.found}` does not match the name `{name}` of the {m.keyword.spelling}"
  | none => s!"`{m.found}` repeats a label the {m.keyword.spelling} does not have"

/-- The mismatch for a reader. -/
def diagnostic (m : NameMismatch) : Diagnostic :=
  let d := (Diagnostic.mk .warning m.message []).withSpan (.ofPosition m.position)
  match m.expected with
  | some name => d.withNote s!"Use `{name}` or omit the name"
  | none => d

end NameMismatch

/-- The mismatch between an open construct and the name at its end, if there is one. -/
def Scope.mismatch? (scope : Scope) (found : EndName) : Option NameMismatch :=
  if scope.name.any (sameName · found.text) then none
  else some ⟨scope.construct.keyword, scope.name, found.text, found.index, found.position⟩

end VhdlOutline
