import VhdlOutline.Lexeme.Tokens
import VhdlOutline.Outline.Reaction

/-!
# Errors of the outline

Why the outline of a document broke off.
-/

namespace VhdlOutline

/-- An inconsistency of the machine itself. -/
inductive MachineFault
  /-- A state returned that no other had called. -/
  | returnWithoutCall
  /-- The end of the document was accepted inside a construct. -/
  | openConstruct
  /-- A token was handed on without end. -/
  | endlessHandover
  /-- The named table was not there. -/
  | missingTable (what : String)
  /-- A name stood at the end of a construct that had not been declared. -/
  | undeclaredEnd
  /-- A second word was expected at an end that has none. -/
  | missingSecondKeyword
  /-- A type was read in an interface list without types. -/
  | missingTypeKind
  /-- A declaration was admitted that no machine reads. -/
  | missingMachine (k : Keyword)
  /-- An assignment was read as a statement that starts with a reserved word. -/
  | missingKeyword
  /-- An expression was read in a statement without one. -/
  | missingExpression
  /-- A label had no name before its colon. -/
  | missingName
  deriving DecidableEq

/-- The fault in words. -/
def MachineFault.message : MachineFault → String
  | .returnWithoutCall => "return stack underflow"
  | .openConstruct => "end of document inside a construct"
  | .endlessHandover => "token re-issued without progress"
  | .missingTable what => s!"no {what} table in context"
  | .undeclaredEnd => "end of an undeclared construct"
  | .missingSecondKeyword => "second end keyword without table entry"
  | .missingTypeKind => "type item in a list without types"
  | .missingMachine k => s!"no machine for {k.upper}"
  | .missingKeyword => "keyword statement without keyword"
  | .missingExpression => "statement without expression"
  | .missingName => "label without name"

/-- Why the outline broke off. -/
inductive OutlineError
  /-- A state refused a token. -/
  | refused (t : Token) (c : Complaint)
  /-- The tokens ended in the named state, before the end of the document. -/
  | unexpectedEnd (state : String)
  /-- A name after `end` is not the construct's own, and names are strict. -/
  | nameMismatch (m : NameMismatch)
  /-- The source text has no token at some place. -/
  | lexical (e : LexError)
  /-- The machine is inconsistent. -/
  | internal (state : String) (fault : MachineFault)
  deriving DecidableEq

namespace OutlineError

/-- The error in words. -/
def message : OutlineError → String
  | .refused t c => c.message t
  | .unexpectedEnd state => s!"input ended before the end of the document in state {state}"
  | .nameMismatch m => m.message
  | .lexical e => e.message
  | .internal state fault => s!"internal error in state {state}: {fault.message}"

/-- Whether the error is about a construct that is known but not supported. -/
def isNotImplemented : OutlineError → Bool
  | .refused _ (.notImplemented _) => true
  | _ => false

/-- The refused token. -/
def token? : OutlineError → Option Token
  | .refused t _ => some t
  | _ => none

/-- The place of the error, if it has one. -/
def position? : OutlineError → Option Position
  | .refused t _ => some t.first
  | .nameMismatch m => some m.position
  | .lexical e => some e.position
  | .unexpectedEnd _ | .internal .. => none

/-- The error for a reader. -/
def diagnostic (e : OutlineError) : Diagnostic :=
  match e with
  | .refused t (.notImplemented _) =>
    ((Diagnostic.mk .error e.message []).withSpan t.span).withNote
      "This construct is recognized but not supported yet"
  | .refused t _ => (Diagnostic.mk .error e.message []).withSpan t.span
  | .unexpectedEnd _ => ⟨.fatal, e.message, []⟩
  | .nameMismatch m => m.diagnostic
  | .lexical e => e.diagnostic
  | .internal .. => ⟨.bug, e.message, []⟩

end OutlineError

end VhdlOutline
