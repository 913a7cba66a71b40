import VhdlOutline.Outline.State

/-!
# Reactions of a state to a token

A state looks at a token and decides three things: where blocks end, whether the token is taken or
handed to another state, and which state goes on. It does not change anything itself. It may also
refuse the token.

* `Move` is that decision, `Reaction` adds what is worth a note, and a mismatch of names.
* `Complaint` is the cause of a refusal, `Complaint.message` its wording.
-/

namespace VhdlOutline

/-- Why a state refuses a token. -/
inductive Complaint
  /-- Something else was expected. -/
  | expected (alternatives : List String)
  /-- An interface list lacks its parenthesis after the reserved word. -/
  | missingListOpen (k : Keyword)
  /-- A closing parenthesis has no opening one. -/
  | unmatchedClose
  /-- A parenthesis is still open. -/
  | unclosedParenthesis
  /-- An assignment symbol stands inside an expression. -/
  | assignmentInExpression
  /-- A statement has two labels. -/
  | secondLabel
  /-- The construct is known but not supported. -/
  | notImplemented (what : String)
  deriving DecidableEq

/-- A list of alternatives in words. -/
def alternativesText (alternatives : List String) : String :=
  match alternatives.reverse with
  | [] => "something else"
  | [a] => a
  | a :: others =>
    let list := ", ".intercalate others.reverse
    s!"one of {list} or {a}"

/-- A reserved word as it appears in a list of alternatives. -/
def Keyword.phrase (k : Keyword) : String := s!"keyword {k.upper}"

/-- The complaint about the token `t` in words. -/
def Complaint.message (c : Complaint) (t : Token) : String :=
  match c with
  | .expected alternatives =>
    let list := alternativesText alternatives
    s!"Expected {list} but found {t.shown}."
  | .missingListOpen k => s!"Expected `(` after {k.phrase} but found {t.shown}."
  | .unmatchedClose => s!"Found {t.shown} without a matching `(`."
  | .unclosedParenthesis => s!"Expected `)` before {t.shown}."
  | .assignmentInExpression => s!"Found {t.shown} inside an expression."
  | .secondLabel => s!"Found {t.shown} after a statement label; statements take one label only."
  | .notImplemented what => s!"{what} is not implemented"

/-- Which state goes on. -/
inductive Next
  | goto (s : State)
  /-- The state `sub` goes on, and `resume` once `sub` is through. -/
  | call (resume sub : State)
  /-- The caller goes on. -/
  | return_
  deriving DecidableEq

/-- What a state does with a token. -/
inductive Move
  /-- The token is taken. The block under construction may end before it, and the block with it may
  end with it. -/
  | take (before closing : Option BlockKind) (next : Next)
  /-- The token is handed on. The block under construction may end before it. -/
  | pass (before : Option BlockKind) (next : Next)
  /-- The token is the end of the document. -/
  | finish
  deriving DecidableEq

/-- What is worth a note in the log. -/
inductive Note
  /-- A construct begins. -/
  | entering (k : Keyword) (name : Option String)
  /-- A statement has a label. -/
  | label (name : String)
  deriving DecidableEq

/-- A move with its side effects. -/
structure Reaction where
  move : Move
  note : Option Note := none
  mismatch : Option NameMismatch := none
  deriving DecidableEq

/-- A reaction, or the refusal of the token. -/
abbrev Outcome := Except Complaint Reaction

namespace Outcome

/-- Refuse the token in favour of the given alternatives. -/
def expected (alternatives : List String) : Outcome := .error (.expected alternatives)

/-- Refuse the token because its construct is not supported. -/
def notImplemented (what : String) : Outcome := .error (.notImplemented what)

/-- Take the token as part of the block under construction. -/
def take (s : State) : Outcome := .ok { move := .take none none (.goto s) }

/-- Take the token as the last of a block. -/
def close (kind : BlockKind) (s : State) : Outcome :=
  .ok { move := .take none (some kind) (.goto s) }

/-- Take the token as the last of a block, and return to the caller. -/
def closeReturn (kind : BlockKind) : Outcome := .ok { move := .take none (some kind) .return_ }

/-- End a block before the token, and take the token as the first of the next. -/
def cutTake (before : BlockKind) (s : State) : Outcome :=
  .ok { move := .take (some before) none (.goto s) }

/-- End a block before the token, and take the token as a block. -/
def cutClose (before closing : BlockKind) (s : State) : Outcome :=
  .ok { move := .take (some before) (some closing) (.goto s) }

/-- End a block before the token, take the token as a block, and return to the caller. -/
def cutCloseReturn (before closing : BlockKind) : Outcome :=
  .ok { move := .take (some before) (some closing) .return_ }

/-- Hand the token to another state. -/
def pass (s : State) : Outcome := .ok { move := .pass none (.goto s) }

/-- End a block before the token, and hand the token to another state. -/
def cutPass (before : BlockKind) (s : State) : Outcome :=
  .ok { move := .pass (some before) (.goto s) }

/-- Hand the token to a state that returns to `resume`. -/
def call (resume sub : State) : Outcome := .ok { move := .pass none (.call resume sub) }

/-- End a block before the token, and hand the token to a state that returns to `resume`. -/
def cutCall (before : BlockKind) (resume sub : State) : Outcome :=
  .ok { move := .pass (some before) (.call resume sub) }

/-- End a block before the token, and hand the token to the caller. -/
def cutReturn (before : BlockKind) : Outcome := .ok { move := .pass (some before) .return_ }

/-- Add a note. -/
def noting (note : Note) (o : Outcome) : Outcome := o.map fun r => { r with note := some note }

end Outcome

end VhdlOutline
