import VhdlOutline.Source.Position
import VhdlOutline.Text.Lines

/-!
# Diagnostics

What is told to a reader about a fault: how bad it is, a message, and any number of places and
notes.

* `Diagnostic.text` lists the places and notes below the message.
* `Diagnostic.render` shows for each place the line of source text it begins in, and marks the
  stretch below it.
-/

namespace VhdlOutline

/-- How bad a fault is. -/
inductive Severity
  | warning
  | error
  | fatal
  /-- A fault of the parser itself. -/
  | bug
  deriving DecidableEq

namespace Severity

/-- The word for a severity. -/
def name : Severity → String
  | .warning => "warning"
  | .error => "error"
  | .fatal => "fatal"
  | .bug => "parser bug"

/-- Severities in ascending order. -/
def rank : Severity → Nat
  | .warning => 0
  | .error => 1
  | .fatal => 2
  | .bug => 3

/-- Whether `s` is worse than `t`. -/
def exceeds (s t : Severity) : Bool := t.rank < s.rank

end Severity

/-- A detail of a diagnostic. -/
inductive Segment
  /-- A place in the source text. -/
  | span (s : Span)
  /-- A remark. -/
  | note (message : String)
  deriving DecidableEq

/-- A message for a reader. -/
structure Diagnostic where
  severity : Severity
  message : String
  segments : List Segment := []
  deriving DecidableEq

namespace Diagnostic

/-- Add a place. -/
def withSpan (d : Diagnostic) (s : Span) : Diagnostic :=
  { d with segments := d.segments ++ [.span s] }

/-- Add a remark. -/
def withNote (d : Diagnostic) (note : String) : Diagnostic :=
  { d with segments := d.segments ++ [.note note] }

/-- The first line: severity and message. -/
def header (d : Diagnostic) : String :=
  s!"{d.severity.name}: {d.message}\n"

/-- The line for a place. -/
def locationLine (s : Span) : String := s!"  --> {s.text}\n"

/-- The line for a remark. -/
def noteLine (note : String) : String := s!"   = note: {note}\n"

/-- What is added when the parser itself is at fault. -/
def bugNotice : String :=
  "\nYou have encountered a parser bug. Sorry about that! We would appreciate if you open an issue [1] and describe how you triggered the bug, together with a minimal snippet of code to reproduce it. Thanks!\n[1]: https://github.com/fabianschuiki/moore\n"

/-- The diagnostic without any source text. -/
def text (d : Diagnostic) : String :=
  let segment : Segment → String
    | .span s => locationLine s
    | .note n => noteLine n
  d.header ++ String.join (d.segments.map segment) ++
    (if d.severity = .bug then bugNotice else "")

/-! ## Rendering beside the source text -/

/-- A tab is shown as four spaces. -/
def shownChar (c : Char) : List Char :=
  if c = '\t' then [' ', ' ', ' ', ' '] else [c]

/-- The number of columns that the first `n` characters of a line take. -/
def shownWidth (n : Nat) (line : List Char) : Nat :=
  ((line.take n).flatMap shownChar).length

/-- The number of carets below a span: its length if it ends in the line it begins in. -/
def markWidth (s : Span) : Nat :=
  if s.last.line = s.first.line ∧ s.first.column ≤ s.last.column then
    s.last.column - s.first.column + 1
  else 1

/-- A source line with the carets below it. -/
def excerpt (s : Span) (line : List Char) : String :=
  let shown := String.ofList (line.flatMap shownChar)
  let indent := String.ofList (List.replicate (shownWidth (s.first.column - 1) line) ' ')
  let marks := String.ofList (List.replicate (markWidth s) '^')
  s!"   | \n   | {shown}\n   | {indent}{marks}\n"

/-- The lines for a place: the location, and the source line if there is such a line. -/
def renderSpan (lines : List (List Char)) (s : Span) : String :=
  if !s.first.isKnown || s.first.line == 0 then locationLine s
  else match lines[s.first.line - 1]? with
    | some line => locationLine s ++ excerpt s line
    | none => locationLine s

/-- The diagnostic beside the source text it is about. -/
def render (d : Diagnostic) (content : String) : String :=
  let lines := Text.lines content
  let segment : Segment → String
    | .span s => renderSpan lines s
    | .note n => noteLine n
  d.header ++ String.join (d.segments.map segment)

end Diagnostic

end VhdlOutline
