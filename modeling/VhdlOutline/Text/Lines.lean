/-!
# Lines of a text

A line ends with a line feed, or with a carriage return and a line feed; neither is part of the
line. What follows the last line end is a line of its own unless it is empty. A carriage return
that no line feed follows is an ordinary character here.
-/

namespace VhdlOutline.Text

/-- A line without a carriage return at its end. -/
def dropReturn (line : List Char) : List Char :=
  match line.getLast? with
  | some '\r' => line.dropLast
  | _ => line

/-- The lines of a text, after the characters `line` of the current one, given backwards. -/
def linesFrom (line : List Char) : List Char → List (List Char)
  | [] => if line.isEmpty then [] else [line.reverse]
  | c :: cs =>
    if c = '\n' then dropReturn line.reverse :: linesFrom [] cs else linesFrom (c :: line) cs

/-- The lines of a text. -/
def lines (s : String) : List (List Char) :=
  linesFrom [] s.toList

end VhdlOutline.Text
