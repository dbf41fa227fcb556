import LaunchEditor.Text.Pieces

/-! # Lines of a text

A line ends at a line feed, and a carriage return straight before the line feed belongs to the
ending. Text after the last line feed is a line of its own only if there is any.
-/
namespace LaunchEditor.Text

/-- Without the carriage return that ends it. -/
def dropReturn (line : List Char) : List Char :=
  if line.getLast? = some '\r' then line.dropLast else line

/-- All but the last piece were ended by a line feed, so only they can lose a carriage return. -/
def endLines : List (List Char) → List (List Char)
  | [] => []
  | [last] => if last.isEmpty then [] else [last]
  | line :: rest => dropReturn line :: endLines rest

def lines (s : String) : List String :=
  (endLines (pieces (· == '\n') s.toList)).map String.ofList

end LaunchEditor.Text
