import LaunchEditor.Text.Lines

/-! # The screen

Drawing clears the screen and writes the frame from the top left corner, one row per line. Rows are
ended by moving the cursor, since a line feed alone does not return to the first column.
-/
namespace LaunchEditor.Terminal

def clearScreen : String := "\x1b[2J\x1b[1;1H"

def nextRow : String := "\x1b[1E"

def draw (frame : String) : String :=
  clearScreen ++ String.join ((Text.lines frame).map (· ++ nextRow))

/-- Switches to the alternate screen and hides the cursor. -/
def acquire : String := "\x1b[?1049h\x1b[?25l"

def restore : String := "\x1b[?25h\x1b[?1049l"

end LaunchEditor.Terminal
