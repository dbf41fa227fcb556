/-! # Styled text

Escape sequences for the styles of a frame. A plain theme leaves every text as it is, and no theme
puts sequences around nothing.
-/
namespace LaunchEditor.Terminal

inductive Style where
  /-- The program, switches, image and fixed segments. -/
  | dim
  /-- The selected parameter. -/
  | highlight
  /-- A parameter that differs from its default. -/
  | modified
  /-- The cell under the cursor. -/
  | cursor
  | error
  deriving DecidableEq, Repr

namespace Style

def opening : Style → String
  | dim => "\x1b[38;5;8m"
  | highlight => "\x1b[38;5;12m"
  | modified => "\x1b[38;5;3m\x1b[2m"
  | cursor => "\x1b[7m"
  | error => "\x1b[38;5;9m"

/-- A colour alone is taken back alone, an attribute resets everything. -/
def closing : Style → String
  | dim | highlight | error => "\x1b[39m"
  | modified | cursor => "\x1b[0m"

end Style

structure Theme where
  colored : Bool
  deriving DecidableEq, Repr

def Theme.paint (t : Theme) (style : Style) (text : String) : String :=
  if t.colored ∧ text ≠ "" then style.opening ++ text ++ style.closing else text

end LaunchEditor.Terminal
