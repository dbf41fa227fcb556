/-! # Keys

The key presses that the editor tells apart.
-/
namespace LaunchEditor

inductive Key where
  | enter
  | tab
  | backTab
  | escape
  | backspace
  | left
  | right
  | up
  | down
  /-- Control and C together. -/
  | interrupt
  | char (c : Char)
  | other
  deriving DecidableEq, Repr

namespace Key

/-- ASCII letters and digits, the characters that begin an edit. -/
def isEditStart (c : Char) : Bool := c.isAlphanum

/-- Printable ASCII, the characters that an edit can hold. -/
def isInsertable (c : Char) : Bool := ' ' ≤ c && c ≤ '~'

end Key
end LaunchEditor
