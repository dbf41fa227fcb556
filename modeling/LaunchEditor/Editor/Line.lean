/-! # One line of text with a cursor

The cursor counts the characters before it.
-/
namespace LaunchEditor

structure LineBuffer where
  text : List Char
  cursor : Nat
  deriving DecidableEq, Repr

namespace LineBuffer

def empty : LineBuffer := ⟨[], 0⟩

def insert (b : LineBuffer) (c : Char) : LineBuffer :=
  ⟨b.text.take b.cursor ++ c :: b.text.drop b.cursor, b.cursor + 1⟩

/-- Removes the character before the cursor, if there is one. -/
def deleteLeft (b : LineBuffer) : LineBuffer :=
  if b.cursor = 0 then b else ⟨b.text.eraseIdx (b.cursor - 1), b.cursor - 1⟩

def moveLeft (b : LineBuffer) : LineBuffer := { b with cursor := b.cursor - 1 }

def moveRight (b : LineBuffer) : LineBuffer :=
  { b with cursor := min (b.cursor + 1) b.text.length }

def before (b : LineBuffer) : List Char := b.text.take b.cursor

/-- The character under the cursor; there is none at the end of the line. -/
def under? (b : LineBuffer) : Option Char := b.text[b.cursor]?

def after (b : LineBuffer) : List Char := b.text.drop (b.cursor + 1)

end LineBuffer
end LaunchEditor
