import LaunchEditor.Text.Blank

/-! # Cutting a text into pieces

`pieces p` cuts at every character that satisfies `p` and keeps empty pieces, so a text with `n`
cuts has `n + 1` pieces. `words` keeps the pieces between blanks that are not empty.
-/
namespace LaunchEditor.Text

def pieces (p : Char → Bool) : List Char → List (List Char)
  | [] => [[]]
  | c :: r =>
    if p c then [] :: pieces p r
    else match pieces p r with
      | [] => [[c]]
      | w :: ws => (c :: w) :: ws

theorem pieces_ne_nil (p : Char → Bool) (cs : List Char) : pieces p cs ≠ [] := by
  cases cs with
  | nil => simp [pieces]
  | cons c r =>
    rw [pieces]
    split
    · simp
    · split <;> simp

/-- Pieces of a text between the occurrences of one character. -/
def splitOn (sep : Char) (s : String) : List String :=
  (pieces (· == sep) s.toList).map String.ofList

def words (s : String) : List String :=
  ((pieces isBlank s.toList).filter (!·.isEmpty)).map String.ofList

end LaunchEditor.Text
