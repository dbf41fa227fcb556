/-! # Similarity of two names

How well a pattern fits into a text as a subsequence. The score rewards characters at the start of
a word and characters in a row, and charges for gaps. It is computed over two rows of cells, one
per prefix of the pattern in turn, and the cells stay in the table from one comparison to the next.

`similarity?` is defined exactly when `leftmost` finds the pattern in the text.
-/
namespace LaunchEditor.Text

inductive CharClass where
  | empty
  | hardSeparator
  | softSeparator
  | digit
  | upper
  | lower
  deriving DecidableEq, Repr

def CharClass.of (c : Char) : CharClass :=
  let within (lo hi : Char) : Bool := lo ≤ c && c ≤ hi
  if c = '\x00' then empty
  else if c ∈ [' ', '/', '\\', '|', '(', ')', '[', ']', '\x7b', '\x7d'] then hardSeparator
  else if within '!' '\x27' || within '*' '.' || within ':' '@' || within '^' '\x60' || c = '~' then
    softSeparator
  else if within '0' '9' then digit
  else if within 'A' 'Z' then upper
  else lower

/-- What a character earns for following one of the given class. -/
def startBonus (before after : CharClass) : Int :=
  match before, after with
  | .empty, _ | .hardSeparator, _ => 8
  | .softSeparator, _ => 7
  | .lower, .upper | .digit, .upper => 6
  | _, _ => 0

/-- Each character with its bonus; the start of the text counts twice. -/
def withBonus (choice : List Char) : List (Char × Int) :=
  let classes := choice.map .of
  let bonuses := List.zipWith startBonus (.empty :: classes) classes
  match choice.zip bonuses with
  | [] => []
  | (c, b) :: rest => (c, 2 * b) :: rest

/-- How characters of a pattern compare: a pattern with an ASCII capital is taken literally. -/
def comparison (pattern : List Char) (p c : Char) : Bool :=
  if pattern.any Char.isUpper then p == c else p.toLower == c.toLower

/-- Positions of the leftmost occurrence of a pattern as a subsequence, counted from `n`. -/
def leftmost (same : Char → Char → Bool) : List Char → List Char → Nat → Option (List Nat)
  | [], _, _ => some []
  | _ :: _, [], _ => none
  | p :: ps, c :: cs, n =>
    if same p c then (leftmost same ps cs (n + 1)).map (n :: ·)
    else leftmost same (p :: ps) cs (n + 1)

/-- One cell of the score table: the best score that ends in a match here, the best one that ends
in a gap here, and the bonus of the run of matches. -/
structure Cell where
  hit : Int
  gap : Int
  run : Int
  deriving DecidableEq, Repr

def Cell.fresh : Cell := ⟨-32768, -32768, 0⟩

/-- Two rows of cells, one after the other. -/
structure ScoreTable where
  cells : Array Cell := #[]

namespace ScoreTable

def cell (t : ScoreTable) (i : Nat) : Cell := t.cells.getD i .fresh

def put (t : ScoreTable) (i : Nat) (c : Cell) : ScoreTable := ⟨t.cells.setIfInBounds i c⟩

/-- Cut or extended to the given size. -/
def resize (t : ScoreTable) (size : Nat) : ScoreTable :=
  ⟨t.cells.take size ++ Array.replicate (size - t.cells.size) .fresh⟩

/-- Ready for a comparison whose leftmost occurrence starts at `first`. -/
def prepare (t : ScoreTable) (cols first : Nat) : ScoreTable :=
  (List.range cols).foldl (fun t i => t.put i ⟨-32768, -1, 0⟩)
    ((t.resize (2 * cols)).put (cols + first) .fresh)

/-- Enters one character of the text at column `col` of `row`; `above` is the other row. -/
def enter (same : Char → Char → Bool) (cols row above : Nat) (p : Char) (t : ScoreTable)
    (entry : (Char × Int) × Nat) : ScoreTable :=
  let ((c, bonus), col) := entry
  let here := row * cols + col
  let last := t.cell (here - 1)
  let prev := t.cell (above * cols + col - 1)
  let gap := max (last.hit - 4) (last.gap - 1)
  if same p c then
    let run := max (max last.run bonus) 4
    let gain : Int := if p = c then 16 else 14
    let t := t.put (here - 1) { last with run }
    t.put here
      { hit := gain + max (prev.hit + run) (prev.gap + bonus), gap, run := (t.cell here).run }
  else t.put here { hit := -32768, gap, run := 0 }

/-- Enters the characters right of `first` for the pattern's character number `i`. -/
def enterRow (same : Char → Char → Bool) (choice : List (Char × Int)) (t : ScoreTable)
    (entry : (Char × Nat) × Nat) : ScoreTable :=
  let ((p, first), i) := entry
  ((choice.zipIdx 1).drop first).foldl
    (enter same (choice.length + 1) ((i + 1) % 2) (i % 2) p) t

/-- The best match in a row, from column `first` on. -/
def best (t : ScoreTable) (cols row first : Nat) : Int :=
  ((List.range cols).drop first).foldl (fun m col => max m (t.cell (row * cols + col)).hit) (-32768)

end ScoreTable

/-- Score of `pattern` in `choice`, and the table that the comparison leaves behind. -/
def similarity? (t : ScoreTable) (choice pattern : List Char) : Option Int × ScoreTable :=
  let same := comparison pattern
  match leftmost same pattern choice 0 with
  | none => (none, t)
  | some [] => (some 0, t)
  | some (first :: firsts) =>
    let cols := choice.length + 1
    let t := ((pattern.zip (first :: firsts)).zipIdx).foldl
      (ScoreTable.enterRow same (withBonus choice)) (t.prepare cols first)
    (some (t.best cols (pattern.length % 2) (firsts.getLastD first)), t)

end LaunchEditor.Text
