import LaunchEditor.Text.Digit
import LaunchEditor.Yaml.Source

/-! # Scalars as they are written

The text that a scalar stands for in its plain, quoted and block forms. Blanks and line breaks
inside a scalar make a gap; a gap with line breaks is folded, so a single break becomes a space.
-/
namespace LaunchEditor.Yaml

/-- Blanks and breaks between two stretches of a scalar. -/
structure Gap where
  blanks : String := ""
  /-- The first line break, if it counts. -/
  first : String := ""
  /-- The line breaks after the first. -/
  more : String := ""
  broken : Bool := false
  deriving DecidableEq, Repr

namespace Gap

/-- A gap that begins with a line break that does not count. -/
def escaped : Gap := { broken := true }

def add (g : Gap) (c : Char) : Gap :=
  if isGap c then if g.broken then g else { g with blanks := g.blanks.push c }
  else if g.broken then { g with more := g.more.push c }
  else { blanks := "", first := String.singleton c, more := "", broken := true }

def text (g : Gap) : String :=
  if !g.broken then g.blanks
  else if g.first = "\n" then if g.more = "" then " " else g.more
  else g.first ++ g.more

def extend (g : Option Gap) (c : Char) : Option Gap := some ((g.getD {}).add c)

def append (text : String) : Option Gap → String
  | none => text
  | some g => text ++ g.text

end Gap

/-- The characters that end a plain scalar inside brackets. -/
def isFlowIndicator (c : Char) : Bool := c ∈ [',', '[', ']', '\x7b', '\x7d']

namespace Scalar

/-- Reads a plain scalar. It ends before a colon that ends a word, before a comment, at a line
indented by less than `indent`, and inside brackets before an indicator. The flag says that the
cursor behind it is on a new line. -/
def plain (flow : Bool) (indent : Int) (text : String) (gap : Option Gap) :
    List Char → Place → Except Flaw ((String × Bool) × Cursor)
  | [], here => .ok ((text, gap.any (·.broken)), ⟨[], here⟩)
  | c :: r, here =>
    let stop := .ok ((text, gap.any (·.broken)), ⟨c :: r, here⟩)
    if isGapOrBreak c then
      if c = '\t' ∧ gap.any (·.broken) ∧ here.column < indent then .error ⟨.tabIndentation, here⟩
      else plain flow indent text (Gap.extend gap c) r (here.next c)
    else if gap.isSome ∧ (c = '#' ∨ (¬flow ∧ here.column < indent)) then stop
    else if Cursor.atDocumentMark (c :: r) here then stop
    else if flow ∧ c = ':' ∧ r.head?.any (fun d => isFlowIndicator d || d = '?') then
      .error ⟨.colon, here⟩
    else if (c = ':' ∧ endsWord r.head?) ∨ (flow ∧ isFlowIndicator c) then stop
    else plain flow indent ((Gap.append text gap).push c) none r (here.next c)

/-- Reads text in single quotes behind the opening one; two quotes stand for one. -/
def singleQuoted (text : String) (gap : Option Gap) :
    List Char → Place → Except Flaw (String × Cursor)
  | [], here => .error ⟨.unclosedQuote, here⟩
  | c :: r, here =>
    if isGapOrBreak c then singleQuoted text (Gap.extend gap c) r (here.next c)
    else if Cursor.atDocumentMark (c :: r) here then .error ⟨.unclosedQuote, here⟩
    else if c = '\x27' then
      match r with
      | '\x27' :: r =>
        singleQuoted ((Gap.append text gap).push c) none r ((here.next c).next c)
      | r => .ok (Gap.append text gap, ⟨r, here.next c⟩)
    else singleQuoted ((Gap.append text gap).push c) none r (here.next c)

/-- How far an escape sequence has been read: the digits still to come and the number so far. -/
inductive Escape where
  | opened
  | digits (left value : Nat)
  deriving DecidableEq, Repr

/-- Escapes of one letter. -/
def escapes : List (Char × Char) :=
  [('0', '\x00'), ('a', '\x07'), ('b', '\x08'), ('t', '\t'), ('\t', '\t'), ('n', '\n'),
    ('v', '\x0b'), ('f', '\x0c'), ('r', '\r'), ('e', '\x1b'), (' ', ' '), ('\x22', '\x22'),
    ('/', '/'), ('\\', '\\'), ('N', '\u0085'), ('_', '\u00a0'), ('L', '\u2028'), ('P', '\u2029')]

/-- Escapes that are followed by the number of a character, and how many digits that has. -/
def numbered : List (Char × Nat) := [('x', 2), ('u', 4), ('U', 8)]

/-- The character of a number, unless it is a surrogate or too large. -/
def charOf? (n : Nat) : Option Char :=
  if h : n.isValidChar then some (Char.ofNatAux n h) else none

/-- Reads text in double quotes behind the opening one. -/
def doubleQuoted (text : String) (gap : Option Gap) (escape : Option Escape) :
    List Char → Place → Except Flaw (String × Cursor)
  | [], here => .error ⟨.unclosedQuote, here⟩
  | c :: r, here =>
    match escape with
    | some .opened =>
      if isBreak c then doubleQuoted text (some .escaped) none r (here.next c)
      else match escapes.lookup c, numbered.lookup c with
        | some d, _ => doubleQuoted (text.push d) none none r (here.next c)
        | none, some n => doubleQuoted text none (some (.digits n 0)) r (here.next c)
        | none, none => .error ⟨.escape, here⟩
    | some (.digits left value) =>
      match Text.hexDigit? c with
      | none => .error ⟨.escape, here⟩
      | some d =>
        let value := 16 * value + d
        if 1 < left then doubleQuoted text none (some (.digits (left - 1) value)) r (here.next c)
        else match charOf? value with
          | some d => doubleQuoted (text.push d) none none r (here.next c)
          | none => .error ⟨.escape, here⟩
    | none =>
      if isGapOrBreak c then doubleQuoted text (Gap.extend gap c) none r (here.next c)
      else if Cursor.atDocumentMark (c :: r) here then .error ⟨.unclosedQuote, here⟩
      else if c = '\x22' then .ok (Gap.append text gap, ⟨r, here.next c⟩)
      else if c = '\\' then doubleQuoted (Gap.append text gap) none (some .opened) r (here.next c)
      else doubleQuoted ((Gap.append text gap).push c) none none r (here.next c)

/-- What happens to the line breaks at the end of a block scalar. -/
inductive Chomping where
  | strip
  | clip
  | keep
  deriving DecidableEq, Repr

structure BlockStyle where
  /-- A literal block keeps its line breaks, any other folds them. -/
  literal : Bool
  chomping : Chomping := .clip
  /-- Indentation of the block relative to its parent, if the header gives it. -/
  increment : Option Nat := none
  deriving DecidableEq, Repr

structure Block where
  text : String := ""
  /-- The break that ended the last line of text. -/
  lineBreak : String := ""
  /-- The breaks of the empty lines after it. -/
  emptyLines : String := ""
  /-- Whether the last line of text began with a blank. -/
  indented : Bool := false
  /-- Column of the text; unknown before the first line of text if the header does not give it. -/
  indent : Option Nat
  /-- The largest column that blanks reached before the indentation was known. -/
  widest : Nat := 0
  deriving DecidableEq, Repr

namespace Block

/-- Begins a line of text with `c`, having joined it to the line before. -/
def beginLine (style : BlockStyle) (b : Block) (c : Char) : Block :=
  let fold := !style.literal && b.lineBreak == "\n" && !b.indented && !isGap c
  let joint := if fold then if b.emptyLines = "" then " " else "" else b.lineBreak
  { b with
    text := (b.text ++ joint ++ b.emptyLines).push c
    lineBreak := ""
    emptyLines := ""
    indented := isGap c }

def finish (style : BlockStyle) (b : Block) : String :=
  match style.chomping with
  | .strip => b.text
  | .clip => b.text ++ b.lineBreak
  | .keep => b.text ++ b.lineBreak ++ b.emptyLines

/-- The column of the text when its first line begins at `column`. -/
def indentAt (parent : Int) (b : Block) (column : Nat) : Nat :=
  b.indent.getD (max (max b.widest column) (max (parent + 1) 1).toNat)

end Block

/-- Reads the lines of a block scalar; `inLine` says whether a line of text has begun. -/
def block (style : BlockStyle) (parent : Int) (inLine : Bool) (b : Block) :
    List Char → Place → Except Flaw (String × Cursor)
  | [], here => .ok (b.finish style, ⟨[], here⟩)
  | c :: r, here =>
    if inLine then
      if isBreak c then
        block style parent false { b with lineBreak := String.singleton c } r (here.next c)
      else block style parent true { b with text := b.text.push c } r (here.next c)
    else
      let short := b.indent.all (here.column < ·)
      if short ∧ c = ' ' then block style parent false b r (here.next c)
      else if short ∧ c = '\t' then .error ⟨.tabIndentation, here⟩
      else if isBreak c then
        block style parent false
          { b with emptyLines := b.emptyLines.push c, widest := max b.widest here.column }
          r (here.next c)
      else
        let indent := b.indentAt parent here.column
        if here.column = indent then
          block style parent true
            (Block.beginLine style { b with indent := some indent } c) r (here.next c)
        else .ok (b.finish style, ⟨c :: r, here⟩)

/-- The signs behind the indicator of a block: chomping and indentation, in either order. -/
def blockHeader (literal : Bool) (c : Cursor) : Except Flaw (BlockStyle × Cursor) :=
  let sign (c : Cursor) : Option Chomping :=
    match c.peek 0 with
    | some '+' => some .keep
    | some '-' => some .strip
    | _ => none
  let digit (c : Cursor) : Option Nat :=
    (c.peek 0).bind fun d => if d.isDigit then some (d.toNat - '0'.toNat) else none
  let close (chomping : Option Chomping) (increment : Option Nat) (c : Cursor) :
      Except Flaw (BlockStyle × Cursor) :=
    let c := c.skipToLineEnd
    if increment = some 0 then c.fail .blockHeader
    else if (c.peek 0).all isBreak then
      .ok ({ literal, chomping := chomping.getD .clip, increment }, c.skip)
    else c.fail .blockHeader
  match sign c, digit c with
  | some s, _ =>
    match digit c.skip with
    | some n => close (some s) (some n) c.skip.skip
    | none => close (some s) none c.skip
  | none, some n =>
    match sign c.skip with
    | some s => close (some s) (some n) c.skip.skip
    | none => close none (some n) c.skip
  | none, none => close none none c

/-- Reads a block scalar behind its indicator, inside a node indented by `parent`. -/
def blockText (literal : Bool) (parent : Int) (c : Cursor) : Except Flaw (String × Cursor) := do
  let (style, c) ← blockHeader literal c
  let indent := style.increment.map fun n => n + (max parent 0).toNat
  block style parent false { indent } c.rest c.place

end Scalar
end LaunchEditor.Yaml
