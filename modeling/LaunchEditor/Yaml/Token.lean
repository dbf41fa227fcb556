import LaunchEditor.Yaml.Tag

/-! # Tokens of a document

The text is cut into tokens that make its structure explicit: indentation becomes the starts and
ends of blocks, and a key that stands before a colon is marked as one, although the colon is only
seen after the key has been read. Such a key has to lie on one line, within 1024 octets.

Tokens are taken as far as the text is sound. Of those before a flaw, the ones behind a key that
still waits for its colon cannot be told, since that colon would put tokens in front of them.
-/
namespace LaunchEditor.Yaml

inductive TokenKind where
  | versionDirective (major minor : Nat)
  | tagDirective (handle : String) (lead : List UInt8)
  | documentStart
  | documentEnd
  | blockSequenceStart
  | blockMappingStart
  | blockEnd
  | flowSequenceStart
  | flowSequenceEnd
  | flowMappingStart
  | flowMappingEnd
  | blockEntry
  | flowEntry
  | key
  | value
  | aliasOf (name : String)
  | anchor (name : String)
  | tag (written : Tag.Written)
  | scalar (plain : Bool) (text : String)
  deriving DecidableEq, Repr

structure Token where
  kind : TokenKind
  place : Place
  /-- The place behind the token. -/
  stop : Place
  deriving Repr

/-- A token that turns out to begin a key if a colon follows in time. -/
structure KeyCandidate where
  /-- Number of the token. -/
  index : Nat
  place : Place
  /-- Whether nothing but a key can stand here. -/
  required : Bool
  deriving Repr

structure Scan where
  cursor : Cursor
  /-- What is wrong behind the end of the text. -/
  flaw : Option Flaw := none
  /-- The last token first. -/
  tokens : List Token := []
  /-- Number of tokens. -/
  size : Nat := 0
  /-- Column of the innermost block; -1 outside of blocks. -/
  indent : Int := -1
  outer : List Int := []
  keyAllowed : Bool := true
  /-- The candidate outside of brackets. -/
  outside : Option KeyCandidate := none
  /-- The candidate inside each open bracket, the innermost first. -/
  inside : List (Option KeyCandidate) := []

namespace Scan

/-- Whether there are open brackets. -/
def flow (s : Scan) : Bool := !s.inside.isEmpty

/-- The innermost candidate. -/
def candidate (s : Scan) : Option KeyCandidate := s.inside.head?.getD s.outside

def setCandidate (s : Scan) (k : Option KeyCandidate) : Scan :=
  match s.inside with
  | [] => { s with outside := k }
  | _ :: rest => { s with inside := k :: rest }

def emit (s : Scan) (kind : TokenKind) (place stop : Place) : Scan :=
  { s with tokens := ⟨kind, place, stop⟩ :: s.tokens, size := s.size + 1 }

def emitAt (s : Scan) (kind : TokenKind) (index : Nat) (place : Place) : Scan :=
  { s with
    tokens := s.tokens.insertIdx (s.size - index) ⟨kind, place, place⟩
    size := s.size + 1 }

/-- Emits a token of one character. -/
def emitSign (s : Scan) (kind : TokenKind) : Scan :=
  let next := s.cursor.skip
  { s.emit kind s.cursor.place next.place with cursor := next }

/-- Past blanks, comments and line breaks. A tab counts as a blank except where a block's
indentation can stand, and a new line outside of brackets allows a key again. -/
def skipFrom (flow keyAllowed comment : Bool) : List Char → Place → Bool × Cursor
  | [], here => (keyAllowed, ⟨[], here⟩)
  | c :: r, here =>
    if isBreak c then skipFrom flow (keyAllowed || !flow) false r (here.next c)
    else if comment || c = ' ' || (c = '\ufeff' && here.column = 0) ||
        (c = '\t' && (flow || !keyAllowed)) then
      skipFrom flow keyAllowed comment r (here.next c)
    else if c = '#' then skipFrom flow keyAllowed true r (here.next c)
    else (keyAllowed, ⟨c :: r, here⟩)

def skipBlanks (s : Scan) : Scan :=
  let (keyAllowed, cursor) := skipFrom s.flow s.keyAllowed false s.cursor.rest s.cursor.place
  { s with keyAllowed, cursor }

def isStale (now : Place) (k : KeyCandidate) : Bool :=
  k.place.line < now.line || k.place.octet + 1024 < now.octet

/-- Gives up the innermost candidate if it can no longer be a key. Those around it can wait until
they are the innermost, but not one that has to be a key, which is always outside of brackets. -/
def expire (s : Scan) : Except Flaw Scan :=
  let stale := isStale s.cursor.place
  match s.outside.filter fun k => k.required && stale k with
  | some k => .error ⟨.unfinishedKey, k.place⟩
  | none => .ok (if s.candidate.any stale then s.setCandidate none else s)

/-- Gives up the innermost candidate. -/
def dropCandidate (s : Scan) : Except Flaw Scan :=
  match s.candidate.filter (·.required) with
  | some k => .error ⟨.unfinishedKey, k.place⟩
  | none => .ok (s.setCandidate none)

/-- Makes the token at the cursor a candidate, where a key is allowed. -/
def offerKey (s : Scan) : Except Flaw Scan := do
  if !s.keyAllowed then return s
  let required := !s.flow && s.indent == s.cursor.place.column
  let k : KeyCandidate := { index := s.size, place := s.cursor.place, required }
  return (← s.dropCandidate).setCandidate k

/-- Opens a block at a column further right than the innermost one. -/
def openBlock (s : Scan) (kind : TokenKind) (index : Nat) (place : Place) : Scan :=
  if !s.flow && s.indent < place.column then
    { s.emitAt kind index place with indent := place.column, outer := s.indent :: s.outer }
  else s

/-- Closes the blocks further right than `column`. -/
def closeBlocks (s : Scan) (column : Int) : Scan :=
  if s.flow then s else go s.outer s
where
  go : List Int → Scan → Scan
    | [], s => s
    | i :: outer, s =>
      if column < s.indent then
        go outer { s.emit .blockEnd s.cursor.place s.cursor.place with indent := i, outer }
      else s

/-- Leaves all blocks, before a directive or the start or end of a document. -/
def leaveBlocks (s : Scan) : Except Flaw Scan := do
  let s ← (s.closeBlocks (-1)).dropCandidate
  return { s with keyAllowed := false }

def number (c : Cursor) : Except Flaw (Nat × Cursor) :=
  let (digits, c) := c.span Char.isDigit
  if digits = "" ∨ 9 < digits.length then c.fail .version
  else .ok (Text.decimalValue digits.toList, c)

def directive (c : Cursor) : Except Flaw (TokenKind × Cursor) := do
  let (name, c) := c.skip.span isNameChar
  if !endsWord (c.peek 0) then c.fail .directive
  let c := c.skipWhile isGap
  let (kind, c) ←
    if name = "YAML" then do
      let (major, c) ← number c
      if c.peek 0 ≠ some '.' then c.fail .version
      let (minor, c) ← number c.skip
      pure (TokenKind.versionDirective major minor, c)
    else if name = "TAG" then do
      let (handle, c) ← Tag.handle c
      if !handle.endsWith "!" then c.fail .tag
      if !(c.peek 0).any isGap then c.fail .tag
      let (lead, c) ← Tag.name true none (c.skipWhile isGap)
      if !endsWord (c.peek 0) then c.fail .tag
      pure (TokenKind.tagDirective handle lead, c)
    else c.fail .directive
  let c := c.skipToLineEnd
  if !(c.peek 0).all isBreak then c.fail .directive
  return (kind, c.skip)

/-- The name behind the indicator of an anchor or an alias. -/
def anchorName (c : Cursor) : Except Flaw (String × Cursor) :=
  let (name, c) := c.skip.span isNameChar
  let ends := endsWord (c.peek 0) ||
    (c.peek 0).any (· ∈ ['?', ':', ',', ']', '\x7d', '%', '@', '\x60'])
  if name = "" ∨ !ends then c.fail .anchor else .ok (name, c)

/-- Emits the token that `read` finds at the cursor. -/
def take (s : Scan) (read : Cursor → Except Flaw (TokenKind × Cursor)) : Except Flaw Scan := do
  let (kind, c) ← read s.cursor
  return { s.emit kind s.cursor.place c.place with cursor := c }

/-- Takes a token that can begin a key. -/
def takeContent (s : Scan) (read : Cursor → Except Flaw (TokenKind × Cursor)) :
    Except Flaw Scan := do
  let s ← s.offerKey
  take { s with keyAllowed := false } read

def takeDirective (s : Scan) : Except Flaw Scan := do
  take (← s.leaveBlocks) directive

def takeDocumentMark (s : Scan) (kind : TokenKind) : Except Flaw Scan := do
  take (← s.leaveBlocks) fun c => .ok (kind, c.skip.skip.skip)

def openBracket (s : Scan) (kind : TokenKind) : Except Flaw Scan := do
  let s ← s.offerKey
  return emitSign { s with inside := none :: s.inside, keyAllowed := true } kind

def closeBracket (s : Scan) (kind : TokenKind) : Except Flaw Scan := do
  let s ← s.dropCandidate
  return emitSign { s with inside := s.inside.drop 1, keyAllowed := false } kind

def takeComma (s : Scan) : Except Flaw Scan := do
  let s ← s.dropCandidate
  return emitSign { s with keyAllowed := true } .flowEntry

/-- Opens a block for an indicator that stands for itself. -/
def openFor (s : Scan) (kind : TokenKind) : Except Flaw Scan :=
  if s.flow then .ok s
  else if s.keyAllowed then .ok (s.openBlock kind s.size s.cursor.place)
  else s.cursor.fail .misplacedIndicator

def takeEntry (s : Scan) : Except Flaw Scan := do
  let s ← (← s.openFor .blockSequenceStart).dropCandidate
  return emitSign { s with keyAllowed := true } .blockEntry

def takeKey (s : Scan) : Except Flaw Scan := do
  let s ← (← s.openFor .blockMappingStart).dropCandidate
  return emitSign { s with keyAllowed := !s.flow } .key

/-- A colon makes the candidate before it a key. -/
def takeValue (s : Scan) : Except Flaw Scan := do
  match s.candidate with
  | some k =>
    let s := (s.emitAt .key k.index k.place).openBlock .blockMappingStart k.index k.place
    return emitSign { s.setCandidate none with keyAllowed := false } .value
  | none =>
    let s ← s.openFor .blockMappingStart
    return emitSign { s with keyAllowed := !s.flow } .value

def takeBlockText (s : Scan) (literal : Bool) : Except Flaw Scan := do
  let s ← s.dropCandidate
  take { s with keyAllowed := true } fun c => do
    let (text, c) ← Scalar.blockText literal s.indent c.skip
    return (.scalar false text, c)

def takeQuoted (s : Scan) (single : Bool) : Except Flaw Scan :=
  s.takeContent fun c => do
    let c := c.skip
    let (text, c) ←
      if single then Scalar.singleQuoted "" none c.rest c.place
      else Scalar.doubleQuoted "" none none c.rest c.place
    return (.scalar false text, c)

/-- A plain scalar that runs on to a new line allows a key there. -/
def takePlain (s : Scan) : Except Flaw Scan := do
  let s ← s.offerKey
  let start := s.cursor
  let ((text, newLine), c) ←
    Scalar.plain s.flow (s.indent + 1) "" none start.rest start.place
  return { s.emit (.scalar true text) start.place c.place with cursor := c, keyAllowed := newLine }

/-- Characters that begin something other than a plain scalar, or nothing at all. -/
def isReserved (c : Char) : Bool :=
  c ∈ ['-', '?', ':', ',', '[', ']', '\x7b', '\x7d', '#', '&', '*', '!', '|', '>', '\x27', '\x22',
    '%', '@', '\x60']

/-- Takes the token that begins with `c`. -/
def takeToken (s : Scan) (c : Char) : Except Flaw Scan :=
  let next := s.cursor.peek 1
  let place := s.cursor.place
  if place.column = 0 && c = '%' then s.takeDirective
  else if Cursor.atDocumentMark s.cursor.rest place then
    s.takeDocumentMark (if c = '-' then .documentStart else .documentEnd)
  else if c = '[' then s.openBracket .flowSequenceStart
  else if c = '\x7b' then s.openBracket .flowMappingStart
  else if c = ']' then s.closeBracket .flowSequenceEnd
  else if c = '\x7d' then s.closeBracket .flowMappingEnd
  else if c = ',' then s.takeComma
  else if c = '-' && endsWord next then s.takeEntry
  else if c = '?' && (s.flow || endsWord next) then s.takeKey
  else if c = ':' && (s.flow || endsWord next) then s.takeValue
  else if c = '*' then
    s.takeContent fun c => do
      let (name, c) ← anchorName c
      return (.aliasOf name, c)
  else if c = '&' then
    s.takeContent fun c => do
      let (name, c) ← anchorName c
      return (.anchor name, c)
  else if c = '!' then
    s.takeContent fun c => do
      let (written, c) ← Tag.read s.flow c
      return (.tag written, c)
  else if c = '|' && !s.flow then s.takeBlockText true
  else if c = '>' && !s.flow then s.takeBlockText false
  else if c = '\x27' then s.takeQuoted true
  else if c = '\x22' then s.takeQuoted false
  else if !(isGapOrBreak c || isReserved c) || (c = '-' && !next.any isGap) ||
      (!s.flow && (c = '?' || c = ':') && !endsWord next) then s.takePlain
  else s.cursor.fail .noToken

/-- Fails where there are fewer than `n` characters in front of a flaw. -/
def lookAhead (s : Scan) (n : Nat) : Except Flaw Unit :=
  match s.flaw with
  | some f => if (s.cursor.rest.drop (n - 1)).isEmpty then .error f else .ok ()
  | none => .ok ()

/-- Takes one more token, after the ends of the blocks that it closes. There is none at the end of
the text, which the flag tells. Four characters tell what begins, one more shows where it ends. -/
def step (s : Scan) : Except Flaw (Scan × Bool) := do
  let s ← s.skipBlanks.expire
  s.lookAhead 4
  let s := s.closeBlocks s.cursor.place.column
  match s.cursor.rest with
  | [] =>
    let place := s.cursor.place
    let place := if place.column = 0 then place else { line := place.line + 1 }
    let s ← ({ s with cursor := ⟨[], place⟩ } : Scan).leaveBlocks
    return (← s.expire, true)
  | c :: _ =>
    let s ← s.takeToken c
    s.lookAhead 1
    return (← s.expire, false)

/-- Number of tokens in front of every candidate that can still become a key. -/
def settled (s : Scan) : Nat :=
  let least (n : Nat) (k : Option KeyCandidate) : Nat :=
    match k.filter (!isStale s.cursor.place ·) with
    | some k => min n k.index
    | none => n
  (s.outside :: s.inside).foldl least s.size

/-- Takes tokens up to the end of the text, whose place is returned, or up to a flaw. Each takes at
least one character, so `fuel` above their number suffices. -/
def run : Nat → Scan → List Token × Except Flaw Place
  | 0, s => (s.tokens.reverse, s.cursor.fail .noToken)
  | fuel + 1, s =>
    match s.step with
    | .ok (s, false) => run fuel s
    | .ok (s, true) => (s.tokens.reverse, .ok s.cursor.place)
    | .error f => (s.tokens.reverse.take s.settled, .error f)

end Scan

/-- The tokens of a text, and the place where it ends or the flaw that ends them. -/
def Token.all (source : Source) : List Token × Except Flaw Place :=
  Scan.run (source.chars.length + 1) { cursor := { rest := source.chars }, flaw := source.flaw }

end LaunchEditor.Yaml
