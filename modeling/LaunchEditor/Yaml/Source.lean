import LaunchEditor.Text.Octets

/-! # The text of a document

A document is UTF-8 text without control characters. Its line breaks are brought to one form when
it is taken in: a carriage return, with a line feed or without, and the next-line character become
a line feed. The Unicode line and paragraph separators also break lines, and stay as they are.

The text is checked block by block, and nothing is read of a block that is not such text. What comes
before it is read all the same.

A cursor is what is left of the text together with the place where that begins.
-/
namespace LaunchEditor.Yaml

/-- Line and column, both counted from zero and the column in characters. -/
structure Place where
  line : Nat := 0
  column : Nat := 0
  /-- The column in octets. -/
  octet : Nat := 0
  deriving DecidableEq, Repr

inductive Cause where
  | encoding
  | character
  | unfinishedKey
  | misplacedIndicator
  | noToken
  | directive
  | version
  | tag
  | undefinedHandle
  | anchor
  | undefinedAnchor
  | escape
  | unclosedQuote
  | tabIndentation
  | blockHeader
  | colon
  | unexpectedToken
  | severalDocuments
  deriving DecidableEq, Repr

/-- Why a text is not one well-formed document. -/
structure Flaw where
  cause : Cause
  place : Place
  deriving DecidableEq, Repr

def Cause.message : Cause → String
  | encoding => "the text is not UTF-8"
  | character => "control characters are not allowed"
  | unfinishedKey => "could not find expected ':'"
  | misplacedIndicator => "an indicator is not allowed in this context"
  | noToken => "found character that cannot start any token"
  | directive => "found a directive that is unknown or repeated"
  | version => "found incompatible YAML document"
  | tag => "did not find expected tag"
  | undefinedHandle => "found undefined tag handle"
  | anchor => "did not find expected name of an anchor"
  | undefinedAnchor => "unknown anchor"
  | escape => "found unknown escape sequence"
  | unclosedQuote => "found unexpected end of quoted text"
  | tabIndentation => "found a tab character that violates indentation"
  | blockHeader => "did not find expected header of a block"
  | colon => "found unexpected ':'"
  | unexpectedToken => "did not find expected node content"
  | severalDocuments =>
    "deserializing from YAML containing more than one document is not supported"

/-- Line and column as they are told, counted from one. -/
def Place.text (p : Place) : String :=
  "line " ++ toString (p.line + 1) ++ " column " ++ toString (p.column + 1)

/-- The start of the text is not worth telling. -/
def Flaw.message (f : Flaw) : String :=
  f.cause.message ++ (if f.place = {} then "" else " at " ++ f.place.text)

def isBreak (c : Char) : Bool := c = '\n' || c = '\u2028' || c = '\u2029'

/-- A space or a tab. -/
def isGap (c : Char) : Bool := c = ' ' || c = '\t'

def isGapOrBreak (c : Char) : Bool := isGap c || isBreak c

/-- Whether a word ends before what comes next. -/
def endsWord : Option Char → Bool
  | none => true
  | some c => isGapOrBreak c

/-- ASCII letters and digits, the hyphen and the underscore. -/
def isNameChar (c : Char) : Bool := c.isAlphanum || c = '-' || c = '_'

def Place.next (p : Place) (c : Char) : Place :=
  if isBreak c then { line := p.line + 1 }
  else { p with column := p.column + 1, octet := p.octet + c.utf8Size }

/-- Characters that a document may hold. -/
def isAdmitted (c : Char) : Bool :=
  let n := c.toNat
  n = 0x9 || n = 0xA || n = 0xD || (0x20 ≤ n && n ≤ 0x7E) || n = 0x85 || (0xA0 ≤ n && n ≤ 0xD7FF) ||
    (0xE000 ≤ n && n ≤ 0xFFFD) || 0x10000 ≤ n

def unifyBreaks : List Char → List Char
  | [] => []
  | '\r' :: '\n' :: r => '\n' :: unifyBreaks r
  | '\r' :: r => '\n' :: unifyBreaks r
  | '\u0085' :: r => '\n' :: unifyBreaks r
  | c :: r => c :: unifyBreaks r

/-- The characters that can be read, and what is wrong with those behind them. -/
structure Source where
  chars : List Char
  flaw : Option Flaw := none
  deriving DecidableEq, Repr

namespace Source

/-- Number of octets in a block. -/
def blockSize : Nat := 16384

/-- Number of octets at the end of a block that begin a character and do not finish it. -/
def unfinished (block : List UInt8) : Nat :=
  let last := block.reverse.take 3
  let begins (n : Nat) : Bool :=
    (last[n - 1]?.bind fun octet => Text.octetCount? octet.toNat).any (n < ·)
  ([3, 2, 1].find? begins).getD 0

/-- The characters of the blocks before the first flaw. A character that is not finished in a block
belongs to the next one. Each block has at least one octet, so `fuel` above the number of octets
suffices. -/
def ofBlocks : Nat → List UInt8 → List Char × Option Cause
  | 0, _ => ([], none)
  | fuel + 1, octets =>
    let block := octets.take blockSize
    let block := block.take (block.length - unfinished block)
    match Text.ofOctets? block with
    | none => ([], some .encoding)
    | some s =>
      if !s.toList.all isAdmitted then ([], some .character)
      else if block = [] then ([], if octets = [] then none else some .encoding)
      else
        let (more, cause) := ofBlocks fuel (octets.drop block.length)
        (s.toList ++ more, cause)

def ofBytes (bytes : ByteArray) : Source :=
  let (chars, cause) := ofBlocks (bytes.size + 1) bytes.toList
  { chars := unifyBreaks chars, flaw := cause.map (⟨·, {}⟩) }

end Source

structure Cursor where
  rest : List Char
  place : Place := {}
  deriving DecidableEq, Repr

namespace Cursor

def peek (c : Cursor) (n : Nat) : Option Char := c.rest[n]?

def fail {α : Type} (c : Cursor) (cause : Cause) : Except Flaw α := .error ⟨cause, c.place⟩

def skip (c : Cursor) : Cursor :=
  match c.rest with
  | [] => c
  | x :: r => ⟨r, c.place.next x⟩

def skipWhileFrom (p : Char → Bool) : List Char → Place → Cursor
  | [], here => ⟨[], here⟩
  | x :: r, here => if p x then skipWhileFrom p r (here.next x) else ⟨x :: r, here⟩

def skipWhile (c : Cursor) (p : Char → Bool) : Cursor := skipWhileFrom p c.rest c.place

/-- The stretch of characters that satisfy `p`, and the cursor behind it. -/
def span (c : Cursor) (p : Char → Bool) : String × Cursor :=
  (String.ofList (c.rest.takeWhile p), c.skipWhile p)

/-- Past blanks and a comment, up to the end of the line. -/
def skipToLineEnd (c : Cursor) : Cursor :=
  let c := c.skipWhile isGap
  if c.peek 0 = some '#' then c.skipWhile (!isBreak ·) else c

/-- Whether three hyphens or three dots at the start of a line end the document here. -/
def atDocumentMark (rest : List Char) (place : Place) : Bool :=
  place.column = 0 && (rest.take 3 == ['-', '-', '-'] || rest.take 3 == ['.', '.', '.']) &&
    endsWord rest[3]?

end Cursor
end LaunchEditor.Yaml
