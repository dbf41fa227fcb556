import LaunchEditor.Text.Octets
import LaunchEditor.Yaml.Scalar

/-! # Tags as they are written

A tag names the type of a node, in full between angle brackets or as a handle and a suffix. The
octets of a name are written as ASCII characters, or behind percent signs in the UTF-8 form of a
character.
-/
namespace LaunchEditor.Yaml.Tag

/-- A handle and what it is put in front of; the handle of a full name is empty. -/
structure Written where
  handle : String
  suffix : List UInt8
  deriving DecidableEq, Repr

def isUriChar (full : Bool) (c : Char) : Bool :=
  isNameChar c || c ∈ [';', '/', '?', ':', '@', '&', '=', '+', '$', '.', '!', '~', '*', '\x27',
    '(', ')'] || (full && c ∈ [',', '[', ']'])

/-- Takes one more octet of a character that lacks `left` of them. Tells how many are lacking then,
but not whether they make a character. -/
def takeOctet? (left octet : Nat) : Option Nat :=
  if left = 0 then (Text.octetCount? octet).map (· - 1)
  else if octet / 0x40 = 2 then some (left - 1)
  else none

/-- Reads the octets of a name. Those in `name` are from before, the last one first. -/
def uri (full : Bool) (name : List UInt8) (left : Nat) :
    List Char → Place → Except Flaw (List UInt8 × Cursor)
  | [], here => if left = 0 then .ok (name.reverse, ⟨[], here⟩) else .error ⟨.tag, here⟩
  | c :: r, here =>
    if c = '%' then
      match r with
      | a :: b :: r =>
        match Text.hexDigit? a, Text.hexDigit? b with
        | some hi, some lo =>
          let octet := 16 * hi + lo
          match takeOctet? left octet with
          | some left =>
            uri full (octet.toUInt8 :: name) left r (((here.next c).next a).next b)
          | none => .error ⟨.tag, here⟩
        | _, _ => .error ⟨.tag, here⟩
      | _ => .error ⟨.tag, here⟩
    else if left ≠ 0 then .error ⟨.tag, here⟩
    else if isUriChar full c then uri full (c.toUInt8 :: name) left r (here.next c)
    else .ok (name.reverse, ⟨c :: r, here⟩)

/-- Reads a name, which can be empty only if there is a start of it already. What follows a NUL is
not part of the name. -/
def name (full : Bool) (start : Option String) (c : Cursor) :
    Except Flaw (List UInt8 × Cursor) := do
  let (octets, c) ← uri full (Text.octets (start.getD "")).reverse 0 c.rest c.place
  if start.isNone ∧ octets = [] then c.fail .tag
  else return (octets.takeWhile (· ≠ 0), c)

/-- Reads an exclamation mark and name characters, with a second exclamation mark or without. -/
def handle (c : Cursor) : Except Flaw (String × Cursor) :=
  if c.peek 0 = some '!' then
    let (body, c) := c.skip.span isNameChar
    if c.peek 0 = some '!' then .ok ("!" ++ body ++ "!", c.skip) else .ok ("!" ++ body, c)
  else c.fail .tag

/-- A tag is followed by a blank, a break, the end of the text or, inside brackets, a comma. -/
def read (flow : Bool) (c : Cursor) : Except Flaw (Written × Cursor) := do
  let (written, c) ←
    if c.peek 1 = some '<' then do
      let (suffix, c) ← name true none c.skip.skip
      if c.peek 0 = some '>' then pure ({ handle := "", suffix : Written }, c.skip)
      else c.fail .tag
    else do
      let (h, c) ← handle c
      if h.length > 1 ∧ h.endsWith "!" then do
        let (suffix, c) ← name false none c
        pure ({ handle := h, suffix : Written }, c)
      else do
        let (suffix, c) ← name false (some (h.drop 1).copy) c
        if suffix = [] then pure ({ handle := "", suffix := Text.octets "!" : Written }, c)
        else pure ({ handle := "!", suffix : Written }, c)
  if endsWord (c.peek 0) ∨ (flow ∧ c.peek 0 = some ',') then return (written, c)
  else c.fail .tag

end LaunchEditor.Yaml.Tag
