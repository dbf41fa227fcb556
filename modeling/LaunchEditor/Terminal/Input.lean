import LaunchEditor.Terminal.Event
import LaunchEditor.Text.Octets

/-! # Terminal input

The bytes that a terminal sends for the events it reports. A decoder takes one byte at a time; an
escape byte begins a sequence unless nothing follows it.
-/
namespace LaunchEditor.Terminal

inductive Input where
  | ready
  | escaped
  /-- Behind an escape and an opening bracket. -/
  | sequence
  /-- Behind an escape and a capital O. -/
  | shifted
  /-- Inside a character: the octets read and how many are to come. -/
  | character (modifiers : List Modifier) (read : List UInt8) (left : Nat)
  deriving DecidableEq, Repr

namespace Input

def pressed (code : KeyCode) (modifiers : List Modifier) : Event := .key code modifiers .pressed

/-- The event of a sequence by the byte that ends it. -/
def ofFinal (b : UInt8) : Event :=
  match Char.ofNat b.toNat with
  | 'A' => pressed .up []
  | 'B' => pressed .down []
  | 'C' => pressed .right []
  | 'D' => pressed .left []
  | 'Z' => pressed .backTab [.shift]
  | 'I' => .focusGained
  | 'O' => .focusLost
  | 'M' | 'm' => .mouse
  | c => pressed (.named (String.singleton c)) []

/-- The letter that a control byte stands for, typed with Control. -/
def ofControl (b : UInt8) (modifiers : List Modifier) : Event :=
  pressed (.char (Char.ofNat (b.toNat + 0x60))) (.control :: modifiers)

def ofCharacter (octets : List UInt8) (modifiers : List Modifier) : Option Event :=
  match (Text.ofOctets? octets).map String.toList with
  | some [c] => some (pressed (.char c) modifiers)
  | _ => none

/-- A line feed counts as Enter, since a terminal that collects lines sends it. -/
def start (modifiers : List Modifier) (b : UInt8) : Input × Option Event :=
  if b = 0x0D ∨ b = 0x0A then (ready, some (pressed .enter modifiers))
  else if b = 0x09 then (ready, some (pressed .tab modifiers))
  else if b = 0x7F then (ready, some (pressed .backspace modifiers))
  else if b < 0x20 then (ready, some (ofControl b modifiers))
  else match Text.octetCount? b.toNat with
    | some (left + 2) => (character modifiers [b] (left + 1), none)
    | _ => (ready, ofCharacter [b] modifiers)

def feed (s : Input) (b : UInt8) : Input × Option Event :=
  match s with
  | ready => if b = 0x1B then (escaped, none) else start [] b
  | escaped =>
    if b = 0x5B then (sequence, none)
    else if b = 0x4F then (shifted, none)
    else if b = 0x1B then (ready, some (pressed .escape []))
    else start [.alt] b
  | sequence => if 0x20 ≤ b ∧ b < 0x40 then (sequence, none) else (ready, some (ofFinal b))
  | shifted => (ready, some (ofFinal b))
  | character modifiers read left =>
    let read := read ++ [b]
    if left ≤ 1 then (ready, ofCharacter read modifiers)
    else (character modifiers read (left - 1), none)

/-- The events of some bytes that came together; an escape at their end stands alone. -/
def events (s : Input) : List UInt8 → Input × List Event
  | [] => if s = escaped then (ready, [pressed .escape []]) else (s, [])
  | b :: rest =>
    let (s, event) := s.feed b
    let (s, more) := events s rest
    (s, event.toList ++ more)

end Input
end LaunchEditor.Terminal
