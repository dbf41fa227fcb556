/-! # Octets of characters -/
namespace LaunchEditor.Text

/-- The UTF-8 form of a text. -/
def octets (s : String) : List UInt8 := s.toList.flatMap String.utf8EncodeChar

/-- The text with the given UTF-8 form. -/
def ofOctets? (l : List UInt8) : Option String := String.fromUTF8? ⟨l.toArray⟩

/-- Number of octets in the UTF-8 form of a character, by its first octet. -/
def octetCount? (octet : Nat) : Option Nat :=
  if octet < 0x80 then some 1
  else if octet / 0x20 = 6 then some 2
  else if octet / 0x10 = 14 then some 3
  else if octet / 0x08 = 30 then some 4
  else none

end LaunchEditor.Text
