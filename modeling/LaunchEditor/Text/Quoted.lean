import LaunchEditor.Text.Unprintable

/-! # Quoted text

A text in double quotes in which every character can be seen: quotes and backslashes have a
backslash in front, and unprintable characters are spelled out by letter or number.
-/
namespace LaunchEditor.Text

def hexadecimal (n : Nat) : String := String.ofList (Nat.toDigits 16 n)

def spell (c : Char) : String :=
  match c with
  | '\x00' => "\\0"
  | '\t' => "\\t"
  | '\n' => "\\n"
  | '\r' => "\\r"
  | '\\' => "\\\\"
  | '\x22' => "\\\x22"
  | c =>
    if isUnprintable c then "\\u\x7b" ++ hexadecimal c.toNat ++ "\x7d" else String.singleton c

def quoted (s : String) : String := "\x22" ++ String.join (s.toList.map spell) ++ "\x22"

end LaunchEditor.Text
