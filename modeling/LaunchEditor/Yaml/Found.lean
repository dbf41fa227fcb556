import LaunchEditor.Binary64
import LaunchEditor.Text.Digit
import LaunchEditor.Text.Quoted
import LaunchEditor.Yaml.Node

/-! # What a scalar stands for

Where a text is not what is expected, a plain scalar is described by the value that its spelling
stands for: nothing, a truth value, a number or a text. Numbers with leading zeros are texts.
-/
namespace LaunchEditor.Yaml

/-- Description of what was found in the place of something else. -/
inductive Found where
  | unit
  | truth (b : Bool)
  | integer (n : Int)
  /-- An integer of more than 64 bits. -/
  | wideInteger (n : Int)
  | float (text : String)
  | string (s : String)
  | sequence
  | mapping
  deriving DecidableEq, Repr

namespace Found

def isNull (s : String) : Bool := s ∈ ["null", "Null", "NULL", "~"]

def bool? (s : String) : Option Bool :=
  if s ∈ ["true", "True", "TRUE"] then some true
  else if s ∈ ["false", "False", "FALSE"] then some false
  else none

/-- A number in the given base; there is at least one digit. -/
def digits? (base : Nat) (cs : List Char) : Option Nat :=
  let next (n : Nat) (c : Char) : Option Nat :=
    (Text.hexDigit? c).bind fun d => if d < base then some (base * n + d) else none
  if cs = [] then none else cs.foldlM next 0

/-- Whether the number begins with a zero that is not all of it. -/
def hasLeadingZero (cs : List Char) : Bool :=
  let body := match cs with
    | '-' :: r | '+' :: r => r
    | r => r
  match body with
  | '0' :: d :: r => (d :: r).all Char.isDigit
  | _ => false

/-- A number without its sign, in decimal or behind `0x`, `0o` or `0b`. -/
def magnitude? : List Char → Option Nat
  | '0' :: 'x' :: r => digits? 16 r
  | '0' :: 'o' :: r => digits? 8 r
  | '0' :: 'b' :: r => digits? 2 r
  | cs => digits? 10 cs

def integer? (s : String) : Option Int :=
  let cs := s.toList
  if hasLeadingZero cs then none
  else match cs with
    | '-' :: r => (magnitude? r).map fun n => -(n : Int)
    | '+' :: r => (magnitude? r).map Int.ofNat
    | r => (magnitude? r).map Int.ofNat

/-- Integers are told apart up to 128 bits, signed if negative, and a larger one is a fraction. -/
def ofInteger? (n : Int) : Option Found :=
  let fits (bits : Nat) : Bool := -Nat.pow 2 (bits - 1) ≤ n && n < Nat.pow 2 bits
  if fits 64 then some (integer n)
  else if fits 128 then some (wideInteger n)
  else none

/-- Digits with a point among them or not, and the power of ten behind an `e`. -/
def decimal? (cs : List Char) : Option (Nat × Int) :=
  let whole := cs.takeWhile Char.isDigit
  let rest := cs.dropWhile Char.isDigit
  let (places, rest) := match rest with
    | '.' :: r => (r.takeWhile Char.isDigit, r.dropWhile Char.isDigit)
    | r => ([], r)
  let exponent : Option Int := match rest with
    | [] => some 0
    | e :: '-' :: r => if e = 'e' ∨ e = 'E' then (digits? 10 r).map fun n => -(n : Int) else none
    | e :: '+' :: r => if e = 'e' ∨ e = 'E' then (digits? 10 r).map Int.ofNat else none
    | e :: r => if e = 'e' ∨ e = 'E' then (digits? 10 r).map Int.ofNat else none
  match digits? 10 (whole ++ places), exponent with
  | some m, some e => some (m, e - places.length)
  | _, _ => none

/-- The text of a fraction that is finite, or of one of the words for those that are not. -/
def float? (s : String) : Option String :=
  let finite (cs : List Char) : Option String :=
    (decimal? cs).bind fun (m, e) => (Binary64.ofDecimal? m e).map (·.text)
  if s ∈ [".inf", ".Inf", ".INF", "+.inf", "+.Inf", "+.INF"] then some "inf"
  else if s ∈ ["-.inf", "-.Inf", "-.INF"] then some "-inf"
  else if s ∈ [".nan", ".NaN", ".NAN"] then some "NaN"
  else match s.toList with
    | '-' :: r => (finite r).map ("-" ++ ·)
    | '+' :: r => finite r
    | r => finite r

def ofText (s : String) : Found :=
  if s = "" ∨ isNull s then unit
  else match bool? s, (integer? s).bind ofInteger? with
    | some b, _ => truth b
    | none, some found => found
    | none, none =>
      if hasLeadingZero s.toList then string s
      else match float? s with
        | some text => float text
        | none => string s

def description : Found → String
  | unit => "unit value"
  | truth b => "boolean `" ++ (if b then "true" else "false") ++ "`"
  | integer n => "integer `" ++ toString n ++ "`"
  | wideInteger n =>
    "integer `" ++ toString n ++ "` as " ++ (if n < 0 then "i128" else "u128")
  | float text => "floating point `" ++ text ++ "`"
  | string s => "string " ++ Text.quoted s
  | sequence => "sequence"
  | mapping => "map"

end Found
end LaunchEditor.Yaml
