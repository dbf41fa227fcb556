/-! # Decimal text of 64-bit binary fractions

A decimal number is rounded to the nearest number with a significand of 53 bits, a half going to
the even neighbour, and written with the fewest digits that round back to it, a half going up. Both
steps are exact arithmetic on natural numbers.
-/
namespace LaunchEditor

/-- The number `significand * 2 ^ exponent`. -/
structure Binary64 where
  significand : Nat
  exponent : Int
  deriving DecidableEq, Repr

namespace Binary64

/-- A fraction `num / den`, times `base ^ e`. -/
def scale (num den base : Nat) (e : Int) : Nat × Nat :=
  if 0 ≤ e then (num * base.pow e.toNat, den) else (num, den * base.pow (-e).toNat)

/-- The nearest natural number, a half going to the even neighbour. -/
def roundHalfEven (num den : Nat) : Nat :=
  let q := num / den
  let r := num % den
  if 2 * r < den ∨ (2 * r = den ∧ q % 2 = 0) then q else q + 1

/-- The number nearest to `num / den`, unless that is too large. -/
def ofFraction? (num den : Nat) : Option Binary64 :=
  if num = 0 then some ⟨0, -1074⟩
  else
    let guess : Int := num.log2 - den.log2 - 53
    let (n, d) := scale num den 2 (-guess)
    let e := max (if Nat.pow 2 53 * d ≤ n then guess + 1 else guess) (-1074)
    let (n, d) := scale num den 2 (-e)
    let m := roundHalfEven n d
    let (m, e) := if m = Nat.pow 2 53 then (Nat.pow 2 52, e + 1) else (m, e)
    if 971 < e then none else some ⟨m, e⟩

/-- The number nearest to `m * 10 ^ e`, unless that is too large. -/
def ofDecimal? (m : Nat) (e : Int) : Option Binary64 :=
  let size := (toString m).length + e
  if m = 0 ∨ size < -400 then some ⟨0, -1074⟩
  else if 400 < size then none
  else
    let (n, d) := scale m 1 10 e
    ofFraction? n d

/-- Whether `c * 10 ^ e` is rounded to `x`. The bounds are a quarter of a unit finer than `x`. -/
def covers (x : Binary64) (c : Nat) (e : Int) : Bool :=
  let narrow : Bool := x.significand = Nat.pow 2 52 ∧ -1074 < x.exponent
  let low := 4 * x.significand - (if narrow then 1 else 2)
  let high := 4 * x.significand + 2
  let (n, d) := scale c 1 10 e
  let (n, d) := scale n d 2 (2 - x.exponent)
  if x.significand % 2 = 0 then low * d ≤ n && n ≤ high * d else low * d < n && n < high * d

/-- The power of ten that begins the decimal form of `num / den`. -/
def magnitude (num den : Nat) : Int :=
  if den ≤ num then (toString (num / den)).length - 1
  else -((List.range 400).find? fun k => den ≤ num * Nat.pow 10 k).getD 0

/-- The fewest digits that round to `x`, and the power of ten they stand for. Of two such numbers
the nearer is taken, and the larger if they are equally near. Rounding up can lead to the next
power of ten, which has one digit less. -/
def shortest (x : Binary64) : Nat × Int :=
  let (num, den) := scale x.significand 1 2 x.exponent
  let top := magnitude num den
  let digits (c : Nat) (e : Int) : Nat × Int := if c % 10 = 0 then (c / 10, e + 1) else (c, e)
  let hit (n : Nat) : Option (Nat × Int) :=
    let e := top - n
    let (a, b) := scale num den 10 (-e)
    let c := a / b
    let near := if 2 * (a % b) < b then c else c + 1
    let far := if near = c then c + 1 else c
    if covers x near e then some (digits near e)
    else if covers x far e then some (digits far e)
    else none
  ((List.range 17).findSome? hit).getD (0, 0)

/-- Digits in full, with a point and at least one digit on either side of it. -/
def text (x : Binary64) : String :=
  if x.significand = 0 then "0.0"
  else
    let (c, e) := shortest x
    let digits := (toString c).toList
    if 0 ≤ e then String.ofList (digits ++ List.replicate e.toNat '0') ++ ".0"
    else
      let places := (-e).toNat
      let padded := List.replicate (places + 1 - digits.length) '0' ++ digits
      let whole := padded.length - places
      String.ofList (padded.take whole) ++ "." ++ String.ofList (padded.drop whole)

end Binary64
end LaunchEditor
