import CacheCluster.Decimal.Binary64

/-! # Shortest decimal text

The decimal text of a double: the fewest digits that read back as the same number, of these the
nearest to it, written without an exponent.
-/

namespace CacheCluster.Decimal

/-- An interval of positive rationals over one denominator, with its middle. -/
structure Interval where
  low : Nat
  value : Nat
  high : Nat
  den : Nat
  closed : Bool

namespace Interval

/-- The rationals that round to `significand * 2 ^ exponent`, the ends included for an even
significand. -/
def ofBinary (significand : Nat) (exponent : Int) : Interval :=
  let unit := 4 * Nat.pow 2 exponent.toNat
  let below :=
    if significand = Binary64.leastNormal ∧ exponent > Binary64.leastExponent then 1 else 2
  { low := unit * significand - below * (unit / 4)
    value := unit * significand
    high := unit * significand + 2 * (unit / 4)
    den := 4 * Nat.pow 2 (-exponent).toNat
    closed := significand % 2 == 0 }

/-- Whether `n * 10 ^ power` lies in the interval. -/
def holds (i : Interval) (n : Nat) (power : Int) : Bool :=
  let scaled := n * Nat.pow 10 power.toNat * i.den
  let ten := Nat.pow 10 (-power).toNat
  if i.closed then i.low * ten ≤ scaled && scaled ≤ i.high * ten
  else i.low * ten < scaled && scaled < i.high * ten

/-- The point of the grid of multiples of `10 ^ power` that lies in the interval and nearest to its
value. -/
def point? (i : Interval) (power : Int) : Option Nat :=
  let num := i.value * Nat.pow 10 (-power).toNat
  let den := i.den * Nat.pow 10 power.toNat
  let floor := num / den
  let nearest := if 2 * (num % den) < den then [floor, floor + 1] else [floor + 1, floor]
  nearest.find? fun n => n > 0 && i.holds n power

end Interval

/-- The digits and the power of ten of the shortest decimal for a positive finite double, where
`top` is one more than the power of its leading digit. -/
def shortestFrom (i : Interval) (top : Int) : (grids : Nat) → Nat × Int
  | 0 => (i.value / i.den, 0)
  | grids + 1 =>
    let power := top - 18 + (grids + 1 : Nat)
    match i.point? power with
    | some n => (n, power)
    | none => shortestFrom i top grids

/-- One more than the power of ten of the leading digit of `num / den`. -/
def topPower (num den : Nat) : Int :=
  let digits := (Nat.toDigits 10 (num / den)).length
  if num ≥ den then digits
  else
    -- the first power at which the number reaches one
    match (List.range 400).find? fun k => num * Nat.pow 10 (k + 1) ≥ den with
    | some k => -(k : Int)
    | none => -400

/-- The digits and the power of ten of the shortest decimal for `significand * 2 ^ exponent`. -/
def shortest (significand : Nat) (exponent : Int) : Nat × Int :=
  let i := Interval.ofBinary significand exponent
  shortestFrom i (topPower i.value i.den) 18

/-- The digits of `n`, scaled by `10 ^ power`, in positional notation. -/
def positional (n : Nat) (power : Int) : String :=
  let digits := Nat.toDigits 10 n
  if power ≥ 0 then String.ofList (digits ++ List.replicate power.toNat '0')
  else
    let places := (-power).toNat
    let padded := List.replicate (places + 1 - digits.length) '0' ++ digits
    let whole := padded.take (padded.length - places)
    -- a shortest decimal ends in no zero, but the grid may be finer than needed
    let fraction := ((padded.drop (padded.length - places)).reverse.dropWhile (· == '0')).reverse
    if fraction.isEmpty then String.ofList whole else String.ofList (whole ++ '.' :: fraction)

namespace Binary64

/-- The decimal text of a double. -/
def render : Binary64 → String
  | nan => "NaN"
  | infinity negative => if negative then "-inf" else "inf"
  | finite negative significand exponent =>
    (if negative then "-" else "") ++
      if significand = 0 then "0"
      else
        let (n, power) := shortest significand exponent
        positional n power

end Binary64

end CacheCluster.Decimal
