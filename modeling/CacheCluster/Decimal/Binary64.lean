/-! # Binary floating point of 64 bits

Numbers of the binary interchange format as exact values: a significand times a power of two, an
infinity, or not a number. Every operation is exact rational arithmetic followed by one rounding.
-/

namespace CacheCluster.Decimal

inductive Binary64
  | nan
  | infinity (negative : Bool)
  /-- The number `significand * 2 ^ exponent`, with its sign. -/
  | finite (negative : Bool) (significand : Nat) (exponent : Int)
  deriving DecidableEq, Repr

/-- `num / den`, rounded to the nearest integer and from a tie to the even one. -/
def divNearestEven (num den : Nat) : Nat :=
  let q := num / den
  let twice := 2 * (num % den)
  if twice > den ∨ (twice = den ∧ q % 2 = 1) then q + 1 else q

/-- `num / den`, rounded to the nearest integer and from a tie upwards. -/
def divNearestUp (num den : Nat) : Nat :=
  (2 * num + den) / (2 * den)

namespace Binary64

def leastExponent : Int := -1074
def greatestExponent : Int := 971

/-- The least significand of a number whose exponent is not the least one: it has 53 bits. -/
def leastNormal : Nat := 0x10000000000000

/-- `n * 2 ^ e`, for a nonnegative `e`. -/
def scaleUp (n : Nat) (e : Int) : Nat :=
  n * Nat.pow 2 e.toNat

/-- The double nearest to `num / den`, from a tie to the even significand. -/
def ofRatio (negative : Bool) (num den : Nat) : Binary64 :=
  if num = 0 ∨ den = 0 then .finite negative 0 leastExponent
  else
    let estimate : Int := (num.log2 : Int) - (den.log2 : Int) - 52
    -- `num / den` is below `2 ^ (estimate + 53)`; one exponent less may still be enough
    let quotient (e : Int) := scaleUp num (-e) / scaleUp den e
    let exponent := max leastExponent
      (if quotient estimate < leastNormal then estimate - 1 else estimate)
    let significand := divNearestEven (scaleUp num (-exponent)) (scaleUp den exponent)
    let (significand, exponent) :=
      if significand = 2 * leastNormal then (leastNormal, exponent + 1) else (significand, exponent)
    if exponent > greatestExponent then .infinity negative
    else .finite negative significand exponent

/-- The double nearest to `digits * 10 ^ power`; far out of range the magnitude decides at once. -/
def ofDecimal (negative : Bool) (digits : Nat) (power : Int) : Binary64 :=
  if digits = 0 then .finite negative 0 leastExponent
  else
    let magnitude : Int := power + (Nat.toDigits 10 digits).length
    if magnitude > 400 then .infinity negative
    else if magnitude < -400 then .finite negative 0 leastExponent
    else ofRatio negative (digits * Nat.pow 10 power.toNat) (Nat.pow 10 (-power).toNat)

def isZero : Binary64 → Bool
  | finite _ 0 _ => true
  | _ => false

/-- The nearest integer, away from zero from a tie; not a number gives zero and what lies out of
range the nearer bound. -/
def toInt (least greatest : Int) : Binary64 → Int
  | nan => 0
  | infinity negative => if negative then least else greatest
  | finite negative significand exponent =>
    let n : Int := divNearestUp (scaleUp significand exponent) (Nat.pow 2 (-exponent).toNat)
    max least (min greatest (if negative then -n else n))

end Binary64

end CacheCluster.Decimal
