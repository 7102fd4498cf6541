import CacheCluster.Decimal.Integer
import CacheCluster.Decimal.Binary64

/-! # Reading a decimal fraction

The text of a number with an optional sign, fraction and exponent, or of an infinity or no number,
as the nearest double.
-/

namespace CacheCluster.Decimal

/-- Splits off the digits at the start. -/
def spanDigits (cs : List Char) : List Char × List Char :=
  cs.span fun c => (digit? c).isSome

/-- Splits off a point and the digits after it. -/
def spanFraction : List Char → List Char × List Char
  | '.' :: cs => spanDigits cs
  | cs => ([], cs)

/-- The exponent that a whole text spells, if it spells one. -/
def exponent? : List Char → Option Int
  | [] => some 0
  | c :: cs => if c == 'e' || c == 'E' then integer? cs else none

/-- The number that digits, a fraction and an exponent spell. -/
def ofParts (negative : Bool) (whole fraction : List Char) (exponent : Int) : Binary64 :=
  Binary64.ofDecimal negative ((readDigits 0 (whole ++ fraction)).getD 0)
    (exponent - fraction.length)

/-- A number without its sign. -/
def unsigned? (negative : Bool) (cs : List Char) : Option Binary64 :=
  let word := String.ofList (cs.map Char.toLower)
  if word == "nan" then some .nan
  else if word == "inf" || word == "infinity" then some (.infinity negative)
  else
    let (whole, rest) := spanDigits cs
    let (fraction, rest) := spanFraction rest
    if whole.isEmpty && fraction.isEmpty then none
    else (exponent? rest).map (ofParts negative whole fraction)

/-- The double that a text spells. -/
def binary64? (s : String) : Option Binary64 :=
  match s.toList with
  | '-' :: cs => unsigned? true cs
  | '+' :: cs => unsigned? false cs
  | cs => unsigned? false cs

end CacheCluster.Decimal
