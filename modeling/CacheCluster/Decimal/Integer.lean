/-! # Decimal integers

Reading and bounding integers in decimal. A reader takes an optional sign and at least one digit and
nothing else; leading zeros are allowed.
-/

namespace CacheCluster.Decimal

/-- The value of a decimal digit. -/
def digit? (c : Char) : Option Nat :=
  if '0' ≤ c ∧ c ≤ '9' then some (c.toNat - '0'.toNat) else none

/-- The number that the digits spell after the number `n`. -/
def readDigits (n : Nat) : List Char → Option Nat
  | [] => some n
  | c :: cs => (digit? c).bind fun d => readDigits (n * 10 + d) cs

/-- A number of at least one digit. -/
def natural? (cs : List Char) : Option Nat :=
  if cs.isEmpty then none else readDigits 0 cs

/-- An integer with an optional sign. -/
def integer? (cs : List Char) : Option Int :=
  match cs with
  | '-' :: ds => (natural? ds).map fun n => -(n : Int)
  | '+' :: ds => (natural? ds).map fun n => (n : Int)
  | ds => (natural? ds).map fun n => (n : Int)

/-- The least and the greatest integer of 64 bits. -/
def int64Min : Int := -0x8000000000000000
def int64Max : Int := 0x7FFFFFFFFFFFFFFF

def fitsInt64 (i : Int) : Bool :=
  int64Min ≤ i && i ≤ int64Max

/-- An integer of 64 bits with an optional sign. -/
def int64? (s : String) : Option Int :=
  (integer? s.toList).filter fitsInt64

/-- The number of numbers of 16 bits. -/
def uint16Size : Nat := 0x10000

/-- A number of 16 bits; a plus sign may lead it, a minus sign may not. -/
def uint16? (s : String) : Option Nat :=
  (match s.toList with
    | '+' :: ds => natural? ds
    | ds => natural? ds).filter (· < uint16Size)

theorem int64?_fits {s : String} {i : Int} (h : int64? s = some i) :
    int64Min ≤ i ∧ i ≤ int64Max := by
  simp only [int64?, Option.filter_eq_some_iff] at h
  simpa [fitsInt64] using h.2

theorem uint16?_lt {s : String} {n : Nat} (h : uint16? s = some n) : n < uint16Size := by
  simp only [uint16?, Option.filter_eq_some_iff] at h
  simpa using h.2

end CacheCluster.Decimal
