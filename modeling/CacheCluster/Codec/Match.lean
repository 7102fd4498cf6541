import Std.Data.HashMap
import CacheCluster.Codec.Token

/-! # Finding repetitions

Cuts data into tokens, preferring at each place the longest copy of what lies at most a window
before. Which earlier places are tried is a matter of speed: how far a copy agrees is always
compared.
-/

namespace CacheCluster.Codec

def minMatch : Nat := 3
def maxMatch : Nat := 258
def maxDistance : Nat := 32768

/-- How many of the next `limit` bytes at `i` equal those `distance` before them, `k` of which are
known to. -/
def agreement (data : Array UInt8) (i distance k : Nat) : (limit : Nat) → Nat
  | 0 => k
  | limit + 1 =>
    if h : i + k < data.size then
      if data[i + k] = data[i + k - distance] then agreement data i distance (k + 1) limit else k
    else k

/-- The three bytes at a place, as one number. -/
def triple? (data : Array UInt8) (i : Nat) : Option UInt32 :=
  if h : i + 2 < data.size then
    some (data[i].toUInt32 <<< 16 ||| data[i + 1].toUInt32 <<< 8 ||| data[i + 2].toUInt32)
  else none

/-- The latest places at which each triple stood. -/
abbrev Places := Std.HashMap UInt32 (List Nat)

/-- Enters the places from `i` on, `n` of them. -/
def Places.enter (data : Array UInt8) (places : Places) (i : Nat) : (n : Nat) → Places
  | 0 => places
  | n + 1 =>
    match triple? data i with
    | none => places
    | some t => enter data (places.insert t (i :: (places.getD t []).take 31)) (i + 1) n

/-- The longest copy for the bytes at `i`, as length and distance; of two as long the nearer. -/
def longest (data : Array UInt8) (places : Places) (i : Nat) : Nat × Nat :=
  match triple? data i with
  | none => (0, 0)
  | some t =>
    (places.getD t []).foldl (fun best j =>
      let distance := i - j
      if 0 < distance ∧ distance ≤ i ∧ distance ≤ maxDistance then
        let length := agreement data i distance 0 maxMatch
        if length > best.1 then (length, distance) else best
      else best) (0, 0)

/-- The tokens of the data from `i` on, after those already cut, latest first. A copy is put off by
a byte where the next place has a longer one. -/
def tokensFrom (data : Array UInt8) (places : Places) (cut : List Token) (i : Nat)
    (found : Nat × Nat) : List Token :=
  if h : i < data.size then
    let here := places.enter data i 1
    let next := longest data here (i + 1)
    if hl : minMatch ≤ found.1 ∧ next.1 ≤ found.1 then
      let places := here.enter data (i + 1) (found.1 - 1)
      tokensFrom data places (.copy found.1 found.2 :: cut) (i + found.1)
        (longest data places (i + found.1))
    else tokensFrom data here (.literal data[i] :: cut) (i + 1) next
  else cut.reverse
termination_by data.size - i
decreasing_by
  · have : 3 ≤ found.1 := hl.1
    omega
  · omega

/-- The tokens of some data. -/
def tokens (data : List UInt8) : List Token :=
  tokensFrom data.toArray {} [] 0 (0, 0)

end CacheCluster.Codec
