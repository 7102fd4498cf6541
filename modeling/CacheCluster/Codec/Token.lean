/-! # Tokens of compressed data

A token is a byte or a copy of earlier output. Expanding tokens gives the data; a copy may overlap
what it writes, and what it takes from before the start of the output is zero.
-/

namespace CacheCluster.Codec

inductive Token
  | literal (b : UInt8)
  | copy (length distance : Nat)
  deriving DecidableEq, Repr

/-- The byte that lies `distance` before the end of the output. -/
def lookBack (out : Array UInt8) (distance : Nat) : UInt8 :=
  if distance ≤ out.size then out.getD (out.size - distance) 0 else 0

/-- The output after `length` bytes, each taken from `distance` before the end. -/
def copyBack (distance : Nat) : (length : Nat) → Array UInt8 → Array UInt8
  | 0, out => out
  | length + 1, out => copyBack distance length (out.push (lookBack out distance))

/-- The output after one more token. -/
def Token.expand (out : Array UInt8) : Token → Array UInt8
  | literal b => out.push b
  | copy length distance => copyBack distance length out

end CacheCluster.Codec
