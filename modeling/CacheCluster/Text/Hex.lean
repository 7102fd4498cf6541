/-! # Hexadecimal digits

Two digits stand for a byte, the higher one first; they are written in lower case.
-/

namespace CacheCluster.Text

def hexDigit? (c : Char) : Option Nat :=
  if '0' ≤ c ∧ c ≤ '9' then some (c.toNat - '0'.toNat)
  else if 'a' ≤ c ∧ c ≤ 'f' then some (c.toNat - 'a'.toNat + 10)
  else if 'A' ≤ c ∧ c ≤ 'F' then some (c.toNat - 'A'.toNat + 10)
  else none

def hexChar (n : Nat) : Char :=
  if n < 10 then Char.ofNat ('0'.toNat + n) else Char.ofNat ('a'.toNat + (n - 10))

/-- The digits of some bytes. -/
def hex (bytes : List UInt8) : String :=
  bytes.foldl (fun s b => (s.push (hexChar (b.toNat / 16))).push (hexChar (b.toNat % 16))) ""

/-- The bytes that digits spell, after those already read. -/
def unhexFrom (read : ByteArray) : List Char → ByteArray
  | high :: low :: digits =>
    let value (c : Char) : UInt8 := UInt8.ofNat ((hexDigit? c).getD 0)
    unhexFrom (read.push (value high * 16 + value low)) digits
  | _ => read

/-- The bytes that digits spell; any other character counts as a zero. -/
def unhex (s : String) : ByteArray :=
  unhexFrom ByteArray.empty s.toList

end CacheCluster.Text
