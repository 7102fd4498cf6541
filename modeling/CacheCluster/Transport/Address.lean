import CacheCluster.Decimal.Integer
import CacheCluster.Error
import CacheCluster.Settings.Discovery

/-! # Addresses of listeners

An address is a host and a port with a colon between them. The host is a number address or the name
of the machine itself; no other name is known.
-/

namespace CacheCluster.Address

/-- Whether a host can be turned into a number address. -/
def isKnownHost (host : String) : Bool :=
  host == "localhost" || host == Settings.localHost || (Settings.Ipv4.parse? host).isSome

/-- The host and the port of an address. -/
def parse (address : String) : Result (String × Nat) :=
  match Text.cutLast ':' address.toList with
  | none => .error (.io .invalidInput "invalid socket address")
  | some (host, port) =>
    match Decimal.uint16? (String.ofList port) with
    | none => .error (.io .invalidInput "invalid port value")
    | some port =>
      let host := String.ofList host
      if isKnownHost host then .ok (host, port)
      else .error (.io .other "failed to lookup address information")

/-- The text of a number of milliseconds, in the largest unit that it fills. -/
def durationText (milliseconds : Nat) : String :=
  if milliseconds = 0 then "0ns"
  else if milliseconds < 1000 then toString milliseconds ++ "ms"
  else
    let rest := milliseconds % 1000
    let places := (Nat.toDigits 10 (1000 + rest)).drop 1
    let fraction := (places.reverse.dropWhile (· == '0')).reverse
    toString (milliseconds / 1000) ++
      (if fraction.isEmpty then "" else "." ++ String.ofList fraction) ++ "s"

end CacheCluster.Address
