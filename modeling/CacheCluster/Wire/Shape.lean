import CacheCluster.Decimal.Integer
import CacheCluster.Json.Reader

/-! # Shapes of wire documents

The two forms in which a record is written: an object with its fields, or an array of their values
in order. A tagged record names its variant under `type`, or first in the array.
-/

namespace CacheCluster.Wire

/-- Arrays and objects within one another that a tagged document may hold. -/
def maxLevels : Nat := 127

/-- The values of the fields `names`, in that order; an object may hold other fields as well. -/
def fields? (names : List String) : Json → Option (List Json)
  | .object members => names.mapM fun name => Json.once? name members
  | .array values => if values.length = names.length then some values else none
  | _ => none

/-- The variant that a tagged document names, and the document without the tag. -/
def variant? : Json → Option (String × Json)
  | .object members =>
    match Json.once? "type" members with
    | some (.string tag) => some (tag, .object (members.filter (·.1 ≠ "type")))
    | _ => none
  | .array (.string tag :: values) => some (tag, .array values)
  | _ => none

def int64? : Json → Option Int64
  | .number (.integer i) => if Decimal.fitsInt64 i then some (Int64.ofInt i) else none
  | _ => none

def byte? : Json → Option UInt8
  | .number (.integer i) => if 0 ≤ i ∧ i < 256 then some (UInt8.ofNat i.toNat) else none
  | _ => none

/-- A list whose entries `read?` reads. -/
def list? {α : Type} (read? : Json → Option α) : Json → Option (List α)
  | .array values => values.mapM read?
  | _ => none

def ofStrings (values : List String) : Json :=
  .array (values.map .string)

/-- The object of a variant and its fields. -/
def tagged (tag : String) (fields : List (String × Json)) : Json :=
  .object (("type", .string tag) :: fields)

/-- The tagged document that a text denotes. -/
def taggedText? (s : String) : Option Json :=
  (Json.parse? s).filter (Json.isSound maxLevels)

end CacheCluster.Wire
