import CacheCluster.Element
import CacheCluster.Wire.Shape
import CacheCluster.Json.Printer

/-! # Elements on the wire

The document of an element, and the size of its text. By itself an element is read leniently: what
an unknown field holds need only fit the grammar.
-/

namespace CacheCluster.Element

def toJson (element : Element) : Json :=
  .object [("key", .string element.key),
    ("value", .array (element.value.map fun b => .number (.integer b.toNat))),
    ("version", .number (.integer element.version.toInt)),
    ("creationTime", .number (.integer element.creationTime.toInt))]

def ofJson? (document : Json) : Option Element :=
  match Wire.fields? ["key", "value", "version", "creationTime"] document with
  | some [key, value, version, creationTime] => do
    return {
      key := ← Json.string? key
      value := ← Wire.list? Wire.byte? value
      version := ← Wire.int64? version
      creationTime := ← Wire.int64? creationTime }
  | _ => none

def encode (element : Element) : String :=
  element.toJson.render

def decode? (text : String) : Option Element :=
  (Json.parse? text).bind ofJson?

/-- The number of bytes of the text of an element. -/
def wireSize (element : Element) : Nat :=
  element.encode.utf8ByteSize

/-- The number of bytes of the texts of some elements. -/
def totalSize : List Element → Nat
  | [] => 0
  | element :: elements => element.wireSize + totalSize elements

end CacheCluster.Element
