import CacheCluster.Json.Basic
import CacheCluster.Settings.Value

/-! # Configuration documents

A document as a tree of values. The keys at its top name paths, those below them stand for
themselves.
-/

namespace CacheCluster.Settings.Value

/-- A number as a value: an integer up to some bound, and else the nearest double. -/
def ofNumber (greatest : Int) : Json.Number → Value
  | .integer i =>
    if Decimal.int64Min ≤ i ∧ i ≤ greatest then integer i
    else float (.ofDecimal (i < 0) i.natAbs 0)
  | .decimal negative digits power => float (.ofDecimal negative digits power)

mutual

/-- A JSON document as a value; of members with one name the last counts. -/
def ofJson (greatest : Int) : Json → Value
  | .null | .stray => null
  | .bool b => bool b
  | .number n => ofNumber greatest n
  | .string s => text s
  | .array values => list (ofAll greatest values)
  | .object members => table (ofMembers greatest [] members)

def ofAll (greatest : Int) : List Json → List Value
  | [] => []
  | value :: values => ofJson greatest value :: ofAll greatest values

def ofMembers (greatest : Int) (entries : List (String × Value)) :
    List (String × Json) → List (String × Value)
  | [] => entries
  | (name, value) :: members =>
    let value := ofJson greatest value
    ofMembers greatest (alter name (fun _ => value) entries) members

end

/-- Lays the value of a dotted key over a tree. -/
def setKey (tree : Value) (key : String) (value : Value) : Value :=
  set value (pathOf key) tree

/-- Lays the entries of a document's top over a tree. -/
def setAll (tree : Value) (entries : List (String × Value)) : Value :=
  entries.foldl (fun tree (key, value) => tree.setKey key value) tree

end CacheCluster.Settings.Value
