import CacheCluster.Decimal.Integer
import CacheCluster.Decimal.Shortest
import CacheCluster.Text.Lowercase
import CacheCluster.Text.Split

/-! # Configuration values

A configuration is a tree of values. A dotted key names a path through its tables. A value is read
as the type that is asked for, whatever type it was written as, where that makes sense.
-/

namespace CacheCluster.Settings

inductive Value
  | null
  | bool (value : Bool)
  | integer (value : Int)
  | float (value : Decimal.Binary64)
  | text (value : String)
  | list (values : List Value)
  | table (entries : List (String × Value))
  deriving BEq, Repr

namespace Value

/-- The entries of a table; any other value has none. -/
def entries : Value → List (String × Value)
  | table entries => entries
  | _ => []

/-- The value at the end of a path. -/
def get? : List String → Value → Option Value
  | [], value => some value
  | name :: path, table entries => (entries.lookup name).bind (get? path)
  | _ :: _, _ => none

/-- Changes the entry called `name`, or adds one. -/
def alter (name : String) (change : Option Value → Value) :
    List (String × Value) → List (String × Value)
  | [] => [(name, change none)]
  | (other, value) :: rest =>
    if other = name then (other, change (some value)) :: rest
    else (other, value) :: alter name change rest

mutual

/-- A value laid over another: tables are merged, anything else replaces what was there. -/
def overlay (below : Value) : Value → Value
  | table new => table (overlayEntries below.entries new)
  | value => value

def overlayEntries (below : List (String × Value)) : List (String × Value) → List (String × Value)
  | [] => below
  | (name, value) :: rest =>
    overlayEntries (alter name (fun old => overlay (old.getD null) value) below) rest

end

/-- Lays a value over what stands at the end of a path; what is no table on the way becomes one. -/
def set (new : Value) : List String → Value → Value
  | [], below => overlay below new
  | name :: path, below =>
    table (alter name (fun old => set new path (old.getD null)) below.entries)

/-- The words that stand for true and for false. -/
def trueWords : List String := ["true", "on", "yes"]
def falseWords : List String := ["false", "off", "no"]

/-- The value as an integer of 64 bits. -/
def toInteger? : Value → Option Int
  | integer i => if Decimal.fitsInt64 i then some i else none
  | bool b => some (if b then 1 else 0)
  | float x => some (x.toInt Decimal.int64Min Decimal.int64Max)
  | text s =>
    let word := Text.lowercase s
    if trueWords.contains word then some 1
    else if falseWords.contains word then some 0
    else Decimal.int64? s
  | null | list _ | table _ => none

/-- The value as a truth value. -/
def toBool? : Value → Option Bool
  | bool b => some b
  | integer i => some (i ≠ 0)
  | float x => some !x.isZero
  | text s =>
    let word := Text.lowercase s
    if word == "1" || trueWords.contains word then some true
    else if word == "0" || falseWords.contains word then some false
    else none
  | null | list _ | table _ => none

/-- The value as a text. -/
def toText? : Value → Option String
  | text s => some s
  | bool b => some (if b then "true" else "false")
  | integer i => some (toString i)
  | float x => some x.render
  | null | list _ | table _ => none

end Value

/-- The path that a dotted key names; a key that is no path names an entry of its own. -/
def pathOf (key : String) : List String :=
  let names := Text.split (· == '.') key
  if names.all (!·.isEmpty) then names else [key]

/-- What reading a key as some type gives. -/
inductive Lookup (α : Type)
  | missing
  | unreadable
  | found (value : α)
  deriving DecidableEq, Repr

/-- Reads what stands at a key. -/
def lookup {α : Type} (read? : Value → Option α) (key : String) (tree : Value) : Lookup α :=
  match tree.get? (pathOf key) with
  | none => .missing
  | some value =>
    match read? value with
    | none => .unreadable
    | some a => .found a

def Lookup.toOption {α : Type} : Lookup α → Option α
  | found a => some a
  | missing | unreadable => none

end CacheCluster.Settings
