import CacheCluster.Decimal.Binary64

/-! # Documents

The values that a JSON text denotes. A number is kept by its decimal text, a repeated member is
kept, and a text that fits the grammar but denotes nothing, such as half a surrogate pair, is
`stray`.
-/

namespace CacheCluster

namespace Json

/-- A number is an integer, or a decimal that is written with a fraction or an exponent or is a
negative zero. -/
inductive Number
  | integer (value : Int)
  | decimal (negative : Bool) (digits : Nat) (power : Int)
  deriving DecidableEq, Repr

/-- Whether a number is within the range of a double. -/
def Number.isFinite : Number → Bool
  | integer value => !isInfinite (.ofDecimal (value < 0) value.natAbs 0)
  | decimal negative digits power => !isInfinite (.ofDecimal negative digits power)
where
  isInfinite : Decimal.Binary64 → Bool
    | .infinity _ => true
    | _ => false

end Json

inductive Json
  | null
  | bool (value : Bool)
  | number (value : Json.Number)
  | string (value : String)
  | array (values : List Json)
  | object (members : List (String × Json))
  | stray
  deriving Inhabited, Repr

namespace Json

mutual

/-- Whether the document denotes a value throughout, its numbers are within range and at most
`levels` arrays and objects lie within one another. -/
def isSound (levels : Nat) : Json → Bool
  | number value => value.isFinite
  | array values => match levels with
    | 0 => false
    | levels + 1 => areSound levels values
  | object members => match levels with
    | 0 => false
    | levels + 1 => areSoundMembers levels members
  | stray => false
  | null | bool _ | string _ => true

def areSound (levels : Nat) : List Json → Bool
  | [] => true
  | value :: values => isSound levels value && areSound levels values

def areSoundMembers (levels : Nat) : List (String × Json) → Bool
  | [] => true
  | (_, value) :: members => isSound levels value && areSoundMembers levels members

end

/-! ## Parts -/

def string? : Json → Option String
  | string s => some s
  | _ => none

def bool? : Json → Option Bool
  | bool b => some b
  | _ => none

def integer? : Json → Option Int
  | number (.integer i) => some i
  | _ => none

/-- The values of an array; any other document has none. -/
def items : Json → List Json
  | array values => values
  | _ => []

/-- The members of an object; any other document has none. -/
def members : Json → List (String × Json)
  | object members => members
  | _ => []

/-- The value of the first member called `name`; a null counts as absent. -/
def member? (name : String) (document : Json) : Option Json :=
  (document.members.lookup name).filter fun value => match value with
    | null => false
    | _ => true

/-- The value of the member called `name`, if there is exactly one. -/
def once? (name : String) (members : List (String × Json)) : Option Json :=
  match members.filter (·.1 = name) with
  | [(_, value)] => some value
  | _ => none

mutual

/-- Changes every string in a document, but for the names of members. -/
def mapStrings (change : String → String) : Json → Json
  | string s => string (change s)
  | array values => array (mapStringsIn change values)
  | object members => object (mapStringsInMembers change members)
  | document => document

def mapStringsIn (change : String → String) : List Json → List Json
  | [] => []
  | value :: values => mapStrings change value :: mapStringsIn change values

def mapStringsInMembers (change : String → String) : List (String × Json) → List (String × Json)
  | [] => []
  | (name, value) :: members =>
    (name, mapStrings change value) :: mapStringsInMembers change members

end

end Json

end CacheCluster
