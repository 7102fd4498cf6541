import CacheCluster.Json.Lexeme

/-! # Reading a JSON text

The document that a text denotes. The reader keeps the arrays and objects that are still open on a
stack, so that it goes through the lexemes once from left to right.
-/

namespace CacheCluster.Json

/-- An array or object that is still open, its entries latest first. -/
inductive Open
  | array (values : List Json)
  /-- The name is that of the member whose value comes next. -/
  | object (members : List (String × Json)) (strays : Bool) (name : Option String)

/-- What the reader expects next. -/
inductive Expect
  | value
  /-- A value or the end of the array just opened. -/
  | valueOrEnd
  | name
  /-- A name or the end of the object just opened. -/
  | nameOrEnd
  | colon
  /-- A comma or the end of the array or object, or the end of the text. -/
  | more

/-- The document of a closed object; one with a stray name denotes nothing. -/
def closeObject (members : List (String × Json)) (strays : Bool) : Json :=
  if strays then .stray else .object members.reverse

/-- What remains when a value is complete. -/
inductive Landing
  | document (value : Json)
  | within (stack : List Open)

/-- Puts a complete value into the innermost open array or object. -/
def land (value : Json) : List Open → Landing
  | [] => .document value
  | .array values :: stack => .within (.array (value :: values) :: stack)
  | .object members strays name :: stack =>
    match name with
    | some name => .within (.object ((name, value) :: members) strays none :: stack)
    | none => .within (.object members true none :: stack)

/-- Reads on from a state; a finished document may be followed by nothing. -/
def readFrom : List Lexeme → Expect → List Open → Option Json → Option Json
  | [], .more, [], finished => finished
  | [], _, _, _ => none
  | .scalar value :: rest, .value, stack, _ | .scalar value :: rest, .valueOrEnd, stack, _ =>
    match land value stack with
    | .document value => readFrom rest .more [] (some value)
    | .within stack => readFrom rest .more stack none
  | .mark .openArray :: rest, .value, stack, _ | .mark .openArray :: rest, .valueOrEnd, stack, _ =>
    readFrom rest .valueOrEnd (.array [] :: stack) none
  | .mark .openObject :: rest, .value, stack, _
  | .mark .openObject :: rest, .valueOrEnd, stack, _ =>
    readFrom rest .nameOrEnd (.object [] false none :: stack) none
  | .mark .closeArray :: rest, .valueOrEnd, .array values :: stack, _
  | .mark .closeArray :: rest, .more, .array values :: stack, _ =>
    match land (.array values.reverse) stack with
    | .document value => readFrom rest .more [] (some value)
    | .within stack => readFrom rest .more stack none
  | .mark .closeObject :: rest, .nameOrEnd, .object members strays _ :: stack, _
  | .mark .closeObject :: rest, .more, .object members strays _ :: stack, _ =>
    match land (closeObject members strays) stack with
    | .document value => readFrom rest .more [] (some value)
    | .within stack => readFrom rest .more stack none
  | .mark .comma :: rest, .more, .array values :: stack, _ =>
    readFrom rest .value (.array values :: stack) none
  | .mark .comma :: rest, .more, .object members strays name :: stack, _ =>
    readFrom rest .name (.object members strays name :: stack) none
  | .scalar (.string name) :: rest, .name, .object members strays _ :: stack, _
  | .scalar (.string name) :: rest, .nameOrEnd, .object members strays _ :: stack, _ =>
    readFrom rest .colon (.object members strays (some name) :: stack) none
  | .scalar .stray :: rest, .name, .object members _ _ :: stack, _
  | .scalar .stray :: rest, .nameOrEnd, .object members _ _ :: stack, _ =>
    readFrom rest .colon (.object members true none :: stack) none
  | .mark .colon :: rest, .colon, stack, _ => readFrom rest .value stack none
  | _ :: _, _, _, _ => none

/-- The document that a text denotes, if it is a JSON text. -/
def parse? (s : String) : Option Json :=
  (lex? [] .nothing s.toList).bind fun lexemes => readFrom lexemes .value [] none

end CacheCluster.Json
