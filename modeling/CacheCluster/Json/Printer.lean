import CacheCluster.Json.Basic
import CacheCluster.Text.Hex

/-! # Writing a JSON text

The compact text of a document. Quotes, backslashes and control characters are escaped, all other
characters stand for themselves.
-/

namespace CacheCluster.Json

/-- Appends one character of a quoted string. -/
def pushEscaped (written : String) (c : Char) : String :=
  if c == '"' then written ++ "\\\""
  else if c == '\\' then written ++ "\\\\"
  else if c.toNat ≥ 0x20 then written.push c
  else if c == '\n' then written ++ "\\n"
  else if c == '\r' then written ++ "\\r"
  else if c == '\t' then written ++ "\\t"
  else if c.toNat == 0x08 then written ++ "\\b"
  else if c.toNat == 0x0C then written ++ "\\f"
  else ((written ++ "\\u00").push (Text.hexChar (c.toNat / 16))).push (Text.hexChar (c.toNat % 16))

/-- Appends a string in quotes. -/
def pushQuoted (written : String) (s : String) : String :=
  (s.foldl pushEscaped (written.push '"')).push '"'

/-- The text of a number. -/
def Number.render : Number → String
  | integer value => toString value
  | decimal negative digits power =>
    (if negative then "-" else "") ++ toString digits ++ "e" ++ toString power

mutual

/-- Appends the text of a document; what denotes nothing is written as null. -/
def push (written : String) : Json → String
  | null | stray => written ++ "null"
  | bool value => written ++ (if value then "true" else "false")
  | number value => written ++ value.render
  | string value => pushQuoted written value
  | array values => (pushAll (written.push '[') true values).push ']'
  | object members => (pushMembers (written.push '\x7b') true members).push '\x7d'

def pushAll (written : String) (isFirst : Bool) : List Json → String
  | [] => written
  | value :: values =>
    pushAll (push (if isFirst then written else written.push ',') value) false values

def pushMembers (written : String) (isFirst : Bool) : List (String × Json) → String
  | [] => written
  | (name, value) :: members =>
    let written := if isFirst then written else written.push ','
    pushMembers (push ((pushQuoted written name).push ':') value) false members

end

/-- The compact text of a document. -/
def render (document : Json) : String :=
  push "" document

end CacheCluster.Json
