import CacheCluster.Error
import CacheCluster.Wire.Message

/-! # Responses

What a node answers to a request, and its document.
-/

namespace CacheCluster

inductive Response
  | ok
  /-- Whether the cache held the key. -/
  | removed (removed : Bool)
  | keys (keys : List String)
  | elements (elements : List Element)
  | error (message : String)
  deriving DecidableEq, Repr

namespace Response

def toJson : Response → Json
  | .ok => Wire.tagged "OK" []
  | .removed held => Wire.tagged "REMOVED" [("removed", .bool held)]
  | .keys names => Wire.tagged "KEYS" [("keys", Wire.ofStrings names)]
  | .elements found => Wire.tagged "ELEMENTS" [("elements", .array (found.map Element.toJson))]
  | .error message => Wire.tagged "ERROR" [("message", .string message)]

/-- Reads a response of one field. -/
def withField? (name : String) (read? : Json → Option Response) (body : Json) : Option Response :=
  match Wire.fields? [name] body with
  | some [field] => read? field
  | _ => none

def ofJson? (document : Json) : Option Response :=
  match Wire.variant? document with
  | some ("OK", body) => (Wire.fields? [] body).map fun _ => ok
  | some ("REMOVED", body) => withField? "removed" (fun r => (Json.bool? r).map removed) body
  | some ("KEYS", body) => withField? "keys" (fun ks => (Wire.list? Json.string? ks).map keys) body
  | some ("ELEMENTS", body) =>
    withField? "elements" (fun es => (Wire.list? Element.ofJson? es).map elements) body
  | some ("ERROR", body) => withField? "message" (fun m => (Json.string? m).map error) body
  | _ => none

def encode (response : Response) : String :=
  response.toJson.render

def decode? (text : String) : Option Response :=
  (Wire.taggedText? text).bind ofJson?

/-- A string as a message shows it: in quotes, with quotes and control characters escaped. -/
def shown (s : String) : String :=
  s.foldl (fun written c =>
    if c == '"' then written ++ "\\\""
    else if c == '\\' then written ++ "\\\\"
    else if c == '\n' then written ++ "\\n"
    else if c == '\r' then written ++ "\\r"
    else if c == '\t' then written ++ "\\t"
    else if c.toNat == 0 then written ++ "\\0"
    else if c.toNat < 0x20 || c.toNat == 0x7F then
      written ++ "\\u\x7b" ++ String.ofList (Nat.toDigits 16 c.toNat) ++ "\x7d"
    else written.push c) "\"" ++ "\""

def shownList (entries : List String) : String :=
  "[" ++ ", ".intercalate entries ++ "]"

def shownElement (element : Element) : String :=
  "Element \x7b key: " ++ shown element.key ++ ", value: " ++
    shownList (element.value.map fun b => toString b.toNat) ++ ", version: " ++
    toString element.version.toInt ++ ", creation_time: " ++
    toString element.creationTime.toInt ++ " \x7d"

/-- A response as the message about an unexpected one shows it. -/
def describe : Response → String
  | .ok => "Ok"
  | .removed held => "Removed \x7b removed: " ++ toString held ++ " \x7d"
  | .keys names => "Keys \x7b keys: " ++ shownList (names.map shown) ++ " \x7d"
  | .elements found => "Elements \x7b elements: " ++ shownList (found.map shownElement) ++ " \x7d"
  | .error message => "Error \x7b message: " ++ shown message ++ " \x7d"

/-- The failure of a call that got the answer to another question. -/
def unexpectedFrom (url : String) (response : Response) : Error :=
  .remote ("unexpected response from " ++ url ++ ": " ++ response.describe)

end Response

end CacheCluster
