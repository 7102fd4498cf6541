import CacheCluster.Wire.Message

/-! # Requests

What one node asks of a cache on another, and its document. Every request names its cache.
-/

namespace CacheCluster

namespace Request

/-- What is asked of a cache. -/
inductive Action
  | ping
  | put (element : Element)
  | remove (key : String)
  | removeAll
  | send (messages : List Message)
  | keys
  | getElements (keys : List String)
  deriving DecidableEq, Repr

end Request

structure Request where
  cache : String
  action : Request.Action
  deriving DecidableEq, Repr

namespace Request

/-- The tag of an action and the fields it adds to the cache name. -/
def Action.shape : Action → String × List (String × Json)
  | .ping => ("PING", [])
  | .put element => ("PUT", [("element", element.toJson)])
  | .remove key => ("REMOVE", [("key", .string key)])
  | .removeAll => ("REMOVE_ALL", [])
  | .send messages => ("SEND", [("messages", .array (messages.map Message.toJson))])
  | .keys => ("KEYS", [])
  | .getElements names => ("GET_ELEMENTS", [("keys", Wire.ofStrings names)])

def toJson (request : Request) : Json :=
  let (tag, fields) := request.action.shape
  Wire.tagged tag (("cache_name", .string request.cache) :: fields)

/-- Reads a request whose action has no field of its own. -/
def plain? (action : Action) (body : Json) : Option Request :=
  match Wire.fields? ["cache_name"] body with
  | some [cache] => (Json.string? cache).map fun cache => ⟨cache, action⟩
  | _ => none

/-- Reads a request whose action has one field of its own. -/
def withField? (name : String) (action? : Json → Option Action) (body : Json) : Option Request :=
  match Wire.fields? ["cache_name", name] body with
  | some [cache, field] => do return ⟨← Json.string? cache, ← action? field⟩
  | _ => none

def ofJson? (document : Json) : Option Request :=
  match Wire.variant? document with
  | some ("PING", body) => plain? .ping body
  | some ("PUT", body) => withField? "element" (fun e => (Element.ofJson? e).map .put) body
  | some ("REMOVE", body) => withField? "key" (fun k => (Json.string? k).map .remove) body
  | some ("REMOVE_ALL", body) => plain? .removeAll body
  | some ("SEND", body) =>
    withField? "messages" (fun ms => (Wire.list? Message.ofJson? ms).map .send) body
  | some ("KEYS", body) => plain? .keys body
  | some ("GET_ELEMENTS", body) =>
    withField? "keys" (fun ks => (Wire.list? Json.string? ks).map .getElements) body
  | _ => none

def encode (request : Request) : String :=
  request.toJson.render

def decode? (text : String) : Option Request :=
  (Wire.taggedText? text).bind ofJson?

end Request

end CacheCluster
