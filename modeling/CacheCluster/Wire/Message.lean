import CacheCluster.Mutation
import CacheCluster.Wire.Element

/-! # Messages on the wire -/

namespace CacheCluster.Message

def toJson : Message → Json
  | put element => Wire.tagged "PUT" [("element", element.toJson)]
  | remove key => Wire.tagged "REMOVE" [("key", .string key)]
  | removeAll => Wire.tagged "REMOVE_ALL" []

def ofJson? (document : Json) : Option Message :=
  match Wire.variant? document with
  | some ("PUT", body) =>
    match Wire.fields? ["element"] body with
    | some [element] => (Element.ofJson? element).map put
    | _ => none
  | some ("REMOVE", body) =>
    match Wire.fields? ["key"] body with
    | some [key] => (Json.string? key).map remove
    | _ => none
  | some ("REMOVE_ALL", body) => (Wire.fields? [] body).map fun _ => removeAll
  | _ => none

def encode (message : Message) : String :=
  message.toJson.render

def decode? (text : String) : Option Message :=
  (Wire.taggedText? text).bind ofJson?

end CacheCluster.Message
