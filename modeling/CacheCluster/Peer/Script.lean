import CacheCluster.Peer.Mesh

/-! # Scripted peers

A peer that follows a script: how long a look-up or a call takes, whether it then fails, and what
the cache holds. A mesh of scripted peers behaves the same at all times.
-/

namespace CacheCluster

/-- How a scripted peer lists its keys. -/
inductive KeyListing
  /-- The keys of its elements. -/
  | own
  | fixed (keys : List String)
  | failing
  deriving DecidableEq, Repr

structure Script where
  url : String
  connectFails : Bool := false
  connectDelay : Nat := 0
  callFails : Bool := false
  callDelay : Nat := 0
  /-- What the peer answers to a removal. -/
  removed : Bool := true
  elements : List Element := []
  keys : KeyListing := .own
  /-- The greatest total size of the elements in one answer. -/
  limit : Option Nat := none
  /-- A key that must not be asked for. -/
  badKey : Option String := none
  deriving Repr

namespace Script

/-- The elements for some keys, in the peer's own order and each once. -/
def answerElements (script : Script) (keys : List String) : Result Response :=
  if script.badKey.any keys.contains then .error (.remote "bad key requested")
  else
    let found := script.elements.filter fun element => keys.contains element.key
    let size := Element.totalSize found
    match script.limit with
    | none => .ok (.elements found)
    | some limit =>
      if size ≤ limit then .ok (.elements found)
      else .error (.remote ("response of " ++ toString size ++ " bytes exceeds limit"))

def answerKeys (script : Script) : Result Response :=
  match script.keys with
  | .own => .ok (.keys (script.elements.map Element.key))
  | .fixed keys => .ok (.keys keys)
  | .failing => .error (.remote "keys failed")

def answer (script : Script) (action : Request.Action) : Result Response :=
  if script.callFails then .error (.remote (script.url ++ " is unreachable"))
  else
    match action with
    | .remove _ => .ok (.removed script.removed)
    | .keys => script.answerKeys
    | .getElements keys => script.answerElements keys
    | _ => .ok .ok

def connect (script : Script) : Attempt Unit :=
  ⟨script.connectDelay, if script.connectFails
    then .error (.remote (script.url ++ " is unreachable")) else .ok ()⟩

end Script

/-- The mesh of scripted peers; nothing else can be reached. -/
def Mesh.ofScripts (scripts : List Script) : Mesh where
  connect _ url :=
    match scripts.find? (·.url == url) with
    | some script => script.connect
    | none => ⟨0, .error (.remote (url ++ " is unreachable"))⟩
  call _ url action :=
    match scripts.find? (·.url == url) with
    | some script => ⟨script.callDelay, script.answer action⟩
    | none => ⟨0, .error (.remote (url ++ " is unreachable"))⟩

end CacheCluster
