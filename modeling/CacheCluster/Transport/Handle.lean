import CacheCluster.Peer.Mesh
import CacheCluster.Transport.Listener

/-! # Calls over a connection

A handle calls one cache on one listener over a connection that it opens when it needs one and keeps
while the calls succeed. A call that fails or takes too long closes the connection. A call that its
caller drops leaves it open, with an answer under way that the next call will read.
-/

namespace CacheCluster

/-- What can be reached at which address. -/
structure Network where
  listeners : Table Listener := ∅
  /-- Whether the machine has no way to any address. -/
  isIsolated : Bool := false

/-- What comes next on a connection. -/
inductive Incoming
  | answer (response : Response)
  /-- What is left of an answer that was read in part; it does not read. -/
  | rest
  /-- Nothing more: the listener has closed the connection, or waits for a request that was written
  in part. -/
  | ended
  deriving DecidableEq, Repr

/-- An open connection. -/
structure Connection where
  /-- The session of the listener that accepted the connection. -/
  session : Nat
  lastUsed : Nat
  /-- What has come for requests and has not been read. -/
  unread : List Incoming := []
  deriving DecidableEq, Repr

/-- How far a call has come. -/
inductive Fate.Stage
  | connecting | writing | waiting | reading
  deriving DecidableEq, Repr

/-- How a call goes: to its end, or up to a stage in which the handle's timeout ends it or its
caller drops it. -/
inductive Fate
  | answered
  | timedOut (stage : Fate.Stage)
  | dropped (stage : Fate.Stage)
  deriving DecidableEq, Repr

structure Handle where
  url : String
  address : String
  cache : String
  timeout : Nat
  connection : Option Connection := none
  deriving DecidableEq, Repr

/-- What a call comes to; one that was dropped has no result. -/
structure Exchange where
  result : Option (Result Response)
  handle : Handle
  network : Network

namespace Network

/-- Opens a connection. -/
def dial (network : Network) (now : Nat) (address : String) : Result Connection :=
  match Address.parse address with
  | .error error => .error error
  | .ok _ =>
    if network.isIsolated then .error (.io .networkUnreachable "Network is unreachable")
    else
      match network.listeners.get? address with
      | some listener =>
        if listener.isRunning then .ok { session := listener.session, lastUsed := now }
        else .error (.io .connectionRefused "Connection refused")
      | none => .error (.io .connectionRefused "Connection refused")

/-- The listener at the other end, unless it takes no more requests from the connection. -/
def accepting? (network : Network) (now : Nat) (address : String) (connection : Connection) :
    Option Listener :=
  (network.listeners.get? address).filter fun listener =>
    listener.isRunning && listener.session == connection.session &&
      now - connection.lastUsed ≤ listener.socketTimeout && !connection.unread.contains .ended

end Network

namespace Handle

/-- The handle of a url, without a connection. -/
def ofUrl (url : String) (timeout : Nat) : Result Handle :=
  (PeerUrl.parse url).map fun (address, cache) => { url, address, cache, timeout }

def closed (handle : Handle) : Error :=
  .remote ("connection to " ++ handle.address ++ " closed")

def tooLate (handle : Handle) : Error :=
  .remote ("call to " ++ handle.url ++ " timed out after " ++ Address.durationText handle.timeout)

/-- A call that ends the connection. -/
def fail (handle : Handle) (network : Network) (error : Error) : Exchange :=
  ⟨some (.error error), { handle with connection := none }, network⟩

/-- A connection that is kept after a call. -/
def keep (handle : Handle) (now : Nat) (connection : Connection) (unread : List Incoming) :
    Handle :=
  { handle with connection := some { connection with lastUsed := now, unread } }

/-- What a response means to the caller. -/
def reading : Response → Result Response
  | .error message => .error (.remote message)
  | response => .ok response

/-- What is left when the first answer that comes is read in part. -/
def tear : List Incoming → List Incoming
  | .answer _ :: unread => .rest :: unread
  | incoming => incoming

/-- What a request that is written to a connection brings about: what comes for it, and what is
served afterwards. A listener ends the connection if its answer does not fit in a frame. -/
def ask (handle : Handle) (network : Network) (now : Nat) (connection : Connection)
    (action : Request.Action) : Incoming × Network :=
  match network.accepting? now handle.address connection with
  | none => (.ended, network)
  | some listener =>
    let (response, caches) := Service.answer listener.caches ⟨handle.cache, action⟩
    (if (Frame.write response.encode).toBool then .answer response else .ended,
      { network with
        listeners := network.listeners.insert handle.address { listener with caches } })

/-- Reads the first answer off a connection. -/
def receive (handle : Handle) (network : Network) (now : Nat) (connection : Connection) :
    List Incoming → Exchange
  | .answer response :: unread =>
    ⟨some (reading response), handle.keep now connection unread, network⟩
  | _ => handle.fail network handle.closed

/-- What comes of a request that fits in a frame, as far as the call goes. -/
def proceed (handle : Handle) (network : Network) (now : Nat) (fate : Fate)
    (connection : Connection) (action : Request.Action) : Exchange :=
  let asked := handle.ask network now connection action
  let incoming := connection.unread ++ [asked.1]
  match fate with
  | .answered => handle.receive asked.2 now connection incoming
  | .timedOut .connecting | .timedOut .writing => handle.fail network handle.tooLate
  | .timedOut _ => handle.fail asked.2 handle.tooLate
  | .dropped .connecting => ⟨none, handle, network⟩
  | .dropped .writing =>
    ⟨none, handle.keep now connection (connection.unread ++ [.ended]), network⟩
  | .dropped .waiting => ⟨none, handle.keep now connection incoming, asked.2⟩
  | .dropped .reading => ⟨none, handle.keep now connection (tear incoming), asked.2⟩

/-- Writes a request to a connection and reads the first answer off it. -/
def exchange (handle : Handle) (network : Network) (now : Nat) (fate : Fate)
    (connection : Connection) (action : Request.Action) : Exchange :=
  match Frame.write (Request.encode ⟨handle.cache, action⟩) with
  | .error error => handle.fail network error
  | .ok _ => handle.proceed network now fate connection action

/-- Asks something of the cache, over a new connection if there is none. -/
def call (handle : Handle) (network : Network) (now : Nat) (fate : Fate)
    (action : Request.Action) : Exchange :=
  match handle.connection, fate with
  | _, .dropped .connecting => ⟨none, handle, network⟩
  | some connection, _ => handle.exchange network now fate connection action
  | none, .timedOut .connecting => handle.fail network handle.tooLate
  | none, _ =>
    match network.dial now handle.address with
    | .error error => handle.fail network error
    | .ok connection => handle.exchange network now fate connection action

end Handle

namespace Request.Action

/-- Whether a response answers what was asked; a ping takes any. -/
def isAnsweredBy : Request.Action → Response → Bool
  | .ping, _ => true
  | .put _, .ok | .removeAll, .ok | .send _, .ok => true
  | .remove _, .removed _ => true
  | .keys, .keys _ => true
  | .getElements _, .elements _ => true
  | _, _ => false

end Request.Action

namespace Handle

/-- The result of a call, whose response must answer what was asked. -/
def checked (url : String) (action : Request.Action) : Result Response → Result Response
  | .ok response =>
    if action.isAnsweredBy response then .ok response else .error (response.unexpectedFrom url)
  | .error error => .error error

end Handle

/-- The handles that have been made, each under its url. -/
structure Connector where
  timeout : Nat
  handles : Table Handle := ∅

/-- What connecting comes to. -/
structure Connecting where
  result : Result Handle
  connector : Connector
  network : Network

namespace Connector

/-- The handle of a url: the one that was made before, or a new one. -/
def handleFor (connector : Connector) (url : String) : Result Handle :=
  match connector.handles.get? url with
  | some handle => .ok handle
  | none => Handle.ofUrl url connector.timeout

/-- What a ping of the handle of a url comes to. -/
def ping (connector : Connector) (network : Network) (now : Nat) (fate : Fate) (url : String) :
    Result Exchange :=
  (connector.handleFor url).map fun handle => handle.call network now fate .ping

/-- Keeps the handle of a url after a ping, and forgets it if the ping failed. -/
def settle (connector : Connector) (url : String) (pinged : Exchange) : Connector :=
  match pinged.result with
  | some (.error _) => { connector with handles := connector.handles.erase url }
  | _ => { connector with handles := connector.handles.insert url pinged.handle }

/-- A handle that answers a ping; one that does not is forgotten. -/
def connect (connector : Connector) (network : Network) (now : Nat) (url : String) : Connecting :=
  match connector.ping network now .answered url with
  | .error error => ⟨.error error, connector, network⟩
  | .ok pinged =>
    { result :=
        match pinged.result with
        | some (.error error) => .error error
        | _ => .ok pinged.handle
      connector := connector.settle url pinged
      network := pinged.network }

end Connector

namespace Network

/-- What a call to a url comes to, over a connection of its own. -/
def ask (network : Network) (now : Nat) (url : String) (action : Request.Action) :
    Result Response :=
  match Handle.ofUrl url 0 with
  | .error error => .error error
  | .ok handle =>
    match (handle.call network now .answered action).result with
    | some result => Handle.checked url action result
    | none => .error handle.closed

/-- The mesh of a network whose caches do not change. -/
def mesh (network : Network) : Mesh where
  connect now url := { outcome := (network.ask now url .ping).map fun _ => () }
  call now url action := { outcome := network.ask now url action }

end Network

end CacheCluster
