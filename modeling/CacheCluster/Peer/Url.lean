import CacheCluster.Error
import CacheCluster.Text.Split

/-! # Peer urls

A peer url names a cache on a listener: `tcp://host:port/cache`. A connection takes the address up
to the first slash and the cache name after it; a lookup takes for the cache name what follows the
last.
-/

namespace CacheCluster.PeerUrl

/-- What every peer url starts with. -/
def lead : List Char := ['t', 'c', 'p', ':', '/', '/']

/-- The url of a cache on a listener. -/
def format (host : String) (port : Nat) (cache : String) : String :=
  "tcp://" ++ host ++ ":" ++ toString port ++ "/" ++ cache

/-- The address and the cache name in the characters of a url. -/
def parts? (url : List Char) : Option (List Char × List Char) :=
  ((Text.dropStart lead url).bind (Text.cutFirst '/')).filter fun (address, cache) =>
    !address.isEmpty && !cache.isEmpty && address.contains ':'

/-- The address to connect to and the name of the cache to ask for there. -/
def parse (url : String) : Result (String × String) :=
  match parts? url.toList with
  | some (address, cache) => .ok (String.ofList address, String.ofList cache)
  | none => .error (.remote ("invalid peer url '" ++ url ++ "'"))

/-- The cache that a url is taken to name when peers are looked up. -/
def cacheName (url : String) : String :=
  match Text.cutLast '/' url.toList with
  | some (_, name) => String.ofList name
  | none => url

/-- Whether a url is taken to name `cache`. -/
def isFor (cache url : String) : Bool :=
  cacheName url == cache

end CacheCluster.PeerUrl
