import CacheCluster.Error
import CacheCluster.Chunk
import CacheCluster.Text.Blank
import CacheCluster.Text.Split
import CacheCluster.Text.Utf8
import CacheCluster.Codec.Gzip

/-! # Heartbeat payloads

A heartbeat carries the urls of a node, joined by a delimiter and compressed. A payload must fit in
one datagram, so a list that does not is halved until each part does.
-/

namespace CacheCluster.Heartbeat

/-- What stands between two urls. -/
def delimiter : Char := '|'

/-- The greatest size of a payload that travels in one datagram. -/
def maxPayload : Nat := 1500

def hasDelimiter (url : String) : Bool :=
  url.toList.contains delimiter

/-- The urls behind one another; a delimiter is written only behind a text. -/
def join (urls : List String) : String :=
  urls.foldl (fun text url => (if text.isEmpty then text else text.push delimiter) ++ url) ""

/-- The text of a heartbeat; the first url that holds the delimiter makes it impossible. -/
def assemble (urls : List String) : Result String :=
  match urls.find? hasDelimiter with
  | some url => .error (.encoding url)
  | none => .ok (join urls)

/-- The payload of urls without the delimiter. -/
def payload (urls : List String) : List UInt8 :=
  Codec.gzip (Text.utf8 (join urls))

/-- The urls in the text of a heartbeat, trimmed and without blank ones. -/
def urlsIn (text : String) : List String :=
  ((Text.split (· == delimiter) text).map Text.trim).filter (!·.isEmpty)

/-- The urls in a payload. -/
def disassemble (payload : List UInt8) : Result (List String) :=
  match Codec.ungzip payload with
  | .error fault => .error (.corruptPayload fault.message)
  | .ok bytes =>
    match Text.decodeUtf8 bytes with
    | .error fault => .error (.corruptPayload ("payload is not UTF-8: " ++ fault.message))
    | .ok text => .ok (urlsIn text)

/-- The payloads for some urls, and the urls that no payload could carry. -/
structure Packing where
  payloads : List (List UInt8) := []
  /-- Urls that hold the delimiter. -/
  skipped : List String := []
  /-- Urls whose payload is too long even when they are alone. -/
  tooLong : List String := []
  deriving DecidableEq, Repr

/-- Two packings behind one another. -/
def Packing.append (p q : Packing) : Packing :=
  ⟨p.payloads ++ q.payloads, p.skipped ++ q.skipped, p.tooLong ++ q.tooLong⟩

instance : Append Packing := ⟨Packing.append⟩

/-- Packs urls without the delimiter into payloads of at most `limit` bytes. -/
def packClean (limit : Nat) (urls : List String) : Packing :=
  match urls with
  | [] => {}
  | first :: rest =>
    let whole := payload (first :: rest)
    if whole.length ≤ limit then { payloads := [whole] }
    else if rest.isEmpty then { tooLong := [first] }
    else
      let half := (first :: rest).length / 2
      packClean limit ((first :: rest).take half) ++ packClean limit ((first :: rest).drop half)
termination_by urls.length
decreasing_by
  all_goals
    have : rest ≠ [] := by intro h; simp [h] at *
    have := List.length_pos_iff.2 this
    simp only [List.length_take, List.length_drop, List.length_cons]
    omega

/-- Packs urls into payloads of at most `limit` bytes, skipping those that hold the delimiter. -/
def pack (limit : Nat) (urls : List String) : Packing :=
  { skipped := urls.filter hasDelimiter } ++ packClean limit (urls.filter (!hasDelimiter ·))

/-- Packs urls in groups of `max 1 perSend`, each group into datagrams of its own. -/
def packGroups (perSend : Nat) (urls : List String) : Packing :=
  (chunks perSend urls).foldl (fun packing group => packing ++ pack maxPayload group) {}

end CacheCluster.Heartbeat
