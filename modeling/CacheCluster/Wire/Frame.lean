import CacheCluster.Error
import CacheCluster.Wire.Request
import CacheCluster.Wire.Response

/-! # Frames

A frame is a document's text behind its length in four bytes, most significant first. Neither side
goes beyond the same limit, which a frame may reach.
-/

namespace CacheCluster.Frame

/-- The greatest length of the text in a frame. -/
def maxBytes : Nat := 64 * 1024 * 1024

/-- A number below 2 ^ 32 in four bytes, most significant first. -/
def lengthBytes (n : Nat) : ByteArray :=
  ⟨#[UInt8.ofNat (n / 0x1000000), UInt8.ofNat (n / 0x10000), UInt8.ofNat (n / 0x100),
    UInt8.ofNat n]⟩

/-- The number in the four bytes at the start of a stream, or none if it is shorter. -/
def length? (stream : ByteArray) : Option Nat :=
  match stream[0]?, stream[1]?, stream[2]?, stream[3]? with
  | some a, some b, some c, some d =>
    some (((a.toNat * 256 + b.toNat) * 256 + c.toNat) * 256 + d.toNat)
  | _, _, _, _ => none

/-- The frame of a text. -/
def write (text : String) : Result ByteArray :=
  let size := text.utf8ByteSize
  if size ≤ maxBytes then .ok (lengthBytes size ++ text.toUTF8)
  else .error (.remote ("frame of " ++ toString size ++ " bytes is too large"))

/-- What reading one frame off a stream gives. -/
inductive Reading (α : Type)
  /-- The stream ended where a frame would begin; a part of a length counts as the end. -/
  | finished
  /-- A frame, whose document may not read, and the stream behind it. -/
  | frame (value : Result α) (rest : ByteArray)
  /-- The stream is of no further use. -/
  | broken (error : Error)

/-- Reads one frame off a stream. -/
def read {α : Type} (decode? : String → Option α) (stream : ByteArray) : Reading α :=
  match length? stream with
  | none => .finished
  | some n =>
    if n > maxBytes then
      .broken (.corruptPayload ("frame length " ++ toString n ++ " exceeds " ++ toString maxBytes))
    else if stream.size < 4 + n then
      .broken (.io .unexpectedEnd "early eof")
    else
      let value := match (String.fromUTF8? (stream.extract 4 (4 + n))).bind decode? with
        | some value => .ok value
        | none => .error (.serialization "not a document of this type")
      .frame value (stream.extract (4 + n) stream.size)

/-- What is left to say of a stream at its end. -/
inductive Ending
  | finished
  | broken (error : Error)
  /-- Reading stopped at the number of frames asked for. -/
  | more
  deriving DecidableEq

/-- The frames of a stream, at most `count` of them, and how it went on. -/
def readAll {α : Type} (decode? : String → Option α) : (count : Nat) → ByteArray →
    List (Result α) × Ending
  | 0, _ => ([], .more)
  | count + 1, stream =>
    match read decode? stream with
    | .finished => ([], .finished)
    | .broken error => ([], .broken error)
    | .frame value rest =>
      let (values, ending) := readAll decode? count rest
      (value :: values, ending)

end CacheCluster.Frame
