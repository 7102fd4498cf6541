import CacheCluster.Codec.Deflate

/-! # Members of a compressed file

Compressed data behind a header and before a check sum and the length. Only the first member of the
input is read; its optional header fields are skipped and what follows its trailer is ignored.
-/

namespace CacheCluster.Codec

/-- One bit of the cyclic redundancy check. -/
def crcBit (crc : UInt32) : UInt32 :=
  if crc &&& 1 = 1 then (crc >>> 1) ^^^ 0xEDB88320 else crc >>> 1

/-- The check register after one more byte. -/
def crcByte (crc : UInt32) (b : UInt8) : UInt32 :=
  let c := crc ^^^ b.toUInt32
  crcBit (crcBit (crcBit (crcBit (crcBit (crcBit (crcBit (crcBit c)))))))

/-- The cyclic redundancy check of 32 bits. -/
def crc32 (bytes : List UInt8) : UInt32 :=
  bytes.foldl crcByte 0xFFFFFFFF ^^^ 0xFFFFFFFF

/-- Why a file does not decompress. -/
inductive GzipFault
  /-- The input ends inside the header or the trailer. -/
  | unexpectedEnd
  | badHeader
  /-- A text in the header goes on for too long. -/
  | longField
  | badChecksum
  | stream (fault : InflateFault)
  deriving DecidableEq, Repr

def GzipFault.message : GzipFault → String
  | unexpectedEnd => "unexpected end of file"
  | badHeader => "invalid gzip header"
  | longField => "gzip header field too long"
  | badChecksum => "corrupt gzip stream does not have a matching checksum"
  | stream .incomplete => "incomplete deflate stream"
  | stream .corrupt => "corrupt deflate stream"

/-- The header of a member without optional fields, time or system. -/
def gzipHeader : List UInt8 :=
  [0x1F, 0x8B, 8, 0, 0, 0, 0, 0, 0, 0xFF]

/-- Compresses data as one member. -/
def gzip (data : List UInt8) : List UInt8 :=
  gzipHeader ++ deflate data ++
    (littleEndian 4 (crc32 data).toNat ++ littleEndian 4 data.length)

/-- The bytes behind the next `n`. -/
def skip (n : Nat) (bytes : List UInt8) : Except GzipFault (List UInt8) :=
  if bytes.length < n then .error .unexpectedEnd else .ok (bytes.drop n)

/-- The longest text in a header, without its zero. -/
def maxTextField : Nat := 65535

/-- The bytes behind a text that a zero ends. -/
def skipText : (room : Nat) → List UInt8 → Except GzipFault (List UInt8)
  | _, [] => .error .unexpectedEnd
  | room, b :: bytes =>
    if b = 0 then .ok bytes
    else match room with
      | 0 => .error .longField
      | room + 1 => skipText room bytes

/-- The bytes behind a field that gives its length first. -/
def skipSized : List UInt8 → Except GzipFault (List UInt8)
  | low :: high :: bytes => skip (low.toNat + 256 * high.toNat) bytes
  | _ => .error .unexpectedEnd

/-- The bytes behind the check of the header, which reaches from the start of `whole` to `bytes`. -/
def skipHeaderCheck (whole bytes : List UInt8) : Except GzipFault (List UInt8) :=
  match bytes with
  | low :: high :: rest =>
    let sum := (crc32 (whole.take (whole.length - bytes.length))).toNat % 0x10000
    if low.toNat + 256 * high.toNat = sum then .ok rest else .error .badChecksum
  | _ => .error .unexpectedEnd

/-- The bytes behind the header. -/
def skipHeader (whole : List UInt8) : Except GzipFault (List UInt8) :=
  match whole with
  | a :: b :: method :: flags :: _ :: _ :: _ :: _ :: _ :: _ :: bytes => do
    if a ≠ 0x1F ∨ b ≠ 0x8B ∨ method ≠ 8 ∨ flags &&& 0xE0 ≠ 0 then throw .badHeader
    let bytes ← if flags &&& 4 = 0 then pure bytes else skipSized bytes
    let bytes ← if flags &&& 8 = 0 then pure bytes else skipText maxTextField bytes
    let bytes ← if flags &&& 16 = 0 then pure bytes else skipText maxTextField bytes
    if flags &&& 2 = 0 then pure bytes else skipHeaderCheck whole bytes
  | _ => .error .unexpectedEnd

/-- Decompresses the first member of a file. -/
def ungzip (file : List UInt8) : Except GzipFault (List UInt8) := do
  let bytes ← skipHeader file
  match inflate bytes with
  | .error fault => throw (.stream fault)
  | .ok (data, rest) =>
    if rest.length < 8 then throw .unexpectedEnd
    else if rest.take 8 =
        littleEndian 4 (crc32 data).toNat ++ littleEndian 4 data.length then pure data
    else throw .badChecksum

end CacheCluster.Codec
