/-! # Bit streams

A byte list as the list of its bits, the least significant bit of each byte first, and back. Numbers
in a bit stream have their least significant bit first, codewords their most significant one.
-/

namespace CacheCluster.Codec

abbrev Bits := List Bool

/-- The bits of a byte, the least significant first. -/
def byteBits (b : UInt8) : Bits :=
  (List.range 8).map fun k => b.toNat.testBit k

/-- The bits of a byte list. -/
def toBits (bytes : List UInt8) : Bits :=
  bytes.flatMap byteBits

/-- The number whose bits these are, the least significant first. -/
def ofBits : Bits → Nat
  | [] => 0
  | b :: bs => b.toNat + 2 * ofBits bs

/-- The bytes of a bit stream after those already packed, latest first; zeros fill the last one. -/
def packFrom (packed : List UInt8) : Bits → List UInt8
  | a :: b :: c :: d :: e :: f :: g :: h :: bits =>
    packFrom (UInt8.ofNat (ofBits [a, b, c, d, e, f, g, h]) :: packed) bits
  | [] => packed.reverse
  | bits => (UInt8.ofNat (ofBits bits) :: packed).reverse

/-- The bytes of a bit stream; zeros fill the last one. -/
def pack (bits : Bits) : List UInt8 :=
  packFrom [] bits

/-- The `n` low bits of a number, the least significant first. -/
def numberBits : (n : Nat) → Nat → Bits
  | 0, _ => []
  | n + 1, k => (k % 2 == 1) :: numberBits n (k / 2)

/-- The `n` low bits of a codeword, the most significant first. -/
def codeBits (n k : Nat) : Bits :=
  (numberBits n k).reverse

/-- Takes a number of `n` bits off a stream, or none if it is shorter. -/
def takeNumber? (n : Nat) (bits : Bits) : Option (Nat × Bits) :=
  match n, bits with
  | 0, bits => some (0, bits)
  | _ + 1, [] => none
  | n + 1, b :: bits =>
    (takeNumber? n bits).map fun (k, rest) => (b.toNat + 2 * k, rest)

/-- The `n` low bytes of a number, the least significant first. -/
def littleEndian : (n : Nat) → Nat → List UInt8
  | 0, _ => []
  | n + 1, k => UInt8.ofNat k :: littleEndian n (k / 256)

end CacheCluster.Codec
