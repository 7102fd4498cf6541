import CacheCluster.Codec.PrefixCode
import CacheCluster.Codec.Block
import CacheCluster.Codec.Token

/-! # Reading compressed blocks

Decompressing reads a sequence of blocks, each stored, or coded with the fixed code or with one it
carries. Input that ends early and input that no data compresses to are told apart.
-/

namespace CacheCluster.Codec

/-- Why a stream does not decompress. -/
inductive InflateFault
  /-- The input ends inside the stream. -/
  | incomplete
  | corrupt
  deriving DecidableEq, Repr

theorem takeNumber?_length {k m : Nat} {bits rest : Bits}
    (h : takeNumber? k bits = some (m, rest)) :
    rest.length ≤ bits.length := by
  induction k generalizing bits m with
  | zero => simp only [takeNumber?, Option.some.injEq, Prod.mk.injEq] at h; simp [h.2]
  | succ k ih =>
    cases bits with
    | nil => simp [takeNumber?] at h
    | cons b bs =>
      obtain ⟨⟨m', rest'⟩, hm, he⟩ := Option.map_eq_some_iff.1 h
      cases he
      exact Nat.le_succ_of_le (ih hm)

/-- Takes a number of `k` bits off a stream. -/
def takeBits {n : Nat} (k : Nat) (bits : Tail n) : Except InflateFault (Nat × Tail n) :=
  match h : takeNumber? k bits.1 with
  | none => .error .incomplete
  | some (m, rest) => .ok (m, ⟨rest, Nat.lt_of_le_of_lt (takeNumber?_length h) bits.2⟩)

/-- Takes the number that an entry of a table and its extra bits stand for. -/
def takeSlot {n : Nat} (table : List (Nat × Nat)) (slot : Nat) (bits : Tail n) :
    Except InflateFault (Nat × Tail n) :=
  match table[slot]? with
  | none => .error .corrupt
  | some (least, extra) => (takeBits extra bits).map fun (m, rest) => (least + m, rest)

/-- Takes a symbol off a stream. -/
def takeSymbol {n : Nat} (code : PrefixCode) (bits : Tail n) :
    Except InflateFault (Nat × Tail bits.1.length) :=
  match code.read bits.1 with
  | .symbol s rest => .ok (s, rest)
  | .starved => .error .incomplete
  | .invalid => .error .corrupt

/-- Takes a token off a stream, or the end of the block. -/
def takeToken {n : Nat} (literals distances : PrefixCode) (bits : Tail n) :
    Except InflateFault (Option Token × Tail bits.1.length) := do
  let (s, rest) ← takeSymbol literals bits
  if s < endOfBlock then .ok (some (.literal (UInt8.ofNat s)), rest)
  else if s = endOfBlock then .ok (none, rest)
  else
    let (length, rest) ← takeSlot lengthTable (s - endOfBlock - 1) rest
    let (d, after) ← takeSymbol distances rest
    let (distance, rest) ← takeSlot distanceTable d (after.widen (Nat.le_of_lt rest.2))
    .ok (some (.copy length distance), rest)

/-- The output after the coded part of a block, and the stream behind it. -/
def inflateCoded {n : Nat} (literals distances : PrefixCode) (out : Array UInt8) (bits : Tail n) :
    Except InflateFault (Array UInt8 × Tail n) :=
  match takeToken literals distances bits with
  | .error fault => .error fault
  | .ok (none, rest) => .ok (out, rest.widen (Nat.le_of_lt bits.2))
  | .ok (some token, rest) =>
    have := rest.2
    inflateCoded literals distances (token.expand out) (rest.widen (Nat.le_of_lt bits.2))
termination_by bits.1.length

/-- The output after `count` stored bytes, and the stream behind them. -/
def takeBytes {n : Nat} (out : Array UInt8) (count : Nat) (bits : Tail n) :
    Except InflateFault (Array UInt8 × Tail n) :=
  match count with
  | 0 => .ok (out, bits)
  | count + 1 =>
    match takeBits 8 bits with
    | .error fault => .error fault
    | .ok (b, rest) => takeBytes (out.push (UInt8.ofNat b)) count rest

/-- The output after a stored block; it begins at a byte and gives its length twice. -/
def inflateStored {n : Nat} (out : Array UInt8) (bits : Tail n) :
    Except InflateFault (Array UInt8 × Tail n) := do
  let (_, bits) ← takeBits (bits.1.length % 8) bits
  let (count, bits) ← takeBits 16 bits
  let (complement, bits) ← takeBits 16 bits
  if count + complement = 0xFFFF then takeBytes out count bits else .error .corrupt

/-- Takes `count` numbers of three bits. -/
def takeTriples {n : Nat} (count : Nat) (bits : Tail n) :
    Except InflateFault (List Nat × Tail n) :=
  match count with
  | 0 => .ok ([], bits)
  | count + 1 => do
    let (m, bits) ← takeBits 3 bits
    let (ms, bits) ← takeTriples count bits
    .ok (m :: ms, bits)

/-- The code lengths that a block carries, `total` of them, after those already read, latest
first. -/
def takeLengths {n : Nat} (code : PrefixCode) (total : Nat) (read : List Nat) (count : Nat)
    (bits : Tail n) : Except InflateFault (List Nat × Tail n) :=
  if total ≤ count then
    if count = total then .ok (read.reverse, bits) else .error .corrupt
  else
    match takeSymbol code bits with
    | .error fault => .error fault
    | .ok (s, rest) =>
      have := rest.2
      if s < 16 then
        takeLengths code total (s :: read) (count + 1) (rest.widen (Nat.le_of_lt bits.2))
      else
        let repeated := if s = 16 then read.head? else some 0
        let (extra, least) := if s = 16 then (2, 3) else if s = 17 then (3, 3) else (7, 11)
        match repeated with
        | none => .error .corrupt
        | some length =>
          match takeBits extra rest with
          | .error fault => .error fault
          | .ok (m, rest) =>
            have := rest.2
            takeLengths code total (List.replicate (least + m) length ++ read) (count + (least + m))
              (rest.widen (Nat.le_of_lt bits.2))
termination_by bits.1.length

/-- Whether lengths make a code: every stream begins with a codeword, or there is at most one. -/
def isCode (lengths : List Nat) : Bool :=
  codeRoom lengths == fullRoom || usedSymbols lengths ≤ 1

/-- The output after a block that carries its codes. -/
def inflateDynamic {n : Nat} (out : Array UInt8) (bits : Tail n) :
    Except InflateFault (Array UInt8 × Tail n) := do
  let (literalCount, bits) ← takeBits 5 bits
  let (distanceCount, bits) ← takeBits 5 bits
  let (lengthCount, bits) ← takeBits 4 bits
  let literalCount := literalCount + 257
  let distanceCount := distanceCount + 1
  if literalCount > 286 ∨ distanceCount > 30 then .error .corrupt
  else
    let (given, bits) ← takeTriples (lengthCount + 4) bits
    let orders := lengthOrder.zip given
    let lengths := (List.range 19).map fun s => ((orders.find? (·.1 = s)).map (·.2)).getD 0
    if codeRoom lengths ≠ fullRoom then .error .corrupt
    else
      let (all, bits) ← takeLengths (.ofLengths lengths) (literalCount + distanceCount) [] 0 bits
      let literals := all.take literalCount
      let distances := all.drop literalCount
      if isCode literals && isCode distances then
        inflateCoded (.ofLengths literals) (.ofLengths distances) out bits
      else .error .corrupt

/-- The output after the blocks of a stream, and the stream behind the last one. -/
def inflateBlocks (out : Array UInt8) (bits : Bits) : Except InflateFault (Array UInt8 × Bits) :=
  match bits with
  | last :: low :: high :: bits =>
    let body : Tail (bits.length + 3) := ⟨bits, by omega⟩
    let block :=
      if !low && !high then inflateStored out body
      else if low && !high then
        inflateCoded (.ofLengths fixedLengths) (.ofLengths fixedDistanceLengths) out body
      else if !low && high then inflateDynamic out body
      else .error .corrupt
    match block with
    | .error fault => .error fault
    | .ok (out, rest) =>
      if last then .ok (out, rest.1) else inflateBlocks out rest.1
  | _ => .error .incomplete
termination_by bits.length
decreasing_by exact rest.2

/-- Decompresses a stream; gives also the bytes behind it. -/
def inflate (bytes : List UInt8) : Except InflateFault (List UInt8 × List UInt8) :=
  (inflateBlocks #[] (toBits bytes)).map fun (out, rest) =>
    (out.toList, bytes.drop (bytes.length - rest.length / 8))

end CacheCluster.Codec
