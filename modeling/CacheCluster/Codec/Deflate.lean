import CacheCluster.Codec.Frequency
import CacheCluster.Codec.Inflate
import CacheCluster.Codec.Match

/-! # Writing compressed blocks

Data is written as one block, with the fixed code or one made for it, or as stored blocks, whichever
is shortest. A coded block is used only if it reads back as the data.
-/

namespace CacheCluster.Codec

/-- The index of the last entry of a table that does not exceed `n`, and the excess in its extra
bits. -/
def slotBits (table : List (Nat × Nat)) (n : Nat) : Nat × Bits :=
  let slot := (table.takeWhile (·.1 ≤ n)).length - 1
  let (least, extra) := table.getD slot (0, 0)
  (slot, numberBits extra (n - least))

/-- What stands for a token in a coded block: a literal or length symbol with its extra bits, and
the distance symbol with its own for a copy. -/
structure Coded where
  symbol : Nat
  extra : Bits := []
  distance : Option (Nat × Bits) := none

def Token.coded : Token → Coded
  | literal b => { symbol := b.toNat }
  | copy length distance =>
    let (slot, extra) := slotBits lengthTable length
    ⟨endOfBlock + 1 + slot, extra, some (slotBits distanceTable distance)⟩

/-- The codeword of each symbol. -/
def codeTable (lengths : List Nat) : Array Bits :=
  (codewords lengths).foldl (fun table (s, n, word) => table.setIfInBounds s (codeBits n word))
    (Array.replicate lengths.length [])

/-- The coded part of a block. -/
def codedBits (literals distances : List Nat) (body : List Coded) : Bits :=
  let literalWords := codeTable literals
  let distanceWords := codeTable distances
  body.flatMap (fun c => literalWords.getD c.symbol [] ++ c.extra ++ match c.distance with
    | none => []
    | some (s, extra) => distanceWords.getD s [] ++ extra) ++ literalWords.getD endOfBlock []

/-- A last block with the fixed code. -/
def fixedBlock (body : List Coded) : Bits :=
  [true, true, false] ++ codedBits fixedLengths fixedDistanceLengths body

/-- A list without the zeros at its end, but of `least` entries or more. -/
def trimZeros (least : Nat) (ns : List Nat) : List Nat :=
  ns.take (max least (ns.reverse.dropWhile (· = 0)).length)

/-- The symbols, with extra bits, for a run of `r` zeros in a list of codeword lengths. -/
def zeroRun (r : Nat) : List (Nat × Bits) :=
  if r < 3 then List.replicate r (0, [])
  else if r < 11 then [(17, numberBits 3 (r - 3))]
  else (18, numberBits 7 (min r 138 - 11)) :: zeroRun (r - min r 138)
termination_by r

/-- The symbols, with extra bits, for `r` more lengths of `n`. -/
def moreOf (n r : Nat) : List (Nat × Bits) :=
  if r < 3 then List.replicate r (n, [])
  else (16, numberBits 2 (min r 6 - 3)) :: moreOf n (r - min r 6)
termination_by r

/-- The symbols, with extra bits, for a list of codeword lengths. -/
def lengthSymbols (lengths : List Nat) : List (Nat × Bits) :=
  (lengths.splitBy (· == ·)).flatMap fun
    | [] => []
    | 0 :: run => zeroRun (run.length + 1)
    | n :: run => (n, []) :: moreOf n run.length

/-- A last block with the codes that make it shortest. -/
def ownBlock (body : List Coded) : Bits :=
  let literals := trimZeros 257
    (lengthsFor 15 (frequencies 286 (endOfBlock :: body.map (·.symbol))))
  let distances := trimZeros 1
    (lengthsFor 15 (frequencies 30 (body.filterMap fun c => c.distance.map (·.1))))
  let symbols := lengthSymbols (literals ++ distances)
  let lengths := lengthsFor 7 (frequencies 19 (symbols.map (·.1)))
  let given := trimZeros 4 (lengthOrder.map (lengths.getD · 0))
  let words := codeTable lengths
  [true, false, true] ++ numberBits 5 (literals.length - 257) ++
    numberBits 5 (distances.length - 1) ++
    numberBits 4 (given.length - 4) ++ given.flatMap (numberBits 3) ++
    symbols.flatMap (fun (s, extra) => words.getD s [] ++ extra) ++
    codedBits literals distances body

/-- The most bytes in one stored block. -/
def maxStored : Nat := 65535

/-- Data as stored blocks. -/
def stored (data : List UInt8) : List UInt8 :=
  let n := min data.length maxStored
  let sizes := littleEndian 2 n ++ littleEndian 2 (maxStored - n)
  if data.length ≤ maxStored then 1 :: sizes ++ data
  else 0 :: sizes ++ data.take maxStored ++ stored (data.drop maxStored)
termination_by data.length
decreasing_by simp only [List.length_drop, maxStored] at *; omega

/-- Whether a stream decompresses to the data and nothing is left of it. -/
def readsAs (data stream : List UInt8) : Bool :=
  match inflate stream with
  | .ok (read, []) => read == data
  | _ => false

/-- Compresses data. -/
def deflate (data : List UInt8) : List UInt8 :=
  let body := (tokens data).map Token.coded
  let fixed := pack (fixedBlock body)
  let own := pack (ownBlock body)
  let coded := if own.length < fixed.length then own else fixed
  let plain := stored data
  if coded.length < plain.length && readsAs data coded then coded else plain

end CacheCluster.Codec
