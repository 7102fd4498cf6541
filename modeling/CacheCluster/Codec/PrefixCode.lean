import CacheCluster.Codec.Bits

/-! # Codes given by lengths

The canonical code of a list of codeword lengths: shorter codewords come first, and among those of
one length the order is that of the symbols. A code is read by walking its tree.
-/

namespace CacheCluster.Codec

/-- A bit stream shorter than `n`: what is left of a longer one. -/
abbrev Tail (n : Nat) := { bits : Bits // bits.length < n }

/-- What is left of a stream is left of any longer one. -/
def Tail.widen {m n : Nat} (h : m ≤ n) (bits : Tail m) : Tail n :=
  ⟨bits.1, Nat.lt_of_lt_of_le bits.2 h⟩

/-- The tree of a code: a path from the root to a symbol is the symbol's codeword. -/
inductive CodeTree
  | none
  | symbol (s : Nat)
  | fork (zero one : CodeTree)
  deriving Repr

/-- Adds a symbol at the end of a path. -/
def CodeTree.insert (s : Nat) : Bits → CodeTree → CodeTree
  | [], _ => symbol s
  | b :: bs, fork zero one =>
    if b then fork zero (insert s bs one) else fork (insert s bs zero) one
  | b :: bs, _ =>
    if b then fork none (insert s bs none) else fork (insert s bs none) none

/-- A code, as the two trees under its root; no codeword is empty. -/
structure PrefixCode where
  zero : CodeTree
  one : CodeTree

/-- What reading one symbol off a stream gives. -/
inductive SymbolStep (n : Nat)
  | symbol (s : Nat) (rest : Tail n)
  /-- The stream ends inside a codeword. -/
  | starved
  /-- No codeword begins like the stream. -/
  | invalid

/-- Walks down from the children of a node. -/
def walk {n : Nat} (zero one : CodeTree) (bits : Bits) (h : bits.length ≤ n) : SymbolStep n :=
  match bits with
  | [] => .starved
  | false :: bits =>
    match zero with
    | .none => .invalid
    | .symbol s => .symbol s ⟨bits, h⟩
    | .fork z o => walk z o bits (Nat.le_of_succ_le h)
  | true :: bits =>
    match one with
    | .none => .invalid
    | .symbol s => .symbol s ⟨bits, h⟩
    | .fork z o => walk z o bits (Nat.le_of_succ_le h)

/-- Reads one symbol off a stream. -/
def PrefixCode.read (code : PrefixCode) (bits : Bits) : SymbolStep bits.length :=
  walk code.zero code.one bits (Nat.le_refl _)

/-- Adds a symbol with its codeword. -/
def PrefixCode.insert (code : PrefixCode) (s : Nat) : Bits → PrefixCode
  | [] => code
  | b :: bs =>
    if b then { code with one := code.one.insert s bs }
    else { code with zero := code.zero.insert s bs }

/-- The first codeword of length `n` of the canonical code. -/
def firstCode (lengths : List Nat) : Nat → Nat
  | 0 => 0
  | n + 1 => (firstCode lengths n + (if n = 0 then 0 else lengths.count n)) * 2

/-- The codewords of all symbols, as symbol, length and value, in the order of the symbols. -/
def codewords (lengths : List Nat) : List (Nat × Nat × Nat) :=
  let start : List Nat := (List.range 16).map (firstCode lengths)
  (lengths.foldl (fun (s, next, words) n =>
    if n = 0 then (s + 1, next, words)
    else
      let code := next.getD n 0
      (s + 1, next.set n (code + 1), (s, n, code) :: words)) (0, start, [])).2.2.reverse

/-- The canonical code of some lengths. -/
def PrefixCode.ofLengths (lengths : List Nat) : PrefixCode :=
  (codewords lengths).foldl (fun code (s, n, word) => code.insert s (codeBits n word))
    ⟨.none, .none⟩

/-- The room that codewords of these lengths take, in units of the room of one of length 15. -/
def codeRoom : (lengths : List Nat) → Nat
  | [] => 0
  | n :: lengths => (if n = 0 then 0 else Nat.pow 2 (15 - n)) + codeRoom lengths

/-- The room that a code takes in which every stream begins with a codeword. -/
def fullRoom : Nat := 0x8000

/-- The number of symbols that have a codeword. -/
def usedSymbols (lengths : List Nat) : Nat :=
  lengths.countP (0 < ·)

end CacheCluster.Codec
