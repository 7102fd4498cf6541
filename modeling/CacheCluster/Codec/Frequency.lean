/-! # Codeword lengths by frequency

The lengths that make coded data shortest when no codeword may exceed a limit. Starting from the
symbols alone, the lightest packages are paired and the pairs joined to the symbols, once for each
bit; a symbol's length is the number of chosen packages that hold it.
-/

namespace CacheCluster.Codec

/-- Some symbols, and how often they occur together. -/
structure Package where
  weight : Nat
  symbols : List Nat

namespace Package

/-- Each symbol that occurs, the rarest first. -/
def singles (counts : List Nat) : List Package :=
  (counts.zipIdx.filterMap fun (n, s) => if n = 0 then none else some ⟨n, [s]⟩).mergeSort
    (·.weight ≤ ·.weight)

/-- Neighbours in one package; one left over is dropped. -/
def pairs : List Package → List Package
  | p :: q :: ps => ⟨p.weight + q.weight, p.symbols ++ q.symbols⟩ :: pairs ps
  | _ => []

/-- The packages after `n` rounds, the lightest first. -/
def rounds (singles : List Package) : (n : Nat) → List Package
  | 0 => singles
  | n + 1 => singles.merge (pairs (rounds singles n)) (·.weight ≤ ·.weight)

end Package

/-- How often each of the symbols below `n` occurs. -/
def frequencies (n : Nat) (symbols : List Nat) : List Nat :=
  (symbols.foldl (fun counts s => counts.modify s (· + 1)) (Array.replicate n 0)).toList

/-- The codeword lengths, of at most `limit`, for symbols that occur so often. -/
def lengthsFor (limit : Nat) (counts : List Nat) : List Nat :=
  let singles := Package.singles counts
  if singles.length = 1 then counts.map (min 1)
  else
    let chosen := (Package.rounds singles (limit - 1)).take (2 * singles.length - 2)
    frequencies counts.length (chosen.flatMap (·.symbols))

end CacheCluster.Codec
