/-! # Chunks

A list in consecutive runs of a given length, the last of which may be shorter. A length of zero
counts as one.
-/

namespace CacheCluster

/-- The consecutive runs of `max 1 size` entries of a list. -/
def chunks {α : Type} (size : Nat) : List α → List (List α)
  | [] => []
  | x :: xs => (x :: xs.take (size - 1)) :: chunks size (xs.drop (size - 1))
termination_by xs => xs.length
decreasing_by simp only [List.length_drop, List.length_cons]; omega

theorem flatten_chunks {α : Type} (size : Nat) (xs : List α) : (chunks size xs).flatten = xs := by
  induction xs using chunks.induct size with
  | case1 => simp [chunks]
  | case2 x xs ih => simp [chunks, ih]

theorem chunks_of_ne_nil {α : Type} {size : Nat} (pos : 0 < size) {xs : List α} (h : xs ≠ []) :
    chunks size xs = xs.take size :: chunks size (xs.drop size) := by
  obtain ⟨x, rest, rfl⟩ := List.exists_cons_of_ne_nil h
  obtain ⟨n, rfl⟩ := Nat.exists_eq_add_one.2 pos
  rw [chunks]
  rfl

theorem length_of_mem_chunks {α : Type} {size : Nat} {xs chunk : List α}
    (mem : chunk ∈ chunks size xs) : chunk.length ≤ max 1 size := by
  induction xs using chunks.induct size with
  | case1 => simp [chunks] at mem
  | case2 x xs ih =>
    rw [chunks, List.mem_cons] at mem
    rcases mem with rfl | mem
    · simp only [List.length_cons, List.length_take]
      omega
    · exact ih mem

end CacheCluster
