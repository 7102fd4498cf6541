import CacheCluster.Settings.Configuration

/-! # How a new cache is filled from a peer -/

namespace CacheCluster.Settings

structure Bootstrap where
  asynchronous : Bool := true
  maxChunkBytes : Nat := 5000000
  deriving DecidableEq, Repr

namespace Bootstrap

/-- The greatest number of bytes asked for at a time, so that the answer fits in a frame. -/
def maxBudget : Nat := 32 * 1024 * 1024

/-- A configured chunk size, or the default for an unreasonable one. -/
def chunkBytesOf (n : Int) : Noted Nat :=
  if 5000 ≤ n ∧ n ≤ 100000000 then pure n.toNat else ⟨5000000, [.chunkSize n]⟩

def ofConfiguration (config : Configuration) : Noted Bootstrap := do
  return {
    asynchronous := ← config.bootstrapAsynchronously
    maxChunkBytes := ← chunkBytesOf (← config.bootstrapChunkSize) }

theorem value_ofConfiguration (config : Configuration) : (ofConfiguration config).value = {
    asynchronous := config.bootstrapAsynchronously.value
    maxChunkBytes := (chunkBytesOf config.bootstrapChunkSize.value).value } := by
  simp only [ofConfiguration, Noted.value_bind, Noted.value_pure]

/-- The number of bytes asked for at a time. -/
def budget (settings : Bootstrap) : Nat :=
  min settings.maxChunkBytes maxBudget

end Bootstrap

end CacheCluster.Settings
