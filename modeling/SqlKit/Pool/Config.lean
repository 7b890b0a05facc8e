import SqlKit.Settings
import SqlKit.Text.Inspect

/-!
# Pool sizes and times

What a pool is told: how many connections to keep, how many to allow, how long a caller waits and how
old a connection may get.

    (ofSettings s).minSize ≤ (ofSettings s).maxSize                    (minSize_le_maxSize)
    1 ≤ (ofSettings s).maxSize                                         (one_le_maxSize)
-/

namespace SqlKit

/-- Sizes and times of a pool. -/
structure PoolConfig where
  minSize : Nat
  maxSize : Nat
  timeout : Duration
  recycle : Option Duration
deriving DecidableEq, Repr

namespace PoolConfig

/-- The sizes that settings ask for: at least one connection, and no more kept than allowed. -/
def ofSettings (s : PoolSettings) : PoolConfig where
  minSize := min s.minSize.toNat (max s.maxSize.toNat 1)
  maxSize := max s.maxSize.toNat 1
  timeout := s.waiting
  recycle := s.recycleAfter

/-- The text for a reader. -/
def inspect (c : PoolConfig) : String :=
  Text.recordText "PoolConfig" [("min_size", Digits.text c.minSize),
    ("max_size", Digits.text c.maxSize), ("timeout", c.timeout.text),
    ("recycle", Text.optional (c.recycle.map Duration.text))]

theorem minSize_le_maxSize (s : PoolSettings) : (ofSettings s).minSize ≤ (ofSettings s).maxSize :=
  Nat.min_le_right ..

theorem one_le_maxSize (s : PoolSettings) : 1 ≤ (ofSettings s).maxSize := Nat.le_max_right ..

end PoolConfig

end SqlKit
