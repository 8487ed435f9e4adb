/-!
# Scenario.Host

What commands take from the system they run on.

1. Standard output has an encoding of its own, so a line may hold characters
   that it cannot take.  ASCII it always takes.
2. Files are gone through behind a progress bar, which hands out what it is
   given, in that order.
3. Directories are made one inside the other by calls inside calls, and those
   go only so deep, but a single one is always made.
-/

namespace Scenario

/-- The system that commands run on. -/
class Host where
  /-- Whether standard output can take a line. -/
  prints : (line : String) → Bool
  prints_ascii : ∀ line : String, (∀ c ∈ line.toList, c.toNat < 0x80) → prints line = true
  /-- What a progress bar of that title hands out. -/
  progress : {α : Type} → (title : String) → (items : List α) → List α
  progress_eq : ∀ {α : Type} (title : String) (items : List α), progress title items = items
  /-- Greatest number of directories that are made at once. -/
  maxDepth : Nat
  maxDepth_pos : 0 < maxDepth

attribute [simp] Host.progress_eq

/-- A system whose standard output takes every line. -/
instance (priority := low) Host.plain : Host where
  prints _ := true
  prints_ascii _ _ := rfl
  progress _ items := items
  progress_eq _ _ := rfl
  maxDepth := 970
  maxDepth_pos := by decide

end Scenario
