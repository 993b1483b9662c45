import Allocators.Block
import Allocators.Callback
import Allocators.Region
/-!
# Buffers — a region with its callbacks

A buffer is what stacks and arenas have in common: a label, a region taken
from the resource once, and destruction callbacks whose entries lie at the
region's tail. Entries stay where they are until the region is reset, so
they can be walked while their callbacks run.
-/

namespace Allocators

/-- A labelled region and the callbacks registered on it. -/
structure Buffer where
  label : String
  region : Region
  callbacks : Callbacks

namespace Buffer

variable {ρ : Type}

/-- Takes a buffer of `capacity` bytes from the resource. -/
def create [Resource ρ] (label : String) (capacity : Nat) (w : World ρ) :
    Except Refusal Buffer × World ρ :=
  match Region.create capacity w with
  | (.error r, w') => (.error r, w')
  | (.ok region, w') => (.ok ⟨label, region, Callbacks.empty⟩, w')

/-- Registers a callback; its entry is carved from the region's tail. -/
def register (b : Build) (data : Nat) (h : Handler) : Action Buffer ρ Unit := do
  let s ← Action.self
  match ← Action.ofExcept (s.region.carveEntry b) with
  | none => Action.refuse .bookkeeping
  | some (a, region) => do
    Action.write fun m => CallbackEntry.write m a (s.callbacks.entry data h)
    Action.become { s with region := region, callbacks := s.callbacks.push a }

/-- Detaches the callbacks and runs them. The entries stay in the region. -/
def runCallbacks : Action Buffer ρ Nat := do
  let s ← Action.self
  Action.become { s with callbacks := Callbacks.empty }
  s.callbacks.run fun _ => pure ()

/-- Runs the callbacks, then releases everything in the region at once. -/
def clear : Action Buffer ρ Unit := do
  let n ← runCallbacks
  let s ← Action.self
  Action.become { s with region := s.region.reset }
  Action.note s.label (.cleared n)

/-- Runs the callbacks, then gives the region back. -/
def close [Resource ρ] : Action Buffer ρ Unit := do
  let n ← runCallbacks
  let s ← Action.self
  Action.when (n ≠ 0) <| Action.note s.label (.ended n)
  s.region.release

/-- The first two lines of a buffer's text. -/
def heading (kind : String) (s : Buffer) : String :=
  kind ++ " allocator " ++ s.label ++ " with:\n  Region at " ++ Hex.number s.region.base ++
    " (len: " ++ Hex.number s.region.capacity ++ ")\n"

end Buffer

end Allocators
