import Allocators.Buffer
import Allocators.Flags.Feature
import Allocators.Resize
/-!
# Arenas — blocks that are only released all at once

Blocks are placed one after another with nothing between them but what
their alignment asks for. No block is freed or resized on its own.
-/

namespace Allocators

namespace Arena

variable {ρ : Type}

/-- What an arena is able to do. -/
def features : Features := Flags.ofList [.clearing, .threadsafe, .callbacks, .nothrow]

/-- Places a block after the others. -/
def allocate (b : Build) (l : Layout) : Action Buffer ρ Allocation := do
  let s ← Action.self
  match ← Action.ofExcept (s.region.bump b l.size l.align 0) with
  | none => Action.refuse .outOfMemory
  | some (p, region) => do
    let address := region.addressOf p.offset
    Action.become { s with region := region }
    Action.note s.label (.bumped l.size address)
    return ⟨address, l.size⟩

/-- Declines to resize. -/
def reallocate (r : Resize) : Action Buffer ρ Reallocation := do
  let s ← Action.self
  Action.note s.label (.resizeRefused r.address)
  Action.refuse .unsupported

/-- Frees nothing, and finds fault with being asked to. -/
def deallocate (b : Build) (address : Nat) : Action Buffer ρ Unit := do
  let s ← Action.self
  Action.ofExcept (b.require (features.has .freeAndRealloc = true) (.cannotFree s.label address))
  Action.note s.label (.freeIgnored address)

/-- The arena's text. -/
def text (b : Build) (s : Buffer) : Except Failure String := do
  let used ← s.region.used b
  return s.heading "Arena" ++ "  Used: " ++ Hex.number used ++ "\n"

end Arena

end Allocators
