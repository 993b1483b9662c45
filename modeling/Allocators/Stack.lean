import Allocators.Buffer
import Allocators.Flags.Feature
import Allocators.Resize
/-!
# Stacks — the most recent block can be freed and resized in place

Blocks are placed one after another, each with a header in front of it that
holds the cursor from before. The block on top is the one that ends at the
cursor; to free it is to set the cursor back to what its header says. A
resize leaves the block where it is and lets the cursor follow its end.
-/

namespace Allocators

namespace Stack

variable {ρ : Type}

/-- The bytes in front of a block: one word. -/
def header : Nat := Word.bytes

/-- What a stack is able to do. -/
def features : Features :=
  Flags.ofList [.freeAndRealloc, .clearing, .inPlace, .expandFront, .expandBack, .shrinkReclaims,
    .nocopy, .stacklike, .callbacks, .nothrow]

/-- The offset of a block if it is the one on top: it has room for a header
and ends at the cursor. -/
def topOffset? (b : Build) (s : Buffer) (address size : Nat) : Except Failure (Option Nat) :=
  match s.region.offsetOf? address with
  | none => .ok none
  | some offset =>
    if offset < header then
      .ok none
    else do
      let stop ← b.add offset size
      return if stop = s.region.cursor then some offset else none

/-- Puts a block on top. -/
def allocate (b : Build) (l : Layout) : Action Buffer ρ Allocation := do
  let s ← Action.self
  match ← Action.ofExcept (s.region.bump b l.size (max l.align Word.bytes) header) with
  | none => do
    Action.note s.label (.noRoom l.size)
    Action.refuse .outOfMemory
  | some (p, region) => do
    let address := region.addressOf p.offset
    let slot ← Action.ofExcept (b.sub p.offset header)
    Action.write fun m => m.writeWord (region.addressOf slot) p.previous
    Action.become { s with region := region }
    Action.note s.label (.pushed l.size address)
    return ⟨address, l.size⟩

/-- Resizes the block on top. It grows by what it prefers as far as there is
room, and its bytes move within it by the plan. -/
def reallocate (b : Build) (r : Resize) : Action Buffer ρ Reallocation := do
  let plan ← Action.ofExcept (r.plan b)
  let s ← Action.self
  Action.ofExcept (b.require (r.address % r.align = 0) (.misaligned s.label r.address r.align))
  let top ← Action.ofExcept (topOffset? b s r.address r.size)
  let offset ← Action.ofOption .notStackTop top
  let available ← Action.ofExcept (b.sub s.region.tail offset)
  Action.demand (plan.newSize ≤ available) .outOfMemory
  let room ← Action.ofExcept (b.sub available plan.newSize)
  let size ← Action.ofExcept (b.add plan.newSize (min plan.spareBack room))
  Action.when (plan.nocopy = false ∧ plan.source ≠ plan.target) <| Action.write fun m =>
    m.copy (r.address + plan.source) (r.address + plan.target) plan.kept
  let stop ← Action.ofExcept (b.add offset size)
  let region ← Action.ofExcept (s.region.setCursor b stop)
  Action.become { s with region := region }
  Action.note s.label (.resized r.size r.address size)
  return ⟨r.address, size, plan.oldStart r.address, false⟩

/-- Frees the block on top. Any other block is no block to free here: a
debug build says so, a release build leaves it. -/
def deallocate (b : Build) (address : Nat) (l : Layout) : Action Buffer ρ Unit := do
  let s ← Action.self
  let top ← Action.ofExcept (topOffset? b s address l.size)
  Action.ofExcept (b.require (top.isSome = true) (.notTop s.label address))
  match top with
  | none => Action.note s.label (.freeBelowTop address)
  | some offset => do
    let slot ← Action.ofExcept (b.sub offset header)
    let m ← Action.memory
    let previous := m.word (s.region.addressOf slot)
    let region ← Action.ofExcept (s.region.setCursor b previous)
    Action.become { s with region := region }
    Action.note s.label (.popped l.size address)

/-- The stack's text. -/
def text (b : Build) (m : Memory) (s : Buffer) : Except Failure String := do
  let free ← s.region.free b
  return s.heading "Stack" ++ "  Top: " ++ Hex.number s.region.cursor ++ "\n  Free: " ++
    Hex.number free ++ "\n  Destruction callbacks: " ++ toString (s.callbacks.length m) ++ "\n"

end Stack

end Allocators
