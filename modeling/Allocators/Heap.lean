import Allocators.Block
import Allocators.Callback
import Allocators.Flags.Feature
import Allocators.Ledger
import Allocators.Resize
/-!
# Heaps — every block straight from the resource

A heap, shown as a system allocator, takes each block from the resource and
gives each back. It resizes by moving: a new block is taken, the bytes that survive are
copied, and the old block is given back, unless the request keeps it. Two
counters follow the live blocks, and in a debug build a ledger lists them.
-/

namespace Allocators

/-- How much is handed out: live blocks, and their sizes together. The
counters are words and wrap. -/
structure Usage where
  allocations : Nat
  bytes : Nat
deriving DecidableEq, Repr

namespace Usage

/-- Nothing is handed out. -/
def none : Usage := ⟨0, 0⟩

/-- One block more. -/
def add (u : Usage) (size : Nat) : Usage := ⟨Word.add u.allocations 1, Word.add u.bytes size⟩

/-- One block less. -/
def remove (u : Usage) (size : Nat) : Usage := ⟨Word.sub u.allocations 1, Word.sub u.bytes size⟩

end Usage

/-- An allocator over the resource itself. -/
structure Heap where
  label : String
  zeroed : Bool
  callbacks : Callbacks
  ledger : Ledger
  usage : Usage

namespace Heap

variable {ρ : Type}

/-- A heap that has handed out nothing. -/
def create (label : String) (zeroed : Bool) : Heap :=
  ⟨label, zeroed, Callbacks.empty, Ledger.empty, Usage.none⟩

/-- What a heap is able to do, whether it zeroes or not. -/
def baseFeatures : Features :=
  Flags.ofList [.freeAndRealloc, .expandFront, .expandBack, .shrinkReclaims, .nocopy, .keepOld,
    .threadsafe, .callbacks, .nothrow]

/-- What this heap is able to do. -/
def features (s : Heap) : Features :=
  if s.zeroed then baseFeatures.union (Flags.single .zeroInit) else baseFeatures

/-! ## The ledger -/

/-- Finds fault with a block that is not live with this layout. -/
def check (b : Build) (a : Nat) (l : Layout) : Action Heap ρ Unit :=
  match b with
  | .release => pure ()
  | .debug => do
    let s ← Action.self
    Action.ofExcept (s.ledger.check a l)

/-- Enters a block, in place of any other at its address; to find one there
is a fault. -/
def enter (b : Build) (a : Nat) (l : Layout) : Action Heap ρ Unit :=
  match b with
  | .release => pure ()
  | .debug => do
    let s ← Action.self
    Action.become { s with ledger := s.ledger.insert a l }
    Action.ofExcept (b.require (s.ledger.find? a = none) (.handedOutTwice a))

/-- Strikes a block out. -/
def strike (b : Build) (a : Nat) (l : Layout) : Action Heap ρ Unit :=
  match b with
  | .release => pure ()
  | .debug => do
    check b a l
    let s ← Action.self
    Action.become { s with ledger := s.ledger.erase a }

/-! ## Calls -/

variable [Resource ρ]

/-- Takes a block from the resource. -/
def allocate (b : Build) (l : Layout) : Action Heap ρ Allocation := do
  let s ← Action.self
  let found ← if s.zeroed then Action.takeZeroed l else Action.take l
  match found with
  | none => do
    Action.note s.label (.resourceEmpty l.size)
    Action.refuse .outOfMemory
  | some a => do
    enter b a l
    let s ← Action.self
    Action.become { s with usage := s.usage.add l.size }
    Action.note s.label (.allocated l.size a)
    return ⟨a, l.size⟩

/-- Gives a block back to the resource. -/
def release (b : Build) (a : Nat) (l : Layout) : Action Heap ρ Unit := do
  strike b a l
  Action.give a l
  let s ← Action.self
  Action.become { s with usage := s.usage.remove l.size }

/-- Moves a block to a new one. -/
def reallocate (b : Build) (r : Resize) : Action Heap ρ Reallocation := do
  let plan ← Action.ofExcept (r.plan b)
  let old ← Action.ofOption .infeasibleResize (Layout.ofSizeAlign? r.size r.align)
  let s ← Action.self
  Action.ofExcept (b.require (r.address % r.align = 0) (.misaligned s.label r.address r.align))
  check b r.address old
  let layout ← Action.ofOption .infeasibleResize (Layout.ofSizeAlign? plan.newSize r.align)
  let new ← allocate b layout
  Action.when (plan.nocopy = false) do
    Action.write fun m => m.copy (r.address + plan.source) (new.address + plan.target) plan.kept
    release b r.address old
  Action.note s.label (.moved old.size r.address layout.size new.address plan.nocopy)
  return ⟨new.address, layout.size, plan.oldStart new.address, plan.nocopy⟩

/-- Frees a block. -/
def deallocate (b : Build) (a : Nat) (l : Layout) : Action Heap ρ Unit := do
  let s ← Action.self
  Action.ofExcept (b.require (a % l.align = 0) (.misaligned s.label a l.align))
  release b a l
  Action.note s.label (.freed l.size a)

omit [Resource ρ] in
/-- Clears nothing, and finds fault with being asked to. -/
def clear (b : Build) : Action Heap ρ Unit := do
  let s ← Action.self
  Action.ofExcept (b.require (s.features.has .clearing = true) (.cannotClear s.label))
  Action.note s.label .clearIgnored

/-- Registers a callback; its entry is a block of the resource. -/
def register (data : Nat) (h : Handler) : Action Heap ρ Unit := do
  match ← Action.take Layout.entry with
  | none => Action.refuse .bookkeeping
  | some a => do
    let s ← Action.self
    Action.write fun m => CallbackEntry.write m a (s.callbacks.entry data h)
    Action.become { s with callbacks := s.callbacks.push a }

/-- Runs the callbacks and gives back each entry after its callback. Blocks
that are still live stay with those who hold them. -/
def close : Action Heap ρ Unit := do
  let s ← Action.self
  Action.become { s with callbacks := Callbacks.empty }
  let n ← s.callbacks.run fun a => Action.give a Layout.entry
  Action.when (n ≠ 0) <| Action.note s.label (.ended n)

/-- The heap's text. -/
def text (m : Memory) (s : Heap) : String :=
  "System allocator " ++ s.label ++ " with:\n  Zeroed: " ++ Fields.bool s.zeroed ++
    "\n  Live allocations: " ++ toString s.usage.allocations ++ "\n  Live bytes: " ++
    Hex.number s.usage.bytes ++ "\n  Destruction callbacks: " ++
    toString (s.callbacks.length m) ++ "\n"

end Heap

end Allocators
