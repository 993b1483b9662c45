import Allocators.Arena
import Allocators.Heap
import Allocators.Stack
/-!
# Allocators — the three kinds behind one interface

Every kind answers the same calls. What a kind is able to do is its set of
features; the interface passes each call to the kind's own definition.
-/

namespace Allocators

/-- An allocator of one of the kinds. -/
inductive Allocator where
  | heap (s : Heap)
  | stack (s : Buffer)
  | arena (s : Buffer)

/-- The kinds, with the two ways a heap is made. -/
inductive AllocatorKind where
  | heap
  | zeroed
  | stack
  | arena
deriving DecidableEq, Repr

namespace Allocator

variable {ρ : Type}

/-- Makes an allocator. The kinds with a region take `capacity` bytes for it
from the resource. -/
def create [Resource ρ] (kind : AllocatorKind) (label : String) (capacity : Nat) (w : World ρ) :
    Except Refusal Allocator × World ρ :=
  match kind with
  | .heap => (.ok (.heap (Heap.create label false)), w)
  | .zeroed => (.ok (.heap (Heap.create label true)), w)
  | .stack =>
    match Buffer.create label capacity w with
    | (.ok s, w') => (.ok (.stack s), w')
    | (.error r, w') => (.error r, w')
  | .arena =>
    match Buffer.create label capacity w with
    | (.ok s, w') => (.ok (.arena s), w')
    | (.error r, w') => (.error r, w')

/-- The allocator's label. -/
def label : Allocator → String
  | heap s => s.label
  | stack s => s.label
  | arena s => s.label

/-- What the allocator is able to do. -/
def features : Allocator → Features
  | heap s => s.features
  | stack _ => Stack.features
  | arena _ => Arena.features

/-! ## Calls -/

/-- Makes the call that belongs to the allocator's kind. -/
def dispatch {α : Type} (onHeap : Action Heap ρ α) (onStack onArena : Action Buffer ρ α) :
    Action Allocator ρ α := fun s =>
  match s.allocator with
  | heap a => Action.on a heap onHeap s
  | stack a => Action.on a stack onStack s
  | arena a => Action.on a arena onArena s

/-- Hands out a block. -/
def allocate [Resource ρ] (b : Build) (l : Layout) : Action Allocator ρ Allocation :=
  dispatch (Heap.allocate b l) (Stack.allocate b l) (Arena.allocate b l)

/-- Hands out a block of this size with the default alignment. -/
def allocateBytes [Resource ρ] (b : Build) (size : Nat) : Action Allocator ρ Allocation := do
  let l ← Action.ofOption .zeroSize (Layout.ofSize? size)
  allocate b l

/-- Resizes a block. -/
def reallocate [Resource ρ] (b : Build) (r : Resize) : Action Allocator ρ Reallocation :=
  dispatch (Heap.reallocate b r) (Stack.reallocate b r) (Arena.reallocate r)

/-- Frees a block. -/
def deallocate [Resource ρ] (b : Build) (a : Nat) (l : Layout) : Action Allocator ρ Unit :=
  dispatch (Heap.deallocate b a l) (Stack.deallocate b a l) (Arena.deallocate b a)

/-- Runs the callbacks and releases every block at once. -/
def clear (b : Build) : Action Allocator ρ Unit :=
  dispatch (Heap.clear b) Buffer.clear Buffer.clear

/-- Registers a destruction callback. -/
def register [Resource ρ] (b : Build) (data : Nat) (h : Handler) : Action Allocator ρ Unit :=
  dispatch (Heap.register data h) (Buffer.register b data h) (Buffer.register b data h)

/-- Ends the allocator. -/
def close [Resource ρ] : Action Allocator ρ Unit :=
  dispatch Heap.close Buffer.close Buffer.close

/-- The allocator's text. -/
def text (b : Build) (m : Memory) : Allocator → Except Failure String
  | heap s => .ok (s.text m)
  | stack s => Stack.text b m s
  | arena s => Arena.text b s

end Allocator

end Allocators
