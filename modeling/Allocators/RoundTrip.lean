import Allocators.Allocator
import Allocators.Resource.Pool
/-!
# Round trips — one block through its whole life

A round trip makes an allocator over an ample resource, takes one block,
writes a pattern into it, resizes it, and frees it where the allocator
can. What it reports hangs on no address.

It is no part of the allocators or of the shell, and nothing is proved of
it: it exists only for comparing runs over an ample resource.
-/

namespace Allocators

namespace RoundTrip

/-- What became of the block when it was resized. `oldStart` counts from
the new block's start, and the bytes are told for a zeroing allocator. -/
structure Resized where
  size : Nat
  aligned : Bool
  oldStart : Option Nat
  bytes : Option (List UInt8)

/-- What a round trip finds: the size granted, whether the block is at a
multiple of its alignment, whether a zeroing allocator made it zero, and
what its resizing came to. -/
structure Report where
  size : Nat
  aligned : Bool
  zero : Bool
  resized : Except Refusal Resized

/-- How a round trip ends. -/
inductive Outcome where
  /-- The allocator could not be made, or had no block. -/
  | refused (r : Refusal)
  /-- No block has the layout asked for. -/
  | noLayout
  /-- A check found fault. -/
  | fault (f : Fault)
  | done (report : Report)

/-- Single blocks of this size and more are declined. -/
def quota : Nat := 0x4000000000000

variable {ρ : Type} [Resource ρ]

/-- Frees a block if the allocator frees blocks. -/
def freeIfAble (b : Build) (address size align : Nat) : Action Allocator ρ Unit := do
  let s ← Action.self
  Action.when (s.features.has .freeAndRealloc = true) <|
    match Layout.ofSizeAlign? size align with
    | none => pure ()
    | some l => Allocator.deallocate b address l

/-- What is told about a resized block. -/
def examine (zeroed : Bool) (align : Nat) (r : Reallocation) (m : Memory) : Resized where
  size := r.size
  aligned := r.address % align = 0
  oldStart := r.oldStart.map (· - r.address)
  bytes := if zeroed then some (m.read r.address r.size) else none

/-- Takes a block, writes into it, resizes it and frees it. -/
def visit (b : Build) (zeroed : Bool) (l : Layout) (es : List Edit) :
    Action Allocator ρ Report := do
  let block ← Allocator.allocate b l
  let m ← Action.memory
  let zero := zeroed && (m.read block.address block.size).all (· == 0)
  Action.write fun m => m.fillFrom block.address block.size 0
  let request := (Resize.ofBlock block.address block.size l.align).edits es
  let resized ← Action.attempt (Allocator.reallocate b request)
  let m ← Action.memory
  let last : Allocation :=
    match resized with
    | .ok r => ⟨r.address, r.size⟩
    | .error _ => block
  freeIfAble b last.address last.size l.align
  return {
    size := block.size
    aligned := block.address % l.align = 0
    zero := zero
    resized := resized.map fun r => examine zeroed l.align r m }

/-- A whole round trip. -/
def run (b : Build) (kind : AllocatorKind) (capacity size align : Nat) (es : List Edit) : Outcome :=
  match Allocator.create kind "it" capacity (World.start (Pool.ample quota)) with
  | (.error r, _) => .refused r
  | (.ok a, w) =>
    match Layout.ofSizeAlign? size align with
    | none => .noLayout
    | some l =>
      match visit b (kind = .zeroed) l es ⟨a, w⟩ with
      | .ok report _ => .done report
      | .error (.refused r) _ => .refused r
      | .error (.fault f) _ => .fault f

end RoundTrip

end Allocators
