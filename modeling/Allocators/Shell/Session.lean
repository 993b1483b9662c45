import Allocators.Allocator
/-!
# Sessions — an allocator and the blocks taken from it

A session remembers every block by its address, with the size it was
granted and the alignment it was asked for with. When a session ends, the
blocks of an allocator that frees them in any order are freed first.
-/

namespace Allocators

/-- An allocator and its blocks by address. -/
structure Session where
  allocator : Allocator
  blocks : Ledger

namespace Session

variable {ρ : Type} [Resource ρ]

/-- Whether the session's blocks are freed one by one when it ends. -/
def freesBlocks (s : Session) : Bool :=
  s.allocator.features.has .freeAndRealloc && !s.allocator.features.has .stacklike

/-- Frees blocks one by one. -/
def freeAll (b : Build) : List (Nat × Layout) → Action Allocator ρ Unit
  | [] => pure ()
  | (a, l) :: rest => do
    Allocator.deallocate b a l
    freeAll b rest

/-- Frees the session's blocks, if that is how it ends, and then ends the
allocator, which it does even where a free finds fault. -/
def close (b : Build) (s : Session) (w : World ρ) : Option Fault × World ρ :=
  let freeing : Action Allocator ρ Unit :=
    if s.freesBlocks then freeAll b s.blocks.entries else pure ()
  let ending : Option Fault → Scene Allocator ρ → Option Fault × World ρ := fun found t =>
    match Allocator.close t with
    | .ok _ t => (found, t.world)
    | .error (.fault f) t => (found.or (some f), t.world)
    | .error (.refused _) t => (found, t.world)
  match freeing ⟨s.allocator, w⟩ with
  | .ok _ t => ending none t
  | .error (.fault f) t => ending (some f) t
  | .error (.refused _) t => ending none t

/-- The blocks in the order of their addresses. -/
def sortedBlocks (s : Session) : List (Nat × Layout) :=
  s.blocks.entries.mergeSort fun x y => x.1 ≤ y.1

end Session

end Allocators
