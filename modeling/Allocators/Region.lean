import Allocators.Action
import Allocators.Callback
/-!
# Regions — a buffer carved from both ends

A region is one block of a resource. Blocks are placed from its start
upward, below the `cursor`; entries that have to outlive them are carved
from its end downward, above the `tail`. Offsets count from the base, and
alignment is that of addresses. `bump_cases` says where a block is put.
-/

namespace Allocators

/-- A buffer with its two marks. `layout` is the one it was taken with. -/
structure Region where
  base : Nat
  layout : Layout
  cursor : Nat
  tail : Nat

/-- Where a block was placed: its offset, and the cursor before it. -/
structure Placement where
  offset : Nat
  previous : Nat
deriving DecidableEq, Repr

namespace Region

/-- How many bytes the region has. -/
def capacity (r : Region) : Nat := r.layout.size

/-- A region in which nothing has been placed. -/
def fresh (base : Nat) (l : Layout) : Region := ⟨base, l, 0, l.size⟩

/-- The region as it was at first. -/
def reset (r : Region) : Region := { r with cursor := 0, tail := r.capacity }

/-- The address at an offset. -/
def addressOf (r : Region) (offset : Nat) : Nat := r.base + offset

/-- The offset of an address, if it lies in the region or at its end. -/
def offsetOf? (r : Region) (a : Nat) : Option Nat :=
  if r.base ≤ a ∧ a - r.base ≤ r.capacity then some (a - r.base) else none

/-! ## Accounting -/

/-- The bytes taken at either end. -/
def used (b : Build) (r : Region) : Except Failure Nat := do
  b.add r.cursor (← b.sub r.capacity r.tail)

/-- The bytes between the two ends. -/
def free (b : Build) (r : Region) : Except Failure Nat := b.sub r.tail r.cursor

/-! ## Carving -/

/-- Places a block of `size` bytes at the first multiple of `align` that
leaves `header` bytes after the cursor, if it ends before the tail. -/
def bump (b : Build) (r : Region) (size align header : Nat) :
    Except Failure (Option (Placement × Region)) := do
  let start := roundUp (r.base + r.cursor + header) align
  if Word.size ≤ start then
    return none
  let offset ← b.sub start r.base
  if r.tail < offset + size then
    return none
  return some (⟨offset, r.cursor⟩, { r with cursor := offset + size })

/-- Moves the cursor. -/
def setCursor (b : Build) (r : Region) (offset : Nat) : Except Failure Region := do
  b.require (offset ≤ r.tail) .cursorPastTail
  return { r with cursor := offset }

/-- Carves `size` bytes at a multiple of `align` from the tail, if they
start after the cursor, and returns their address. -/
def carveTail (b : Build) (r : Region) (size align : Nat) :
    Except Failure (Option (Nat × Region)) := do
  let stop ← b.add r.base r.tail
  if stop < size then
    return none
  let start := roundDown (stop - size) align
  if start < (← b.add r.base r.cursor) then
    return none
  let tail ← b.sub start r.base
  return some (start, { r with tail := tail })

/-- Carves the memory of a callback's entry from the tail. -/
def carveEntry (b : Build) (r : Region) : Except Failure (Option (Nat × Region)) :=
  r.carveTail b Layout.entry.size Layout.entry.align

/-- **A block is placed after the cursor and its header**, at a multiple of
its alignment, and ends before the tail, where the cursor then stands; or
there is no room. -/
theorem bump_cases (b : Build) (r : Region) (size : Nat) {align : Nat} (ha : 0 < align)
    (header : Nat) :
    r.bump b size align header = .ok none ∨
      ∃ offset, r.bump b size align header =
          .ok (some (⟨offset, r.cursor⟩, { r with cursor := offset + size })) ∧
        r.cursor + header ≤ offset ∧ (r.base + offset) % align = 0 ∧ offset + size ≤ r.tail := by
  have hle := le_roundUp (r.base + r.cursor + header) align
  have hmod := roundUp_mod (n := r.base + r.cursor + header) ha
  simp only [bump, bind, Except.bind, pure, Except.pure]
  generalize roundUp (r.base + r.cursor + header) align = start at hle hmod ⊢
  by_cases hs : Word.size ≤ start
  · exact Or.inl (if_pos hs)
  · -- the multiple is above the cursor, so it is above the base too
    rw [if_neg hs, b.sub_of_le (show r.base ≤ start by omega)]
    by_cases ht : r.tail < start - r.base + size
    · exact Or.inl (if_pos ht)
    · refine Or.inr ⟨start - r.base, if_neg ht, by omega, ?_, by omega⟩
      rw [show r.base + (start - r.base) = start by omega]
      exact hmod

/-! ## Coming and going -/

/-- Takes a region of `capacity` bytes from the resource. -/
def create {ρ : Type} [Resource ρ] (capacity : Nat) (w : World ρ) :
    Except Refusal Region × World ρ :=
  if capacity = 0 then
    (.error .zeroSize, w)
  else
    match Layout.ofSizeAlign? capacity defaultAlign with
    | none => (.error .outOfMemory, w)
    | some l =>
      match w.take l with
      | (none, w') => (.error .outOfMemory, w')
      | (some base, w') => (.ok (fresh base l), w')

/-- Gives the region back to its resource. -/
def release {κ ρ : Type} [Resource ρ] (r : Region) : Action κ ρ Unit :=
  Action.give r.base r.layout

end Region

end Allocators
