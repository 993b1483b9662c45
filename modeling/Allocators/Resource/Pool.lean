import Allocators.Resource
/-!
# Pools — a resource that counts up

A pool is a stretch of memory with a cursor. Each block is placed at the
next multiple of its alignment and the cursor moves to its end; nothing is
ever used again, unless the cursor is set back. A fresh block is filled
with one byte, so that old contents do not shine through.
-/

namespace Allocators

/-- A stretch of `size` bytes from `base`, used up to `cursor`. The next
`failing` requests are declined whatever they ask for, and so is every
request for `quota` bytes or more. -/
structure Pool where
  base : Nat
  size : Nat
  quota : Nat
  cursor : Nat
  failing : Nat
deriving Repr

namespace Pool

/-- The byte a fresh block is filled with. -/
def freshByte : UInt8 := 0xa5

/-- A pool at the usual place, declining what it has no room for. -/
def ofSize (size : Nat) : Pool := ⟨0x100000000, size, Word.size, 0, 0⟩

/-- A pool of a quarter of the address space, declining single blocks of
`quota` bytes or more. -/
def ample (quota : Nat) : Pool := ⟨0x100000000, 0x4000000000000000, quota, 0, 0⟩

/-- The offset a block would be placed at. -/
def place (p : Pool) (l : Layout) : Nat := roundUp (p.base + p.cursor) l.align - p.base

/-- Asks for a block: one of the requests that are to fail is used up by
every request. -/
def take (p : Pool) (l : Layout) : Option Grant × Pool :=
  if 0 < p.failing then
    (none, { p with failing := p.failing - 1 })
  else if l.size < p.quota ∧ p.place l + l.size ≤ p.size then
    (some ⟨p.base + p.place l, fun _ _ => freshByte⟩, { p with cursor := p.place l + l.size })
  else
    (none, p)

instance : Resource Pool where
  take := take
  give := fun p _ _ => (fun _ b => b, p)

/-- A block of a pool lies between the cursor and the pool's end, at a
multiple of its alignment. -/
theorem take_eq_some {p p' : Pool} {l : Layout} {g : Grant} (h : p.take l = (some g, p')) :
    p.base + p.cursor ≤ g.address ∧ g.address + l.size ≤ p.base + p.size ∧
      g.address % l.align = 0 ∧ p'.base + p'.cursor = g.address + l.size := by
  unfold take at h
  split at h
  · cases h
  · split at h
    · next hc =>
      cases h
      have hle := le_roundUp (p.base + p.cursor) l.align
      have hb : p.base + p.place l = roundUp (p.base + p.cursor) l.align := by
        unfold place; omega
      refine ⟨?_, ?_, ?_, ?_⟩
      · show p.base + p.cursor ≤ p.base + p.place l
        omega
      · show p.base + p.place l + l.size ≤ p.base + p.size
        omega
      · show (p.base + p.place l) % l.align = 0
        rw [hb]
        exact roundUp_mod l.align_pos
      · show p.base + (p.place l + l.size) = p.base + p.place l + l.size
        omega
    · cases h

end Pool

end Allocators
