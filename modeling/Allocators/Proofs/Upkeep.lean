import Allocators.Proofs.Buffer.Sound
import Allocators.Proofs.Heap.Sound
import Allocators.Stack
/-!
# Upkeep — the invariant of one allocator, and what every deed leaves behind

A custody is in order when its allocator is, beside the blocks that are
live and the callbacks that are registered (`Custody.Sound`). It is so for
as long as the blocks of the resource that it answers for are kept
(`Sound.congr`), which is how deeds on one allocator leave the others in
order. `Upkeep` is what one deed leaves behind if the resource keeps its
part: the custody in order, the accounts with the resource straight, and
the bytes of others, and of the blocks it is not about, as they were.
-/

namespace Allocators

open Trace

variable {ρ : Type} {b : Build} {m m' : Memory} {c : Custody}

/-- The allocator is in order beside what is held of it. -/
def Custody.Sound (b : Build) (m : Memory) (c : Custody) : Prop :=
  match c.allocator with
  | .heap s => s.Sound b m (c.live.map Holding.toBlock) c.pending
  | .stack s => s.Sound Stack.header m c.live c.pending
  | .arena s => s.Sound 0 m c.live c.pending

/-- That an allocator is in order depends on the memory of its blocks only. -/
theorem Custody.Sound.congr (h : c.Sound b m) (hk : ∀ x ∈ c.footprint, m.Keeps m' x) :
    c.Sound b m' := by
  obtain ⟨k, live, pending⟩ := c
  cases k with
  | heap s =>
    exact Heap.Sound.congr h fun e he =>
      hk _ (List.mem_append_right _ (List.mem_map_of_mem he))
  | stack s => exact Buffer.Sound.congr h (hk _ List.mem_cons_self)
  | arena s => exact Buffer.Sound.congr h (hk _ List.mem_cons_self)

/-- A live block of a buffer lies in its region. -/
theorem Buffer.Sound.inside {header : Nat} {s : Buffer} {live : List Holding}
    {pending : List Registration} (h : s.Sound header m live pending) {x : Holding}
    (hx : x ∈ live) :
    x.toBlock.Inside s.region.block := by
  have hb := h.piled.bounds hx
  have hc := h.cursor_le
  have ht := h.tail_le
  refine ⟨?_, ?_⟩
  · show s.region.base ≤ x.address
    omega
  · show x.address + x.size ≤ s.region.base + s.region.capacity
    omega

/-- A live block lies in a block that its allocator answers for. -/
theorem Custody.Sound.inside (h : c.Sound b m) {x : Holding} (hx : x ∈ c.live) :
    ∃ y ∈ c.footprint, x.toBlock.Inside y := by
  obtain ⟨k, live, pending⟩ := c
  cases k with
  | heap s => exact ⟨x.toBlock, List.mem_append_left _ (List.mem_map_of_mem hx), le_rfl, le_rfl⟩
  | stack s => exact ⟨_, List.mem_cons_self, Buffer.Sound.inside h hx⟩
  | arena s => exact ⟨_, List.mem_cons_self, Buffer.Sound.inside h hx⟩

/-- What a deed leaves behind, beside the blocks `rest` that others answer
for. -/
structure Custody.Upkeep (b : Build) (rest : List Block) (d : Deed) (out : Except Failure Reply)
    (c : Custody) (w : World ρ) (c' : Custody) (w' : World ρ) : Prop where
  sound : c'.Sound b w'.memory
  accounts : Accounts w'.events (c'.footprint ++ rest)
  keeps_rest : ∀ x ∈ rest, w.memory.Keeps w'.memory x
  keeps_live : ∀ x ∈ c.live, x.toBlock ∈ c'.live.map Holding.toBlock →
    ¬ d.Touches out x.toBlock → w.memory.Keeps w'.memory x.toBlock
  kind : c'.allocator.isHeap = c.allocator.isHeap
  quiet : c.allocator.isHeap = false →
    calls w'.events = calls w.events ∧ c'.footprint = c.footprint

/-- A deed on a heap that changes nothing of it, nor of the memory, leaves behind
what it found. -/
theorem Custody.Upkeep.same {s : Heap} {live : List Holding} {pending : List Registration}
    {rest : List Block} {d : Deed} {out : Except Failure Reply} {w w' : World ρ}
    (hs : s.Sound b w.memory (live.map Holding.toBlock) pending) (hm : w'.memory = w.memory)
    (ha : Accounts w'.events
      (live.map Holding.toBlock ++ pending.map Registration.block ++ rest)) :
    Upkeep b rest d out ⟨.heap s, live, pending⟩ w ⟨.heap s, live, pending⟩ w' where
  sound := by
    rw [← hm] at hs
    exact hs
  accounts := ha
  keeps_rest := fun x _ => hm ▸ Memory.Keeps.refl w.memory x
  keeps_live := fun x _ _ _ => hm ▸ Memory.Keeps.refl w.memory x.toBlock
  kind := rfl
  quiet := fun h => absurd (h.symm.trans (Allocator.isHeap_heap s)) Bool.false_ne_true

end Allocators
