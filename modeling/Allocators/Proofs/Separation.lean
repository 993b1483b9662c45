import Allocators.Proofs.Replay
/-!
# Everything in a region has its own place

In a stack or an arena, whatever has been done with it, each live block
lies in the region below the tail, at a multiple of its alignment, and no
two of the live blocks, the headers in front of them and the entries of
registered callbacks have a byte in common (`Reachable.separated_of_buffer`).
-/

namespace Allocators

/-- The header in front of a block, with its length. -/
def Holding.headerOf (header : Nat) (x : Holding) : Block :=
  ⟨x.address - header, header, Word.bytes⟩

namespace Custody

/-- The headers in front of the live blocks, for the kind that has them. -/
def headers (c : Custody) : List Block :=
  match c.allocator with
  | .stack _ => c.live.map (Holding.headerOf Stack.header)
  | _ => []

/-- Everything in the region of a buffer has its own place. The registered
callbacks are those that are found in memory. -/
structure Separated (m : Memory) (c : Custody) (s : Buffer) : Prop where
  inside : ∀ x ∈ c.live, x.toBlock.Inside s.region.block
  below_tail : ∀ x ∈ c.live, x.address + x.size ≤ s.region.base + s.region.tail
  aligned : ∀ x ∈ c.live, x.Aligned
  owned : ∀ x ∈ c.headers ++ c.entries, x.Inside s.region.block
  apart : (c.blocks ++ c.headers ++ c.entries).Pairwise Block.Apart
  linked : Linked m s.callbacks.head c.pending

end Custody

/-- The blocks of a pile, newest first, lie one under the header of the
other. -/
theorem Piled.pairwise {header base cursor : Nat} {xs : List Holding}
    (h : Piled header base cursor xs) :
    xs.Pairwise fun x y => y.address + y.size + header ≤ x.address := by
  -- on the pile, for any cursor: what lies under a block lies below its mark
  induction xs generalizing cursor with
  | nil => exact .nil
  | cons x xs ih =>
    obtain ⟨-, hgap, hrest⟩ := h
    refine List.pairwise_cons.2 ⟨fun y hy => ?_, ih hrest⟩
    have := hrest.bounds hy
    omega

namespace Buffer.Sound

variable {header : Nat} {m : Memory} {s : Buffer} {live : List Holding}
variable {pending : List Registration}

/-- Headers lie in the region, below its tail. -/
theorem header_bounds (h : Sound header m s live pending) {x : Holding} (hx : x ∈ live) :
    s.region.base ≤ x.address - header ∧
      x.address - header + header ≤ s.region.base + s.region.tail := by
  have hb := h.piled.bounds hx
  have hc := h.cursor_le
  omega

/-- Entries lie in the region, above its tail. -/
theorem entry_bounds (h : Sound header m s live pending) {e : Registration} (he : e ∈ pending) :
    s.region.base + s.region.tail ≤ e.address ∧
      e.address + 24 ≤ s.region.base + s.region.capacity := h.shelved.bounds he

/-- Live blocks are apart. -/
theorem pairwise_live (h : Sound header m s live pending) :
    (live.map Holding.toBlock).Pairwise Block.Apart := by
  rw [List.pairwise_map]
  exact h.piled.pairwise.imp fun hxy => Or.inr (by omega)

/-- Headers are apart. -/
theorem pairwise_headers (h : Sound header m s live pending) :
    (live.map (Holding.headerOf header)).Pairwise Block.Apart := by
  rw [List.pairwise_map]
  refine h.piled.pairwise.imp_of_mem fun {x y} hx hy hxy => Or.inr ?_
  have hby := h.piled.bounds hy
  show y.address - header + header ≤ x.address - header
  omega

/-- A live block is apart from a header, be it its own or that of another. -/
theorem live_apart_header (h : Sound header m s live pending) {x y : Holding} (hx : x ∈ live)
    (hy : y ∈ live) : x.toBlock.Apart (y.headerOf header) := by
  have hby := h.piled.bounds hy
  show x.address + x.size ≤ y.address - header ∨ y.address - header + header ≤ x.address
  rcases h.piled.eq_or_end_le hx hy with rfl | hxy
  · exact Or.inr (by omega)
  · have := (h.shaped y hy).2
    omega

/-- What lies below the tail is apart from the entries. -/
theorem apart_entry (h : Sound header m s live pending) {x : Block}
    (hx : x.address + x.size ≤ s.region.base + s.region.tail) {y : Block}
    (hy : y ∈ pending.map Registration.block) : x.Apart y := by
  obtain ⟨e, he, rfl⟩ := List.mem_map.1 hy
  exact Or.inl (Nat.le_trans hx (h.entry_bounds he).1)

/-- A live block ends below the tail. -/
theorem live_le_tail (h : Sound header m s live pending) {x : Holding} (hx : x ∈ live) :
    x.address + x.size ≤ s.region.base + s.region.tail := by
  have hb := h.piled.bounds hx
  have hc := h.cursor_le
  omega

/-- **Live blocks, headers and entries are apart.** -/
theorem pairwise (h : Sound header m s live pending) :
    (live.map Holding.toBlock ++ live.map (Holding.headerOf header) ++
      pending.map Registration.block).Pairwise Block.Apart := by
  refine List.pairwise_append.2 ⟨List.pairwise_append.2 ⟨h.pairwise_live, h.pairwise_headers, ?_⟩,
    h.shelved.pairwise, ?_⟩
  · intro x hx y hy
    obtain ⟨u, hu, rfl⟩ := List.mem_map.1 hx
    obtain ⟨v, hv, rfl⟩ := List.mem_map.1 hy
    exact h.live_apart_header hu hv
  · intro x hx y hy
    rcases List.mem_append.1 hx with hx | hx
    · obtain ⟨u, hu, rfl⟩ := List.mem_map.1 hx
      exact h.apart_entry (h.live_le_tail hu) hy
    · obtain ⟨u, hu, rfl⟩ := List.mem_map.1 hx
      exact h.apart_entry (h.header_bounds hu).2 hy

/-- Headers and entries lie in the region. -/
theorem owned (h : Sound header m s live pending) :
    ∀ x ∈ live.map (Holding.headerOf header) ++ pending.map Registration.block,
      x.Inside s.region.block := by
  intro x hx
  have ht := h.tail_le
  rcases List.mem_append.1 hx with hx | hx
  · obtain ⟨u, hu, rfl⟩ := List.mem_map.1 hx
    have hb := h.header_bounds hu
    refine ⟨hb.1, ?_⟩
    show u.address - header + header ≤ s.region.base + s.region.capacity
    omega
  · obtain ⟨e, he, rfl⟩ := List.mem_map.1 hx
    have hb := h.entry_bounds he
    refine ⟨?_, hb.2⟩
    show s.region.base ≤ e.address
    omega

end Buffer.Sound

namespace Estate

variable {ρ : Type} [Resource ρ] {b : Build} {E : Estate ρ}

/-- **Everything in a region has its own place**, in every stack and every
arena of every reachable state. -/
theorem Reachable.separated_of_buffer (h : Reachable b E) {t : Tenant} (ht : t ∈ E.tenants)
    {s : Buffer} (hs : t.allocator = .stack s ∨ t.allocator = .arena s) :
    t.Separated E.world.memory s := by
  have hsound := h.sound.sound t ht
  obtain ⟨⟨k, live, pending⟩, made⟩ := t
  rcases hs with rfl | rfl
  · have hb : s.Sound Stack.header E.world.memory live pending := hsound
    exact ⟨fun x hx => hb.inside hx, fun x hx => hb.live_le_tail hx,
      fun x hx => (hb.shaped x hx).1, hb.owned, hb.pairwise, hb.linked⟩
  · have hb : s.Sound 0 E.world.memory live pending := hsound
    refine ⟨fun x hx => hb.inside hx, fun x hx => hb.live_le_tail hx,
      fun x hx => (hb.shaped x hx).1, fun x hx => ?_, ?_, hb.linked⟩
    · exact hb.owned x (List.mem_append_right _ hx)
    · -- an arena has no headers, and its blocks and entries are apart as they stand
      show (live.map Holding.toBlock ++ [] ++ pending.map Registration.block).Pairwise Block.Apart
      rw [List.append_nil]
      exact hb.pairwise.sublist ((List.sublist_append_left _ _).append (.refl _))

/-- The stack of the sample, with two live blocks, two headers and an entry. -/
theorem separated_of_buffer_sample : ∃ t ∈ (sample .debug).tenants, ∃ s, t.allocator = .stack s ∧
    t.blocks.length = 2 ∧ t.headers.length = 2 ∧ t.entries.length = 1 ∧
    t.Separated (sample .debug).world.memory s :=
  have ht := List.getElem_mem (l := (sample .debug).tenants) (n := 1) (by decide)
  ⟨_, ht, _, rfl, rfl, rfl, rfl, (reachable_sample .debug).separated_of_buffer ht (Or.inl rfl)⟩

end Estate

end Allocators
