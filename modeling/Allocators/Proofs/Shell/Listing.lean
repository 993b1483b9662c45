import Allocators.Proofs.Ordinary
import Allocators.Shell.Run
/-!
# Sessions that list their blocks

A session remembers its blocks in a ledger of its own, beside what the
allocator keeps. The ledger lists the live blocks (`Ledger.Lists`) if its
entries are those blocks in some order. What the shell does to its ledger
with the answer to a call keeps it a list of the blocks that are live then:
`Custody.lists_allocated`, `Custody.lists_resized` and
`Custody.lists_freed`.
-/

namespace Allocators

/-! ## Ledgers as lists of blocks -/

namespace Ledger

variable {t : Ledger} {bs : List Block} {a : Nat} {l : Layout}

/-- The blocks of a ledger's entries. -/
def blocks (t : Ledger) : List Block := t.entries.map fun e => Block.of e.1 e.2

/-- The ledger's entries are these blocks, in some order. -/
def Lists (t : Ledger) (bs : List Block) : Prop := t.blocks.Perm bs

/-- A block is among them if its layout is entered at its address. -/
theorem mem_blocks : Block.of a l ∈ t.blocks ↔ (a, l) ∈ t.entries := by
  constructor
  · intro h
    obtain ⟨e, he, heq⟩ := List.mem_map.1 h
    obtain ⟨rfl, rfl⟩ := Block.of_inj heq
    exact he
  · exact fun h => List.mem_map.2 ⟨(a, l), h, rfl⟩

/-- An empty ledger lists nothing. -/
theorem lists_empty : Lists empty [] := .nil

/-- The blocks of an erased ledger. -/
theorem blocks_erase (t : Ledger) (a : Nat) :
    (t.erase a).blocks = t.blocks.filter fun x => x.address ≠ a := by
  rw [blocks, blocks, List.filter_map]
  rfl

namespace Lists

/-- The order of the blocks does not matter. -/
theorem reorder (h : t.Lists bs) {bs' : List Block} (hp : bs.Perm bs') : t.Lists bs' := h.trans hp

/-- No two entries are for one address if no two blocks start there. -/
theorem nodup (h : t.Lists bs) (hd : (bs.map Block.address).Nodup) :
    (t.entries.map Prod.fst).Nodup := by
  have hk : t.blocks.map Block.address = t.entries.map Prod.fst := by
    rw [blocks, List.map_map]
    rfl
  rw [← hk]
  exact (h.map Block.address).nodup_iff.2 hd

/-- **What is found at an address is the block that starts there.** -/
theorem find?_eq_some_iff (h : t.Lists bs) (hd : (bs.map Block.address).Nodup) :
    t.find? a = some l ↔ Block.of a l ∈ bs := by
  have hn := h.nodup hd
  rw [← h.mem_iff, mem_blocks]
  unfold find?
  rw [Option.map_eq_some_iff]
  constructor
  · rintro ⟨⟨a', l'⟩, hf, rfl⟩
    have ha := List.find?_some hf
    obtain rfl : a' = a := by simpa using ha
    exact List.mem_of_find?_eq_some hf
  · intro hm
    obtain ⟨as, es, hes⟩ := List.append_of_mem hm
    rw [hes] at hn ⊢
    rw [List.map_append, List.map_cons] at hn
    have hne : ∀ e ∈ as, e.1 ≠ a := by
      intro e he heq
      have hdis := (List.nodup_append.1 hn).2.2 e.1 (List.mem_map_of_mem he) a List.mem_cons_self
      exact hdis heq
    refine ⟨(a, l), ?_, rfl⟩
    rw [List.find?_append, List.find?_eq_none.2 fun e he => by simpa using hne e he,
      Option.none_or, List.find?_cons_of_pos (by simp)]

/-- A block that starts elsewhere than the others is entered. -/
theorem insert (h : t.Lists bs) (hne : ∀ y ∈ bs, y.address ≠ a) :
    (t.insert a l).Lists (Block.of a l :: bs) := by
  have hkeep : (t.erase a).blocks = t.blocks := by
    rw [blocks_erase]
    refine List.filter_eq_self.2 fun y hy => ?_
    simpa using hne y (h.mem_iff.1 hy)
  show (Block.of a l :: (t.erase a).blocks).Perm _
  rw [hkeep]
  exact h.cons _

/-- A block is struck out. -/
theorem erase (h : t.Lists bs) (a : Nat) :
    (t.erase a).Lists (bs.filter fun y => y.address ≠ a) := by
  unfold Lists
  rw [blocks_erase]
  exact h.filter _

/-- One of the live blocks is struck out. -/
theorem erase_split {as bs : List Holding} {x : Holding}
    (h : t.Lists ((as ++ x :: bs).map Holding.toBlock))
    (hne : ∀ y ∈ as ++ bs, y.address ≠ x.address) :
    (t.erase x.address).Lists ((as ++ bs).map Holding.toBlock) := by
  have hkeep : ∀ ys : List Holding, (∀ y ∈ ys, y.address ≠ x.address) →
      (ys.map Holding.toBlock).filter (fun y => y.address ≠ x.address) =
        ys.map Holding.toBlock := by
    intro ys hys
    refine List.filter_eq_self.2 fun y hy => ?_
    obtain ⟨z, hz, rfl⟩ := List.mem_map.1 hy
    simpa using hys z hz
  have he := h.erase x.address
  rw [List.map_append, List.map_cons, List.filter_append, List.filter_cons_of_neg (by simp),
    hkeep as fun y hy => hne y (List.mem_append_left _ hy),
    hkeep bs fun y hy => hne y (List.mem_append_right _ hy), ← List.map_append] at he
  exact he

end Lists

end Ledger

/-! ## The answers to calls -/

namespace Custody

variable {c : Custody} {t : Ledger} {k : Allocator}

/-- A block that was handed out is entered. -/
theorem lists_allocated {l l' : Layout} {a : Allocation} (hl : t.Lists c.blocks)
    (hd : (c.answered k (.allocate l) (.block a)).Distinct)
    (he : Block.of a.address l' = ⟨a.address, a.size, l.align⟩) :
    (t.insert a.address l').Lists (c.answered k (.allocate l) (.block a)).blocks := by
  have hne : ∀ y ∈ c.blocks, y.address ≠ a.address := by
    intro y hy
    obtain ⟨z, hz, rfl⟩ := List.mem_map.1 hy
    exact Distinct.address_ne_head hd z hz
  have hins := hl.insert (l := l') hne
  rw [he] at hins
  exact hins

/-- A block that was resized is live, with the alignment of the old one. -/
theorem mem_blocks_resized {r : Resize} {y : Reallocation} {x : Holding} (hx : x ∈ c.live)
    (hr : r.Describes x.toBlock) :
    ⟨y.address, y.size, r.align⟩ ∈ (c.answered k (.reallocate r) (.resized y)).blocks := by
  obtain ⟨haddr, -, hal⟩ := hr
  simp only [answered, resized, blocks]
  cases y.kept with
  | true => exact List.mem_cons_self
  | false =>
    refine List.mem_map.2 ⟨{ x with address := y.address, size := y.size }, ?_, ?_⟩
    · exact List.mem_map.2 ⟨x, hx, if_pos haddr.symm⟩
    · rw [hal]

/-- A block that was resized takes the place of the old one, or comes beside it
if that was kept. -/
theorem lists_resized {r : Resize} {y : Reallocation} {x : Holding} {l' : Layout}
    (hl : t.Lists c.blocks) (hd : c.Distinct) (hx : x ∈ c.live) (hr : r.Describes x.toBlock)
    (hd' : (c.answered k (.reallocate r) (.resized y)).Distinct)
    (he : Layout.ofSizeAlign? y.size r.align = some l') :
    (Shell.blocksAfterResize t r.address r.align y).Lists
      (c.answered k (.reallocate r) (.resized y)).blocks := by
  obtain ⟨hsize, halign, -⟩ := Layout.ofSizeAlign?_eq_some_iff.1 he
  obtain ⟨haddr, -, hal⟩ := hr
  obtain ⟨k₀, live, pending⟩ := c
  obtain ⟨as, bs, rfl⟩ := List.append_of_mem hx
  have hne := hd.address_ne
  simp only [Shell.blocksAfterResize, he]
  cases hk : y.kept with
  | true =>
    -- the new block beside all that were there
    have hc : answered ⟨k₀, as ++ x :: bs, pending⟩ k (.reallocate r) (.resized y) =
        ⟨k, ⟨⟨y.address, y.size, r.align⟩, k₀.cursor⟩ :: (as ++ x :: bs), pending⟩ := by
      simp only [answered, resized, hk, if_true]
    rw [hc] at hd' ⊢
    have hins := hl.insert (a := y.address) (l := l') fun u hu => by
      obtain ⟨z, hz, rfl⟩ := List.mem_map.1 hu
      exact Distinct.address_ne_head hd' z hz
    rw [Block.of, hsize, halign] at hins
    exact hins
  | false =>
    -- the new block in the place of the one that was described
    have hc : answered ⟨k₀, as ++ x :: bs, pending⟩ k (.reallocate r) (.resized y) =
        ⟨k, as ++ { x with address := y.address, size := y.size } :: bs, pending⟩ := by
      simp only [answered, resized, hk, Bool.false_eq_true, if_false, haddr,
        Holding.map_split (fun z => { z with address := y.address, size := y.size }) hne]
    rw [hc] at hd' ⊢
    have hrest : (t.erase x.address).Lists ((as ++ bs).map Holding.toBlock) := hl.erase_split hne
    have hins := hrest.insert (a := y.address) (l := l') fun u hu => by
      obtain ⟨z, hz, rfl⟩ := List.mem_map.1 hu
      exact hd'.address_ne z hz
    rw [Block.of, hsize, halign, hal] at hins
    rw [haddr]
    refine hins.reorder ?_
    show List.Perm _ ((as ++ _ :: bs).map Holding.toBlock)
    rw [List.map_append, List.map_append, List.map_cons]
    exact List.perm_middle.symm

/-- A block that was freed is struck out. -/
theorem lists_freed {a : Nat} {l : Layout} (hl : t.Lists c.blocks) (hd : c.Distinct)
    (hc : c.Lawful (.deallocate a l)) :
    (t.erase a).Lists (c.answered k (.deallocate a l) .done).blocks := by
  obtain ⟨k₀, live, pending⟩ := c
  cases k₀ with
  | heap s =>
    obtain ⟨x, hx, hb⟩ := hc
    obtain rfl : a = x.address := congrArg Block.address hb
    obtain ⟨as, bs, rfl⟩ := List.append_of_mem hx
    have hne := hd.address_ne
    have hfreed : answered ⟨.heap s, as ++ x :: bs, pending⟩ k (.deallocate x.address l) .done =
        ⟨k, as ++ bs, pending⟩ := by
      simp only [answered, Allocator.freed, Holding.eraseP_split hne]
    rw [hfreed]
    exact hl.erase_split hne
  | stack s =>
    obtain ⟨x, hx, hb⟩ := hc
    obtain rfl : a = x.address := congrArg Block.address hb
    obtain ⟨older, rfl⟩ := List.head?_eq_some_iff.1 hx
    have hfreed : answered ⟨.stack s, x :: older, pending⟩ k (.deallocate x.address l) .done =
        ⟨k, older, pending⟩ := by
      simp only [answered, Allocator.freed, if_true]
    rw [hfreed]
    have hlist : t.Lists (([] ++ x :: older).map Holding.toBlock) := hl
    exact hlist.erase_split (Distinct.address_ne_head hd)
  | arena s => exact hc.elim

end Custody

end Allocators
