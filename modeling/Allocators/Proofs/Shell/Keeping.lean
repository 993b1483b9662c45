import Allocators.Proofs.Capabilities
import Allocators.Proofs.Shell.Commands
import Allocators.Proofs.Shell.Endings
/-!
# Sessions that keep their blocks

A session that is kept lists live blocks, and on a heap all of them. A call
that its shell makes for it leaves it kept, whether it is answered, declined or
ended by a fault, and whatever the numbers are: `Session.Kept.allocated`,
`resized`, `freed`, `cleared` and `failed`. That a shell strikes a block out
before it is freed does no harm: a heap frees any live block
(`Session.Stands.isHeap_of_deallocate`), and a stack or an arena gives its
region back whatever has been freed.
-/

namespace Allocators

open Trace Allocators.Action

/-- What is found in a ledger is one of its blocks. -/
theorem Ledger.mem_blocks_of_find? {t : Ledger} {a : Nat} {l : Layout} (h : t.find? a = some l) :
    Block.of a l ∈ t.blocks := by
  unfold find? at h
  obtain ⟨e, hf, rfl⟩ := Option.map_eq_some_iff.1 h
  have ha : e.1 = a := by simpa using List.find?_some hf
  subst ha
  exact List.mem_map_of_mem (List.mem_of_find?_eq_some hf)

/-! ## Live blocks after a call -/

namespace Custody

variable {c : Custody} {k : Allocator} {y : Block}

/-- A block that was live is live when another has been handed out. -/
theorem mem_blocks_allocated (hy : y ∈ c.blocks) (l : Layout) (a : Allocation) :
    y ∈ (c.answered k (.allocate l) (.block a)).blocks := List.mem_cons_of_mem _ hy

/-- And when one has been resized, unless it is that one and was not kept. -/
theorem mem_blocks_of_resized (hy : y ∈ c.blocks) {r : Resize} {z : Reallocation}
    (hne : z.kept = true ∨ y.address ≠ r.address) :
    y ∈ (c.answered k (.reallocate r) (.resized z)).blocks := by
  obtain ⟨x, hx, rfl⟩ := List.mem_map.1 hy
  simp only [answered, resized, blocks]
  cases hk : z.kept with
  | true => exact List.mem_cons_of_mem _ (List.mem_map_of_mem hx)
  | false =>
    have hother : x.address ≠ r.address := hne.resolve_left (by rw [hk]; decide)
    exact List.mem_map_of_mem (List.mem_map.2 ⟨x, hx, if_neg hother⟩)

/-- And when one has been freed, unless it is that one. -/
theorem mem_blocks_of_freed (hy : y ∈ c.blocks) {a : Nat} (hne : y.address ≠ a) (l : Layout)
    (reply : Reply) : y ∈ (c.answered k (.deallocate a l) reply).blocks := by
  obtain ⟨x, hx, rfl⟩ := List.mem_map.1 hy
  have hfreed : x ∈ c.allocator.freed a c.live := by
    obtain ⟨k₀, live, pending⟩ := c
    cases k₀ with
    | heap s => exact (List.mem_eraseP_of_neg (by simpa using hne)).2 hx
    | stack s =>
      cases live with
      | nil => exact hx
      | cons top older =>
        by_cases htop : top.address = a
        · have hold : x ∈ older := (List.mem_cons.1 hx).resolve_left fun h => hne (h ▸ htop)
          simp only [Allocator.freed, if_pos htop, hold]
        · simp only [Allocator.freed, if_neg htop]
          exact hx
    | arena s => exact hx
  exact List.mem_map_of_mem hfreed

end Custody

/-! ## Sessions after a call -/

namespace Session.Kept

variable {x : Session} {c : Custody} {k : Allocator} {l l' : Layout}

/-- What is found in the session's ledger is live. -/
theorem mem_of_find? (hx : x.Kept c) {a : Nat} (h : x.blocks.find? a = some l) :
    Block.of a l ∈ c.blocks := hx.live _ (Ledger.mem_blocks_of_find? h)

/-- A call that fails leaves a session kept that lists the same blocks as before. -/
theorem failed (hx : x.Kept c) (hk : k.isHeap = c.allocator.isHeap) (call : Call) :
    Kept ⟨k, x.blocks⟩ (c.failed k call) where
  allocator := (c.allocator_failed k call).symm
  pending := Custody.pending_failed hx.pending
  live y hy := by
    rw [Custody.blocks, Custody.live_failed]
    exact hx.live y hy
  all h := by
    rw [Custody.allocator_failed, hk] at h
    rw [Custody.blocks, Custody.live_failed]
    exact hx.all h

/-- A session that lists fewer is kept as well, if its allocator is no heap. -/
theorem erase (hx : x.Kept c) (hk : c.allocator.isHeap = false) (a : Nat) :
    Kept { x with blocks := x.blocks.erase a } c where
  allocator := hx.allocator
  pending := hx.pending
  live y hy := by
    rw [Ledger.blocks_erase] at hy
    exact hx.live y (List.mem_of_mem_filter hy)
  all h := absurd (hk.symm.trans h) Bool.false_ne_true

/-- A block was handed out, and is entered. -/
theorem allocated (hx : x.Kept c) (hk : k.isHeap = c.allocator.isHeap) {a : Allocation}
    (hd : (c.answered k (.allocate l) (.block a)).Distinct)
    (he : Block.of a.address l' = ⟨a.address, a.size, l.align⟩) :
    Kept ⟨k, x.blocks.insert a.address l'⟩ (c.answered k (.allocate l) (.block a)) where
  allocator := (c.allocator_answered k _ _).symm
  pending := Custody.pending_answered hx.pending nofun
  live y hy := by
    rcases List.mem_cons.1 hy with rfl | hy
    · show Block.of a.address l' ∈ _
      rw [he]
      exact List.mem_cons_self
    · have hmem : y ∈ (x.blocks.erase a.address).blocks := hy
      rw [Ledger.blocks_erase] at hmem
      exact Custody.mem_blocks_allocated (hx.live y (List.mem_of_mem_filter hmem)) l a
  all h := by
    rw [Custody.allocator_answered, hk] at h
    exact Custody.lists_allocated (hx.all h) hd he

/-- A block was resized: the old one is struck out unless it was kept, and the new
one is entered if a layout describes it, as one does on a heap. -/
theorem resized (hx : x.Kept c) (hk : k.isHeap = c.allocator.isHeap) (hd : c.Distinct)
    {r : Resize} {y : Reallocation} {z : Holding} (hz : z ∈ c.live) (hr : r.Describes z.toBlock)
    (hd' : (c.answered k (.reallocate r) (.resized y)).Distinct)
    (hl : c.allocator.isHeap = true → ∃ l', Layout.ofSizeAlign? y.size r.align = some l') :
    Kept ⟨k, Shell.blocksAfterResize x.blocks r.address r.align y⟩
      (c.answered k (.reallocate r) (.resized y)) where
  allocator := (c.allocator_answered k _ _).symm
  pending := Custody.pending_answered hx.pending nofun
  live u hu := by
    have hleft : ∀ u ∈ (if y.kept then x.blocks else x.blocks.erase r.address).blocks,
        u ∈ (c.answered k (.reallocate r) (.resized y)).blocks := by
      intro u hu
      cases hkept : y.kept with
      | true =>
        simp only [hkept, if_true] at hu
        exact Custody.mem_blocks_of_resized (hx.live u hu) (Or.inl hkept)
      | false =>
        simp only [hkept, Bool.false_eq_true, if_false, Ledger.blocks_erase, List.mem_filter] at hu
        exact Custody.mem_blocks_of_resized (hx.live u hu.1) (Or.inr (by simpa using hu.2))
    simp only [Shell.blocksAfterResize] at hu
    cases he : Layout.ofSizeAlign? y.size r.align with
    | none =>
      rw [he] at hu
      exact hleft u hu
    | some l' =>
      obtain ⟨hsize, halign, -⟩ := Layout.ofSizeAlign?_eq_some_iff.1 he
      rw [he] at hu
      rcases List.mem_cons.1 hu with rfl | hu
      · show Block.of y.address l' ∈ _
        rw [Block.of, hsize, halign]
        exact Custody.mem_blocks_resized hz hr
      · have hmem : u ∈ ((if y.kept then x.blocks else x.blocks.erase r.address).erase
            y.address).blocks := hu
        rw [Ledger.blocks_erase] at hmem
        exact hleft u (List.mem_of_mem_filter hmem)
  all h := by
    rw [Custody.allocator_answered, hk] at h
    obtain ⟨l', he⟩ := hl h
    exact Custody.lists_resized (hx.all h) hd hz hr hd' he

/-- A block was freed, or left where it is, and is struck out. -/
theorem freed (hx : x.Kept c) (hk : k.isHeap = c.allocator.isHeap) (hd : c.Distinct) {a : Nat}
    (hm : Block.of a l ∈ c.blocks) :
    Kept ⟨k, x.blocks.erase a⟩ (c.answered k (.deallocate a l) .done) where
  allocator := (c.allocator_answered k _ _).symm
  pending := Custody.pending_answered hx.pending nofun
  live y hy := by
    simp only [Ledger.blocks_erase, List.mem_filter] at hy
    exact Custody.mem_blocks_of_freed (hx.live y hy.1) (by simpa using hy.2) l .done
  all h := by
    rw [Custody.allocator_answered, hk] at h
    refine Custody.lists_freed (hx.all h) hd ?_
    obtain ⟨z, hz, hzb⟩ := List.mem_map.1 hm
    obtain ⟨k₀, live, pending⟩ := c
    obtain ⟨s, rfl⟩ := Allocator.exists_heap h
    exact ⟨z, hz, hzb.symm⟩

/-- The allocator was cleared, and nothing is listed. -/
theorem cleared (hx : x.Kept c) (hk : k.isHeap = c.allocator.isHeap)
    (hc : c.allocator.isHeap = false) :
    Kept ⟨k, .empty⟩ (c.answered k .clear .done) where
  allocator := (c.allocator_answered k _ _).symm
  pending := Custody.pending_answered hx.pending nofun
  live _ := nofun
  all h := by
    rw [Custody.allocator_answered, hk] at h
    cases hc.symm.trans h

end Session.Kept

/-! ## Answers -/

section Answers

variable {ρ : Type} {l : Layout}

/-- A stack hands out as much as it was asked for. -/
theorem Stack.yields_allocate (b : Build) (l : Layout) :
    Yields (fun a => a.size = l.size) (allocate b l : Action Buffer ρ Allocation) := by
  refine .last fun s => .last fun placed => ?_
  cases placed with
  | none => exact .last fun _ => ensures_refuse fun _ => id
  | some p =>
    exact .last fun _ => .last fun _ => .last fun _ => .last fun _ => ensures_pure fun _ _ => rfl

/-- And so does an arena. -/
theorem Arena.yields_allocate (b : Build) (l : Layout) :
    Yields (fun a => a.size = l.size) (allocate b l : Action Buffer ρ Allocation) := by
  refine .last fun s => .last fun placed => ?_
  cases placed with
  | none => exact ensures_refuse fun _ => id
  | some p => exact .last fun _ => .last fun _ => ensures_pure fun _ _ => rfl

variable [Resource ρ] {b : Build} {s t : Scene Allocator ρ}

/-- **An allocator of any kind hands out as much as it was asked for.** -/
theorem Allocator.size_of_allocate {a : Allocation} (h : Allocator.allocate b l s = .ok a t) :
    a.size = l.size := by
  obtain ⟨k, w⟩ := s
  cases k with
  | heap s => exact Custody.size_of_allocate h
  | stack s =>
    obtain ⟨u, hu, -⟩ := on_eq_ok_iff.1 h
    exact (Stack.yields_allocate b l).answered trivial hu
  | arena s =>
    obtain ⟨u, hu, -⟩ := on_eq_ok_iff.1 h
    exact (Arena.yields_allocate b l).answered trivial hu

/-- **A heap resizes to a size that a layout describes.** -/
theorem Custody.exists_layout_of_reallocate {c : Custody} {w : World ρ} {rest : List Block}
    (hs : c.Sound b w.memory) (ha : Accounts w.events (c.footprint ++ rest))
    (hk : c.allocator.isHeap = true) {x : Holding} (hx : x ∈ c.live) {r : Resize}
    (hr : r.Describes x.toBlock) {y : Reallocation}
    (h : Allocator.reallocate b r ⟨c.allocator, w⟩ = .ok y t) :
    ∃ l', Layout.ofSizeAlign? y.size r.align = some l' := by
  obtain ⟨k, live, pending⟩ := c
  obtain ⟨s, rfl⟩ := Allocator.exists_heap hk
  obtain ⟨u, hu, -⟩ := on_eq_ok_iff.1 h
  obtain ⟨p, old, new, a, w', hp, -, hnew, -, rfl, -⟩ :=
    Heap.granted_of_reallocate hs (accounts_heap ha) hx hr hu
  obtain ⟨hsize, hkept, -, hfit⟩ := Resize.plan_sizes hp
  obtain ⟨l', hl', -⟩ :=
    Layout.exists_ofSizeAlign? (Resize.planned hp).align (by omega) hfit
  exact ⟨l', hnew ▸ hl'⟩

end Answers

/-! ## Sessions beside others -/

/-- The session is kept, and its allocator is in order beside the others over one
resource. -/
structure Session.Stands {ρ : Type} (b : Build) (w : World ρ) (x : Session) (c : Custody) :
    Prop where
  kept : x.Kept c
  sound : c.Sound b w.memory
  accounts : ∃ rest, Accounts w.events (c.footprint ++ rest)

namespace Session.Stands

variable {ρ : Type} {b : Build} {w : World ρ} {x : Session} {c : Custody} {t : Scene Allocator ρ}

/-- Its blocks start at addresses of their own. -/
theorem distinct (h : x.Stands b w c) : c.Distinct := by
  obtain ⟨rest, ha⟩ := h.accounts
  exact h.sound.distinct ha

variable [Resource ρ]

/-- **No free of a block that a heap's session lists fails.** -/
theorem isHeap_of_deallocate (h : x.Stands b w c) {a : Nat} {l : Layout}
    (hm : Block.of a l ∈ c.blocks) {e : Failure}
    (hd : Allocator.deallocate b a l ⟨c.allocator, w⟩ = .error e t) :
    c.allocator.isHeap = false := by
  obtain ⟨rest, ha⟩ := h.accounts
  cases hk : c.allocator.isHeap with
  | false => rfl
  | true =>
    obtain ⟨k, w', hok, -⟩ := Custody.deallocate_of_mem h.sound ha hk hm
    cases hok.symm.trans hd

end Session.Stands

end Allocators
