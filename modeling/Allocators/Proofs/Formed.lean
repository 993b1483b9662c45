import Allocators.Proofs.Features
import Allocators.Proofs.Heap.Resizing
/-!
# Blocks of sizes that blocks can have

Callers name the layouts of the blocks that they ask for, and a layout is not
for every size. What they may do then (`Custody.Admits`) leaves a heap with
live blocks of sizes that blocks can have: `Chronicle.formed`.
-/

namespace Allocators

open Trace Allocators.Action

/-- What callers may do with layouts that can be named. -/
def Custody.Admits (c : Custody) : Deed → Prop
  | .call (.allocate l) => (Block.of 0 l).Formed
  | d => c.Allows d

instance (c : Custody) (d : Deed) : Decidable (c.Admits d) := by
  unfold Custody.Admits
  split
  · exact inferInstanceAs (Decidable (_ ∨ _))
  · infer_instance

namespace Custody

variable {ρ : Type} [Resource ρ] {b : Build} {w : World ρ} {kind : AllocatorKind}
variable {others : List Block} {c : Custody}

/-! ## Allocations and accounts -/

omit [Resource ρ] in
/-- A heap's blocks come first in its account. -/
theorem accounts_heap {s : Heap} {live : List Holding} {pending : List Registration}
    {rest : List Block}
    (ha : Accounts w.events ((⟨.heap s, live, pending⟩ : Custody).footprint ++ rest)) :
    Accounts w.events
      (live.map Holding.toBlock ++ (pending.map Registration.block ++ rest)) := by
  rw [← List.append_assoc]
  exact ha

/-- An allocation that gives a size only is answered as one with a layout. -/
theorem allocate_of_allocateBytes {size : Nat} {u t : Scene Allocator ρ} {y : Allocation}
    (h : Allocator.allocateBytes b size u = .ok y t) :
    ∃ l, Layout.ofSize? size = some l ∧ Allocator.allocate b l u = .ok y t := by
  obtain ⟨l, v, hl, hy⟩ := bind_eq_ok_iff.1 h
  cases hs : Layout.ofSize? size with
  | none =>
    rw [hs] at hl
    cases hl
  | some l' =>
    rw [hs] at hl
    cases hl
    exact ⟨l, rfl, hy⟩

/-! ## Live blocks after a call -/

omit [Resource ρ] in
/-- A heap resizes to sizes that blocks can have. -/
theorem formed_resized {s : Heap} {live : List Holding} {pending : List Registration}
    {rest : List Block} (ha : Accounts w.events (live.map Holding.toBlock ++ rest))
    (hf : ∀ x ∈ live, x.toBlock.Formed) {x : Holding} (hx : x ∈ live) {r : Resize}
    (hr : r.Describes x.toBlock) {k : Allocator} {y : Reallocation}
    (hy : (⟨0, y.size, r.align⟩ : Block).Formed) :
    ∀ z ∈ ((⟨.heap s, live, pending⟩ : Custody).resized k r y).live, z.toBlock.Formed := by
  intro z hz
  unfold resized at hz
  by_cases hkept : y.kept = true
  · simp only [if_pos hkept] at hz
    rcases List.mem_cons.1 hz with rfl | hz
    · exact hy
    · exact hf z hz
  · simp only [if_neg hkept] at hz
    -- only the block that the request is about starts at its address
    obtain ⟨as, bs, rfl⟩ := List.append_of_mem hx
    have hne : ∀ z ∈ as ++ bs, z.address ≠ x.address := Heap.address_ne ha
    have hsplit :=
      Holding.map_split (fun h => { h with address := y.address, size := y.size }) hne
    rw [hr.1] at hz
    rw [hsplit] at hz
    rcases List.mem_append.1 hz with hz | hz
    · exact hf z (List.mem_append_left _ hz)
    · rcases List.mem_cons.1 hz with rfl | hz
      · rw [hr.2.2] at hy
        exact hy
      · exact hf z (List.mem_append_right _ (List.mem_cons_of_mem _ hz))

/-- A heap allocates as much as it was asked for. -/
theorem size_of_allocate {s : Heap} {l : Layout} {y : Allocation} {t : Scene Allocator ρ}
    (h : Allocator.allocate b l ⟨.heap s, w⟩ = .ok y t) : y.size = l.size := by
  obtain ⟨u, hu, -⟩ := on_eq_ok_iff.1 h
  obtain ⟨a, w', -, rfl, -⟩ := Heap.drawn_of_allocate hu
  rfl

/-- A call that a heap answers leaves it with blocks of sizes that blocks can have. -/
theorem formed_answered {s : Heap} {live : List Holding} {pending : List Registration}
    {rest : List Block} (hs : s.Sound b w.memory (live.map Holding.toBlock) pending)
    (ha : Accounts w.events (live.map Holding.toBlock ++ rest))
    (hf : ∀ x ∈ live, x.toBlock.Formed) {call : Call}
    (hd : (⟨.heap s, live, pending⟩ : Custody).Admits (.call call)) {reply : Reply}
    {t : Scene Allocator ρ} (hp : Restriction.perform b [] call ⟨.heap s, w⟩ = .ok reply t) :
    ∀ x ∈ (answered ⟨.heap s, live, pending⟩ t.allocator call reply).live, x.toBlock.Formed := by
  cases call with
  | allocate l =>
    obtain ⟨y, hy, rfl⟩ := map_eq_ok_iff.1 hp
    refine List.forall_mem_cons.2 ⟨?_, hf⟩
    show y.size ≤ maxSize l.align ∨ maxSize l.align = 0
    rw [size_of_allocate hy]
    exact hd
  | allocateBytes size =>
    obtain ⟨y, hy, rfl⟩ := map_eq_ok_iff.1 hp
    obtain ⟨l, hl, hy⟩ := allocate_of_allocateBytes hy
    obtain ⟨-, halign, hfits⟩ := Layout.ofSizeAlign?_eq_some_iff.1 hl
    refine List.forall_mem_cons.2 ⟨Or.inl ?_, hf⟩
    show y.size ≤ maxSize defaultAlign
    rw [size_of_allocate hy, ← halign]
    exact hfits
  | reallocate r =>
    obtain ⟨y, hy, rfl⟩ := map_eq_ok_iff.1 hp
    obtain ⟨u, hu, -⟩ := on_eq_ok_iff.1 hy
    obtain ⟨x, hx, hr⟩ := hd
    obtain ⟨p, old, new, a, w', hplan, -, hnew, -, rfl, -⟩ :=
      Heap.granted_of_reallocate hs ha hx hr hu
    refine formed_resized ha hf hx hr (Or.inl ?_)
    show new.size ≤ maxSize r.align
    rw [hnew]
    exact (Resize.plan_sizes hplan).2.2.2
  | deallocate a l =>
    obtain ⟨_, -, rfl⟩ := map_eq_ok_iff.1 hp
    exact fun z hz => hf z (List.mem_of_mem_eraseP hz)
  | clear =>
    obtain ⟨_, -, rfl⟩ := map_eq_ok_iff.1 hp
    rw [answered_clear_heap]
    exact hf
  | register data h =>
    obtain ⟨_, -, rfl⟩ := map_eq_ok_iff.1 hp
    exact hf

/-- What callers may do leaves a heap with blocks of sizes that blocks can have. -/
theorem InOrder.formed_act (hin : c.InOrder b kind others w) (hk : c.allocator.isHeap = true)
    (hf : ∀ x ∈ c.live, x.toBlock.Formed) {d : Deed} (hd : c.Admits d)
    {out : Except Failure Reply} {c' : Custody} {w' : World ρ}
    (hact : act b d ⟨c, w⟩ = ending out ⟨c', w'⟩) : ∀ x ∈ c'.live, x.toBlock.Formed := by
  obtain ⟨k, live, pending⟩ := c
  obtain ⟨s, rfl⟩ := Allocator.exists_heap hk
  cases d with
  | write start len f =>
    obtain ⟨-, hend⟩ := ok_eq_ending_iff.1 hact
    cases hend
    exact hf
  | call call =>
    cases hp : Restriction.perform b [] call ⟨.heap s, w⟩ with
    | error e t =>
      simp only [act, hp] at hact
      obtain ⟨-, hend⟩ := error_eq_ending_iff.1 hact
      cases hend
      rw [live_failed]
      exact hf
    | ok reply t =>
      simp only [act, hp] at hact
      obtain ⟨-, hend⟩ := ok_eq_ending_iff.1 hact
      cases hend
      exact formed_answered hin.sound (accounts_heap hin.accounts) hf hd hp

end Custody

namespace Chronicle

variable {ρ : Type} [Resource ρ] {b : Build} {kind : AllocatorKind} {B : Book ρ}

/-- What callers may do with layouts that can be named, they may do. -/
theorem steady_admits : Custody.Steady ρ b kind Custody.Admits := by
  intro c w others d hin hd
  refine Custody.steady_allows c w others d hin ?_
  cases d with
  | write start len f => exact hd
  | call call =>
    cases call with
    | allocate l => trivial
    | _ => exact hd

/-- Every block of a heap is of a size that blocks can have. -/
theorem formed (h : Chronicle b Custody.Admits kind B) :
    B.custody.allocator.isHeap = true → ∀ x ∈ B.custody.live, x.toBlock.Formed := by
  induction h with
  | made _ _ _ => exact fun _ x hx => absurd hx List.not_mem_nil
  | @dealt B nest d hB hd hg ih =>
    obtain ⟨others, hin⟩ := hB.inOrder steady_admits
    rcases B.turn_cases b nest d with ⟨-, hc, -⟩ | ⟨-, out, hact⟩
    · rw [hc]
      exact ih
    · intro hk
      have hheap : B.custody.allocator.isHeap = true :=
        (Allocator.isHeap_congr (hB.kind_eq.trans (hB.dealt hd hg).kind_eq.symm)).trans hk
      exact hin.formed_act hheap (ih hheap) hd hact
  | meanwhile _ _ _ ih => exact ih

end Chronicle

end Allocators
