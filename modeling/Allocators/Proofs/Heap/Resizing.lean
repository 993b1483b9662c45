import Allocators.Proofs.Balance
import Allocators.Proofs.Reshape
/-!
# How a heap resizes and frees a live block

A heap resizes a live block by taking a new one. If the resource declines
that, so does the heap, and otherwise the request is granted: the bytes are
copied and the old block is given back, or it is kept and nothing is copied
(`Heap.reallocate_cases`). What has been done once a request is granted
(`Heap.granted_of_reallocate`) says how much is in use then, which bytes are
zero on a heap that zeroes, and that only the resource can decline a plan.
-/

namespace Allocators

open Trace Allocators.Action

/-- Every outstanding block was handed out with a layout. -/
theorem Trace.exists_layout {es : Trace} {x : Block} (h : x ∈ outstanding es) :
    ∃ l, Block.of x.address l = x := by
  induction es with
  | nil => cases h
  | cons e es ih =>
    rcases e with ⟨l, _ | a⟩ | ⟨a, l⟩ | _ | _
    · exact ih h
    · rcases List.mem_cons.1 h with rfl | h
      · exact ⟨l, rfl⟩
      · exact ih h
    · exact ih (List.mem_of_mem_erase h)
    · exact ih h
    · exact ih h

/-- What is drawn from the resource by a heap that zeroes is zero. -/
theorem World.byteAt_draw {ρ : Type} [Resource ρ] {w w' : World ρ} {l : Layout} {a : Nat}
    (h : w.draw true l = (some a, w')) {i : Nat} (hi : i < l.size) :
    w'.memory.byteAt (a + i) = 0 := by
  unfold draw takeZeroed at h
  rw [if_pos rfl] at h
  rcases ht : w.take l with ⟨_ | a', w₁⟩ <;> rw [ht] at h <;> cases h
  show (w₁.memory.update a l.size fun _ _ => 0).byteAt (a + i) = 0
  rw [Memory.byteAt_update, if_pos ⟨Nat.le_add_right a i, Nat.add_lt_add_left hi a⟩]

namespace Heap

variable {ρ : Type} [Resource ρ] {b : Build} {s : Heap} {w : World ρ} {l : Layout}

/-- A heap hands out what it has drawn, as large as it was asked for. -/
theorem drawn_of_allocate {y : Allocation} {t : Scene Heap ρ}
    (h : allocate b l ⟨s, w⟩ = .ok y t) :
    ∃ a w', w.draw s.zeroed l = (some a, w') ∧ y = ⟨a, l.size⟩ ∧ t.world.memory = w'.memory := by
  rcases w.draw_cases s.zeroed l with ⟨w', hd, -⟩ | ⟨a, w', hd, -⟩
  · rw [allocate_of_none b hd] at h
    cases h
  · by_cases hf : b = .debug → s.ledger.find? a = none
    · rw [allocate_of_some hd hf] at h
      cases h
      exact ⟨a, w', hd, rfl, rfl⟩
    · obtain ⟨rfl, hne⟩ := Classical.not_imp.1 hf
      rw [allocate_of_twice hd hne] at h
      cases h

variable {live : List Holding} {pending : List Registration} {rest : List Block} {x : Holding}
variable {r : Resize} {p : Plan} {old new : Layout} {y : Reallocation} {u : Scene Heap ρ}

/-- **A planned request about a live block** is declined with the resource, or
granted with what the resource grants; and the old block is kept or given back,
as the plan says. -/
theorem reallocate_cases (hs : s.Sound b w.memory (live.map Holding.toBlock) pending)
    (ha : Accounts w.events (live.map Holding.toBlock ++ rest)) (hx : x ∈ live)
    (hr : r.Describes x.toBlock) (hp : r.plan b = .ok p)
    (ho : Layout.ofSizeAlign? r.size r.align = some old)
    (hn : Layout.ofSizeAlign? p.newSize r.align = some new) :
    (∃ w', w.draw s.zeroed new = (none, w') ∧
      reallocate b r ⟨s, w⟩ = .error (.refused .outOfMemory)
        ⟨s, w'.record (.noted (some s.label) (.resourceEmpty new.size))⟩) ∨
    (∃ a w' notice, w.draw s.zeroed new = (some a, w') ∧ p.nocopy = true ∧
      reallocate b r ⟨s, w⟩ = .ok ⟨a, new.size, p.oldStart a, true⟩
        ⟨s.entered b a new, (w'.record (.noted (some s.label) (.allocated new.size a))).record
          (.noted (some s.label) notice)⟩) ∨
    (∃ a w' notice, w.draw s.zeroed new = (some a, w') ∧ p.nocopy = false ∧
      reallocate b r ⟨s, w⟩ = .ok ⟨a, new.size, p.oldStart a, false⟩
        ⟨(s.entered b a new).struck b x.address old,
          (((w'.record (.noted (some s.label) (.allocated new.size a))).write
            fun m => m.copy (x.address + p.source) (a + p.target) p.kept).give
              x.address old).record (.noted (some s.label) notice)⟩) ∨
    ∃ e t, reallocate b r ⟨s, w⟩ = .error e t ∧ ¬ Honoured t.world.events := by
  obtain ⟨-, hm, hf⟩ := found_live hs ha hx hr ho
  rcases w.draw_cases s.zeroed new with ⟨w', hd, -⟩ | ⟨a, w', hd, hmem, he⟩
  · exact Or.inl ⟨w', hd, reallocate_of_declined hp ho hm hf hn (allocate_of_none b hd)⟩
  · by_cases hfresh : b = .debug → s.ledger.find? a = none
    · have halloc := allocate_of_some hd hfresh
      cases hc : p.nocopy with
      | true => exact Or.inr (Or.inl ⟨a, w', _, hd, rfl,
          reallocate_of_nocopy hp ho hm hf hn halloc hc⟩)
      | false =>
        have hcopy := reallocate_of_copy hp ho hm hf hn halloc hc (find?_entered hfresh hf)
        rw [hr.1] at hcopy
        exact Or.inr (Or.inr (Or.inl ⟨a, w', _, hd, rfl, hcopy⟩))
    · -- a block that is live already was handed out
      rcases allocate_of_draw hs ha hd hmem he with ⟨w₁, halloc, hno, -⟩ | ⟨e, s', w₁, halloc, hb⟩
      · exact absurd hno hfresh
      · exact Or.inr (Or.inr (Or.inr ⟨e, _, reallocate_of_declined hp ho hm hf hn halloc, hb⟩))

/-! ## Requests that are granted -/

section Granted

variable (hs : s.Sound b w.memory (live.map Holding.toBlock) pending)
  (ha : Accounts w.events (live.map Holding.toBlock ++ rest)) (hx : x ∈ live)
  (hr : r.Describes x.toBlock)

include hs ha hx hr

/-- What a heap has done when it has granted a resize of a live block. -/
theorem granted_of_reallocate (h : reallocate b r ⟨s, w⟩ = .ok y u) :
    ∃ p old new a w', r.plan b = .ok p ∧ Block.of x.address old = x.toBlock ∧
      new.size = p.newSize ∧ w.draw s.zeroed new = (some a, w') ∧
      y = ⟨a, new.size, p.oldStart a, p.nocopy⟩ ∧
      ((p.nocopy = true ∧ u.world.memory = w'.memory) ∨
        p.nocopy = false ∧ u.allocator = (s.entered b a new).struck b x.address old ∧
          ∃ n n', u.world = (((w'.record (.noted (some s.label) n)).write
            fun m => m.copy (x.address + p.source) (a + p.target) p.kept).give
              x.address old).record (.noted (some s.label) n')) := by
  cases hp : r.plan b with
  | error e =>
    rw [reallocate_of_error w hp] at h
    cases h
  | ok p =>
    cases ho : Layout.ofSizeAlign? r.size r.align with
    | none =>
      rw [reallocate_of_no_old w hp ho] at h
      cases h
    | some old =>
      obtain ⟨hsize, hkept, -, hfit⟩ := Resize.plan_sizes hp
      obtain ⟨new, hn, hns, -⟩ :=
        Layout.exists_ofSizeAlign? (Resize.planned hp).align (by omega) hfit
      have hold := (found_live hs ha hx hr ho).1
      rcases reallocate_cases hs ha hx hr hp ho hn with ⟨w', -, hx⟩ | ⟨a, w', n, hd, hc, hx⟩ |
        ⟨a, w', n, hd, hc, hx⟩ | ⟨e, t, hx, -⟩ <;> rw [hx] at h <;> cases h
      · exact ⟨p, old, new, a, w', rfl, hold, hns, hd, by rw [hc], Or.inl ⟨hc, rfl⟩⟩
      · exact ⟨p, old, new, a, w', rfl, hold, hns, hd, by rw [hc], Or.inr ⟨hc, rfl, _, n, rfl⟩⟩

/-- A heap has less in use by what a block has lost that has been moved. -/
theorem usage_of_reallocate (hcopy : r.flags.has .keepOldNocopy = false)
    (h : reallocate b r ⟨s, w⟩ = .ok y u) (hlt : y.size < r.size) :
    u.allocator.usage.bytes + (r.size - y.size) = s.usage.bytes := by
  obtain ⟨p, old, new, a, w', hp, hold, -, -, rfl, hc⟩ := granted_of_reallocate hs ha hx hr h
  have hnocopy : p.nocopy = false := (Resize.planned hp).nocopy.trans hcopy
  obtain ⟨-, hu, -⟩ := hc.resolve_left fun hc => Bool.noConfusion (hnocopy.symm.trans hc.1)
  -- the live blocks in an order in which the old one comes first
  obtain ⟨as, bs, rfl⟩ := List.append_of_mem hx
  have hused := (sound_split hs).used
  have hexact : s.usage = ⟨_, Block.total (x.toBlock :: (as ++ bs).map Holding.toBlock)⟩ :=
    hused.trans (Estate.usage_exact (ha.reorder (perm_split as bs x rest)))
  have hlt' := (ha.reorder (perm_split as bs x rest)).total_lt
  have hmoved : u.allocator.usage =
      Usage.of (Block.of a new :: (as ++ bs).map Holding.toBlock) := by
    have hosize : old.size = x.toBlock.size := congrArg Block.size hold
    have hnsize : new.size = (Block.of a new).size := rfl
    rw [hu]
    show (s.usage.add new.size).remove old.size = _
    rw [hused, hosize, hnsize, Usage.add_of, Usage.of_perm (List.Perm.swap _ _ _),
      Usage.remove_of]
  have hrsize : r.size = x.size := hr.2.1
  have hnew : new.size < r.size := hlt
  rw [Block.total_cons, Block.total_append] at hlt'
  show u.allocator.usage.bytes + (r.size - new.size) = s.usage.bytes
  rw [hmoved, hexact]
  show (new.size + Block.total ((as ++ bs).map Holding.toBlock)) % Word.size +
    (r.size - new.size) = x.size + Block.total ((as ++ bs).map Holding.toBlock)
  rw [Nat.mod_eq_of_lt (by omega)]
  omega

/-- Of a block that a heap with zeros has resized all is zero but what survives:
what becomes of the old block when it is given back is apart from it. -/
theorem byteAt_of_reallocate (hz : s.zeroed = true) {p : Plan} (hp : r.plan b = .ok p)
    (h : reallocate b r ⟨s, w⟩ = .ok y u) (hg : Honoured u.world.events) {i : Nat}
    (hi : i < y.size) (hout : p.nocopy = true ∨ i < p.target ∨ p.target + p.kept ≤ i) :
    u.world.memory.byteAt (y.address + i) = 0 := by
  obtain ⟨p', old, new, a, w', hp', hold, -, hd, rfl, hc⟩ := granted_of_reallocate hs ha hx hr h
  obtain rfl : p = p' := Except.ok.inj (hp.symm.trans hp')
  have hzero : w'.memory.byteAt (a + i) = 0 := World.byteAt_draw (hz ▸ hd) hi
  rcases hc with ⟨-, hm⟩ | ⟨hcopy, -, n, n', hu⟩
  · rw [hm]
    exact hzero
  · rcases w.draw_cases s.zeroed new with ⟨w₁, hd', -⟩ | ⟨a', w₁, hd', -, he⟩
    · cases hd.symm.trans hd'
    · cases hd.symm.trans hd'
      have hgrant : Honoured (.taken new (some a) :: w.events) := by
        rw [hu] at hg
        rw [← he]
        exact hg
      have hapart : (Block.of a new).Apart (Block.of x.address old) := by
        rw [hold]
        exact ha.apart hgrant _ (List.mem_append_left _ (List.mem_map_of_mem hx))
      have hgiven := World.changedIn_give ((w'.record (.noted (some s.label) n)).write
        fun m => m.copy (x.address + p.source) (a + p.target) p.kept) x.address old
          (Block.of a new) hapart
      have hbyte := hgiven (a + i) ⟨Nat.le_add_right a i, Nat.add_lt_add_left hi a⟩
      rw [hu]
      refine hbyte.trans ?_
      show (w'.memory.copy (x.address + p.source) (a + p.target) p.kept).byteAt (a + i) = 0
      rw [Memory.byteAt_copy, if_neg]
      · exact hzero
      · rintro ⟨hlo, hhi⟩
        rcases hout with hn | hn | hn
        · exact Bool.noConfusion (hcopy.symm.trans hn)
        · omega
        · omega

/-- A heap declines a plan for a live block only where the resource does. -/
theorem ending_of_reallocate (hf : x.toBlock.Formed) {p : Plan} (hp : r.plan b = .ok p)
    {out : Except Failure Reallocation} (h : reallocate b r ⟨s, w⟩ = ending out u)
    (hg : Honoured u.world.events) :
    (∃ y, out = .ok y ∧ y.size = p.newSize) ∨ out = .error (.refused .outOfMemory) ∧
      ∃ l, l.size = p.newSize ∧ calls u.world.events = .taken l none :: calls w.events := by
  obtain ⟨old, new, ho, hn, hns, -⟩ := hr.exists_layouts hf hp
  rcases reallocate_cases hs ha hx hr hp ho hn with ⟨w', hd, hc⟩ | ⟨a, w', n, -, -, hc⟩ |
    ⟨a, w', n, -, -, hc⟩ | ⟨e, t, hc, hb⟩ <;> rw [hc] at h
  · obtain ⟨rfl, rfl⟩ := error_eq_ending_iff.1 h
    refine Or.inr ⟨rfl, new, hns, ?_⟩
    rcases w.draw_cases s.zeroed new with ⟨w₁, hd', -, he⟩ | ⟨a', w₁, hd', -⟩
    · cases hd.symm.trans hd'
      show calls w'.events = _
      rw [he]
      rfl
    · cases hd.symm.trans hd'
  · obtain ⟨rfl, -⟩ := ok_eq_ending_iff.1 h
    exact Or.inl ⟨_, rfl, hns⟩
  · obtain ⟨rfl, -⟩ := ok_eq_ending_iff.1 h
    exact Or.inl ⟨_, rfl, hns⟩
  · obtain ⟨-, rfl⟩ := error_eq_ending_iff.1 h
    exact absurd hg hb

omit hr in
/-- A heap frees any block that is live. -/
theorem deallocate_of_mem : ∃ l t, Block.of x.address l = x.toBlock ∧
    deallocate b x.address l ⟨s, w⟩ = .ok () t ∧
      calls t.world.events = .given x.address l :: calls w.events := by
  have hmem : x.toBlock ∈ live.map Holding.toBlock := List.mem_map_of_mem hx
  have hheld := List.mem_append_left rest hmem
  obtain ⟨l, hl⟩ := Trace.exists_layout (ha.perm.mem_iff.2 hheld)
  have hal : x.address % l.align = 0 := by
    have halign : l.align = x.align := congrArg Block.align hl
    rw [halign]
    exact (ha.placed _ hheld).aligned
  have hlisted : b = .debug → s.ledger.find? x.address = some l := fun hb =>
    (hs.listed hb x.address l).2 (hl ▸ hmem)
  exact ⟨l, _, hl, deallocate_apply hal hlisted w, rfl⟩

end Granted

end Heap

end Allocators
