import Allocators.Proofs.Capabilities
import Allocators.Proofs.InPlace
/-!
# A heap resizes by moving

A heap takes a new block from the resource, of the size that was planned and
at the alignment of the request. Then it copies the bytes that survive and
gives the old block back (`Custody.Moved`), or it copies nothing and leaves
the old block to its holder beside the new one (`Custody.Doubled`). Where the
heap zeroes, all of the new block is zero but what survives, whatever the
resource left in it. `Chronicle.heap_resizes_by_moving` is all of that, at every moment of
every run of calls on a heap.
-/

namespace Allocators

open Trace

/-! ## Stretches -/

namespace Memory

/-- A stretch is read in two parts. -/
theorem read_add (m : Memory) (a n k : Nat) :
    m.read a (n + k) = m.read a n ++ m.read (a + n) k := by
  unfold read
  rw [List.range_add, List.map_append, List.map_map]
  exact congrArg _ (List.map_congr_left fun i _ => congrArg m.byteAt (Nat.add_assoc a n i).symm)

/-- A stretch of zeros is read as zeros. -/
theorem read_eq_zeros {m : Memory} {a n : Nat} (h : ∀ i, i < n → m.byteAt (a + i) = 0) :
    m.read a n = List.replicate n 0 := by
  unfold read
  rw [List.map_congr_left fun i hi => h i (List.mem_range.1 hi), List.map_const', List.length_range]

end Memory

/-- A new block in which a plan has been carried out, and which was zero before,
is what survives between zeros. -/
theorem Plan.Carried.read_eq {p : Plan} {a a' : Nat} {m m' : Memory} (h : p.Carried a a' m m')
    (hz : ∀ i, i < p.target + p.kept + p.addedBack → (i < p.target ∨ p.target + p.kept ≤ i) →
      m'.byteAt (a' + i) = 0) :
    m'.read a' (p.target + p.kept + p.addedBack) = List.replicate p.target 0 ++
      m.read (a + p.source) p.kept ++ List.replicate p.addedBack 0 := by
  have hfront : m'.read a' p.target = List.replicate p.target 0 :=
    Memory.read_eq_zeros fun i hi => hz i (by omega) (Or.inl hi)
  have hback : m'.read (a' + (p.target + p.kept)) p.addedBack = List.replicate p.addedBack 0 := by
    refine Memory.read_eq_zeros fun i hi => ?_
    rw [Nat.add_assoc]
    exact hz _ (by omega) (Or.inr (Nat.le_add_right _ i))
  rw [Memory.read_add, Memory.read_add, hfront, hback, h.survivors]

/-- A copy of the bytes that survive carries a plan out, if the block had its bytes
until then. -/
theorem Plan.carried_copy {p : Plan} {m m' : Memory} {x : Block} (hk : 0 < p.kept)
    (hin : p.source + p.kept ≤ x.size) (hkeeps : m.Keeps m' x) (a : Nat) :
    p.Carried x.address a m (m'.copy (x.address + p.source) (a + p.target) p.kept) := by
  refine .of_bytes hk fun k hk => ?_
  rw [Memory.byteAt_copy, if_pos ⟨Nat.le_add_right _ _, Nat.add_lt_add_left hk _⟩,
    Nat.add_sub_cancel_left]
  exact hkeeps _ ⟨by omega, by omega⟩

/-! ## What the resource grants -/

section Granted

variable {ρ : Type} [Resource ρ] {w v : World ρ} {l old new : Layout} {a : Nat}

/-- Asked for a block of this layout, the resource hands out one at `a`, and may. -/
structure World.Grants (w : World ρ) (l : Layout) (a : Nat) : Prop where
  answer : (w.take l).1 = some a
  grantable : Grantable (Block.of a l) (outstanding w.events)

/-- A heap is granted that block, with zeros written over it or not. -/
theorem World.Grants.drawn (h : w.Grants l a) (zeroed : Bool) : ∃ v,
    w.draw zeroed l = (some a, v) ∧ w.memory.ChangedIn v.memory a (a + l.size) ∧
      v.events = .taken l (some a) :: w.events := by
  have hf := w.fst_draw zeroed l
  rw [h.answer] at hf
  rcases w.draw_cases zeroed l with ⟨v, hd, -⟩ | ⟨a', v, hd, hm, he⟩ <;> rw [hd] at hf <;> cases hf
  exact ⟨v, hd, hm, he⟩

omit [Resource ρ] in
/-- A block that may be granted is none that a heap has in its ledger. -/
theorem Heap.find?_of_honoured {b : Build} {s : Heap} {live rest : List Block} {m : Memory}
    {pending : List Registration} (hs : s.Sound b m live pending)
    (ha : Accounts w.events (live ++ rest)) (hg : Honoured (.taken l (some a) :: w.events)) :
    b = .debug → s.ledger.find? a = none := by
  rintro rfl
  cases hf : s.ledger.find? a with
  | none => rfl
  | some l' =>
    have hmem := (hs.listed rfl a l').1 hf
    exact absurd hmem (not_mem_of_apart (fun y hy => ha.apart hg y (List.mem_append_left _ hy)) l')

/-- What is not copied into a new block stays there when the bytes that survive
are copied and the old block is given back, which is apart from it. -/
theorem World.byteAt_beside_copy {x : Block} (hold : Block.of x.address old = x)
    (hapart : (Block.of a new).Apart x) (v : World ρ) (source target len : Nat) {i : Nat}
    (hi : i < new.size) (hout : i < target ∨ target + len ≤ i) :
    ((v.write fun m => m.copy (x.address + source) (a + target) len).give
      x.address old).memory.byteAt (a + i) = v.memory.byteAt (a + i) := by
  have hgiven := (v.write fun m => m.copy (x.address + source) (a + target) len).changedIn_give
    x.address old (Block.of a new) (hold.symm ▸ hapart)
  refine (hgiven (a + i) ⟨Nat.le_add_right a i, Nat.add_lt_add_left hi a⟩).trans ?_
  show (v.memory.copy (x.address + source) (a + target) len).byteAt (a + i) = _
  rw [Memory.byteAt_copy, if_neg]
  rintro ⟨hlo, hhi⟩
  omega

end Granted

/-! ## What a resize comes to -/

/-- One block less among those that are held. -/
theorem Holding.erase_split {as bs : List Holding} {x : Holding}
    (hne : ∀ y ∈ as ++ bs, y.address ≠ x.address) :
    ((as ++ x :: bs).map toBlock).erase x.toBlock = (as ++ bs).map toBlock := by
  have hnot : x.toBlock ∉ as.map toBlock := by
    intro hm
    obtain ⟨y, hy, he⟩ := List.mem_map.1 hm
    exact hne y (List.mem_append_left _ hy) (congrArg Block.address he)
  rw [List.map_append, List.map_cons, List.erase_append_right _ hnot, List.erase_cons_head,
    List.map_append]

namespace Custody

variable {ρ : Type} [Resource ρ]

/-- The block can be freed on its own: it is given back, and no other goes. -/
def Freeable (b : Build) (w : World ρ) (c : Custody) (x : Block) : Prop :=
  ∃ l c' w', Block.of x.address l = x ∧
    act b (.call (.deallocate x.address l)) ⟨c, w⟩ = .ok .done ⟨c', w'⟩ ∧
    c'.blocks = c.blocks.erase x ∧ calls w'.events = .given x.address l :: calls w.events

/-- The block `x` has been moved to `a`, by the plan `p`. -/
structure Moved (w : World ρ) (c : Custody) (s : Heap) (x : Block) (p : Plan) (old new : Layout)
    (a : Nat) (c' : Custody) (w' : World ρ) : Prop where
  /-- The bytes that survive are where the plan puts them. -/
  carried : p.Carried x.address a w.memory w'.memory
  /-- They were there already in the world in which the old block was given back. -/
  returned : ∃ (v : World ρ) (label : Option String) (n : Notice),
    p.Carried x.address a w.memory v.memory ∧ w' = (v.give x.address old).record (.noted label n)
  /-- It was given back once. -/
  once : calls w'.events = .given x.address old :: .taken new (some a) :: calls w.events
  /-- The new block has taken its place. -/
  replaced : c'.blocks.Perm (Block.of a new :: c.blocks.erase x)
  /-- A heap that zeroes has left no other bytes in the new block. -/
  zeros : s.zeroed = true → w'.memory.read a p.newSize = List.replicate p.target 0 ++
    w.memory.read (x.address + p.source) p.kept ++ List.replicate p.addedBack 0

/-- The block `x` has been left to its holder, beside a new one at `a`. -/
structure Doubled (w : World ρ) (c : Custody) (s : Heap) (x : Block) (p : Plan) (new : Layout)
    (a : Nat) (c' : Custody) (w' : World ρ) : Prop where
  /-- It has all of its bytes. -/
  intact : w.memory.Keeps w'.memory x
  /-- None have been copied: memory is as the heap has drawn the new block. -/
  uncopied : w'.memory = (w.draw s.zeroed new).2.memory
  /-- Nothing has been given back. -/
  once : calls w'.events = .taken new (some a) :: calls w.events
  /-- Both blocks are live. -/
  beside : c'.blocks = Block.of a new :: c.blocks
  /-- A heap that zeroes has left only zeros in the new block. -/
  zeros : s.zeroed = true → w'.memory.read a p.newSize = List.replicate p.newSize 0

/-- What a request that is granted has come to: `x` is the block that it was about,
`p` its plan, and the new block is at `a`. -/
structure Relocated (b : Build) (w : World ρ) (c : Custody) (s : Heap) (x : Block) (r : Resize)
    (p : Plan) (old new : Layout) (a : Nat) (c' : Custody) (w' : World ρ) : Prop where
  /-- The new block is at the alignment of the request. -/
  aligned : a % r.align = 0
  /-- Unless the request asks for the old block to be kept, it has been moved. -/
  moved : r.flags.has .keepOldNocopy = false → Moved w c s x p old new a c' w'
  /-- If it does, there are two blocks. -/
  doubled : r.flags.has .keepOldNocopy = true → Doubled w c s x p new a c' w'
  /-- Every block that is live then can be freed on its own. -/
  freeable : ∀ y ∈ c'.blocks, c'.Freeable b w' y

/-- **How a heap resizes**, and what is in its new blocks. -/
structure Relocates (b : Build) (nest : List Restriction) (w : World ρ) (c : Custody) (s : Heap) :
    Prop where
  /-- A planned request about a live block is granted where the resource grants a
  block of the planned size, at the alignment of the request. -/
  resizes : ∀ x ∈ c.blocks, ∀ r p, r.Describes x → r.plan b = .ok p → ∃ old new,
    Block.of x.address old = x ∧ new.size = p.newSize ∧ new.align = r.align ∧
      ∀ a, w.Grants new a → ∃ c' w', deal b nest (.call (.reallocate r)) ⟨c, w⟩ =
          .ok (.resized ⟨a, p.newSize, p.oldStart a, r.flags.has .keepOldNocopy⟩) ⟨c', w'⟩ ∧
        Relocated b w c s x r p old new a c' w'
  /-- An allocation is granted where the resource grants it. -/
  allocates : ∀ l a, w.Grants l a → ∃ t,
    deal b nest (.call (.allocate l)) ⟨c, w⟩ = .ok (.block ⟨a, l.size⟩) t
  /-- All of a new block is zero if the heap zeroes. -/
  zeros : s.zeroed = true → ∀ call y t, deal b nest (.call call) ⟨c, w⟩ = .ok (.block y) t →
    t.world.memory.read y.address y.size = List.replicate y.size 0

variable {b : Build} {kind : AllocatorKind} {c : Custody} {w : World ρ} {s : Heap}
variable {others : List Block}

/-- A heap frees each of its blocks on its own. -/
theorem InOrder.freeable (hin : c.InOrder b kind others w) (hk : kind.isHeap = true) :
    ∀ x ∈ c.blocks, c.Freeable b w x := by
  intro x hx
  obtain ⟨k, live, pending⟩ := c
  obtain ⟨s, rfl⟩ := Allocator.exists_heap (hin.kind.trans hk)
  obtain ⟨h, hh, rfl⟩ := List.mem_map.1 hx
  have ha := accounts_heap hin.accounts
  obtain ⟨l, ⟨s', w'⟩, hl, hu, hcalls⟩ := Heap.deallocate_of_mem hin.sound ha hh
  have hact : act b (.call (.deallocate h.address l)) ⟨⟨.heap s, live, pending⟩, w⟩ =
      .ok .done ⟨⟨.heap s', live.eraseP (·.address = h.address), pending⟩, w'⟩ := by
    rw [act_of_ok rfl hu]
    rfl
  obtain ⟨as, bs, rfl⟩ := List.append_of_mem hh
  have hne := Heap.address_ne ha
  refine ⟨l, _, w', hl, hact, ?_, hcalls⟩
  show ((as ++ h :: bs).eraseP (·.address = h.address)).map Holding.toBlock = _
  rw [Holding.eraseP_split hne]
  exact (Holding.erase_split hne).symm

section Resized

variable {as bs : List Holding} {x : Holding} {pending : List Registration} {rest : List Block}
variable {r : Resize} {p : Plan} {old new : Layout} {a : Nat}

variable (hs : s.Sound b w.memory ((as ++ x :: bs).map Holding.toBlock) pending)
  (ha : Accounts w.events
    ((as ++ x :: bs).map Holding.toBlock ++ (pending.map Registration.block ++ rest)))
  (hr : r.Describes x.toBlock) (hp : r.plan b = .ok p)
  (ho : Layout.ofSizeAlign? r.size r.align = some old)
  (hn : Layout.ofSizeAlign? p.newSize r.align = some new) (hg : w.Grants new a)

include hs ha hr hp ho hn hg

/-- A request that has the bytes copied moves the block. -/
theorem moved_of_grants (hc : p.nocopy = false) : ∃ c' w',
    act b (.call (.reallocate r)) ⟨⟨.heap s, as ++ x :: bs, pending⟩, w⟩ =
        .ok (.resized ⟨a, p.newSize, p.oldStart a, false⟩) ⟨c', w'⟩ ∧
      Moved w ⟨.heap s, as ++ x :: bs, pending⟩ s x.toBlock p old new a c' w' := by
  obtain ⟨hsize, hkept, hin, -⟩ := Resize.plan_sizes hp
  obtain ⟨hns, hna, -⟩ := Layout.ofSizeAlign?_eq_some_iff.1 hn
  obtain ⟨v, hd, hm, he⟩ := hg.drawn s.zeroed
  have hx : x ∈ as ++ x :: bs := by simp
  have hhonoured : Honoured (.taken new (some a) :: w.events) := ⟨hg.grantable, ha.honoured⟩
  have hfresh := Heap.find?_of_honoured hs ha hhonoured
  have hheld : x.toBlock ∈ (as ++ x :: bs).map Holding.toBlock ++
      (pending.map Registration.block ++ rest) := List.mem_append_left _ (List.mem_map_of_mem hx)
  have hold := (Heap.found_live hs ha hx hr ho).1
  have hapart := ha.apart hhonoured _ hheld
  have hkeeps := ha.keeps_of_taken hhonoured hm _ hheld
  have hact := Heap.act_moved hs ha hr hp hc ho hn (Heap.allocate_of_some hd hfresh) hfresh
  rw [hns] at hact
  have hwithin : p.source + p.kept ≤ x.size := hr.2.1 ▸ hin
  have hroom : p.target + p.kept ≤ new.size := by omega
  have hcarried : p.Carried x.address a w.memory ((v.write fun m =>
      m.copy (x.address + p.source) (a + p.target) p.kept).give x.address old).memory :=
    .of_bytes hkept fun k hk => World.byteAt_copied ha hheld hold hhonoured hm hwithin hroom hk
  -- the old block has its bytes until they are copied, and is given back after that
  refine ⟨_, _, hact, hcarried,
    ⟨_, _, _, Plan.carried_copy hkept hwithin hkeeps a, rfl⟩, ?_, ?_, ?_⟩
  · show Event.given x.address old :: calls v.events = _
    rw [he]
    rfl
  · have hblock : (⟨a, p.newSize, x.align⟩ : Block) = Block.of a new := by
      rw [Block.of, hns, hna, hr.2.2]
    show ((as ++ { x with address := a, size := p.newSize } :: bs).map Holding.toBlock).Perm
      (Block.of a new :: ((as ++ x :: bs).map Holding.toBlock).erase x.toBlock)
    rw [Holding.erase_split (Heap.address_ne ha), ← hblock, List.map_append, List.map_append,
      List.map_cons]
    exact List.perm_middle
  · intro hz
    rw [hsize]
    refine hcarried.read_eq fun i hi hout => ?_
    have hi' : i < new.size := by omega
    exact (World.byteAt_beside_copy hold hapart v p.source p.target p.kept hi' hout).trans
      (World.byteAt_draw (hz ▸ hd) hi')

/-- A request that asks for it has the old block kept. -/
theorem doubled_of_grants (hc : p.nocopy = true) : ∃ c' w',
    act b (.call (.reallocate r)) ⟨⟨.heap s, as ++ x :: bs, pending⟩, w⟩ =
        .ok (.resized ⟨a, p.newSize, p.oldStart a, true⟩) ⟨c', w'⟩ ∧
      Doubled w ⟨.heap s, as ++ x :: bs, pending⟩ s x.toBlock p new a c' w' := by
  obtain ⟨hns, hna, -⟩ := Layout.ofSizeAlign?_eq_some_iff.1 hn
  obtain ⟨v, hd, hm, he⟩ := hg.drawn s.zeroed
  have hx : x ∈ as ++ x :: bs := by simp
  have hhonoured : Honoured (.taken new (some a) :: w.events) := ⟨hg.grantable, ha.honoured⟩
  have halloc := Heap.allocate_of_some hd (Heap.find?_of_honoured hs ha hhonoured)
  obtain ⟨-, hal, hf⟩ := Heap.found_live hs ha hx hr ho
  have hre := Heap.reallocate_of_nocopy hp ho hal hf hn halloc hc
  rw [hns] at hre
  have hact : act b (.call (.reallocate r)) ⟨⟨.heap s, as ++ x :: bs, pending⟩, w⟩ = _ :=
    act_of_ok rfl hre
  refine ⟨_, _, hact, ?_, ?_, ?_, ?_, fun hz => Memory.read_eq_zeros fun i hi => ?_⟩
  · exact ha.keeps_of_taken hhonoured hm _ (List.mem_append_left _ (List.mem_map_of_mem hx))
  · rw [hd]
    rfl
  · show calls v.events = _
    rw [he]
    rfl
  · show (⟨a, p.newSize, r.align⟩ : Block) :: _ = _
    rw [Block.of, hns, hna]
    rfl
  · show v.memory.byteAt (a + i) = 0
    exact World.byteAt_draw (hz ▸ hd) (hns ▸ hi)

end Resized

/-- A heap that is in order resizes a block of a size that blocks can have. -/
theorem InOrder.resizes (hin : c.InOrder b kind others w) (hk : c.allocator = .heap s) {x : Block}
    (hx : x ∈ c.blocks) (hf : x.Formed) {r : Resize} (hr : r.Describes x) {p : Plan}
    (hp : r.plan b = .ok p) : ∃ old new, Block.of x.address old = x ∧ new.size = p.newSize ∧
      new.align = r.align ∧ ∀ a, w.Grants new a → ∃ c' w', act b (.call (.reallocate r)) ⟨c, w⟩ =
          .ok (.resized ⟨a, p.newSize, p.oldStart a, r.flags.has .keepOldNocopy⟩) ⟨c', w'⟩ ∧
        Relocated b w c s x r p old new a c' w' := by
  obtain ⟨old, new, ho, hn, hns, hna⟩ := hr.exists_layouts hf hp
  obtain ⟨k, live, pending⟩ := c
  cases hk
  obtain ⟨h, hh, rfl⟩ := List.mem_map.1 hx
  obtain ⟨as, bs, rfl⟩ := List.append_of_mem hh
  have ha := accounts_heap hin.accounts
  refine ⟨old, new, (Heap.found_live hin.sound ha hh hr ho).1, hns, hna, fun a hg => ?_⟩
  have hhonoured : Honoured (.taken new (some a) :: w.events) := ⟨hg.grantable, ha.honoured⟩
  have haligned : a % r.align = 0 := hna ▸ hg.grantable.aligned
  have hallows : Allows ⟨.heap s, as ++ h :: bs, pending⟩ (.call (.reallocate r)) := ⟨h, hh, hr⟩
  -- the resize leaves all in order, so that every block can be freed then
  have hfree : ∀ {y c' w'}, act b (.call (.reallocate r)) ⟨⟨.heap s, as ++ h :: bs, pending⟩, w⟩ =
      .ok y ⟨c', w'⟩ → Honoured w'.events → ∀ z ∈ c'.blocks, c'.Freeable b w' z := by
    intro y c' w' hact hw
    have hend : _ = Action.ending (.ok y) _ := hact
    exact ((steady_allows _ w others _ hin hallows).elim hend hw).freeable
      (hin.kind.symm.trans (Allocator.isHeap_heap s))
  have hnocopy := (Resize.planned hp).nocopy
  cases hc : p.nocopy with
  | false =>
    obtain ⟨c', w', hact, hm⟩ := moved_of_grants hin.sound ha hr hp ho hn hg hc
    have hcalls : calls w'.events =
        calls (.given h.address old :: .taken new (some a) :: w.events) := hm.once
    have hz := hfree hact ((honoured_congr hcalls).2 hhonoured)
    rw [hnocopy] at hc
    exact ⟨c', w', hc ▸ hact, haligned, fun _ => hm,
      fun hkeep => Bool.noConfusion (hc.symm.trans hkeep), hz⟩
  | true =>
    obtain ⟨c', w', hact, hm⟩ := doubled_of_grants hin.sound ha hr hp ho hn hg hc
    have hcalls : calls w'.events = calls (.taken new (some a) :: w.events) := hm.once
    have hz := hfree hact ((honoured_congr hcalls).2 hhonoured)
    rw [hnocopy] at hc
    exact ⟨c', w', hc ▸ hact, haligned, fun hcopy => Bool.noConfusion (hcopy.symm.trans hc),
      fun _ => hm, hz⟩

/-- A heap that is in order hands out what the resource grants. -/
theorem InOrder.allocates (hin : c.InOrder b kind others w) (hk : c.allocator = .heap s)
    {l : Layout} {a : Nat} (hg : w.Grants l a) :
    ∃ t, act b (.call (.allocate l)) ⟨c, w⟩ = .ok (.block ⟨a, l.size⟩) t := by
  obtain ⟨k, live, pending⟩ := c
  cases hk
  have ha := accounts_heap hin.accounts
  obtain ⟨v, hd, -, -⟩ := hg.drawn s.zeroed
  have hfresh := Heap.find?_of_honoured hin.sound ha ⟨hg.grantable, ha.honoured⟩
  exact ⟨_, act_of_ok rfl (Heap.allocate_of_some hd hfresh)⟩

/-- A heap that zeroes hands out zeros. -/
theorem read_of_block (hk : c.allocator = .heap s) (hz : s.zeroed = true) {call : Call}
    {y : Allocation} {t : Scene Custody ρ} (h : act b (.call call) ⟨c, w⟩ = .ok (.block y) t) :
    t.world.memory.read y.address y.size = List.replicate y.size 0 := by
  cases hp : Restriction.perform b [] call ⟨c.allocator, w⟩ with
  | error e u =>
    simp only [act, hp] at h
    cases h
  | ok reply u =>
    simp only [act, hp] at h
    cases h
    rw [hk] at hp
    exact Memory.read_eq_zeros fun i hi => byteAt_of_block hz hp hi

end Custody

/-! ## At every moment -/

variable {ρ : Type} [Resource ρ] {b : Build} {kind : AllocatorKind} {B : Book ρ}

/-- **A heap resizes by moving**, at every moment of every run of calls on it and
through any nest of restrictions. -/
theorem Chronicle.heap_resizes_by_moving (h : Chronicle b Custody.Admits kind B) {s : Heap}
    (hs : B.custody.allocator = .heap s) (nest : List Restriction) :
    B.custody.Relocates b nest B.world s := by
  obtain ⟨others, hin⟩ := h.inOrder Chronicle.steady_admits
  constructor
  case resizes =>
    intro x hx r p hr hp
    obtain ⟨y, hy, rfl⟩ := List.mem_map.1 hx
    have hformed := h.formed (by rw [hs, Allocator.isHeap_heap]) y hy
    rw [Custody.deal_of_not_silences id]
    exact hin.resizes hs hx hformed hr hp
  case allocates =>
    intro l a hg
    rw [Custody.deal_of_not_silences id]
    exact hin.allocates hs hg
  case zeros =>
    intro hz call y t hd
    by_cases hsil : Restriction.Silences nest (.call call)
    · rw [Custody.deal_of_silences hsil] at hd
      cases hd
    · rw [Custody.deal_of_not_silences hsil] at hd
      exact Custody.read_of_block hs hz hd

/-- Two blocks are taken, and the first is written to. -/
def inscribed : List (List Restriction × Deed) :=
  [([], .call (.allocate Estate.sampleLayout)), ([.noFree], .call (.allocateBytes 40)),
    ([], .write 0x100000000 24 fun i _ => UInt8.ofNat (i + 1))]

/-- The first is to get eight bytes in front and to lose four at the back. -/
def padding : Resize := (Resize.ofBlock 0x100000000 24 defaultAlign).edits
  [.expandFront 8 8, .shrinkBack 4]

/-- The heap zeroes, the resource would grant the new block, and where it is, is
known. -/
theorem heap_resizes_by_moving_inscribed : ∃ s, s.zeroed = true ∧
    (newZeroed.turns .debug inscribed).custody.allocator = .heap s ∧
    padding.plan .debug = .ok ⟨0, 8, 0, 0, 20, 28, false⟩ ∧
    (newZeroed.turns .debug inscribed).world.Grants
      ((Layout.ofSizeAlign? 28 defaultAlign).get rfl) 0x100000050 ∧
    (newZeroed.turns .debug inscribed).custody.Relocates .debug [.noFree]
      (newZeroed.turns .debug inscribed).world s := by
  have hc : Allocator.create .zeroed "zeroed" 0 (.start (Pool.ofSize 4096)) =
      (.ok (.heap (.create "zeroed" true)), .start (Pool.ofSize 4096)) := rfl
  have hmade : Chronicle .debug Custody.Admits .zeroed newZeroed := .made Accounts.nil hc trivial
  have hfair : newZeroed.Fair .debug Custody.Admits inscribed := by decide +kernel
  exact ⟨_, rfl, rfl, rfl, ⟨by decide +kernel, by decide +kernel⟩,
    (hmade.turns hfair).heap_resizes_by_moving rfl [.noFree]⟩

end Allocators
