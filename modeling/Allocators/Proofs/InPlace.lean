import Allocators.Proofs.Destruction
import Allocators.Proofs.Lifo
import Allocators.Proofs.Reshape
/-!
# A stack resizes its latest block where it is

After a resize the latest block of a stack starts where it did. Its end is as
far up as the request prefers and the entries of the callbacks leave room
for, and the cursor stands there. The bytes that survive are moved within the
block by one copy, whose two stretches may overlap in either direction.
`Custody.InPlace` says what a planned request about the block comes to, and
`Chronicle.stack_resizes_in_place` that it does at every moment of every run of
calls on a stack.
-/

namespace Allocators

/-! ## What becomes of the bytes -/

namespace Plan

variable {p : Plan} {a a' : Nat} {m m' : Memory}

/-- The plan has been carried out on the bytes of the block at `a`, for one
that is then at `a'`. -/
structure Carried (p : Plan) (a a' : Nat) (m m' : Memory) : Prop where
  /-- The bytes that survive are where the plan puts them. -/
  survivors : m'.read (a' + p.target) p.kept = m.read (a + p.source) p.kept
  /-- And the first byte is where it is said to be, if it is said to be anywhere. -/
  first : ∀ x ∈ p.oldStart a', m'.byteAt x = m.byteAt a

/-- To say where the bytes that survive are is enough: the first byte is one of
them unless it was dropped. -/
theorem Carried.of_bytes (hk : 0 < p.kept) (h : ∀ k, k < p.kept →
    m'.byteAt (a' + p.target + k) = m.byteAt (a + p.source + k)) : p.Carried a a' m m' where
  survivors := List.map_congr_left fun k hk => h k (List.mem_range.1 hk)
  first := by
    intro x hx
    unfold oldStart at hx
    split at hx
    · next hs =>
      cases hx
      have h0 := h 0 hk
      rw [hs] at h0
      exact h0
    · cases hx

/-- The bytes of the block at `a` have been moved within it, by a plan that has
them copied, and no others have changed; or none have, by one that has not. -/
structure Shifted (p : Plan) (a : Nat) (m m' : Memory) : Prop where
  carried : p.nocopy = false → p.Carried a a m m'
  elsewhere : p.nocopy = false → ∀ x, ¬ Memory.Within (a + p.target) p.kept x →
    m'.byteAt x = m.byteAt x
  untouched : p.nocopy = true → m' = m

end Plan

namespace Stack

variable {p : Plan}

/-- What a stack does to the bytes of a block is what the plan says, also where
it has nothing to do. -/
theorem shifted_moved (hk : 0 < p.kept) (a : Nat) (m : Memory) :
    p.Shifted a m (moved p a m) where
  carried hc := .of_bytes hk fun _ hk => byteAt_moved hc a m hk
  elsewhere := by
    intro _ x hx
    unfold moved
    split
    · rw [Memory.byteAt_copy, if_neg hx]
    · rfl
  untouched hc := if_neg fun h => Bool.noConfusion (hc.symm.trans h.1)

/-- What is granted is what the request prefers, or all the room that there is. -/
theorem granted_eq_min {room : Nat} (h : p.newSize ≤ room) :
    granted p room = min (p.newSize + p.spareBack) room := by
  unfold granted
  omega

end Stack

/-! ## The latest block -/

section Latest

variable {ρ : Type} [Resource ρ] {b : Build} {w : World ρ}
variable {s : Buffer} {x : Holding} {older : List Holding} {pending : List Registration}
variable {r : Resize} {p : Plan}

/-- What a planned request comes to that is about the latest block of a stack:
`x` is the block, `o` its offset, `p` the plan. -/
structure Custody.InPlace (b : Build) (nest : List Restriction) (w : World ρ) (c : Custody)
    (s : Buffer) (x : Holding) (older : List Holding) (r : Resize) (p : Plan) (o : Nat) : Prop where
  /-- The block is at that offset, and ends below the entries of the callbacks. -/
  placed : x.address = s.region.addressOf o ∧ o + x.size ≤ s.region.tail
  /-- It is not copied just if the request asks for that. -/
  nocopy : p.nocopy = r.flags.has .keepOldNocopy
  /-- There is no room just for what would end among the entries. -/
  declined : (∃ t, deal b nest (.call (.reallocate r)) ⟨c, w⟩ =
    .error (.refused .outOfMemory) t) ↔ s.region.tail - o < p.newSize
  /-- What is declined has changed nothing. -/
  retracts : s.region.tail - o < p.newSize → deal b nest (.call (.reallocate r)) ⟨c, w⟩ =
    .error (.refused .outOfMemory) ⟨c, w⟩
  /-- Anything else is granted, with as much as is preferred and there is room
  for. Nothing changes of the stack but its cursor, which is at the new end. -/
  granted : p.newSize ≤ s.region.tail - o → ∀ size,
    size = min (p.newSize + p.spareBack) (s.region.tail - o) →
      ∃ w', deal b nest (.call (.reallocate r)) ⟨c, w⟩ =
          .ok (.resized ⟨x.address, size, p.oldStart x.address, false⟩)
            ⟨⟨.stack (s.withCursor (o + size)), { x with size := size } :: older, c.pending⟩, w'⟩ ∧
        p.Shifted x.address w.memory w'.memory

/-- Where there is room, the latest block gets another size. -/
theorem Custody.act_top_of_room (hs : s.Sound Stack.header w.memory (x :: older) pending)
    (hr : r.Describes x.toBlock) (hp : r.plan b = .ok p)
    (hn : p.newSize ≤ Stack.headroom s x.address) {size : Nat}
    (hsize : Stack.granted p (Stack.headroom s x.address) = size) :
    act b (.call (.reallocate r)) ⟨⟨.stack s, x :: older, pending⟩, w⟩ =
      .ok (.resized ⟨x.address, size, p.oldStart x.address, false⟩)
        ⟨⟨.stack (s.withCursor (x.address - s.region.base + size)),
          { x with size := size } :: older, pending⟩,
        (w.write (Stack.moved p x.address)).record
          (.noted (some s.label) (.resized x.size x.address size))⟩ := by
  have h := Stack.reallocate_top_of_room hs hr hp hn
  rw [hsize] at h
  rw [act_of_ok rfl h, Stack.answered_resized_top hs hr]
  rfl

/-- A stack that is in order resizes its latest block where it is. -/
theorem Custody.inPlace_of_sound (hs : s.Sound Stack.header w.memory (x :: older) pending)
    (hr : r.Describes x.toBlock) (hp : r.plan b = .ok p) (nest : List Restriction) :
    InPlace b nest w ⟨.stack s, x :: older, pending⟩ s x older r p (x.address - s.region.base) := by
  have hb := hs.piled.bounds (x := x) List.mem_cons_self
  have hc := hs.cursor_le
  have hdeal : deal (ρ := ρ) b nest (.call (.reallocate r)) = act b (.call (.reallocate r)) :=
    deal_of_not_silences id b
  -- what the block may become is what lies between its start and the entries
  have hroom : Stack.headroom s x.address = s.region.tail - (x.address - s.region.base) := rfl
  have hdeclined : s.region.tail - (x.address - s.region.base) < p.newSize →
      act b (.call (.reallocate r)) ⟨⟨.stack s, x :: older, pending⟩, w⟩ =
        .error (.refused .outOfMemory) ⟨⟨.stack s, x :: older, pending⟩, w⟩ := fun hn =>
    act_of_error rfl (Stack.reallocate_top_of_no_room hs hr hp (Nat.not_le.2 hn))
  rw [← hdeal] at hdeclined
  refine ⟨⟨?_, by omega⟩, (Resize.planned hp).nocopy, ⟨?_, fun hn => ⟨_, hdeclined hn⟩⟩,
    hdeclined, ?_⟩
  · show x.address = s.region.base + (x.address - s.region.base)
    omega
  · rintro ⟨t, ht⟩
    by_contra hn
    rw [hdeal, act_top_of_room hs hr hp (Nat.le_of_not_lt hn) rfl] at ht
    cases ht
  · intro hn size hsize
    rw [← hroom] at hn hsize
    have hact := act_top_of_room hs hr hp hn ((Stack.granted_eq_min hn).trans hsize.symm)
    exact ⟨_, (congrFun hdeal _).trans hact, Stack.shifted_moved (Resize.plan_sizes hp).2.1 _ _⟩

end Latest

/-! ## At every moment -/

variable {ρ : Type} [Resource ρ] {b : Build} {kind : AllocatorKind} {B : Book ρ}

/-- **A stack resizes its latest block where it is**, at every moment of every
run of calls on it and through any nest of restrictions. -/
theorem Chronicle.stack_resizes_in_place (h : Chronicle b Custody.Allows kind B) {s : Buffer}
    (hs : B.custody.allocator = .stack s) {x : Holding} {older : List Holding}
    (hl : B.custody.live = x :: older) {r : Resize} (hr : r.Describes x.toBlock) {p : Plan}
    (hp : r.plan b = .ok p) (nest : List Restriction) :
    ∃ o, B.custody.InPlace b nest B.world s x older r p o := by
  obtain ⟨others, hin⟩ := h.inOrder Custody.steady_allows
  have hsound := hin.sound
  obtain ⟨pages, ⟨k, live, pending⟩, w⟩ := B
  cases hs
  cases hl
  exact ⟨_, Custody.inPlace_of_sound hsound hr hp nest⟩

/-- A block is written to, and the entry of a callback takes some of the room
above it. -/
def crowded : List (List Restriction × Deed) :=
  [([], .call (.allocate Estate.sampleLayout)),
    ([], .write 0x100000010 24 fun i _ => UInt8.ofNat i), ([], .call (.register 1 .returns))]

/-- The block is to lose four bytes in front and to get six at the back, and as
many more as there can be. -/
def shifting : Resize :=
  ((Resize.ofBlock 0x100000010 24 defaultAlign).edit (.shrinkFront 4)).edit
    (.expandBack 6 0xffffffffffffffff)

/-- The bytes that survive are moved down by four, onto some of their own, and the
block gets all of the room. -/
theorem stack_resizes_in_place_crowded : ∃ s x,
    (newStack.turns .debug crowded).custody.allocator = .stack s ∧
    (newStack.turns .debug crowded).custody.live = [x] ∧ s.region.tail - 16 = 56 ∧
    shifting.plan .debug = .ok ⟨4, 0, 6, 0xfffffffffffffff9, 20, 26, false⟩ ∧
    ∃ o, (newStack.turns .debug crowded).custody.InPlace .debug []
      (newStack.turns .debug crowded).world s x [] shifting
      ⟨4, 0, 6, 0xfffffffffffffff9, 20, 26, false⟩ o := by
  have hfair : newStack.Fair .debug Custody.Allows crowded := by decide +kernel
  have h := (chronicle_newStack .debug Custody.Allows).turns hfair
  exact ⟨_, _, rfl, rfl, rfl, rfl, h.stack_resizes_in_place rfl rfl (by decide +kernel) rfl []⟩

end Allocators
