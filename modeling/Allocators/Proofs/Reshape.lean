import Allocators.Proofs.Chronicle
/-!
# What a resize comes to, on a stack and on a heap

A stack resizes its latest block where it is and shifts the bytes that
survive within it; a heap takes a new block, copies them over and gives
the old one back. What the holder finds is the same either way. A request
that has its bytes copied and leaves no size to choose (`Reshape.Exact`)
is rejected with the error of its plan and changes nothing, or it is
granted, and then the bytes that survive stand where the plan puts them:
`Custody.ends_reshape`, for every block that its allocator would resize
and has room for.
-/

namespace Allocators

open Trace

/-! ## The layouts of blocks -/

/-- The layouts that callers can name: by a size and an alignment, or by a
value. -/
def Layout.Made (l : Layout) : Prop :=
  (∃ size align, ofSizeAlign? size align = some l) ∨ ∃ size align, ofValue? size align = some l

/-- The block's size is one that a block of its alignment can be asked for by,
if any size is. -/
def Block.Formed (x : Block) : Prop := x.size ≤ maxSize x.align ∨ maxSize x.align = 0

/-- Blocks of layouts that callers can name are of such a size: an empty value
has one byte, which is too many for the largest alignment only. -/
theorem Layout.Made.formed {l : Layout} (h : l.Made) (a : Nat) : (Block.of a l).Formed := by
  show l.size ≤ maxSize l.align ∨ maxSize l.align = 0
  rcases h with ⟨size, align, h⟩ | ⟨size, align, h⟩
  · exact Or.inl (Layout.ofSizeAlign?_eq_some_iff.1 h).2.2
  · unfold ofValue? at h
    split at h
    · next hc =>
      cases h
      show max size 1 ≤ maxSize align ∨ maxSize align = 0
      omega
    · cases h

/-- A block can be asked for by any other size within the limit of its
alignment. -/
theorem Layout.exists_ofSizeAlign? {size align : Nat} (ha : align.isPowerOfTwo) (hs : 0 < size)
    (h : size ≤ maxSize align) :
    ∃ l, ofSizeAlign? size align = some l ∧ l.size = size ∧ l.align = align :=
  ⟨_, dif_pos ⟨ha, hs, h⟩, rfl, rfl⟩

/-! ## Plans, field by field -/

namespace Resize

variable {b : Build} {r : Resize} {p : Plan}

/-- What a side loses or gains where the flag asks for it. -/
def amount (r : Resize) (f : ResizeFlag) (a : Amounts) : Nat :=
  if r.flags.has f then a.required else 0

/-- A side that is accepted loses what it is to shrink by and gains what it is
to grow by, and is not told to do both. -/
theorem side_eq_ok {flags : ResizeFlags} {shrink expand : ResizeFlag} {a : Amounts}
    {c : SideChange} (h : side b flags shrink expand a = .ok c) :
    c.dropped = (if flags.has shrink then a.required else 0) ∧
      c.added = (if flags.has expand then a.required else 0) ∧
      c.spare = (if flags.has expand then a.preferred - a.required else 0) ∧
      (flags.has expand = true → flags.has shrink = false) := by
  unfold side at h
  cases hs : flags.has shrink with
  | true =>
    cases he : flags.has expand with
    | true =>
      simp only [hs, he] at h
      cases h
    | false =>
      simp only [hs, he] at h
      cases hr : b.require (a.preferred = 0) (.preferredOnShrink a.preferred) <;> rw [hr] at h <;>
        cases h
      exact ⟨rfl, rfl, rfl, fun hn => hn.symm⟩
  | false =>
    cases he : flags.has expand with
    | true =>
      simp only [hs, he] at h
      split at h
      · cases h
      · cases h
        exact ⟨rfl, rfl, rfl, fun _ => rfl⟩
    | false =>
      simp only [hs, he] at h
      cases h
      exact ⟨rfl, rfl, rfl, fun _ => rfl⟩

/-- The fields of a plan, told by the request. -/
structure Planned (r : Resize) (p : Plan) : Prop where
  align : r.align.isPowerOfTwo
  source : p.source = if r.flags.has .shrinkFront then r.front.required else 0
  target : p.target = if r.flags.has .expandFront then r.front.required else 0
  kept : p.kept =
    r.size - (p.source + if r.flags.has .shrinkBack then r.back.required else 0)
  spareBack : p.spareBack =
    if r.flags.has .expandBack then r.back.preferred - r.back.required else 0
  back : r.flags.has .expandBack = true → r.flags.has .shrinkBack = false
  nocopy : p.nocopy = r.flags.has .keepOldNocopy

/-- Every plan is as the request says. -/
theorem planned (h : r.plan b = .ok p) : r.Planned p := by
  unfold plan at h
  split at h
  · next ha =>
    cases hf : side b r.flags .shrinkFront .expandFront r.front with
    | error e =>
      rw [hf] at h
      cases h
    | ok front =>
      cases hb : side b r.flags .shrinkBack .expandBack r.back with
      | error e =>
        rw [hf, hb] at h
        cases h
      | ok back =>
        rw [hf, hb] at h
        obtain ⟨hfd, hfa, -, -⟩ := side_eq_ok hf
        obtain ⟨hbd, -, hbs, hbx⟩ := side_eq_ok hb
        change r.join front back = .ok p at h
        unfold join at h
        simp only at h
        split at h
        · cases h
        · split at h
          · cases h
          · cases h
            exact ⟨ha, hfd, hfa, by rw [hbd], hbs, hbx, rfl⟩
  · cases h

end Resize

/-! ## Requests about any block -/

/-- What a resize asks for, whichever block it is about. -/
structure Reshape where
  front : Amounts
  back : Amounts
  flags : ResizeFlags

namespace Reshape

variable {b : Build} {q : Reshape} {x y : Block} {p : Plan}

/-- The request, made about a block. -/
def about (q : Reshape) (x : Block) : Resize :=
  ⟨x.address, x.size, x.align, q.front, q.back, q.flags⟩

/-- What a side loses or gains where the flag asks for it, whichever block the
request is made about. -/
def amount (q : Reshape) (f : ResizeFlag) (a : Amounts) : Nat := (q.about ⟨0, 0, 1⟩).amount f a

/-- The flags decide it. -/
theorem amount_eq (q : Reshape) (f : ResizeFlag) (a : Amounts) :
    q.amount f a = if q.flags.has f then a.required else 0 := rfl

/-- Which byte of a block of this size becomes byte `i` of the new one: the
bytes that are dropped at either end become none, and the bytes that are
added in front come from none. -/
def source? (q : Reshape) (size i : Nat) : Option Nat :=
  let dropped := q.amount .shrinkFront q.front
  let added := q.amount .expandFront q.front
  if added ≤ i ∧ dropped + (i - added) + q.amount .shrinkBack q.back < size then
    some (dropped + (i - added))
  else
    none

/-- The request lets its bytes be copied, and where it grows at the back it
prefers what it requires. A front never gets more than it requires. -/
structure Exact (q : Reshape) : Prop where
  copies : q.flags.has .keepOldNocopy = false
  back : q.flags.has .expandBack = true → q.flags.has .shrinkBack = false →
    q.back.preferred = q.back.required

instance (q : Reshape) : Decidable q.Exact :=
  decidable_of_iff (q.flags.has .keepOldNocopy = false ∧ (q.flags.has .expandBack = true →
      q.flags.has .shrinkBack = false → q.back.preferred = q.back.required))
    ⟨fun h => ⟨h.1, h.2⟩, fun h => ⟨h.copies, h.back⟩⟩

/-- A request is planned by the size and the alignment of its block alone. -/
theorem plan_about_congr (q : Reshape) (hs : x.size = y.size) (ha : x.align = y.align) :
    (q.about x).plan b = (q.about y).plan b := by
  obtain ⟨_, _, _⟩ := x
  obtain ⟨_, _, _⟩ := y
  cases hs
  cases ha
  rfl

/-- The plan of such a request copies and leaves nothing to spare. -/
theorem Exact.planned (hq : q.Exact) (hp : (q.about x).plan b = .ok p) :
    p.nocopy = false ∧ p.spareBack = 0 := by
  have h := Resize.planned hp
  refine ⟨h.nocopy.trans hq.copies, ?_⟩
  rw [h.spareBack]
  split
  · next he => exact Nat.sub_eq_zero_of_le (Nat.le_of_eq (hq.back he (h.back he)))
  · rfl

/-- What becomes of the bytes is what the plan does with them. -/
theorem exists_of_source? (hp : (q.about x).plan b = .ok p) {i j : Nat}
    (h : q.source? x.size i = some j) : ∃ k, k < p.kept ∧ i = p.target + k ∧ j = p.source + k := by
  have hf := Resize.planned hp
  have hk : p.kept = x.size - (p.source + q.amount .shrinkBack q.back) := hf.kept
  have ht : p.target = q.amount .expandFront q.front := hf.target
  have hs : p.source = q.amount .shrinkFront q.front := hf.source
  simp only [source?, ← ht, ← hs] at h
  split at h
  · next hc =>
    cases h
    exact ⟨i - p.target, by omega, by omega, rfl⟩
  · cases h

/-- The new block can be asked for by its size. -/
theorem exists_new (hp : (q.about x).plan b = .ok p) :
    ∃ l, Layout.ofSizeAlign? p.newSize x.align = some l ∧ l.size = p.newSize ∧
      l.align = x.align := by
  obtain ⟨hsize, hkept, -, hnew⟩ := Resize.plan_sizes hp
  exact Layout.exists_ofSizeAlign? (Resize.planned hp).align (by omega) hnew

/-- So can the old one: something of it survives, and then the limit of its
alignment is not zero. -/
theorem exists_old (hx : x.Formed) (hp : (q.about x).plan b = .ok p) :
    ∃ l, Layout.ofSizeAlign? x.size x.align = some l := by
  obtain ⟨hsize, hkept, hold, hnew⟩ := Resize.plan_sizes hp
  change p.source + p.kept ≤ x.size at hold
  change p.newSize ≤ maxSize x.align at hnew
  have hle : x.size ≤ maxSize x.align := hx.resolve_right (by omega)
  obtain ⟨l, hl, -⟩ := Layout.exists_ofSizeAlign? (Resize.planned hp).align (by omega) hle
  exact ⟨l, hl⟩

end Reshape

/-- A request is what it asks for, about the block that it describes. -/
theorem Resize.Describes.eq_about {r : Resize} {x : Block} (h : r.Describes x) :
    r = (⟨r.front, r.back, r.flags⟩ : Reshape).about x := by
  obtain ⟨ha, hs, hal⟩ := h
  cases r
  cases ha
  cases hs
  cases hal
  rfl

/-- A planned request has both layouts, that of the block and that of the new one. -/
theorem Resize.Describes.exists_layouts {b : Build} {r : Resize} {x : Block} {p : Plan}
    (h : r.Describes x) (hx : x.Formed) (hp : r.plan b = .ok p) : ∃ old new,
      Layout.ofSizeAlign? r.size r.align = some old ∧
        Layout.ofSizeAlign? p.newSize r.align = some new ∧ new.size = p.newSize ∧
          new.align = r.align := by
  have hplan := hp
  rw [h.eq_about] at hplan
  obtain ⟨old, ho⟩ := Reshape.exists_old hx hplan
  obtain ⟨new, hn, hns, hna⟩ := Reshape.exists_new hplan
  rw [← h.2.1, ← h.2.2] at ho
  rw [← h.2.2] at hn hna
  exact ⟨old, new, ho, hn, hns, hna⟩

/-! ## Room, and what a resize leaves -/

section Resizing

variable {ρ : Type} [Resource ρ]

namespace Custody

/-- The allocator would resize this block: a heap any that is live, a stack
the latest. -/
def Resizable (c : Custody) (x : Block) : Prop :=
  match c.allocator with
  | .heap _ => x ∈ c.blocks
  | .stack _ => c.blocks.head? = some x
  | .arena _ => False

/-- A heap would resize any of its blocks. -/
theorem resizable_of_heap {c : Custody} {x : Block} (hk : c.allocator.isHeap = true)
    (hx : x ∈ c.blocks) : c.Resizable x := by
  obtain ⟨k, live, pending⟩ := c
  obtain ⟨s, rfl⟩ := Allocator.exists_heap hk
  exact hx

/-- Such a block is live. -/
theorem Resizable.mem {c : Custody} {x : Block} (h : c.Resizable x) : x ∈ c.blocks := by
  obtain ⟨k, live, pending⟩ := c
  cases k with
  | heap s => exact h
  | stack s => exact List.mem_of_head? h
  | arena s => exact h.elim

/-- So the request may be made. -/
theorem Resizable.allows {c : Custody} {x : Block} (h : c.Resizable x) (q : Reshape) :
    c.Allows (.call (.reallocate (q.about x))) := by
  obtain ⟨y, hy, rfl⟩ := List.mem_map.1 h.mem
  exact ⟨y, hy, rfl, rfl, rfl⟩

/-- There is room for a block of this layout in place of the one at `a`: a heap
would be granted it, and on a stack it would end below the entries. -/
def HasRoom (c : Custody) (w : World ρ) (a : Nat) (l : Layout) : Prop :=
  match c.allocator with
  | .heap _ => (w.take l).1.isSome = true
  | .stack s => a + l.size ≤ s.region.base + s.region.tail
  | .arena _ => False

instance (c : Custody) (w : World ρ) (a : Nat) (l : Layout) : Decidable (c.HasRoom w a l) :=
  match c with
  | ⟨.heap _, _, _⟩ => inferInstanceAs (Decidable (_ = true))
  | ⟨.stack _, _, _⟩ => inferInstanceAs (Decidable (_ ≤ _))
  | ⟨.arena _, _, _⟩ => .isFalse id

end Custody

/-- There is room for what the request makes of the block, if it can be made. -/
def Reshape.HasRoom (b : Build) (q : Reshape) (c : Custody) (w : World ρ) (x : Block) : Prop :=
  ∀ p ∈ ((q.about x).plan b).toOption, ∀ l ∈ Layout.ofSizeAlign? p.newSize x.align,
    c.HasRoom w x.address l

instance (b : Build) (q : Reshape) (c : Custody) (w : World ρ) (x : Block) :
    Decidable (q.HasRoom b c w x) :=
  inferInstanceAs (Decidable (∀ p ∈ _, ∀ l ∈ _, _))

/-- How a request about a block ends, on an allocator with room for it. -/
inductive Reshaped (b : Build) (q : Reshape) (x : Block) (c : Custody) (w : World ρ) :
    Except Failure Reply → Custody → World ρ → Prop
  /-- It is no plan, and nothing changes. -/
  | rejected {e : Failure} : (q.about x).plan b = .error e → Reshaped b q x c w (.error e) c w
  /-- The block is of the planned size, and the bytes that survive are where the
  plan puts them. -/
  | granted {p : Plan} {a : Nat} {c' : Custody} {w' : World ρ} : (q.about x).plan b = .ok p →
      c'.Resizable ⟨a, p.newSize, x.align⟩ →
      (∀ k, k < p.kept → w'.memory.byteAt (a + p.target + k) =
        w.memory.byteAt (x.address + p.source + k)) →
      Reshaped b q x c w (.ok (.resized ⟨a, p.newSize, p.oldStart a, false⟩)) c' w'

variable {b : Build} {kind : AllocatorKind} {q : Reshape} {w : World ρ} {x : Holding}
variable {pending : List Registration}

/-- If a request can be made, there is room for the size it plans. -/
theorem Reshape.HasRoom.of_plan {c : Custody} {y : Block} (h : q.HasRoom b c w y) {p : Plan}
    (hp : (q.about y).plan b = .ok p) {l : Layout}
    (hl : Layout.ofSizeAlign? p.newSize y.align = some l) : c.HasRoom w y.address l :=
  h p (by rw [hp]; rfl) l hl

/-! ## On a stack -/

/-- The bytes that survive on a stack are where the plan puts them, although
the two stretches may overlap. -/
theorem Stack.byteAt_moved {p : Plan} (hp : p.nocopy = false) (a : Nat) (m : Memory) {k : Nat}
    (hk : k < p.kept) : (moved p a m).byteAt (a + p.target + k) = m.byteAt (a + p.source + k) := by
  unfold moved
  by_cases hst : p.source = p.target
  · rw [if_neg fun h => h.2 hst, hst]
  · rw [if_pos ⟨hp, hst⟩, Memory.byteAt_copy,
      if_pos ⟨Nat.le_add_right _ _, Nat.add_lt_add_left hk _⟩, Nat.add_sub_cancel_left]

/-- The latest block of a stack is resized in place. -/
theorem Stack.ends_reshape {s : Buffer} {older : List Holding}
    (hs : s.Sound header w.memory (x :: older) pending) (hq : q.Exact)
    (hroom : q.HasRoom b ⟨.stack s, x :: older, pending⟩ w x.toBlock) :
    Custody.Ends b (.call (.reallocate (q.about x.toBlock))) ⟨.stack s, x :: older, pending⟩ w
      (Reshaped b q x.toBlock ⟨.stack s, x :: older, pending⟩ w) := by
  cases hp : (q.about x.toBlock).plan b with
  | error e => exact .of_error rfl (reallocate_of_error w hp) rfl (.rejected hp)
  | ok p =>
    obtain ⟨hcopy, hspare⟩ := hq.planned hp
    obtain ⟨l, hl, hsize, -⟩ := Reshape.exists_new hp
    have hfits : x.address + l.size ≤ s.region.base + s.region.tail := hroom.of_plan hp hl
    have hb := hs.piled.bounds (x := x) List.mem_cons_self
    have hn : p.newSize ≤ headroom s x.address := by
      unfold headroom
      omega
    have h := reallocate_top_of_room hs ⟨rfl, rfl, rfl⟩ hp hn
    -- nothing is to spare, so the block gets what it requires
    have hg : granted p (headroom s x.address) = p.newSize := by
      rw [granted, hspare, Nat.zero_min, Nat.add_zero]
    rw [hg] at h
    refine ⟨.ok _, _, _, Custody.act_of_ok rfl h, .granted hp ?_ fun k hk => ?_⟩
    · show (Custody.blocks _).head? = _
      simp only [Custody.blocks, Custody.answered, Custody.resized, Bool.false_eq_true, if_false,
        List.map_cons, List.head?_cons]
      rw [if_pos (show x.address = (q.about x.toBlock).address from rfl)]
    · exact byteAt_moved hcopy x.address w.memory hk

/-! ## On a heap -/

/-- A block that is granted is handed out, if the resource keeps its part. -/
theorem Heap.allocate_of_room {s : Heap} {live rest : List Block} {l : Layout}
    (hs : s.Sound b w.memory live pending) (ha : Accounts w.events (live ++ rest))
    (hroom : (w.take l).1.isSome = true) :
    (∃ a w', allocate b l ⟨s, w⟩ = .ok ⟨a, l.size⟩ ⟨s.entered b a l, w'⟩ ∧
      (b = .debug → s.ledger.find? a = none) ∧ w.memory.ChangedIn w'.memory a (a + l.size) ∧
      calls w'.events = calls (.taken l (some a) :: w.events)) ∨
    ∃ e s' w', allocate b l ⟨s, w⟩ = .error e ⟨s', w'⟩ ∧ ¬ Honoured w'.events := by
  rw [← w.fst_draw s.zeroed l] at hroom
  rcases w.draw_cases s.zeroed l with ⟨w', hd, -⟩ | ⟨a, w', hd, hm, he⟩
  · rw [hd] at hroom
    cases hroom
  · exact (allocate_of_draw hs ha hd hm he).imp (fun h => ⟨a, h⟩) id

/-- The bytes that survive in a new block are those of the old one: the new
block is apart from it, so the grant changes none of them, and what the
resource does to the old block afterwards changes none of the copies. -/
theorem World.byteAt_copied {w' : World ρ} {y : Block} {held : List Block} {old new : Layout}
    {a : Nat} (ha : Accounts w.events held) (hy : y ∈ held) (hold : Block.of y.address old = y)
    (hg : Honoured (.taken new (some a) :: w.events))
    (hm : w.memory.ChangedIn w'.memory a (a + new.size)) {source target len : Nat}
    (hs : source + len ≤ y.size) (ht : target + len ≤ new.size) {k : Nat} (hk : k < len) :
    ((w'.write fun m => m.copy (y.address + source) (a + target) len).give
      y.address old).memory.byteAt (a + target + k) = w.memory.byteAt (y.address + source + k) := by
  have hapart : (Block.of a new).Apart (Block.of y.address old) := hold.symm ▸ ha.apart hg y hy
  have hgiven := (w'.write fun m => m.copy (y.address + source) (a + target) len).changedIn_give
    y.address old (Block.of a new) hapart
  rw [hgiven (a + target + k) ⟨by show a ≤ _; omega, by show _ < a + new.size; omega⟩]
  show (w'.memory.copy (y.address + source) (a + target) len).byteAt _ = _
  rw [Memory.byteAt_copy, if_pos ⟨Nat.le_add_right _ _, Nat.add_lt_add_left hk _⟩,
    Nat.add_sub_cancel_left]
  exact ha.keeps_of_taken hg hm y hy _ ⟨by omega, by omega⟩

/-- A live block of a heap is moved. -/
theorem Heap.ends_reshape {s : Heap} {as bs : List Holding} {rest : List Block}
    (hs : s.Sound b w.memory ((as ++ x :: bs).map Holding.toBlock) pending)
    (ha : Accounts w.events
      ((as ++ x :: bs).map Holding.toBlock ++ (pending.map Registration.block ++ rest)))
    (hx : x.toBlock.Formed) (hq : q.Exact)
    (hroom : q.HasRoom b ⟨.heap s, as ++ x :: bs, pending⟩ w x.toBlock) :
    Custody.Ends b (.call (.reallocate (q.about x.toBlock))) ⟨.heap s, as ++ x :: bs, pending⟩ w
      fun out c' w' => Honoured w'.events →
        Reshaped b q x.toBlock ⟨.heap s, as ++ x :: bs, pending⟩ w out c' w' := by
  cases hp : (q.about x.toBlock).plan b with
  | error e => exact .of_error rfl (reallocate_of_error w hp) rfl fun _ => .rejected hp
  | ok p =>
    obtain ⟨old, ho⟩ := Reshape.exists_old hx hp
    obtain ⟨new, hn, hnsize, -⟩ := Reshape.exists_new hp
    have hd : (q.about x.toBlock).Describes x.toBlock := ⟨rfl, rfl, rfl⟩
    have hmem : x ∈ as ++ x :: bs := by simp
    obtain ⟨hold, hm, hf⟩ := found_live hs ha hmem hd ho
    rcases allocate_of_room hs ha (hroom.of_plan hp hn) with
      ⟨a, w', h, hfresh, hch, he⟩ | ⟨e, s', w', h, hbreach⟩
    · refine ⟨.ok _, _, _, act_moved hs ha hd hp (hq.planned hp).1 ho hn h hfresh, fun hg => ?_⟩
      obtain ⟨hsize, -, hkept, -⟩ := Resize.plan_sizes hp
      rw [hnsize]
      refine .granted hp ?_ fun k hk => ?_
      · show _ ∈ Custody.blocks _
        simp [Custody.blocks]
      · refine World.byteAt_copied ha ?_ hold ((honoured_congr he).1 hg) hch hkept ?_ hk
        · exact List.mem_append_left _ (List.mem_map_of_mem hmem)
        · omega
    · exact .of_error rfl (reallocate_of_declined hp ho hm hf hn h) rfl fun hg => absurd hg hbreach

/-! ## On either -/

/-- **A resize comes to the same on every allocator** that would resize the
block and has room for it: it is rejected as its plan is, or the block is of
the planned size and the bytes that survive are where the plan puts them. -/
theorem Custody.ends_reshape {c : Custody} {y : Block} {others : List Block}
    (hc : c.InOrder b kind others w) (hy : c.Resizable y) (hf : y.Formed) (hq : q.Exact)
    (hroom : q.HasRoom b c w y) :
    Ends b (.call (.reallocate (q.about y))) c w fun out c' w' => Honoured w'.events →
      Reshaped b q y c w out c' w' := by
  obtain ⟨k, live, pending⟩ := c
  cases k with
  | heap s =>
    obtain ⟨x, hx, rfl⟩ := List.mem_map.1 (show y ∈ live.map Holding.toBlock from hy)
    obtain ⟨as, bs, rfl⟩ := List.append_of_mem hx
    have ha := hc.accounts
    unfold footprint blocks entries at ha
    simp only [List.append_assoc] at ha
    exact Heap.ends_reshape hc.sound ha hf hq hroom
  | stack s =>
    cases live with
    | nil => cases hy
    | cons x older =>
      cases hy
      obtain ⟨out, c', w', hact, hr⟩ := Stack.ends_reshape hc.sound hq hroom
      exact ⟨out, c', w', hact, fun _ => hr⟩
  | arena s => exact hy.elim

end Resizing

end Allocators
