import Allocators.Proofs.Relocation
/-!
# Resizes that were granted

What a resize comes to is told here from its answer: a live block was to be
resized with its bytes copied, and the allocator has answered with a block. Then
there was a plan, it has been carried out on the bytes, and the allocator is in
order and would resize the new block in its turn. A heap has moved the block, and
a stack, which must have had the block as its latest, has set its cursor to the
new end. Main statement: `Custody.InOrder.granted`.
-/

namespace Allocators

open Trace

/-! ## Plans, side by side -/

namespace Resize

variable {b : Build} {r : Resize} {p : Plan} {front back : SideChange}

/-- There is a plan just if both sides change in order and the sizes fit. -/
theorem plan_eq_ok_iff : r.plan b = .ok p ↔ r.align.isPowerOfTwo ∧ ∃ front back,
    side b r.flags .shrinkFront .expandFront r.front = .ok front ∧
      side b r.flags .shrinkBack .expandBack r.back = .ok back ∧ r.join front back = .ok p := by
  unfold plan
  by_cases ha : r.align.isPowerOfTwo
  · rw [if_pos ha]
    cases side b r.flags .shrinkFront .expandFront r.front with
    | error e => exact ⟨nofun, fun ⟨_, _, _, h, _⟩ => nomatch h⟩
    | ok front =>
      cases side b r.flags .shrinkBack .expandBack r.back with
      | error e => exact ⟨nofun, fun ⟨_, _, _, _, h, _⟩ => nomatch h⟩
      | ok back =>
        constructor
        · exact fun h => ⟨ha, front, back, rfl, rfl, h⟩
        · rintro ⟨-, _, _, ⟨⟩, ⟨⟩, h⟩
          exact h
  · rw [if_neg ha]
    exact ⟨nofun, fun h => absurd h.1 ha⟩

/-- The sizes fit if something is left and the new size is within the limit. -/
theorem join_eq_ok_iff : r.join front back = .ok p ↔
    front.dropped + back.dropped < r.size ∧
      r.size - (front.dropped + back.dropped) + front.added + back.added ≤ maxSize r.align ∧
      p = ⟨front.dropped, front.added, back.added, back.spare,
        r.size - (front.dropped + back.dropped),
        r.size - (front.dropped + back.dropped) + front.added + back.added,
        r.flags.has .keepOldNocopy⟩ := by
  unfold join
  simp only
  by_cases hd : r.size ≤ front.dropped + back.dropped
  · rw [if_pos hd]
    exact ⟨nofun, fun h => absurd h.1 (Nat.not_lt.2 hd)⟩
  · rw [if_neg hd]
    by_cases hn : maxSize r.align <
        r.size - (front.dropped + back.dropped) + front.added + back.added
    · rw [if_pos hn]
      exact ⟨nofun, fun h => absurd h.2.1 (Nat.not_le.2 hn)⟩
    · rw [if_neg hn]
      constructor
      · rintro ⟨⟩
        exact ⟨Nat.lt_of_not_le hd, Nat.le_of_not_lt hn, rfl⟩
      · rintro ⟨-, -, rfl⟩
        rfl

end Resize

/-! ## What an answer says -/

namespace Custody

variable {ρ : Type} [Resource ρ]

/-- The request about the block `x` has been answered with the block `y`, and the
resource has kept its part. -/
structure Resizes (b : Build) (q : Reshape) (c : Custody) (w : World ρ) (x : Block) (c' : Custody)
    (w' : World ρ) (y : Block) : Prop where
  answered : ∃ start, act b (.call (.reallocate (q.about x))) ⟨c, w⟩ =
    .ok (.resized ⟨y.address, y.size, start, false⟩) ⟨c', w'⟩
  align : y.align = x.align
  honoured : Honoured w'.events

/-- A stack has resized its latest block: `h` is the block, and `older` are those
beneath it. -/
structure Restacked (c : Custody) (s : Buffer) (x : Block) (p : Plan) (c' : Custody) (y : Block)
    (h : Holding) (older : List Holding) : Prop where
  /-- It is the latest. -/
  live : c.live = h :: older
  before : h.toBlock = x
  after : ({ h with size := y.size } : Holding).toBlock = y
  /-- It gets what is preferred, or all the room that there is. -/
  fits : p.newSize ≤ s.region.tail - (x.address - s.region.base)
  size : y.size = min (p.newSize + p.spareBack) (s.region.tail - (x.address - s.region.base))
  /-- Nothing changes but its size, and the cursor with it. -/
  custody : c' = ⟨.stack (s.withCursor (x.address - s.region.base + y.size)),
    { h with size := y.size } :: older, c.pending⟩

/-- What a request about `x` has come to that was answered with `y`, by the plan `p`. -/
structure Granted (b : Build) (kind : AllocatorKind) (q : Reshape) (c : Custody) (w : World ρ)
    (x : Block) (p : Plan) (c' : Custody) (w' : World ρ) (y : Block) : Prop where
  planned : (q.about x).plan b = .ok p
  /-- There is as much as was asked for. -/
  size : p.newSize ≤ y.size
  /-- The bytes that survive are where the plan puts them. -/
  carried : p.Carried x.address y.address w.memory w'.memory
  /-- The new block may be resized next. -/
  resizable : c'.Resizable y
  inOrder : ∃ others, c'.InOrder b kind others w'
  /-- The allocator is of the kind that it was. -/
  kind : c'.allocator.kind = c.allocator.kind
  heap : ∀ s, c.allocator = .heap s → y.size = p.newSize ∧ ∃ old new,
    Block.of y.address new = y ∧ Moved w c s x p old new y.address c' w'
  stack : ∀ s, c.allocator = .stack s → ∃ h older, c.Restacked s x p c' y h older

variable {b : Build} {kind : AllocatorKind} {q : Reshape} {c c' : Custody} {w w' : World ρ}
variable {x y : Block} {others : List Block}

/-- An allocator of a heap's kind is a heap, and zeroes if that does. -/
theorem exists_heap_of_kind {k : Allocator} {s : Heap} (h : k.kind = (Allocator.heap s).kind) :
    ∃ s', k = .heap s' ∧ s'.zeroed = s.zeroed := by
  obtain ⟨s', rfl⟩ :=
    Allocator.exists_heap ((Allocator.isHeap_congr h).trans (Allocator.isHeap_heap s))
  refine ⟨s', rfl, ?_⟩
  simp only [Allocator.kind] at h
  cases hz : s'.zeroed <;> cases hz' : s.zeroed <;> simp_all

/-- What would resize a block is no arena. -/
theorem Resizable.kind_ne_arena (h : c.Resizable x) : c.allocator.kind ≠ .arena := by
  obtain ⟨k, live, pending⟩ := c
  cases k with
  | heap s =>
    simp only [Allocator.kind]
    split <;> decide
  | stack s => simp [Allocator.kind]
  | arena s => exact h.elim

/-- An answered call leaves the allocator of its kind. -/
theorem kind_of_act {call : Call} {out : Reply}
    (h : act b (.call call) ⟨c, w⟩ = .ok out ⟨c', w'⟩) : c'.allocator.kind = c.allocator.kind := by
  have hk := Allocator.kind_perform b [] call ⟨c.allocator, w⟩
  cases hp : Restriction.perform b [] call ⟨c.allocator, w⟩ with
  | error e t =>
    simp only [act, hp] at h
    cases h
  | ok reply t =>
    simp only [act, hp] at h
    cases h
    rw [hp] at hk
    exact (congrArg Allocator.kind (allocator_answered ..)).trans hk

/-- A call that fails in an allocator of some kind has no answer. -/
theorem act_ne_ok {κ α : Type} {part k : κ} {whole : κ → Allocator} {action : Action κ ρ α}
    {call : Call} {g : α → Reply} {live : List Holding} {pending : List Registration} {e : Failure}
    {out : Reply} {t : Scene Custody ρ}
    (hp : Restriction.perform b [] call ⟨whole part, w⟩ =
      (g <$> Action.on part whole action) ⟨whole part, w⟩)
    (h : action ⟨part, w⟩ = .error e ⟨k, w'⟩) :
    act b (.call call) ⟨⟨whole part, live, pending⟩, w⟩ ≠ .ok out t := by
  rw [act_of_error hp h]
  exact nofun

/-- A heap that has answered had a plan and has moved the block. -/
theorem InOrder.moved_of_resizes (hin : c.InOrder b kind others w) {s : Heap}
    (hk : c.allocator = .heap s) (hx : x ∈ c.blocks) (hq : q.flags.has .keepOldNocopy = false)
    (h : c.Resizes b q w x c' w' y) :
    ∃ p old new, (q.about x).plan b = .ok p ∧ y.size = p.newSize ∧ Block.of y.address new = y ∧
      Moved w c s x p old new y.address c' w' := by
  obtain ⟨⟨start, hact⟩, hal, hg⟩ := h
  obtain ⟨ya, ys, yal⟩ := y
  obtain ⟨k, live, pending⟩ := c
  cases hk
  obtain ⟨h, hh, rfl⟩ := List.mem_map.1 hx
  obtain ⟨as, bs, rfl⟩ := List.append_of_mem hh
  have ha := accounts_heap hin.accounts
  have hr : (q.about h.toBlock).Describes h.toBlock := ⟨rfl, rfl, rfl⟩
  cases hp : (q.about h.toBlock).plan b with
  | error e =>
    exact absurd hact (act_ne_ok rfl (Heap.reallocate_of_error w hp))
  | ok p =>
    have hnocopy : p.nocopy = false := (Resize.planned hp).nocopy.trans hq
    obtain ⟨new, hn, hns, hna⟩ := Reshape.exists_new hp
    cases ho : Layout.ofSizeAlign? (q.about h.toBlock).size (q.about h.toBlock).align with
    | none =>
      exact absurd hact (act_ne_ok rfl (Heap.reallocate_of_no_old w hp ho))
    | some old =>
      rcases Heap.reallocate_cases hin.sound ha hh hr hp ho hn with ⟨v, -, hre⟩ |
        ⟨a, v, n, -, hc, -⟩ | ⟨a, v, n, hd, -, hre⟩ | ⟨e, t, hre, -⟩
      · exact absurd hact (act_ne_ok rfl hre)
      · cases hnocopy.symm.trans hc
      · have hw : act b (.call (.reallocate (q.about h.toBlock)))
            ⟨⟨.heap s, as ++ h :: bs, pending⟩, w⟩ = _ := act_of_ok rfl hre
        rw [hw] at hact
        -- the events say that the resource has granted the new block
        have hevents : v.events = .taken new (some a) :: w.events := by
          rcases w.draw_cases s.zeroed new with ⟨v', hd', -⟩ | ⟨a', v', hd', -, he⟩ <;>
            cases hd.symm.trans hd'
          exact he
        have hhonoured : Honoured (.taken new (some a) :: w.events) := by
          cases hact
          exact hevents ▸ hg
        have hgrants : w.Grants new a := ⟨by rw [← w.fst_draw s.zeroed, hd], hhonoured.1⟩
        obtain ⟨c₁, w₁, hact', hm⟩ := moved_of_grants hin.sound ha hr hp ho hn hgrants hnocopy
        rw [← hw, hact'] at hact
        cases hal
        cases hact
        refine ⟨p, old, new, rfl, rfl, ?_, hm⟩
        rw [Block.of, hns, hna]
      · exact absurd hact (act_ne_ok rfl hre)

/-- A stack that has answered had a plan, and has resized its latest block. -/
theorem InOrder.restacked_of_resizes (hin : c.InOrder b kind others w) {s : Buffer}
    (hk : c.allocator = .stack s) (hx : x ∈ c.blocks) (h : c.Resizes b q w x c' w' y) :
    ∃ p h older, (q.about x).plan b = .ok p ∧ c.Restacked s x p c' y h older ∧
      p.Shifted x.address w.memory w'.memory := by
  obtain ⟨⟨start, hact⟩, hal, -⟩ := h
  obtain ⟨ya, ys, yal⟩ := y
  obtain ⟨k, live, pending⟩ := c
  cases hk
  obtain ⟨h, hh, rfl⟩ := List.mem_map.1 hx
  obtain ⟨newer, older, rfl⟩ := List.append_of_mem hh
  have hr : (q.about h.toBlock).Describes h.toBlock := ⟨rfl, rfl, rfl⟩
  have hsound : s.Sound Stack.header w.memory (newer ++ h :: older) pending := hin.sound
  cases hp : (q.about h.toBlock).plan b with
  | error e =>
    exact absurd hact (act_ne_ok rfl (Stack.reallocate_of_error w hp))
  | ok p =>
    by_cases hnewer : newer = []
    · subst hnewer
      have hin := Custody.inPlace_of_sound hsound hr hp []
      have hsil : ¬ Restriction.Silences [] (.call (.reallocate (q.about h.toBlock))) := id
      rw [← deal_of_not_silences hsil] at hact
      by_cases hroom : p.newSize ≤ s.region.tail - (h.address - s.region.base)
      · obtain ⟨v, hdeal, hshift⟩ := hin.granted hroom _ rfl
        rw [List.nil_append, hdeal] at hact
        cases hal
        cases hact
        exact ⟨p, h, older, rfl, ⟨rfl, rfl, rfl, hroom, rfl, rfl⟩, hshift⟩
      · rw [List.nil_append, hin.retracts (Nat.lt_of_not_le hroom)] at hact
        cases hact
    · exact absurd hact (act_ne_ok rfl (Stack.reallocate_under hsound hnewer hr hp))

/-- A block that a stack has resized is where it was. -/
theorem Restacked.address {s : Buffer} {p : Plan} {h : Holding} {older : List Holding}
    (hr : c.Restacked s x p c' y h older) : y.address = x.address := by
  rw [← hr.before, ← hr.after]

/-- **What has been answered has been carried out.** -/
theorem InOrder.granted (hin : c.InOrder b kind others w) (hx : x ∈ c.blocks)
    (hq : q.flags.has .keepOldNocopy = false) (h : c.Resizes b q w x c' w' y) :
    ∃ p, Granted b kind q c w x p c' w' y := by
  obtain ⟨start, hact⟩ := h.answered
  have hallows : c.Allows (.call (.reallocate (q.about x))) := by
    obtain ⟨z, hz, rfl⟩ := List.mem_map.1 hx
    exact ⟨z, hz, rfl, rfl, rfl⟩
  have hend : act b (.call (.reallocate (q.about x))) ⟨c, w⟩ = Action.ending (.ok _) ⟨c', w'⟩ :=
    hact
  have hin' := (steady_allows _ w others _ hin hallows).elim hend h.honoured
  have hkind := kind_of_act hact
  cases hk : c.allocator with
  | heap s =>
    obtain ⟨p, old, new, hp, hsize, hnew, hm⟩ := hin.moved_of_resizes hk hx hq h
    refine ⟨p, hp, hsize.ge, hm.carried, ?_, ⟨_, hin'⟩, hkind, ?_, fun s' hs' => ?_⟩
    · have hheap : c'.allocator.isHeap = true :=
        (Allocator.isHeap_congr hkind).trans (by rw [hk, Allocator.isHeap_heap])
      exact resizable_of_heap hheap (hm.replaced.mem_iff.2 (hnew ▸ List.mem_cons_self))
    · rintro s' hs'
      cases hk.symm.trans hs'
      exact ⟨hsize, old, new, hnew, hm⟩
    · cases hk.symm.trans hs'
  | stack s =>
    obtain ⟨p, h', older, hp, hr, hshift⟩ := hin.restacked_of_resizes hk hx h
    have hnocopy : p.nocopy = false := (Resize.planned hp).nocopy.trans hq
    refine ⟨p, hp, ?_, ?_, ?_, ⟨_, hin'⟩, hkind, fun s' hs' => ?_, ?_⟩
    · rw [hr.size]
      exact Nat.le_min.2 ⟨Nat.le_add_right _ _, hr.fits⟩
    · rw [hr.address]
      exact hshift.carried hnocopy
    · rw [hr.custody]
      exact congrArg some hr.after
    · cases hk.symm.trans hs'
    · rintro s' hs'
      cases hk.symm.trans hs'
      exact ⟨h', older, hr⟩
  | arena s =>
    obtain ⟨t, hp⟩ : ∃ t, Restriction.perform b [] (.reallocate (q.about x)) ⟨c.allocator, w⟩ =
        .error (.refused .unsupported) t := by
      rw [hk, Restriction.perform, Action.map_apply, Allocator.reallocate_arena]
      exact ⟨_, rfl⟩
    simp only [act, hp] at hact
    cases hact

/-! ## Requests that will be granted -/

/-- A stack that has room for a request about its latest block grants it. -/
theorem InOrder.resizes_top (hin : c.InOrder b kind others w) {s : Buffer} {h : Holding}
    {older : List Holding} (hk : c.allocator = .stack s) (hl : c.live = h :: older) {p : Plan}
    (hp : (q.about h.toBlock).plan b = .ok p) (hspare : p.spareBack = 0)
    (hroom : p.newSize ≤ s.region.tail - (h.address - s.region.base)) : ∃ w', c.Resizes b q w
      h.toBlock ⟨.stack (s.withCursor (h.address - s.region.base + p.newSize)),
        { h with size := p.newSize } :: older, c.pending⟩ w' ⟨h.address, p.newSize, h.align⟩ := by
  obtain ⟨k, live, pending⟩ := c
  cases hk
  cases hl
  have hsize : Stack.granted p (Stack.headroom s h.address) = p.newSize := by
    rw [Stack.granted, hspare, Nat.zero_min, Nat.add_zero]
  exact ⟨_, ⟨_, act_top_of_room hin.sound ⟨rfl, rfl, rfl⟩ hp hroom hsize⟩, rfl,
    hin.accounts.honoured⟩

/-- A heap grants a request about a block of a size that it can ask about, where the
resource grants it a new one. -/
theorem InOrder.resizes_live (hin : c.InOrder b kind others w) {s : Heap}
    (hk : c.allocator = .heap s) (hx : x ∈ c.blocks) (hf : x.Formed)
    (hq : q.flags.has .keepOldNocopy = false) {p : Plan} (hp : (q.about x).plan b = .ok p) :
    ∃ new : Layout, new.size = p.newSize ∧ new.align = x.align ∧
      ∀ a, w.Grants new a → ∃ c' w', c.Resizes b q w x c' w' (Block.of a new) := by
  obtain ⟨old, new, -, hns, hna, hgrants⟩ := hin.resizes hk hx hf ⟨rfl, rfl, rfl⟩ hp
  refine ⟨new, hns, hna, fun a hg => ?_⟩
  obtain ⟨c', w', hact, hr⟩ := hgrants a hg
  have hcalls : calls w'.events =
      calls (.given x.address old :: .taken new (some a) :: w.events) := (hr.moved hq).once
  have hhonoured : Honoured (.taken new (some a) :: w.events) :=
    ⟨hg.grantable, hin.accounts.honoured⟩
  rw [show (q.about x).flags = q.flags from rfl, hq, ← hns] at hact
  exact ⟨c', w', ⟨_, hact⟩, hna, (honoured_congr hcalls).2 hhonoured⟩

end Custody

/-- The run goes on with this request about a block. -/
def Book.resized {ρ : Type} [Resource ρ] (b : Build) (B : Book ρ) (q : Reshape) (x : Block) :
    Book ρ := B.turn b [] (.call (.reallocate (q.about x)))

/-- A request that has been answered is the next on record. -/
theorem Book.resizes_resized {ρ : Type} [Resource ρ] {b : Build} (B : Book ρ) (q : Reshape)
    (x y : Block) (start : Option Nat)
    (h : (Action.ended (Custody.act b (.call (.reallocate (q.about x))) ⟨B.custody, B.world⟩)).1 =
      .ok (.resized ⟨y.address, y.size, start, false⟩)) (hal : y.align = x.align)
    (hg : Honoured (B.resized b q x).world.events) :
    B.custody.Resizes b q B.world x (B.resized b q x).custody (B.resized b q x).world y := by
  rcases B.turn_cases b [] (.call (.reallocate (q.about x))) with ⟨hsil, -⟩ | ⟨-, out, hact⟩
  · exact hsil.elim
  · have hout : out = .ok (.resized ⟨y.address, y.size, start, false⟩) := by
      rw [← h, hact]
      cases out <;> rfl
    rw [hout] at hact
    exact ⟨⟨start, hact⟩, hal, hg⟩

end Allocators
