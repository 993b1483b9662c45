import Allocators.Proofs.Interruption
/-!
# Deeds on a buffer, told without the memory

A stack keeps its marks and its callbacks in the memory that its callers
write to, and reads them back. As long as it is in order what it reads is
what it wrote, so what a deed comes to does not depend on what else is in
the memory: one `Effect` serves all memories in which the custody is in
order (`Custody.exists_comes`). What the deed does to the memory is told
the same way, as a list of stores, and a store says which bytes are known
after it if some were known before (`Store.agreeOn_applyAll`).
-/

namespace Allocators

open Trace

/-! ## Stores -/

/-- A change of memory that is told without the memory. -/
inductive Store where
  /-- A stretch is changed byte by byte. -/
  | update (start len : Nat) (f : Nat → UInt8 → UInt8)
  /-- A stretch is copied onto another. -/
  | copy (source target len : Nat)

/-- Both memories hold the same byte at each of these addresses. -/
def Memory.AgreeOn (known : Nat → Prop) (m m' : Memory) : Prop :=
  ∀ a, known a → m.byteAt a = m'.byteAt a

namespace Store

/-- Makes the change. -/
def apply : Store → Memory → Memory
  | update start len f, m => m.update start len f
  | copy source target len, m => m.copy source target len

/-- Makes changes one after another. -/
def applyAll (ss : List Store) (m : Memory) : Memory := ss.foldl (fun m s => s.apply m) m

/-- A word is written. -/
def word (a n : Nat) : Store := update a Word.bytes fun i _ => Memory.byteOf n i

/-- A callback's entry is written. -/
def entry (a : Nat) (e : CallbackEntry) : List Store :=
  [word a e.data, word (a + 8) e.handler.code, word (a + 16) (CallbackEntry.linkWord e.previous)]

/-- The bytes of a block at `a` are moved by a plan. -/
def move (p : Plan) (a : Nat) : List Store :=
  if p.nocopy = false ∧ p.source ≠ p.target then
    [copy (a + p.source) (a + p.target) p.kept]
  else
    []

/-- The addresses whose bytes are known after a store, if these were known
before: what it writes without looking, what it copies from known bytes, and
what it makes of a known byte or leaves as it is. -/
def settle (known : Nat → Prop) : Store → Nat → Prop
  | update start len f, a =>
    known a ∨ Memory.Within start len a ∧ ∀ x y, f (a - start) x = f (a - start) y
  | copy source target len, a =>
    if Memory.Within target len a then known (source + (a - target)) else known a

/-- The same after several. -/
def settleAll (known : Nat → Prop) (ss : List Store) : Nat → Prop := ss.foldl settle known

variable {known : Nat → Prop} {m m' : Memory}

/-- **A store leaves known bytes alike.** -/
theorem agreeOn_apply (h : m.AgreeOn known m') (s : Store) :
    (s.apply m).AgreeOn (s.settle known) (s.apply m') := by
  intro a ha
  cases s with
  | update start len f =>
    show (m.update start len f).byteAt a = (m'.update start len f).byteAt a
    rw [Memory.byteAt_update, Memory.byteAt_update]
    split
    · rcases ha with hk | ⟨-, hf⟩
      · rw [h a hk]
      · exact hf _ _
    · next hw => exact h a (ha.resolve_right fun hn => hw hn.1)
  | copy source target len =>
    show (m.copy source target len).byteAt a = (m'.copy source target len).byteAt a
    rw [Memory.byteAt_copy, Memory.byteAt_copy]
    split
    · next hw =>
      simp only [settle, if_pos hw] at ha
      exact h _ ha
    · next hw =>
      simp only [settle, if_neg hw] at ha
      exact h a ha

/-- So do several. -/
theorem agreeOn_applyAll (h : m.AgreeOn known m') (ss : List Store) :
    (applyAll ss m).AgreeOn (settleAll known ss) (applyAll ss m') := by
  induction ss generalizing known m m' with
  | nil => exact h
  | cons s ss ih => exact ih (agreeOn_apply h s)

/-- What a plan does to a block is such a list. -/
theorem applyAll_move (p : Plan) (a : Nat) (m : Memory) :
    applyAll (move p a) m = Stack.moved p a m := by
  unfold move Stack.moved
  split <;> rfl

end Store

/-- The world after these stores, with these events on record. -/
def World.after {ρ : Type} (w : World ρ) (ss : List Store) (es : Trace) : World ρ :=
  ⟨w.resource, Store.applyAll ss w.memory, es ++ w.events⟩

/-! ## Effects -/

/-- The events of running these callbacks, latest first: up to the first that
fails. -/
def ranEvents (pending : List Registration) : Trace :=
  ((reached (pending.map Registration.callback)).map fun x => Event.ran x.1).reverse

/-- Running callbacks adds these events and does nothing else. -/
theorem World.ran_eq {ρ : Type} (pending : List Registration) (w : World ρ) :
    w.ran pending = w.after [] (ranEvents pending) := by
  unfold ran
  induction pending generalizing w with
  | nil => rfl
  | cons e es ih =>
    rw [World.walked, ranEvents, List.map_cons]
    cases he : e.handler with
    | returns =>
      rw [reached_cons_of_returns he, List.map_cons, List.reverse_cons]
      simp only [ih, after, ranEvents, List.append_assoc]
      rfl
    | fails =>
      rw [reached_cons_of_fails he]
      rfl

/-- What a deed comes to: how it ends, the allocator with its live blocks and
callbacks then, and the events it adds. -/
structure Effect where
  outcome : Except Failure Reply
  custody : Custody
  events : Trace

namespace Custody

/-- The header that a stack writes in front of a block at `a`. -/
def headerStores (c : Custody) (a : Nat) : List Store :=
  match c.allocator with
  | .stack s => [.word (a - Stack.header) s.region.cursor]
  | _ => []

/-- What a deed of this outcome on a buffer does to the memory; `after` is the
custody then. -/
def stores (b : Build) (c : Custody) (d : Deed) (out : Except Failure Reply) (after : Custody) :
    List Store :=
  match d, out with
  | .write start len f, _ => [.update start len f]
  | .call (.allocate _), .ok (.block x) => c.headerStores x.address
  | .call (.allocateBytes _), .ok (.block x) => c.headerStores x.address
  | .call (.reallocate r), .ok (.resized x) =>
    match r.plan b with
    | .ok p => Store.move p x.address
    | .error _ => []
  | .call (.register data h), .ok _ =>
    Store.entry (after.allocator.callbacks.head.getD 0) (c.allocator.callbacks.entry data h)
  | _, _ => []

/-- Whatever else is in the memory, this is what the deed comes to. -/
def Comes (b : Build) (c : Custody) (d : Deed) (e : Effect) : Prop :=
  ∀ {ρ : Type} [Resource ρ] (w : World ρ), c.Sound b w.memory →
    act b d ⟨c, w⟩ = Action.ending e.outcome
      ⟨e.custody, w.after (c.stores b d e.outcome e.custody) e.events⟩

section Buffers

variable {header : Nat} {wrap : Buffer → Allocator} {b : Build} {s s' : Buffer} {m : Memory}
variable {live newer older : List Holding} {pending : List Registration} {x : Holding}

/-- A write is what it is. -/
theorem comes_write (c : Custody) (start len : Nat) (f : Nat → UInt8 → UInt8) :
    c.Comes b (.write start len f) ⟨.ok .done, c, []⟩ := fun _ _ => rfl

/-- A clear lets go of everything, or of the callbacks only. -/
theorem comes_clear (hk : wrap = .stack ∨ wrap = .arena) :
    ∃ e, Comes b ⟨wrap s, live, pending⟩ (.call .clear) e := by
  cases hn : runResult pending with
  | ok n =>
    refine ⟨⟨.ok .done, opened (wrap { s with region := s.region.reset, callbacks := .empty }),
      .noted (some s.label) (.cleared n) :: ranEvents pending⟩, fun w hs => ?_⟩
    rcases hk with rfl | rfl
    all_goals
      have h := Buffer.clear_of_ok (Buffer.Sound.bounded hs) hn
      rw [World.ran_eq] at h
      exact act_of_ok (g := fun _ => .done) rfl h
  | error f =>
    refine ⟨⟨.error f, ⟨wrap { s with callbacks := .empty }, live, []⟩, ranEvents pending⟩,
      fun w hs => ?_⟩
    rcases hk with rfl | rfl
    all_goals
      have h := Buffer.clear_of_error (Buffer.Sound.bounded hs) hn
      rw [World.ran_eq] at h
      exact act_of_error (g := fun _ => .done) rfl h

/-- A registration puts an entry on the shelf, or is declined. -/
theorem comes_register (hk : wrap = .stack ∨ wrap = .arena)
    (hc : s.region.cursor ≤ s.region.tail) (hw : s.region.base + s.region.tail < Word.size)
    (data : Nat) (h : Handler) :
    ∃ e, Comes b ⟨wrap s, live, pending⟩ (.call (.register data h)) e := by
  rcases s.region.carveEntry_cases b hc hw with hn | ⟨a, hn, -, -⟩
  · refine ⟨⟨.error (.refused .bookkeeping), ⟨wrap s, live, pending⟩, []⟩, fun w _ => ?_⟩
    have hr := Buffer.register_of_none data h w hn
    rcases hk with rfl | rfl <;> exact act_of_error (g := fun _ => .done) rfl hr
  · refine ⟨⟨.ok .done, ⟨wrap { s with
      region := { s.region with tail := a - s.region.base }
      callbacks := s.callbacks.push a }, live, ⟨a, data, h⟩ :: pending⟩, []⟩, fun w _ => ?_⟩
    have hr := Buffer.register_of_some data h w hn
    rcases hk with rfl | rfl <;> exact act_of_ok (g := fun _ => .done) rfl hr

end Buffers

section Stacks

variable {b : Build} {s : Buffer} {m : Memory} {live newer older : List Holding}
variable {pending : List Registration} {x : Holding}

/-- A block is put on top, with its header, or declined. -/
theorem comes_stack_allocate (l : Layout) :
    ∃ e, Comes b ⟨.stack s, live, pending⟩ (.call (.allocate l)) e := by
  have hpos : 0 < max l.align Word.bytes := lt_of_lt_of_le l.align_pos (Nat.le_max_left _ _)
  rcases s.region.bump_cases b l.size hpos Stack.header with h | ⟨offset, h, hlo, -, -⟩
  · exact ⟨⟨.error (.refused .outOfMemory), ⟨.stack s, live, pending⟩,
      [.noted (some s.label) (.noRoom l.size)]⟩,
      fun w _ => act_of_error rfl (Stack.allocate_of_none l w h)⟩
  · have hoff : Stack.header ≤ offset := by omega
    refine ⟨⟨.ok (.block ⟨s.region.base + offset, l.size⟩),
      ⟨.stack { s with region := { s.region with cursor := offset + l.size } },
        ⟨⟨s.region.base + offset, l.size, l.align⟩, s.region.cursor⟩ :: live, pending⟩,
      [.noted (some s.label) (.pushed l.size (s.region.base + offset))]⟩, fun w _ => ?_⟩
    have ha := Stack.allocate_of_some l w h hoff
    -- the header lies in front of the block
    have hslot : ({ s.region with cursor := offset + l.size } : Region).addressOf
        (offset - Stack.header) = s.region.base + offset - Stack.header := by
      show s.region.base + (offset - Stack.header) = _
      omega
    rw [hslot] at ha
    exact act_of_ok rfl ha

/-- The latest block is resized, or the request is declined. -/
theorem comes_stack_reallocate_top {r : Resize} (hx : r.Describes x.toBlock) {plan : Plan}
    (hp : r.plan b = .ok plan) :
    ∃ e, Comes b ⟨.stack s, x :: older, pending⟩ (.call (.reallocate r)) e := by
  by_cases hroom : plan.newSize ≤ Stack.headroom s x.address
  · have h := fun {ρ : Type} [Resource ρ] (w : World ρ)
        (hw : Sound b w.memory ⟨.stack s, x :: older, pending⟩) =>
      Stack.reallocate_top_of_room hw hx hp hroom
    generalize Stack.granted plan (Stack.headroom s x.address) = size at h
    refine ⟨⟨.ok (.resized ⟨x.address, size, plan.oldStart x.address, false⟩),
      answered ⟨.stack s, x :: older, pending⟩ (.stack { s with
        region := { s.region with cursor := x.address - s.region.base + size } }) (.reallocate r)
        (.resized ⟨x.address, size, plan.oldStart x.address, false⟩),
      [.noted (some s.label) (.resized x.size x.address size)]⟩, fun w hw => ?_⟩
    rw [act_of_ok rfl (h w hw)]
    simp only [stores, hp, World.after, Store.applyAll_move]
    rfl
  · exact ⟨⟨.error (.refused .outOfMemory), ⟨.stack s, x :: older, pending⟩, []⟩, fun w hw =>
      act_of_error rfl (Stack.reallocate_top_of_no_room hw hx hp hroom)⟩

/-- A resize of any live block. -/
theorem comes_stack_reallocate {r : Resize} (hx : x ∈ live) (hr : r.Describes x.toBlock) :
    ∃ e, Comes b ⟨.stack s, live, pending⟩ (.call (.reallocate r)) e := by
  cases hp : r.plan b with
  | error f =>
    exact ⟨⟨.error f, ⟨.stack s, live, pending⟩, []⟩, fun w _ =>
      act_of_error rfl (Stack.reallocate_of_error w hp)⟩
  | ok plan =>
    obtain ⟨newer, older, rfl⟩ := List.append_of_mem hx
    by_cases hn : newer = []
    · subst hn
      exact comes_stack_reallocate_top hr hp
    · exact ⟨⟨.error (.refused .notStackTop), ⟨.stack s, newer ++ x :: older, pending⟩, []⟩,
        fun w hw => act_of_error rfl (Stack.reallocate_under hw hn hr hp)⟩

/-- A free of any live block: the mark that is read back is the one that was
saved. -/
theorem comes_stack_deallocate {a : Nat} {l : Layout} (hx : x ∈ live)
    (hl : Block.of a l = x.toBlock) :
    ∃ e, Comes b ⟨.stack s, live, pending⟩ (.call (.deallocate a l)) e := by
  have ha : a = x.address := congrArg Block.address hl
  have hsz : l.size = x.size := congrArg Block.size hl
  subst ha
  obtain ⟨newer, older, rfl⟩ := List.append_of_mem hx
  by_cases hn : newer = []
  · subst hn
    exact ⟨⟨.ok .done, answered ⟨.stack s, x :: older, pending⟩
        (.stack { s with region := { s.region with cursor := x.mark } })
        (.deallocate x.address l) .done,
      [.noted (some s.label) (.popped l.size x.address)]⟩,
      fun w hw => act_of_ok (g := fun _ => .done) rfl (Stack.deallocate_top hw b hsz)⟩
  · cases b with
    | debug =>
      exact ⟨⟨.error (.fault (.notTop s.label x.address)),
          ⟨.stack s, newer ++ x :: older, pending⟩, []⟩,
        fun w hw =>
          act_of_error (g := fun _ => .done) rfl (Stack.deallocate_under hw hn .debug hsz)⟩
    | release =>
      exact ⟨⟨.ok .done, answered ⟨.stack s, newer ++ x :: older, pending⟩ (.stack s)
          (.deallocate x.address l) .done,
        [.noted (some s.label) (.freeBelowTop x.address)]⟩,
        fun w hw => act_of_ok (g := fun _ => .done) rfl (Stack.deallocate_under hw hn .release hsz)⟩

end Stacks

section Arenas

variable {b : Build} {s : Buffer} {live : List Holding} {pending : List Registration}

/-- A block is placed after the others or declined. -/
theorem comes_arena_allocate (l : Layout) :
    ∃ e, Comes b ⟨.arena s, live, pending⟩ (.call (.allocate l)) e := by
  rcases s.region.bump_cases b l.size l.align_pos 0 with h | ⟨offset, h, -, -, -⟩
  · exact ⟨⟨.error (.refused .outOfMemory), ⟨.arena s, live, pending⟩, []⟩, fun w _ =>
      act_of_error rfl (Arena.allocate_of_none l w h)⟩
  · exact ⟨⟨.ok (.block ⟨s.region.base + offset, l.size⟩),
      ⟨.arena { s with region := { s.region with cursor := offset + l.size } },
        ⟨⟨s.region.base + offset, l.size, l.align⟩, s.region.cursor⟩ :: live, pending⟩,
      [.noted (some s.label) (.bumped l.size (s.region.base + offset))]⟩, fun w _ =>
      act_of_ok rfl (Arena.allocate_of_some l w h)⟩

/-- No block is resized. -/
theorem comes_arena_reallocate (r : Resize) :
    ∃ e, Comes b ⟨.arena s, live, pending⟩ (.call (.reallocate r)) e :=
  ⟨⟨.error (.refused .unsupported), ⟨.arena s, live, pending⟩,
    [.noted (some s.label) (.resizeRefused r.address)]⟩, fun w _ =>
    act_of_error (g := .resized) rfl (Arena.reallocate_apply r w)⟩

/-- No block is freed. -/
theorem comes_arena_deallocate (a : Nat) (l : Layout) :
    ∃ e, Comes b ⟨.arena s, live, pending⟩ (.call (.deallocate a l)) e := by
  cases b with
  | debug =>
    exact ⟨⟨.error (.fault (.cannotFree s.label a)), ⟨.arena s, live, pending⟩, []⟩, fun w _ =>
      act_of_error (g := fun _ => .done) rfl (Arena.deallocate_apply .debug a w)⟩
  | release =>
    exact ⟨⟨.ok .done, ⟨.arena s, live, pending⟩, [.noted (some s.label) (.freeIgnored a)]⟩,
      fun w _ => act_of_ok (g := fun _ => .done) rfl (Arena.deallocate_apply .release a w)⟩

end Arenas

section Deeds

variable {b : Build} {c : Custody} {d : Deed} {m : Memory}

/-- An allocation that gives a size only comes to what it stands for. -/
theorem comes_allocateBytes (h : ∀ l, ∃ e, c.Comes b (.call (.allocate l)) e) (size : Nat) :
    ∃ e, c.Comes b (.call (.allocateBytes size)) e := by
  cases hl : Layout.ofSize? size with
  | none =>
    exact ⟨⟨.error (.refused .zeroSize), c, []⟩, fun w _ => act_allocateBytes_of_none hl⟩
  | some l =>
    obtain ⟨e, he⟩ := h l
    refine ⟨e, fun w hs => ?_⟩
    rw [act_allocateBytes_of_some hl, he w hs]
    rcases e with ⟨_ | reply, after, events⟩
    · rfl
    · cases reply <;> rfl

/-- **What a deed on a buffer comes to does not depend on the memory**, in
which the custody is in order. -/
theorem exists_comes (hs : c.Sound b m) (hk : c.allocator.isHeap = false) (hd : c.Allows d) :
    ∃ e, c.Comes b d e := by
  obtain ⟨k, live, pending⟩ := c
  cases k with
  | heap s => simp at hk
  | stack s =>
    have hb : s.Sound Stack.header m live pending := hs
    have hw : s.region.base + s.region.tail < Word.size :=
      Nat.lt_of_le_of_lt (Nat.add_le_add_left hb.tail_le _) hb.end_lt
    rcases d with call | ⟨start, len, f⟩
    · cases call with
      | allocate l => exact comes_stack_allocate l
      | allocateBytes size => exact comes_allocateBytes comes_stack_allocate size
      | reallocate r =>
        obtain ⟨x, hx, hr⟩ := hd
        exact comes_stack_reallocate hx hr
      | deallocate a l =>
        obtain ⟨x, hx, hl⟩ := hd
        exact comes_stack_deallocate hx hl
      | clear => exact comes_clear (Or.inl rfl)
      | register data h => exact comes_register (Or.inl rfl) hb.cursor_le hw data h
    · exact ⟨_, comes_write _ start len f⟩
  | arena s =>
    have hb : s.Sound 0 m live pending := hs
    have hw : s.region.base + s.region.tail < Word.size :=
      Nat.lt_of_le_of_lt (Nat.add_le_add_left hb.tail_le _) hb.end_lt
    rcases d with call | ⟨start, len, f⟩
    · cases call with
      | allocate l => exact comes_arena_allocate l
      | allocateBytes size => exact comes_allocateBytes comes_arena_allocate size
      | reallocate r => exact comes_arena_reallocate r
      | deallocate a l => exact comes_arena_deallocate a l
      | clear => exact comes_clear (Or.inr rfl)
      | register data h => exact comes_register (Or.inr rfl) hb.cursor_le hw data h
    · exact ⟨_, comes_write _ start len f⟩

/-- A deed through a nest comes to this, whatever else is in the memory. -/
def Deals (b : Build) (nest : List Restriction) (c : Custody) (d : Deed) (e : Effect) : Prop :=
  ∀ {ρ : Type} [Resource ρ] (w : World ρ), c.Sound b w.memory →
    deal b nest d ⟨c, w⟩ = Action.ending e.outcome
      ⟨e.custody, w.after (c.stores b d e.outcome e.custody) e.events⟩

/-- A deed that the nest keeps from its allocator stores nothing. -/
theorem stores_of_silences {nest : List Restriction} (h : Restriction.Silences nest d)
    (out : Except Failure Reply) (after : Custody) : c.stores b d out after = [] := by
  rcases d with call | ⟨start, len, f⟩
  · cases call with
    | deallocate a l => rfl
    | clear => rfl
    | allocate l => exact h.elim
    | allocateBytes size => exact h.elim
    | reallocate r => exact h.elim
    | register data h => exact h.elim
  · exact h.elim

/-- **Through a nest it does not depend on the memory either.** -/
theorem exists_deals (hs : c.Sound b m) (hk : c.allocator.isHeap = false) (hd : c.Allows d)
    (nest : List Restriction) : ∃ e, c.Deals b nest d e := by
  by_cases hn : Restriction.Silences nest d
  · refine ⟨⟨.ok .done, c, [.noted none (Restriction.silence d)]⟩, fun w _ => ?_⟩
    rw [deal_of_silences hn, stores_of_silences hn]
    rfl
  · obtain ⟨e, he⟩ := exists_comes hs hk hd
    refine ⟨e, fun w hw => ?_⟩
    rw [deal_of_not_silences hn]
    exact he w hw

end Deeds

end Custody

section Runs

variable {ρ : Type} [Resource ρ] {b : Build} {B : Book ρ} {nest : List Restriction} {d : Deed}
variable {e : Effect}

/-- The stores that the next deed would make. -/
def Book.stores (b : Build) (B : Book ρ) (nest : List Restriction) (d : Deed) : List Store :=
  B.custody.stores b d (Action.ended (Custody.deal b nest d ⟨B.custody, B.world⟩)).1
    (B.turn b nest d).custody

/-- What is put on record of a deed, and what it leaves, are told by the effect. -/
theorem Book.turn_of_deals (he : B.custody.Deals b nest d e)
    (hs : B.custody.Sound b B.world.memory) :
    B.turn b nest d = ⟨⟨nest, d, e.outcome, e.events⟩ :: B.pages, e.custody,
      B.world.after (B.custody.stores b d e.outcome e.custody) e.events⟩ := by
  have hadded := Trace.added_append e.events B.world.events
  unfold turn
  rw [he B.world hs]
  cases ho : e.outcome <;> simp only [Action.ending, Action.ended, World.after, hadded]

/-- So are the stores. -/
theorem Book.stores_of_deals (he : B.custody.Deals b nest d e)
    (hs : B.custody.Sound b B.world.memory) :
    B.stores b nest d = B.custody.stores b d e.outcome e.custody := by
  unfold stores
  rw [turn_of_deals he hs, he B.world hs]
  cases e.outcome <;> rfl

end Runs

end Allocators
