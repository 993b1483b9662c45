import Allocators.Restriction
import Allocators.Proofs.Chain
/-!
# Custody — an allocator, its live blocks and its registered callbacks

A `Custody` is the state that the theorems about one allocator are about: the
allocator as it runs, the blocks that it has handed out and that have not been
freed since, and the callbacks that have been registered on it and not run.
The two lists are what callers can tell from the answers they got; no
allocator reads them. Both are newest first, so the head of either is the
latest. A deed is a call on the allocator or a write by a caller into a live
block. `Allows` is what the documented contract asks of callers, called the
agreement throughout, and `act` makes the deed and brings both lists up to
date with its answer. A call that fails leaves the live blocks as they were.
-/

namespace Allocators

/-- A live block, with the offset its allocator's cursor had just before
the block was allocated. -/
structure Holding extends Block where
  mark : Nat
deriving DecidableEq, Repr

namespace Holding

variable {as bs : List Holding} {x : Holding}

/-- What is erased at a block's address is the block, if the others start
elsewhere. -/
theorem eraseP_split (hne : ∀ y ∈ as ++ bs, y.address ≠ x.address) :
    (as ++ x :: bs).eraseP (·.address = x.address) = as ++ bs := by
  rw [List.eraseP_append_right _ fun y hy => by simpa using hne y (List.mem_append_left _ hy),
    List.eraseP_cons_of_pos (by simp)]

/-- And so is what is changed there. -/
theorem map_split (f : Holding → Holding) (hne : ∀ y ∈ as ++ bs, y.address ≠ x.address) :
    ((as ++ x :: bs).map fun y => if y.address = x.address then f y else y) = as ++ f x :: bs := by
  have hid : ∀ ys : List Holding, (∀ y ∈ ys, y.address ≠ x.address) →
      (ys.map fun y => if y.address = x.address then f y else y) = ys := by
    intro ys hys
    rw [List.map_congr_left fun y hy => if_neg (hys y hy), List.map_id']
  rw [List.map_append, List.map_cons, if_pos rfl,
    hid as fun y hy => hne y (List.mem_append_left _ hy),
    hid bs fun y hy => hne y (List.mem_append_right _ hy)]

end Holding

/-- Whether allocators of the kind draw on the resource block by block. -/
def AllocatorKind.isHeap : AllocatorKind → Bool
  | heap => true
  | zeroed => true
  | stack => false
  | arena => false

namespace Allocator

/-- The cursor, for the kinds that have one. -/
def cursor : Allocator → Nat
  | heap _ => 0
  | stack s => s.region.cursor
  | arena s => s.region.cursor

/-- The callbacks. -/
def callbacks : Allocator → Callbacks
  | heap s => s.callbacks
  | stack s => s.callbacks
  | arena s => s.callbacks

/-- The allocator's kind. -/
def kind : Allocator → AllocatorKind
  | heap s => if s.zeroed then .zeroed else .heap
  | stack _ => .stack
  | arena _ => .arena

/-- Whether the allocator draws on the resource block by block. -/
def isHeap (k : Allocator) : Bool := k.kind.isHeap

/-- A heap does, with zeros or without. -/
@[simp] theorem isHeap_heap (s : Heap) : (heap s).isHeap = true := by
  show (if s.zeroed then AllocatorKind.zeroed else .heap).isHeap = true
  cases s.zeroed <;> rfl

/-- A stack does not. -/
@[simp] theorem isHeap_stack (s : Buffer) : (stack s).isHeap = false := rfl

/-- Nor does an arena. -/
@[simp] theorem isHeap_arena (s : Buffer) : (arena s).isHeap = false := rfl

/-- Of two allocators of one kind both do, or neither. -/
theorem isHeap_congr {k k' : Allocator} (h : k.kind = k'.kind) : k.isHeap = k'.isHeap :=
  congrArg AllocatorKind.isHeap h

/-- Only heaps do. -/
theorem exists_heap {k : Allocator} (h : k.isHeap = true) : ∃ s, k = heap s := by
  cases k with
  | heap s => exact ⟨s, rfl⟩
  | stack s => cases h
  | arena s => cases h

/-- What does not is a buffer. -/
theorem exists_buffer {k : Allocator} (h : k.isHeap = false) : ∃ s, k = stack s ∨ k = arena s := by
  cases k with
  | heap s => simp at h
  | stack s => exact ⟨s, Or.inl rfl⟩
  | arena s => exact ⟨s, Or.inr rfl⟩

/-- The live blocks after one has been handed back: a heap frees any, a
stack frees the latest and leaves others, an arena frees none. -/
def freed : Allocator → Nat → List Holding → List Holding
  | heap _, a, live => live.eraseP (·.address = a)
  | stack _, a, x :: live => if x.address = a then live else x :: live
  | stack _, _, [] => []
  | arena _, _, live => live

end Allocator

/-- An allocator with its live blocks and its registered callbacks, both
newest first. -/
structure Custody where
  allocator : Allocator
  live : List Holding
  pending : List Registration

/-- A call on an allocator, or a write by the holder of a block. -/
inductive Deed where
  | call (c : Call)
  | write (start len : Nat) (f : Nat → UInt8 → UInt8)

/-- A request is about this block, with the size it was granted and the
alignment it was asked for. -/
def Resize.Describes (r : Resize) (x : Block) : Prop :=
  r.address = x.address ∧ r.size = x.size ∧ r.align = x.align

instance (r : Resize) (x : Block) : Decidable (r.Describes x) :=
  inferInstanceAs (Decidable (_ ∧ _))

namespace Custody

/-- A new allocator: nothing is live and nothing registered. -/
def opened (k : Allocator) : Custody := ⟨k, [], []⟩

/-- What the agreement asks of callers: blocks are resized, freed and
written only while they are live, and described as what they are. A
callback's data is a word. -/
def Allows (c : Custody) : Deed → Prop
  | .call (.reallocate r) => ∃ x ∈ c.live, r.Describes x.toBlock
  | .call (.deallocate a l) => ∃ x ∈ c.live, Block.of a l = x.toBlock
  | .call (.register data _) => data < Word.size
  | .call _ => True
  | .write start len _ => ∃ x ∈ c.live, x.address ≤ start ∧ start + len ≤ x.address + x.size

instance (c : Custody) (d : Deed) : Decidable (c.Allows d) :=
  match d with
  | .call (.reallocate r) => inferInstanceAs (Decidable (∃ x ∈ c.live, r.Describes x.toBlock))
  | .call (.deallocate a l) => inferInstanceAs (Decidable (∃ x ∈ c.live, Block.of a l = x.toBlock))
  | .call (.register data _) => inferInstanceAs (Decidable (data < Word.size))
  | .call (.allocate _) => .isTrue trivial
  | .call (.allocateBytes _) => .isTrue trivial
  | .call .clear => .isTrue trivial
  | .write start len _ =>
    inferInstanceAs (Decidable (∃ x ∈ c.live, x.address ≤ start ∧ start + len ≤ x.address + x.size))

/-- The custody after a resize: a block that was kept stays beside the new
one, else the new one takes its place. -/
def resized (c : Custody) (after : Allocator) (r : Resize) (x : Reallocation) : Custody where
  allocator := after
  live :=
    if x.kept then
      ⟨⟨x.address, x.size, r.align⟩, c.allocator.cursor⟩ :: c.live
    else
      c.live.map fun y =>
        if y.address = r.address then { y with address := x.address, size := x.size } else y
  pending := c.pending

/-- The custody after a call has been answered, with the allocator as it is
then. -/
def answered (c : Custody) (after : Allocator) : Call → Reply → Custody
  | .allocate l, .block x =>
    ⟨after, ⟨⟨x.address, x.size, l.align⟩, c.allocator.cursor⟩ :: c.live, c.pending⟩
  | .allocateBytes _, .block x =>
    ⟨after, ⟨⟨x.address, x.size, defaultAlign⟩, c.allocator.cursor⟩ :: c.live, c.pending⟩
  | .reallocate r, .resized x => c.resized after r x
  | .deallocate a _, _ => ⟨after, c.allocator.freed a c.live, c.pending⟩
  | .clear, _ => if c.allocator.isHeap then ⟨after, c.live, c.pending⟩ else ⟨after, [], []⟩
  | .register data h, _ =>
    ⟨after, c.live, ⟨after.callbacks.head.getD 0, data, h⟩ :: c.pending⟩
  | _, _ => ⟨after, c.live, c.pending⟩

/-- The custody after a call has failed. A clear that fails in a callback
has let go of all the callbacks, and of nothing else. -/
def failed (c : Custody) (after : Allocator) : Call → Custody
  | .clear => ⟨after, c.live, if c.allocator.isHeap then c.pending else []⟩
  | _ => ⟨after, c.live, c.pending⟩

/-- The allocator is the one that answered. -/
@[simp] theorem allocator_answered (c : Custody) (k : Allocator) (call : Call) (x : Reply) :
    (c.answered k call x).allocator = k := by
  unfold answered
  split
  case h_5 => split <;> rfl
  all_goals rfl

/-- Or the one that failed. -/
@[simp] theorem allocator_failed (c : Custody) (k : Allocator) (call : Call) :
    (c.failed k call).allocator = k := by
  cases call <;> rfl

/-- To clear a heap lets go of nothing. -/
@[simp] theorem answered_clear_heap (s : Heap) (live : List Holding)
    (pending : List Registration) (k : Allocator) (x : Reply) :
    (⟨.heap s, live, pending⟩ : Custody).answered k .clear x = ⟨k, live, pending⟩ :=
  if_pos (Allocator.isHeap_heap s)

/-- Nor does a clear of one that fails. -/
@[simp] theorem failed_clear_heap (s : Heap) (live : List Holding) (pending : List Registration)
    (k : Allocator) :
    (⟨.heap s, live, pending⟩ : Custody).failed k .clear = ⟨k, live, pending⟩ := by
  simp [failed]

/-- A call that fails leaves the live blocks as they were. -/
@[simp] theorem live_failed (c : Custody) (k : Allocator) (call : Call) :
    (c.failed k call).live = c.live := by
  cases call <;> rfl

variable {ρ : Type} [Resource ρ]

/-- Makes a deed. -/
def act (b : Build) : Deed → Action Custody ρ Reply
  | .write start len f => fun s =>
    .ok .done { s with world := s.world.write fun m => m.update start len f }
  | .call call => fun s =>
    let c := s.allocator
    match Restriction.perform b [] call ⟨c.allocator, s.world⟩ with
    | .ok reply t => .ok reply ⟨c.answered t.allocator call reply, t.world⟩
    | .error e t => .error e ⟨c.failed t.allocator call, t.world⟩

/-- The live blocks. -/
def blocks (c : Custody) : List Block := c.live.map Holding.toBlock

/-- The entries of the registered callbacks. -/
def entries (c : Custody) : List Block := c.pending.map Registration.block

/-- The blocks of the resource that the allocator answers for: a heap's
live blocks and entries, or the one region of the other kinds. -/
def footprint (c : Custody) : List Block :=
  match c.allocator with
  | .heap _ => c.blocks ++ c.entries
  | .stack s => [Block.of s.region.base s.region.layout]
  | .arena s => [Block.of s.region.base s.region.layout]

/-- What is left of that once the allocator has ended: the blocks that are
still live, and what a callback that fails keeps from being given back. -/
def remains (c : Custody) : List Block :=
  match c.allocator with
  | .heap _ => c.blocks ++ (unreturned c.pending).map Registration.block
  | _ => if ∀ e ∈ c.pending, e.Returns then [] else c.footprint

end Custody

/-- The deed is about this live block, by its holder's leave: a write into
it, or a resize of it that is granted. -/
def Deed.Touches (d : Deed) (out : Except Failure Reply) (x : Block) : Prop :=
  match d with
  | .write start len _ => x.address ≤ start ∧ start + len ≤ x.address + x.size
  | .call (.reallocate r) => r.Describes x ∧ ∃ y, out = .ok (.resized y)
  | .call _ => False

/-! ## How deeds end -/

namespace Custody

variable {ρ : Type} [Resource ρ] {b : Build} {d : Deed} {c c' : Custody} {w w' : World ρ}
variable {P : Except Failure Reply → Custody → World ρ → Prop}

/-- The deed ends with an outcome, a custody and a world for which `P`
holds. -/
def Ends (b : Build) (d : Deed) (c : Custody) (w : World ρ)
    (P : Except Failure Reply → Custody → World ρ → Prop) : Prop :=
  ∃ out c' w', act b d ⟨c, w⟩ = Action.ending out ⟨c', w'⟩ ∧ P out c' w'

/-- A deed ends in one way. -/
theorem Ends.elim (h : Ends b d c w P) {out : Except Failure Reply}
    (hd : act b d ⟨c, w⟩ = Action.ending out ⟨c', w'⟩) : P out c' w' := by
  obtain ⟨out₁, c₁, w₁, h₁, hP⟩ := h
  rw [hd] at h₁
  cases out <;> cases out₁ <;> cases h₁ <;> exact hP

/-- A call that an allocator of some kind answers. -/
theorem act_of_map_ok {α : Type} {x : Action Allocator ρ α} {g : α → Reply} {call : Call} {a : α}
    {t : Scene Allocator ρ} (hp : Restriction.perform b [] call = g <$> x)
    (h : x ⟨c.allocator, w⟩ = .ok a t) :
    act b (.call call) ⟨c, w⟩ = .ok (g a) ⟨c.answered t.allocator call (g a), t.world⟩ := by
  simp only [act, hp, Action.map_apply, h]

/-- One that fails there. -/
theorem act_of_map_error {α : Type} {x : Action Allocator ρ α} {g : α → Reply} {call : Call}
    {e : Failure} {t : Scene Allocator ρ} (hp : Restriction.perform b [] call = g <$> x)
    (h : x ⟨c.allocator, w⟩ = .error e t) :
    act b (.call call) ⟨c, w⟩ = .error e ⟨c.failed t.allocator call, t.world⟩ := by
  simp only [act, hp, Action.map_apply, h]

section Calls

variable {κ α : Type} {part k : κ} {whole : κ → Allocator} {action : Action κ ρ α} {call : Call}
variable {g : α → Reply} {live : List Holding} {pending : List Registration}

/-- A call that is answered by an allocator of a kind. -/
theorem act_of_ok {a : α} (hp : Restriction.perform b [] call ⟨whole part, w⟩ =
      (g <$> Action.on part whole action) ⟨whole part, w⟩)
    (h : action ⟨part, w⟩ = .ok a ⟨k, w'⟩) :
    act b (.call call) ⟨⟨whole part, live, pending⟩, w⟩ =
      .ok (g a) ⟨answered ⟨whole part, live, pending⟩ (whole k) call (g a), w'⟩ := by
  rw [Action.map_apply, Action.on_of_ok h] at hp
  simp only [act, hp]

/-- A call that fails. -/
theorem act_of_error {e : Failure} (hp : Restriction.perform b [] call ⟨whole part, w⟩ =
      (g <$> Action.on part whole action) ⟨whole part, w⟩)
    (h : action ⟨part, w⟩ = .error e ⟨k, w'⟩) :
    act b (.call call) ⟨⟨whole part, live, pending⟩, w⟩ =
      .error e ⟨failed ⟨whole part, live, pending⟩ (whole k) call, w'⟩ := by
  rw [Action.map_apply, Action.on_of_error h] at hp
  simp only [act, hp]

/-- How a call ends that is answered. -/
theorem Ends.of_ok {a : α} (hp : Restriction.perform b [] call ⟨whole part, w⟩ =
      (g <$> Action.on part whole action) ⟨whole part, w⟩)
    (h : action ⟨part, w⟩ = .ok a ⟨k, w'⟩)
    (hc : answered ⟨whole part, live, pending⟩ (whole k) call (g a) = c')
    (hP : P (.ok (g a)) c' w') : Ends b (.call call) ⟨whole part, live, pending⟩ w P :=
  ⟨.ok (g a), c', w', hc ▸ act_of_ok hp h, hP⟩

/-- How a call ends that fails. -/
theorem Ends.of_error {e : Failure} (hp : Restriction.perform b [] call ⟨whole part, w⟩ =
      (g <$> Action.on part whole action) ⟨whole part, w⟩)
    (h : action ⟨part, w⟩ = .error e ⟨k, w'⟩)
    (hc : failed ⟨whole part, live, pending⟩ (whole k) call = c')
    (hP : P (.error e) c' w') : Ends b (.call call) ⟨whole part, live, pending⟩ w P :=
  ⟨.error e, c', w', hc ▸ act_of_error hp h, hP⟩

end Calls

/-- An allocation of a size that no block can have is declined. -/
theorem act_allocateBytes_of_none {size : Nat} (hl : Layout.ofSize? size = none) :
    act b (.call (.allocateBytes size)) ⟨c, w⟩ = .error (.refused .zeroSize) ⟨c, w⟩ := by
  simp only [act, Restriction.perform, Action.map_apply, Allocator.allocateBytes,
    Action.bind_apply, hl, Action.ofOption_none]
  rfl

/-- One of any other size is an allocation with the default alignment. -/
theorem act_allocateBytes_of_some {size : Nat} {l : Layout} (hl : Layout.ofSize? size = some l) :
    act b (.call (.allocateBytes size)) ⟨c, w⟩ = act b (.call (.allocate l)) ⟨c, w⟩ := by
  have ha : l.align = defaultAlign := (Layout.ofSizeAlign?_eq_some_iff.1 hl).2.1
  have hp : Restriction.perform b [] (.allocateBytes size) ⟨c.allocator, w⟩ =
      Restriction.perform b [] (.allocate l) ⟨c.allocator, w⟩ := by
    simp only [Restriction.perform, Action.map_apply, Allocator.allocateBytes, Action.bind_apply,
      hl, Action.ofOption_some]
  simp only [act, hp]
  cases Restriction.perform b [] (.allocate l) ⟨c.allocator, w⟩ with
  | ok reply t => cases reply <;> simp only [answered, ha]
  | error e t => rfl

/-- An allocation that gives a size only is one with the default alignment,
or none if no block can have the size. -/
theorem Ends.allocateBytes (h : ∀ l, Ends b (.call (.allocate l)) c w P)
    (hr : P (.error (.refused .zeroSize)) c w) (size : Nat) :
    Ends b (.call (.allocateBytes size)) c w P := by
  cases hl : Layout.ofSize? size with
  | none => exact ⟨.error (.refused .zeroSize), c, w, act_allocateBytes_of_none hl, hr⟩
  | some l =>
    obtain ⟨out, c', w', hact, hP⟩ := h l
    exact ⟨out, c', w', (act_allocateBytes_of_some hl).trans hact, hP⟩

end Custody

end Allocators
