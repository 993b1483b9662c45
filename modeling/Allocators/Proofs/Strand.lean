import Allocators.Proofs.Features
import Allocators.Proofs.Placement
import Allocators.Proofs.Reshape
import Allocators.Proofs.Table
/-!
# Stacks and heaps resize alike

A `Strand` is a live block in the course of a run of resizes, with the run of
calls on its allocator. It says of each byte of the block which of the bytes at
first it has been copied from, if from any.
What it says is true: such a byte still holds what the first one held
(`Strand.Keeps.next`). It is the same for a block that a stack shifts in
place as for one that a heap moves about, and so is everything else that
the holder is told: `Chronicle.resizes_agree`.
-/

namespace Allocators

open Trace

/-- A live block that is followed through a run of resizes, and the run of calls
on its allocator. Byte `i` of the block has come, through the copies that
resizes make, from byte `origin i` of the block at first. -/
structure Strand (ρ : Type) where
  book : Book ρ
  block : Block
  origin : Nat → Option Nat

/-- Two resizes of one plan have ended alike: with the error that it is, or
with blocks of the planned size in which the old block starts at the same
distance from the base. -/
inductive SameEnd : Except Failure Plan → Except Failure Reply → Except Failure Reply → Prop
  | rejected (e : Failure) : SameEnd (.error e) (.error e) (.error e)
  | granted {p : Plan} {x y : Reallocation} (start : Option Nat) : x.size = p.newSize →
      y.size = p.newSize → x.kept = y.kept → x.oldStart = start.map (x.address + ·) →
      y.oldStart = start.map (y.address + ·) →
      SameEnd (.ok p) (.ok (.resized x)) (.ok (.resized y))

/-- One resize of a block that is followed: its plan, its answer, and the block
after it. -/
structure Stretch (ρ : Type) where
  plan : Except Failure Plan
  outcome : Except Failure Reply
  strand : Strand ρ

/-- Where the old block starts is told by its distance from the new base. -/
theorem Plan.oldStart_eq (p : Plan) (base : Nat) :
    p.oldStart base = (if p.source = 0 then some p.target else none).map (base + ·) := by
  unfold oldStart
  split <;> rfl

namespace Strand

section Following

variable {ρ : Type} [Resource ρ] {b : Build} {kind : AllocatorKind} {t : Strand ρ}
variable {q : Reshape} {initial : Nat → UInt8}

/-- A block that is followed from here on. -/
def start (B : Book ρ) (x : Block) : Strand ρ :=
  ⟨B, x, fun i => if i < x.size then some i else none⟩

/-- Byte `i` of the block as it is now. -/
def byteAt (t : Strand ρ) (i : Nat) : UInt8 :=
  t.book.world.memory.byteAt (t.block.address + i)

/-- The call that makes the request about the block. -/
def deed (t : Strand ρ) (q : Reshape) : Deed := .call (.reallocate (q.about t.block))

/-- How the request ends. -/
def outcome (b : Build) (t : Strand ρ) (q : Reshape) : Except Failure Reply :=
  (Action.ended (Custody.deal b [] (t.deed q) ⟨t.book.custody, t.book.world⟩)).1

/-- The strand after a request that ended like this: a block that is granted
takes the place of the old one, and its bytes descend as those did that they
come from. -/
def follow (t : Strand ρ) (q : Reshape) (B : Book ρ) : Except Failure Reply → Strand ρ
  | .ok (.resized x) => ⟨B, ⟨x.address, x.size, t.block.align⟩,
      fun i => (q.source? t.block.size i).bind t.origin⟩
  | _ => ⟨B, t.block, t.origin⟩

/-- The run of calls with the request in it. -/
def turned (b : Build) (t : Strand ρ) (q : Reshape) : Book ρ := t.book.turn b [] (t.deed q)

/-- The strand after the request. -/
def next (b : Build) (t : Strand ρ) (q : Reshape) : Strand ρ :=
  t.follow q (t.turned b q) (t.outcome b q)

/-- What becomes of the block when these requests are made one after the other. -/
def trail (b : Build) (t : Strand ρ) : List Reshape → List (Stretch ρ)
  | [] => []
  | q :: qs => ⟨(q.about t.block).plan b, t.outcome b q, t.next b q⟩ :: (t.next b q).trail b qs

/-- There is room for the request, and the resource keeps its part in it. -/
structure Served (b : Build) (t : Strand ρ) (q : Reshape) : Prop where
  room : q.HasRoom b t.book.custody t.book.world t.block
  honoured : Honoured (t.turned b q).world.events

instance (b : Build) (t : Strand ρ) (q : Reshape) : Decidable (t.Served b q) :=
  decidable_of_iff (q.HasRoom b t.book.custody t.book.world t.block ∧
    Honoured (t.turned b q).world.events) ⟨fun h => ⟨h.1, h.2⟩, fun h => ⟨h.room, h.honoured⟩⟩

/-- Each of these requests is served when its turn comes. -/
def Supplied (b : Build) (t : Strand ρ) : List Reshape → Prop
  | [] => True
  | q :: qs => t.Served b q ∧ (t.next b q).Supplied b qs

instance decidableSupplied (b : Build) (t : Strand ρ) :
    (qs : List Reshape) → Decidable (t.Supplied b qs)
  | [] => .isTrue trivial
  | q :: qs => @instDecidableAnd _ _ inferInstance ((t.next b q).decidableSupplied b qs)

/-- A strand whose block the allocator would resize. -/
structure Ready (b : Build) (kind : AllocatorKind) (t : Strand ρ) : Prop where
  chronicle : Chronicle b Custody.Allows kind t.book
  resizable : t.book.custody.Resizable t.block
  formed : t.block.Formed

/-- The bytes that descend from these hold what they held. -/
def Keeps (initial : Nat → UInt8) (t : Strand ρ) : Prop :=
  ∀ i j, t.origin i = some j → t.byteAt i = initial j

omit [Resource ρ] in
/-- At first each byte descends from itself. -/
theorem keeps_start {B : Book ρ} {x : Block}
    (h : ∀ i, i < x.size → B.world.memory.byteAt (x.address + i) = initial i) :
    (start B x).Keeps initial := by
  intro i j hij
  obtain ⟨hi, hij⟩ := Option.ite_none_right_eq_some.1 hij
  cases hij
  exact h i hi

/-! ## One request -/

/-- How the request ends, and what it leaves, are what the deed comes to. -/
theorem Ready.reshaped (ht : t.Ready b kind) (hq : q.Exact) (hs : t.Served b q) :
    Reshaped b q t.block t.book.custody t.book.world (t.outcome b q) (t.turned b q).custody
      (t.turned b q).world := by
  obtain ⟨others, hin⟩ := ht.chronicle.inOrder Custody.steady_allows
  obtain ⟨out, c', w', hact, hr⟩ := Custody.ends_reshape hin ht.resizable ht.formed hq hs.room
  have hsil : ¬ Restriction.Silences [] (t.deed q) := id
  have hout : t.outcome b q = out := by
    unfold outcome
    rw [Custody.deal_of_not_silences hsil]
    show (Action.ended (Custody.act b (.call (.reallocate (q.about t.block))) _)).1 = out
    rw [hact]
    cases out <;> rfl
  have hturn : t.turned b q = _ := Book.turn_of_act hsil hact
  have hg := hs.honoured
  rw [hturn] at hg ⊢
  rw [hout]
  exact hr hg

/-- A request is rejected as its plan is and changes nothing, or the block is
as planned. -/
theorem Ready.next_cases (ht : t.Ready b kind) (hq : q.Exact) (hs : t.Served b q) :
    (∃ e, (q.about t.block).plan b = .error e ∧ t.outcome b q = .error e ∧
      t.next b q = ⟨t.turned b q, t.block, t.origin⟩ ∧
      (t.turned b q).custody = t.book.custody ∧ (t.turned b q).world = t.book.world) ∨
    ∃ p a, (q.about t.block).plan b = .ok p ∧
      t.outcome b q = .ok (.resized ⟨a, p.newSize, p.oldStart a, false⟩) ∧
      t.next b q = ⟨t.turned b q, ⟨a, p.newSize, t.block.align⟩,
        fun i => (q.source? t.block.size i).bind t.origin⟩ ∧
      (t.turned b q).custody.Resizable ⟨a, p.newSize, t.block.align⟩ ∧
      ∀ k, k < p.kept → (t.turned b q).world.memory.byteAt (a + p.target + k) =
        t.book.world.memory.byteAt (t.block.address + p.source + k) := by
  have hr := ht.reshaped hq hs
  unfold next
  generalize t.outcome b q = out at hr ⊢
  generalize t.turned b q = B at hr ⊢
  obtain ⟨pages, c', w'⟩ := B
  cases hr with
  | rejected hp => exact Or.inl ⟨_, hp, rfl, rfl, rfl, rfl⟩
  | granted hp hres hbytes => exact Or.inr ⟨_, _, hp, rfl, rfl, hres, hbytes⟩

/-- The strand goes on. -/
theorem Ready.next (ht : t.Ready b kind) (hq : q.Exact) (hs : t.Served b q) :
    (t.next b q).Ready b kind := by
  have hc : Chronicle b Custody.Allows kind (t.turned b q) :=
    ht.chronicle.dealt (ht.resizable.allows q) hs.honoured
  rcases ht.next_cases hq hs with ⟨e, -, -, hn, hcus, -⟩ | ⟨p, a, hp, -, hn, hres, -⟩
  · rw [hn]
    exact ⟨hc, hcus ▸ ht.resizable, ht.formed⟩
  · rw [hn]
    exact ⟨hc, hres, Or.inl (Resize.plan_sizes hp).2.2.2⟩

/-- **Bytes that descend from the first ones hold what those held**, after one
request more. -/
theorem Keeps.next (hk : t.Keeps initial) (ht : t.Ready b kind) (hq : q.Exact)
    (hs : t.Served b q) : (t.next b q).Keeps initial := by
  rcases ht.next_cases hq hs with ⟨e, -, -, hn, -, hw⟩ | ⟨p, a, hp, -, hn, -, hbytes⟩
  · rw [hn]
    intro i j hij
    show (t.turned b q).world.memory.byteAt _ = _
    rw [hw]
    exact hk i j hij
  · rw [hn]
    intro i j hij
    -- the byte comes from one of the old block, and that one descends as it does
    obtain ⟨n, hin, hnj⟩ := Option.bind_eq_some_iff.1 hij
    obtain ⟨k, hkept, rfl, rfl⟩ := Reshape.exists_of_source? hp hin
    show (t.turned b q).world.memory.byteAt (a + (p.target + k)) = _
    rw [← Nat.add_assoc, hbytes k hkept, Nat.add_assoc]
    exact hk _ j hnj

end Following

/-! ## Two strands -/

section Two

variable {ρ σ : Type} [Resource ρ] [Resource σ] {b : Build} {kind kind' : AllocatorKind}
variable {t : Strand ρ} {u : Strand σ} {q : Reshape} {qs : List Reshape} {initial : Nat → UInt8}

/-- Two blocks of one shape, whose bytes descend alike. -/
structure Alike (t : Strand ρ) (u : Strand σ) : Prop where
  size : t.block.size = u.block.size
  align : t.block.align = u.block.align
  origin : t.origin = u.origin

/-- The same was asked of two blocks and has ended alike; the blocks are of one
shape, their bytes descend alike, and both hold the same where they descend
from the bytes at first. -/
structure Agree (initial : Nat → UInt8) (x : Stretch ρ) (y : Stretch σ) : Prop where
  plan : x.plan = y.plan
  ends : SameEnd x.plan x.outcome y.outcome
  alike : x.strand.Alike y.strand
  bytes : ∀ i j, x.strand.origin i = some j →
    x.strand.byteAt i = initial j ∧ y.strand.byteAt i = initial j

/-- **One request ends alike** on two blocks that are alike, and leaves them
alike. -/
theorem Alike.next (h : t.Alike u) (ht : t.Ready b kind) (hu : u.Ready b kind') (hq : q.Exact)
    (hs : t.Served b q) (hs' : u.Served b q) :
    SameEnd ((q.about t.block).plan b) (t.outcome b q) (u.outcome b q) ∧
      (t.next b q).Alike (u.next b q) := by
  -- one plan decides for both
  have hplan := q.plan_about_congr (b := b) h.size h.align
  rcases ht.next_cases hq hs with ⟨e, hp, ho, hn, -⟩ | ⟨p, a, hp, ho, hn, -⟩
  · rcases hu.next_cases hq hs' with ⟨e', hp', ho', hn', -⟩ | ⟨p', a', hp', -⟩
    · cases (hp.symm.trans hplan).trans hp'
      rw [hp, ho, ho', hn, hn']
      exact ⟨.rejected e, h.size, h.align, h.origin⟩
    · cases (hp.symm.trans hplan).trans hp'
  · rcases hu.next_cases hq hs' with ⟨e', hp', -⟩ | ⟨p', a', hp', ho', hn', -⟩
    · cases (hp.symm.trans hplan).trans hp'
    · cases (hp.symm.trans hplan).trans hp'
      rw [hp, ho, ho', hn, hn']
      refine ⟨.granted _ rfl rfl rfl (p.oldStart_eq a) (p.oldStart_eq a'), rfl, h.align, ?_⟩
      simp only [h.size, h.origin]

/-- **Strands that are alike agree from then on**, whichever allocators their
blocks are from. -/
theorem Alike.trail (h : t.Alike u) (ht : t.Ready b kind) (hu : u.Ready b kind')
    (hk : t.Keeps initial) (hk' : u.Keeps initial) (hq : ∀ q ∈ qs, q.Exact)
    (hs : t.Supplied b qs) (hs' : u.Supplied b qs) :
    List.Forall₂ (Agree initial) (t.trail b qs) (u.trail b qs) := by
  induction qs generalizing t u with
  | nil => exact .nil
  | cons q qs ih =>
    obtain ⟨hq₁, hqs⟩ := List.forall_mem_cons.1 hq
    obtain ⟨hends, halike⟩ := h.next ht hu hq₁ hs.1 hs'.1
    have hnext := hk.next ht hq₁ hs.1
    have hnext' := hk'.next hu hq₁ hs'.1
    have hplan := q.plan_about_congr (b := b) h.size h.align
    refine .cons ⟨hplan, hends, halike, fun i j hij => ⟨hnext i j hij, hnext' i j ?_⟩⟩ ?_
    · exact halike.origin ▸ hij
    · exact ih halike (ht.next hq₁ hs.1) (hu.next hq₁ hs'.1) hnext hnext' hqs hs.2 hs'.2

end Two

end Strand

/-! ## A stack and a heap -/

section Chronicles

variable {ρ σ : Type} [Resource ρ] [Resource σ] {b : Build} {kind : AllocatorKind}
variable {B : Book ρ} {H : Book σ} {qs : List Reshape} {l : Layout} {a a' : Nat}

namespace Chronicle

/-- The allocator in a run of a stack is a stack. -/
theorem exists_stack (h : Chronicle b Custody.Allows .stack B) :
    ∃ s, B.custody.allocator = .stack s := by
  have hkind := h.kind_eq
  cases hk : B.custody.allocator with
  | stack s => exact ⟨s, rfl⟩
  | heap s =>
    have hheap := congrArg AllocatorKind.isHeap hkind
    rw [hk] at hheap
    cases (Allocator.isHeap_heap s).symm.trans hheap
  | arena s =>
    rw [hk] at hkind
    cases hkind

/-- A stack would resize its latest block. -/
theorem resizable_top {x : Block} (h : Chronicle b Custody.Allows .stack B)
    (hx : B.custody.blocks.head? = some x) : B.custody.Resizable x := by
  obtain ⟨s, hs⟩ := h.exists_stack
  unfold Custody.Resizable
  rw [hs]
  exact hx

/-- **Resizing in place and resizing by moving agree.** The latest block of a
stack and any block of a heap, of one layout and with the same bytes, are
given the same requests one after the other. As long as there is room for
them on either side, each is rejected by both with the error of its plan or
accepted by both; the blocks stay of one size, the planned one, with the old
block at the same distance from the base; and the bytes that descend from
those at first still hold what those held, in both. -/
theorem resizes_agree (h : Chronicle b Custody.Allows .stack B)
    (h' : Chronicle b Custody.Allows kind H) (hk : kind.isHeap = true) (hl : l.Made)
    (htop : B.custody.blocks.head? = some (Block.of a l)) (hlive : Block.of a' l ∈ H.custody.blocks)
    (hbytes : ∀ i, i < l.size → H.world.memory.byteAt (a' + i) = B.world.memory.byteAt (a + i))
    (hq : ∀ q ∈ qs, q.Exact) (hs : (Strand.start B (Block.of a l)).Supplied b qs)
    (hs' : (Strand.start H (Block.of a' l)).Supplied b qs) :
    List.Forall₂ (Strand.Agree fun i => B.world.memory.byteAt (a + i))
      ((Strand.start B (Block.of a l)).trail b qs)
      ((Strand.start H (Block.of a' l)).trail b qs) := by
  have hstack : (Strand.start B (Block.of a l)).Ready b .stack :=
    ⟨h, h.resizable_top htop, hl.formed a⟩
  have hkind : H.custody.allocator.isHeap = true :=
    (congrArg AllocatorKind.isHeap h'.kind_eq).trans hk
  have hheap : (Strand.start H (Block.of a' l)).Ready b kind :=
    ⟨h', Custody.resizable_of_heap hkind hlive, hl.formed a'⟩
  have halike : (Strand.start B (Block.of a l)).Alike (Strand.start H (Block.of a' l)) :=
    ⟨rfl, rfl, rfl⟩
  exact halike.trail hstack hheap (Strand.keeps_start fun _ _ => rfl) (Strand.keeps_start hbytes)
    hq hs hs'

end Chronicle

end Chronicles

/-! ## Two small blocks -/

/-- A block is taken and filled with bytes that count up. -/
def filled (a : Nat) : List (List Restriction × Deed) :=
  [([], .call (.allocate Estate.sampleLayout)),
    ([], .write a 24 fun i _ => UInt8.ofNat (i + 1))]

/-- Eight bytes are added in front; the next request is for a back that grows
and shrinks; then the front loses four bytes as the back gains six, and in the
end the back loses twenty. -/
def kneading : List Reshape :=
  [⟨⟨8, 8⟩, ⟨0, 0⟩, .single .expandFront⟩,
    ⟨⟨0, 0⟩, ⟨1, 1⟩, .ofList [.shrinkBack, .expandBack]⟩,
    ⟨⟨4, 0⟩, ⟨6, 6⟩, .ofList [.shrinkFront, .expandBack]⟩,
    ⟨⟨0, 0⟩, ⟨20, 0⟩, .single .shrinkBack⟩]

/-- The stack's block after each of these requests. -/
def kneadedStack : List (Stretch Pool) :=
  (Strand.start (newStack.turns .debug (filled 0x100000010))
    (Block.of 0x100000010 Estate.sampleLayout)).trail .debug kneading

/-- The heap's. -/
def kneadedHeap : List (Stretch Pool) :=
  (Strand.start (newHeap.turns .debug (filled 0x100000000))
    (Block.of 0x100000000 Estate.sampleLayout)).trail .debug kneading

/-- The second request is rejected by both, and ten bytes of the block at first
are left in the end, four bytes into the new one. -/
theorem resizes_agree_kneading :
    kneadedStack.map (fun x => x.outcome.isOk) = [true, false, true, true] ∧
    kneadedStack.getLast?.map (fun x => (List.range 14).filterMap x.strand.origin) =
      some (List.range 10) ∧
    kneadedHeap.getLast?.map
        (fun x => (x.strand.block.size, x.strand.byteAt 4, x.strand.byteAt 13)) =
      some (14, 1, 10) ∧
    List.Forall₂ (Strand.Agree fun i =>
      (newStack.turns .debug (filled 0x100000010)).world.memory.byteAt (0x100000010 + i))
      kneadedStack kneadedHeap := by
  have hstack := chronicle_newStack .debug Custody.Allows
  have hc : Allocator.create .heap "heap" 0 (.start (Pool.ofSize 4096)) =
      (.ok (.heap (.create "heap" false)), .start (Pool.ofSize 4096)) := rfl
  have hheap : Chronicle .debug Custody.Allows .heap newHeap := .made Accounts.nil hc trivial
  have hfair : newStack.Fair .debug Custody.Allows (filled 0x100000010) := by decide +kernel
  have hfair' : newHeap.Fair .debug Custody.Allows (filled 0x100000000) := by decide +kernel
  refine ⟨by decide +kernel, by decide +kernel, by decide +kernel, ?_⟩
  exact (hstack.turns hfair).resizes_agree (hheap.turns hfair') rfl
    (Or.inl ⟨24, defaultAlign, rfl⟩) (by decide +kernel) (by decide +kernel) (by decide +kernel)
    (by decide +kernel) (by decide +kernel) (by decide +kernel)

end Allocators
