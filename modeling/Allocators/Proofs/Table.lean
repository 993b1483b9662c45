import Allocators.Proofs.Chronicle
import Allocators.Proofs.Replay
/-!
# The ledger of a debug build

In a debug build a heap lists its live blocks, and looks there before it
gives a block back or moves it. Callers may then try what they like: with
blocks that were freed before, that never were, or that are described with
another size or alignment. Whatever they try, the ledger lists just the
blocks that were handed out and not taken back, a block that it does not
list is a fault, and the fault comes before anything has changed and before
the resource has heard of it: `Chronicle.ledger_lists_live_blocks`.
-/

namespace Allocators

open Trace

variable {ρ : Type} [Resource ρ]

namespace Heap

variable {s : Heap} {w : World ρ} {live rest : List Block} {pending : List Registration}
variable {l old : Layout} {a : Nat} {r : Resize} {plan : Plan}

/-! ## Blocks that are not listed -/

omit [Resource ρ] in
/-- A block that is not listed is a fault, and the look changes nothing. -/
theorem check_of_not_listed (hf : s.ledger.find? a ≠ some l) (w : World ρ) :
    ∃ f, check .debug a l ⟨s, w⟩ = .error (.fault f) ⟨s, w⟩ := by
  have hcheck : ∃ f, s.ledger.check a l = .error (.fault f) := by
    unfold Ledger.check
    cases h : s.ledger.find? a with
    | none => exact ⟨_, rfl⟩
    | some live => exact ⟨_, if_neg fun he => hf (h.trans (congrArg some he))⟩
  obtain ⟨f, hc⟩ := hcheck
  refine ⟨f, ?_⟩
  simp only [check, Action.bind_apply, Action.self_apply, hc, Action.ofExcept_error]

/-- A block that is not listed is not freed, and the attempt changes nothing. -/
theorem deallocate_of_not_listed (hf : s.ledger.find? a ≠ some l) (w : World ρ) :
    ∃ f, deallocate .debug a l ⟨s, w⟩ = .error (.fault f) ⟨s, w⟩ := by
  obtain ⟨f, hc⟩ := check_of_not_listed hf w
  by_cases hm : a % l.align = 0
  · refine ⟨f, ?_⟩
    simp only [deallocate, release, strike, Action.bind_apply, Action.self_apply,
      Build.require_of _ _ hm, Action.ofExcept_ok, hc]
  · refine ⟨.misaligned s.label a l.align, ?_⟩
    simp only [deallocate, Action.bind_apply, Action.self_apply, Build.require, if_neg hm,
      Action.ofExcept_error]

/-- Nor is it moved. -/
theorem reallocate_of_not_listed (hp : r.plan .debug = .ok plan)
    (ho : Layout.ofSizeAlign? r.size r.align = some old)
    (hf : s.ledger.find? r.address ≠ some old) (w : World ρ) :
    ∃ f, reallocate .debug r ⟨s, w⟩ = .error (.fault f) ⟨s, w⟩ := by
  obtain ⟨f, hc⟩ := check_of_not_listed hf w
  by_cases hm : r.address % r.align = 0
  · refine ⟨f, ?_⟩
    simp only [reallocate, Action.bind_apply, Action.self_apply, hp, Action.ofExcept_ok, ho,
      Action.ofOption_some, Build.require_of _ _ hm, hc]
  · refine ⟨.misaligned s.label r.address r.align, ?_⟩
    simp only [reallocate, Action.bind_apply, Action.self_apply, hp, Action.ofExcept_ok, ho,
      Action.ofOption_some, Build.require, if_neg hm, Action.ofExcept_error]

/-! ## Blocks that are listed -/

variable (hs : s.Sound .debug w.memory live pending) (ha : Accounts w.events (live ++ rest))

include hs ha

omit [Resource ρ] in
/-- A listed block starts at a multiple of its alignment. -/
theorem aligned_of_listed (hf : s.ledger.find? a = some l) : a % l.align = 0 :=
  (ha.placed (Block.of a l) (List.mem_append_left _ ((hs.listed rfl a l).1 hf))).aligned

/-- **Only blocks that are not listed are faults**, to a free. -/
theorem deallocate_fault_iff :
    (∃ f t, deallocate .debug a l ⟨s, w⟩ = .error (.fault f) t) ↔ s.ledger.find? a ≠ some l := by
  constructor
  · rintro ⟨f, t, h⟩ hf
    rw [deallocate_apply (aligned_of_listed hs ha hf) fun _ => hf] at h
    cases h
  · intro hf
    obtain ⟨f, h⟩ := deallocate_of_not_listed hf w
    exact ⟨f, _, h⟩

/-- **And to a resize** that is a plan for a block of some layout, if the
resource keeps its part: the second look at the old block, when the new
one has been handed out, finds what the first did. -/
theorem reallocate_fault_iff (hp : r.plan .debug = .ok plan)
    (ho : Layout.ofSizeAlign? r.size r.align = some old)
    (hg : Honoured (Action.ended (reallocate .debug r ⟨s, w⟩)).2.world.events) :
    (∃ f t, reallocate .debug r ⟨s, w⟩ = .error (.fault f) t) ↔
      s.ledger.find? r.address ≠ some old := by
  constructor
  · rintro ⟨f, t, h⟩ hf
    have hal := aligned_of_listed hs ha hf
    rw [(Layout.ofSizeAlign?_eq_some_iff.1 ho).2.1] at hal
    have hfound : Build.debug = .debug → s.ledger.find? r.address = some old := fun _ => hf
    cases hn : Layout.ofSizeAlign? plan.newSize r.align with
    | none =>
      rw [reallocate_of_no_new hp ho hal hfound w hn] at h
      cases h
    | some new =>
      rcases allocate_cases hs ha new with
        ⟨w', halloc, -⟩ | ⟨x, w', halloc, hfresh, -⟩ | ⟨e, s', w', halloc, hbreach⟩
      · rw [reallocate_of_declined hp ho hal hfound hn halloc] at h
        cases h
      · cases hc : plan.nocopy with
        | true =>
          rw [reallocate_of_nocopy hp ho hal hfound hn halloc hc] at h
          cases h
        | false =>
          rw [reallocate_of_copy hp ho hal hfound hn halloc hc (find?_entered hfresh hfound)] at h
          cases h
      · rw [reallocate_of_declined hp ho hal hfound hn halloc] at hg
        exact absurd hg hbreach
  · intro hf
    obtain ⟨f, h⟩ := reallocate_of_not_listed hp ho hf w
    exact ⟨f, _, h⟩

end Heap

/-! ## Whatever callers try -/

namespace Custody

/-- What callers may try on a heap: calls with any arguments, as long as a
callback's data is a word, and writes into blocks they hold. -/
def Tries (c : Custody) : Deed → Prop
  | .call (.register data _) => data < Word.size
  | .call _ => True
  | .write start len f => c.Allows (.write start len f)

instance (c : Custody) (d : Deed) : Decidable (c.Tries d) :=
  match d with
  | .call (.register data _) => inferInstanceAs (Decidable (data < Word.size))
  | .call (.allocate _) => .isTrue trivial
  | .call (.allocateBytes _) => .isTrue trivial
  | .call (.reallocate _) => .isTrue trivial
  | .call (.deallocate _ _) => .isTrue trivial
  | .call .clear => .isTrue trivial
  | .write start len f => inferInstanceAs (Decidable (c.Allows (.write start len f)))

variable {s : Heap} {w : World ρ} {live : List Holding} {pending : List Registration} {d : Deed}

/-- A deed that the agreement does not allow is found out by a debug build,
and changes nothing. -/
theorem act_of_not_allowed (hs : s.Sound .debug w.memory (live.map Holding.toBlock) pending)
    (ht : Tries ⟨.heap s, live, pending⟩ d) (hd : ¬ Allows ⟨.heap s, live, pending⟩ d) :
    ∃ e, act .debug d ⟨⟨.heap s, live, pending⟩, w⟩ =
      .error e ⟨⟨.heap s, live, pending⟩, w⟩ := by
  have hlisted : ∀ a l, s.ledger.find? a = some l → ∃ x ∈ live, Block.of a l = x.toBlock := by
    intro a l hf
    obtain ⟨x, hx, he⟩ := List.mem_map.1 ((hs.listed rfl a l).1 hf)
    exact ⟨x, hx, he.symm⟩
  cases d with
  | write start len f => exact absurd ht hd
  | call call =>
    cases call with
    | allocate l => exact absurd trivial hd
    | allocateBytes size => exact absurd trivial hd
    | clear => exact absurd trivial hd
    | register data f => exact absurd ht hd
    | deallocate a l =>
      obtain ⟨f, h⟩ := Heap.deallocate_of_not_listed (fun hf => hd (hlisted a l hf)) w
      exact ⟨.fault f, act_of_error (g := fun _ => .done) rfl h⟩
    | reallocate r =>
      cases hp : r.plan .debug with
      | error e => exact ⟨e, act_of_error rfl (Heap.reallocate_of_error w hp)⟩
      | ok plan =>
        cases ho : Layout.ofSizeAlign? r.size r.align with
        | none => exact ⟨_, act_of_error rfl (Heap.reallocate_of_no_old w hp ho)⟩
        | some old =>
          obtain ⟨hsize, halign, -⟩ := Layout.ofSizeAlign?_eq_some_iff.1 ho
          have hf : s.ledger.find? r.address ≠ some old := by
            intro hf
            obtain ⟨x, hx, he⟩ := hlisted _ _ hf
            refine hd ⟨x, hx, congrArg Block.address he, ?_, ?_⟩
            · exact hsize.symm.trans (congrArg Block.size he)
            · exact halign.symm.trans (congrArg Block.align he)
          obtain ⟨f, h⟩ := Heap.reallocate_of_not_listed hp ho hf w
          exact ⟨.fault f, act_of_error rfl h⟩

/-- **Whatever is tried on a heap in a debug build leaves all in order.** -/
theorem steady_tries {kind : AllocatorKind} (hk : kind.isHeap = true) :
    Steady ρ .debug kind Tries := by
  intro c w others d h ht
  by_cases hd : c.Allows d
  · exact steady_allows c w others d h hd
  · obtain ⟨k, live, pending⟩ := c
    obtain ⟨s, rfl⟩ := Allocator.exists_heap (h.kind.trans hk)
    obtain ⟨e, hact⟩ := act_of_not_allowed h.sound ht hd
    exact ⟨.error e, _, w, hact, fun _ => h⟩

/-- The ledger of a heap in a debug build lists the live blocks, and finds
every other block that callers free or resize. -/
structure Tabled (c : Custody) (w : World ρ) (s : Heap) : Prop where
  /-- The ledger lists just the blocks handed out and not taken back, with
  their layouts. -/
  listed : ∀ a l, s.ledger.find? a = some l ↔ Block.of a l ∈ c.blocks
  /-- Those, and the entries of callbacks, are the heap's part of what is
  outstanding; nothing else has ever been given back to the resource. -/
  accounts : ∃ others, Accounts w.events (c.blocks ++ c.entries ++ others)
  /-- A free is a fault just for a block that is not listed. -/
  free : ∀ a l, (∃ f t, Allocator.deallocate .debug a l ⟨.heap s, w⟩ = .error (.fault f) t) ↔
    s.ledger.find? a ≠ some l
  /-- That leaves everything as it was. -/
  free_kept : ∀ a l f t, Allocator.deallocate .debug a l ⟨.heap s, w⟩ = .error (.fault f) t →
    t = ⟨.heap s, w⟩
  /-- So is a resize that is a plan for a block of some layout, if the
  resource keeps its part. -/
  resize : ∀ r plan old, r.plan .debug = .ok plan →
    Layout.ofSizeAlign? r.size r.align = some old →
    Honoured (Action.ended (Allocator.reallocate .debug r ⟨.heap s, w⟩)).2.world.events →
      ((∃ f t, Allocator.reallocate .debug r ⟨.heap s, w⟩ = .error (.fault f) t) ↔
        s.ledger.find? r.address ≠ some old)
  /-- That, too, leaves everything as it was. -/
  resize_kept : ∀ r plan old, r.plan .debug = .ok plan →
    Layout.ofSizeAlign? r.size r.align = some old → s.ledger.find? r.address ≠ some old →
      ∃ f, Allocator.reallocate .debug r ⟨.heap s, w⟩ = .error (.fault f) ⟨.heap s, w⟩

/-- A heap in order is one with its ledger. -/
theorem tabled_of_sound {others : List Block} {s : Heap} {live : List Holding}
    {pending : List Registration} {w : World ρ}
    (hs : s.Sound .debug w.memory (live.map Holding.toBlock) pending)
    (ha : Accounts w.events (footprint ⟨.heap s, live, pending⟩ ++ others)) :
    Tabled ⟨.heap s, live, pending⟩ w s := by
  have ha' : Accounts w.events
      (live.map Holding.toBlock ++ (pending.map Registration.block ++ others)) := by
    rw [← List.append_assoc]
    exact ha
  have hfree : ∀ a l,
      (∃ f t, Allocator.deallocate .debug a l ⟨.heap s, w⟩ = .error (.fault f) t) ↔
        s.ledger.find? a ≠ some l := by
    intro a l
    rw [← Heap.deallocate_fault_iff hs ha']
    exact Action.on_fault_iff
  refine ⟨hs.listed rfl, ⟨others, ha⟩, hfree, fun a l f t h => ?_,
    fun r plan old hp ho hg => ?_, fun r plan old hp ho hf => ?_⟩
  · obtain ⟨f', h'⟩ := Heap.deallocate_of_not_listed ((hfree a l).1 ⟨f, t, h⟩) w
    obtain ⟨u, hu, rfl⟩ := Action.on_eq_error_iff.1 h
    cases h'.symm.trans hu
    rfl
  · have he : (Action.ended (Allocator.reallocate .debug r ⟨.heap s, w⟩)).2.world =
        (Action.ended (Heap.reallocate .debug r ⟨s, w⟩)).2.world := Action.world_ended_on
    rw [he] at hg
    rw [← Heap.reallocate_fault_iff hs ha' hp ho hg]
    exact Action.on_fault_iff
  · obtain ⟨f, h⟩ := Heap.reallocate_of_not_listed hp ho hf w
    exact ⟨f, Action.on_eq_error_iff.2 ⟨_, h, rfl⟩⟩

end Custody

/-- **The ledger of a debug build lists just the live blocks**, whatever callers
have tried, and what it does not list is a fault: at every moment of every run of
calls on a heap. -/
theorem Chronicle.ledger_lists_live_blocks {kind : AllocatorKind} (hk : kind.isHeap = true)
    {B : Book ρ} (h : Chronicle .debug Custody.Tries kind B) :
    ∃ s, B.custody.allocator = .heap s ∧ B.custody.Tabled B.world s := by
  obtain ⟨others, hin⟩ := h.inOrder (Custody.steady_tries hk)
  obtain ⟨pages, ⟨k, live, pending⟩, w⟩ := B
  obtain ⟨s, rfl⟩ := Allocator.exists_heap (hin.kind.trans hk)
  exact ⟨s, rfl, Custody.tabled_of_sound hin.sound hin.accounts⟩

/-- A heap over a small pool that has handed out nothing. -/
def newHeap : Book Pool :=
  ⟨[], .opened (.heap (.create "heap" false)), .start (Pool.ofSize 4096)⟩

/-- A block is taken and freed, then freed again and resized, and another is
freed with a wrong size. -/
def misuse : List (List Restriction × Deed) :=
  [([], .call (.allocate Estate.sampleLayout)),
    ([], .call (.deallocate 0x100000000 Estate.sampleLayout)),
    ([], .call (.deallocate 0x100000000 Estate.sampleLayout)),
    ([], .call (.reallocate (.ofBlock 0x100000000 24 16))),
    ([], .call (.allocate Estate.sampleLayout)), ([], .call (.deallocate 0x100000020 Layout.entry))]

/-- Three of these are faults, one block is live after them, and the ledger
is right. -/
theorem ledger_lists_live_blocks_misuse :
    ((newHeap.turns .debug misuse).pages.map fun p => p.outcome.isOk) =
      [false, true, false, false, true, true] ∧
    (newHeap.turns .debug misuse).custody.blocks = [Block.of 0x100000020 Estate.sampleLayout] ∧
    ∃ s, (newHeap.turns .debug misuse).custody.allocator = .heap s ∧
      (newHeap.turns .debug misuse).custody.Tabled (newHeap.turns .debug misuse).world s := by
  have hc : Allocator.create .heap "heap" 0 (.start (Pool.ofSize 4096)) =
      (.ok (.heap (.create "heap" false)), .start (Pool.ofSize 4096)) := rfl
  have hmade : Chronicle .debug Custody.Tries .heap newHeap := .made Accounts.nil hc trivial
  have hfair : newHeap.Fair .debug Custody.Tries misuse := by decide +kernel
  exact ⟨by decide +kernel, by decide +kernel,
    Chronicle.ledger_lists_live_blocks rfl (hmade.turns hfair)⟩

end Allocators
