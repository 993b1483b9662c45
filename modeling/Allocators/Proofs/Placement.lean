import Allocators.Proofs.Twins
/-!
# Placement does not depend on data

A buffer keeps its headers and its entries in the memory that its callers
write to. None of what they write reaches those words: two allocators over
one region to which the same calls are made answer alike, place alike, run
the same callbacks with the same data and come to the same end, whatever
is in the memory at first, whatever holders write into their blocks and
whenever they do: `Chronicle.exchanges_eq_of_requests_eq`.
-/

namespace Allocators

open Trace

/-- Whether the deed is a call on the allocator. -/
def Deed.isCall : Deed → Bool
  | .call _ => true
  | .write _ _ _ => false

/-- What was asked for, and through which restrictions. -/
def Page.request (p : Page) : List Restriction × Deed := (p.nest, p.deed)

namespace Book

variable {ρ : Type} {B : Book ρ}

/-- The calls on the allocator with their answers, latest first: what was asked,
how it ended, and the events it added. Writes are left out. -/
def exchanges (B : Book ρ) : List Page := B.pages.filter fun p => p.deed.isCall

/-- The calls that were made, latest first. -/
def requests (B : Book ρ) : List (List Restriction × Deed) := B.exchanges.map Page.request

variable [Resource ρ]

/-- What is requested is what is done, short of writes. -/
theorem requests_turns (b : Build) (B : Book ρ) (ds : List (List Restriction × Deed)) :
    (B.turns b ds).requests = (ds.filter fun e => e.2.isCall).reverse ++ B.requests := by
  induction ds generalizing B with
  | nil => rfl
  | cons e ds ih =>
    obtain ⟨nest, d⟩ := e
    rw [turns, ih]
    cases d with
    | call call =>
      rw [List.filter_cons_of_pos rfl, List.reverse_cons, List.append_assoc]
      rfl
    | write start len f =>
      rw [List.filter_cons_of_neg (by simp [Deed.isCall])]
      rfl

end Book

section Chronicles

variable {ρ σ : Type} [Resource ρ] [Resource σ] {b : Build} {kind : AllocatorKind}
variable {B : Book ρ} {B' : Book σ}

/-- A buffer that has just been made is empty. -/
theorem Allocator.emptied_of_create {label : String} {capacity : Nat} {k : Allocator}
    {w w' : World ρ} (hk : kind.isHeap = false)
    (hc : create kind label capacity w = (.ok k, w')) : k.emptied = k := by
  rcases create_cases kind label capacity w with
    ⟨zeroed, h⟩ | ⟨r, w₁, h, -⟩ | ⟨wrap, a, l, w₁, hw, h, -, -, -⟩
  · cases h.symm.trans hc
    have hheap : (heap (.create label zeroed)).isHeap = kind.isHeap :=
      congrArg AllocatorKind.isHeap (kind_create hc)
    simp [hk] at hheap
  · cases h.symm.trans hc
  · cases h.symm.trans hc
    rcases hw with rfl | rfl <;> rfl

namespace Chronicle

/-- The allocator in a run of a kind with a region is a buffer in order. -/
theorem sound_buffer (h : Chronicle b Custody.Allows kind B) (hk : kind.isHeap = false) :
    B.custody.Sound b B.world.memory ∧ B.custody.allocator.isHeap = false := by
  obtain ⟨others, hin⟩ := h.inOrder Custody.steady_allows
  exact ⟨hin.sound, hin.kind.trans hk⟩

/-- **A buffer is as the last call left it**, or as it was made: nothing that is
written or done by others in the meantime changes what is held of it. -/
theorem last_call (h : Chronicle b Custody.Allows kind B) (hk : kind.isHeap = false) :
    (B.exchanges = [] ∧ B.custody = .opened B.custody.allocator.emptied) ∨
    ∃ (B₀ : Book ρ) (nest : List Restriction) (call : Call), Chronicle b Custody.Allows kind B₀ ∧
      B₀.custody.Allows (.call call) ∧
      B.exchanges = (B₀.turn b nest (.call call)).exchanges ∧
      B.custody = (B₀.turn b nest (.call call)).custody := by
  induction h with
  | made ha hc hg =>
    exact Or.inl ⟨rfl, congrArg Custody.opened (Allocator.emptied_of_create hk hc).symm⟩
  | @dealt B nest d h hd hg ih =>
    rcases d with call | ⟨start, len, f⟩
    · exact Or.inr ⟨B, nest, call, h, hd, rfl, rfl⟩
    · exact ih
  | meanwhile _ _ _ ih => exact ih

/-- **The same calls are answered alike**: two allocators over one region, and
under one label, to which the same calls have been made have the same
exchanges, and the same is held of them. -/
theorem twins (h : Chronicle b Custody.Allows kind B) (h' : Chronicle b Custody.Allows kind B')
    (hk : kind.isHeap = false)
    (hregion : B.custody.allocator.emptied = B'.custody.allocator.emptied)
    (hcalls : B.requests = B'.requests) :
    B.exchanges = B'.exchanges ∧ B.custody = B'.custody := by
  induction h generalizing B' with
  | made ha hc hg =>
    have hnone : B'.exchanges = [] := List.map_eq_nil_iff.1 hcalls.symm
    rcases h'.last_call hk with ⟨-, hcus⟩ | ⟨B₀, nest, call, -, -, he, -⟩
    · rw [hcus, ← hregion]
      exact ⟨hnone.symm, congrArg Custody.opened (Allocator.emptied_of_create hk hc).symm⟩
    · cases hnone.symm.trans he
  | @dealt B nest d h hd hg ih =>
    rcases d with call | ⟨start, len, f⟩
    · rcases h'.last_call hk with ⟨hnone, -⟩ | ⟨B₀, nest', call', h₀, hd₀, he, hcus⟩
      · -- the other book has a call too
        have hne : (B.turn b nest (.call call)).requests = [] := by
          rw [hcalls, Book.requests, hnone, List.map_nil]
        cases hne
      · have hs := h.sound_buffer hk
        have hs₀ := h₀.sound_buffer hk
        have hreq : (nest, Deed.call call) :: B.requests = (nest', .call call') :: B₀.requests :=
          hcalls.trans (congrArg (List.map Page.request) he)
        obtain ⟨hreq, hcalls₀⟩ := List.cons.inj hreq
        cases hreq
        have hregion₀ : B.custody.allocator.emptied = B₀.custody.allocator.emptied := by
          rw [← (Book.turn_kept hs.1 hs.2 hd nest).2, ← (Book.turn_kept hs₀.1 hs₀.2 hd₀ nest).2,
            ← hcus]
          exact hregion
        obtain ⟨hex, hc⟩ := ih h₀ hregion₀ hcalls₀
        -- before the last call the two were twins, so it was answered alike
        have htwins : Book.Twins b B B₀ := ⟨hc, hs.2, hs.1, hs₀.1⟩
        obtain ⟨hlast, ⟨page, hp, hp₀⟩, -⟩ := htwins.turn hd nest
        rw [he, hcus]
        refine ⟨?_, hlast.custody⟩
        unfold Book.exchanges at hex ⊢
        rw [hp, hp₀, List.filter_cons, List.filter_cons, hex]
    · exact ih h' hregion hcalls
  | meanwhile _ _ _ ih => exact ih h' hregion hcalls

/-- **Placement is independent of data.** Two allocators over one region, to
which the same calls have been made, have answered every one of them alike,
with the same events: blocks at the same addresses and of the same sizes, the
same refusals and faults, the same callbacks with the same data. Nothing that
can be seen of them tells them apart. Whatever was in the memory at first,
and whatever holders have written into their blocks, is left open. -/
theorem exchanges_eq_of_requests_eq (h : Chronicle b Custody.Allows kind B)
    (h' : Chronicle b Custody.Allows kind B') (hk : kind.isHeap = false)
    (hregion : B.custody.allocator.emptied = B'.custody.allocator.emptied)
    (hcalls : B.requests = B'.requests) :
    B.exchanges = B'.exchanges ∧ B.LooksLike b B' := by
  obtain ⟨hex, hc⟩ := h.twins h' hk hregion hcalls
  have hs := h.sound_buffer hk
  have htwins : Book.Twins b B B' := ⟨hc, hs.2, hs.1, (h'.sound_buffer hk).1⟩
  exact ⟨hex, htwins.looksLike⟩

end Chronicle

end Chronicles

/-! ## Two stacks on one plot -/

/-- A resource that grants one place, with the bytes that are there. -/
structure Plot where
  address : Nat

instance : Resource Plot where
  take p _ := (some ⟨p.address, fun _ x => x⟩, p)
  give p _ _ := (fun _ x => x, p)

/-- A small stack on a plot, in a memory that holds this byte everywhere. -/
def plotStack (x : UInt8) : Book Plot :=
  ⟨[], .opened (.stack ⟨"stack", .fresh 0x100000000 smallRegion, .empty⟩),
    ((⟨⟨0x100000000⟩, ⟨fun _ => x⟩, []⟩ : World Plot).take smallRegion).2⟩

/-- A stack on a plot has just been made. -/
theorem chronicle_plotStack (x : UInt8) : Chronicle .debug Custody.Allows .stack (plotStack x) := by
  have hc : Allocator.create .stack "stack" 96 (⟨⟨0x100000000⟩, ⟨fun _ => x⟩, []⟩ : World Plot) =
      (.ok (plotStack x).custody.allocator, (plotStack x).world) := rfl
  have hg : Honoured [.taken smallRegion (some 0x100000000)] := by decide +kernel
  exact .made Accounts.nil hc hg

/-- Two blocks and a callback; the first block is filled and then loses its
front, the second is freed, and all is cleared. -/
def firstCourse : List (List Restriction × Deed) :=
  [([], .call (.allocate Estate.sampleLayout)), ([], .write 0x100000010 24 fun _ _ => 1),
    ([], .call (.register 7 .returns)),
    ([], .call (.reallocate ((Resize.ofBlock 0x100000010 24 16).edit (.shrinkFront 8)))),
    ([], .call (.allocate Estate.sampleLayout)),
    ([], .call (.deallocate 0x100000030 Estate.sampleLayout)), ([], .call .clear)]

/-- The same calls, with other bytes written at other times. -/
def secondCourse : List (List Restriction × Deed) :=
  [([], .call (.allocate Estate.sampleLayout)), ([], .call (.register 7 .returns)),
    ([], .write 0x100000018 8 fun i _ => UInt8.ofNat (40 + i)),
    ([], .call (.reallocate ((Resize.ofBlock 0x100000010 24 16).edit (.shrinkFront 8)))),
    ([], .call (.allocate Estate.sampleLayout)), ([], .write 0x100000030 24 fun _ _ => 0xff),
    ([], .call (.deallocate 0x100000030 Estate.sampleLayout)), ([], .call .clear)]

/-- The memories differ from beginning to end, and the answers do not. -/
theorem exchanges_eq_of_requests_eq_courses :
    ((plotStack 0).turns .debug firstCourse).world.memory.byteAt 0x100000010 = 1 ∧
    ((plotStack 9).turns .debug secondCourse).world.memory.byteAt 0x100000010 = 40 ∧
    ((plotStack 0).turns .debug firstCourse).exchanges =
      ((plotStack 9).turns .debug secondCourse).exchanges ∧
    ((plotStack 0).turns .debug firstCourse).LooksLike .debug
      ((plotStack 9).turns .debug secondCourse) := by
  have hfair : (plotStack 0).Fair .debug Custody.Allows firstCourse := by decide +kernel
  have hfair' : (plotStack 9).Fair .debug Custody.Allows secondCourse := by decide +kernel
  have hkept := Book.turns_kept ((chronicle_plotStack 0).sound_buffer rfl).1 rfl hfair
  have hkept' := Book.turns_kept ((chronicle_plotStack 9).sound_buffer rfl).1 rfl hfair'
  have hregion : ((plotStack 0).turns .debug firstCourse).custody.allocator.emptied =
      ((plotStack 9).turns .debug secondCourse).custody.allocator.emptied :=
    hkept.2.trans hkept'.2.symm
  refine ⟨by decide +kernel, by decide +kernel, ?_⟩
  refine Chronicle.exchanges_eq_of_requests_eq ((chronicle_plotStack 0).turns hfair)
    ((chronicle_plotStack 9).turns hfair') rfl hregion ?_
  rw [Book.requests_turns, Book.requests_turns]
  rfl

end Allocators
