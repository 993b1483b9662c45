import Allocators.Proofs.Capabilities
import Allocators.Proofs.Destruction
import Allocators.Proofs.Layouts
/-!
# What an allocator answers to a size

Whoever asks for so many bytes is granted just as many, at the default
alignment, or is told why not. There are two reasons, that nothing was asked
for and that there is no room, and `SizeAnswered` is to be told the right one.
An allocator makes a layout of the size first and says of every size that no
layout can have that it is zero, so the answer is right for the sizes that
layouts can have, and for no larger ones: `Chronicle.sizeAnswered_iff`.
-/

namespace Allocators

open Trace Allocators.Action

/-! ## The layout of a size -/

/-- Sizes have layouts up to the limit of the default alignment. -/
theorem Layout.ofSize?_eq_none_iff {size : Nat} :
    ofSize? size = none ↔ size = 0 ∨ maxSize defaultAlign < size :=
  ofSizeAlign?_eq_none_iff (by decide)

/-! ## Answers -/

/-- The answer to a request for so many bytes is a right one. -/
structure SizeAnswered (size : Nat) (out : Except Failure Reply) : Prop where
  /-- It says that nothing was asked for just if nothing was. -/
  zero : out = .error (.refused .zeroSize) ↔ size = 0
  /-- If something was, so many bytes are granted, at the default alignment, or
  there is no room. -/
  other : size ≠ 0 → (∃ a, out = .ok (.block ⟨a, size⟩) ∧ a % defaultAlign = 0) ∨
    out = .error (.refused .outOfMemory)

section Answers

variable {ρ : Type} [Resource ρ] {b : Build} {kind : AllocatorKind} {c : Custody} {w : World ρ}
variable {others : List Block}

omit [Resource ρ] in
/-- The live blocks of every allocator that is in order are aligned. -/
theorem Custody.InOrder.aligned (hin : c.InOrder b kind others w) : ∀ x ∈ c.live, x.Aligned := by
  obtain ⟨hs, ha, -⟩ := hin
  obtain ⟨k, live, pending⟩ := c
  cases k with
  | heap s =>
    intro x hx
    exact (ha.placed x.toBlock (List.mem_append_left _ (List.mem_append_left _
      (List.mem_map_of_mem hx)))).aligned
  | stack s => exact fun x hx => (Buffer.Sound.shaped hs x hx).1
  | arena s => exact fun x hx => (Buffer.Sound.shaped hs x hx).1

/-- A layout is granted, or there is no room, or the resource breaks the agreement. -/
theorem Custody.InOrder.ends_allocate (hin : c.InOrder b kind others w) (l : Layout) :
    c.Ends b (.call (.allocate l)) w fun out c' w' =>
      (∃ a, out = .ok (.block ⟨a, l.size⟩) ∧ ∃ x ∈ c'.live, x.toBlock = Block.of a l) ∨
        out = .error (.refused .outOfMemory) ∨ ¬ Honoured w'.events := by
  obtain ⟨hs, ha, -⟩ := hin
  obtain ⟨k, live, pending⟩ := c
  cases k with
  | heap s =>
    rcases Heap.allocate_cases hs (accounts_heap ha) l with
      ⟨w', h, -⟩ | ⟨a, w', h, -⟩ | ⟨e, s', w', h, hbreach⟩
    · exact .of_error rfl h rfl (Or.inr (Or.inl rfl))
    · exact .of_ok rfl h rfl (Or.inl ⟨a, rfl, _, List.mem_cons_self, rfl⟩)
    · exact .of_error rfl h rfl (Or.inr (Or.inr hbreach))
  | stack s =>
    rcases Stack.allocate_cases hs b l with ⟨w', h, -⟩ | ⟨a, s', w', h, -⟩
    · exact .of_error rfl h rfl (Or.inr (Or.inl rfl))
    · exact .of_ok rfl h rfl (Or.inl ⟨a, rfl, _, List.mem_cons_self, rfl⟩)
  | arena s =>
    rcases Arena.allocate_cases b s w live pending l with h | ⟨a, s', w', h, -⟩
    · exact .of_error rfl h rfl (Or.inr (Or.inl rfl))
    · exact .of_ok rfl h rfl (Or.inl ⟨a, rfl, _, List.mem_cons_self, rfl⟩)

/-- A size without a layout is said to be zero. -/
theorem Custody.answer_of_none {size : Nat} (hl : Layout.ofSize? size = none)
    {out : Except Failure Reply} {t : Scene Custody ρ}
    (hact : act b (.call (.allocateBytes size)) ⟨c, w⟩ = ending out t) :
    out = .error (.refused .zeroSize) := by
  rw [act_allocateBytes_of_none hl] at hact
  exact (error_eq_ending_iff.1 hact).1

/-- A size with a layout is answered rightly, by an allocator that is in order. -/
theorem Custody.InOrder.sizeAnswered (hin : c.InOrder b kind others w) {size : Nat} {l : Layout}
    (hl : Layout.ofSize? size = some l) {out : Except Failure Reply} {c' : Custody} {w' : World ρ}
    (hact : act b (.call (.allocateBytes size)) ⟨c, w⟩ = ending out ⟨c', w'⟩)
    (hg : Honoured w'.events) : SizeAnswered size out := by
  rw [act_allocateBytes_of_some hl] at hact
  obtain ⟨rfl, halign, -⟩ := Layout.ofSizeAlign?_eq_some_iff.1 hl
  have hne : l.size ≠ 0 := l.size_pos.ne'
  rcases (hin.ends_allocate l).elim hact with ⟨a, rfl, x, hx, hxa⟩ | rfl | hbreach
  · -- the new block is live in an allocator that is in order again
    have hafter := (steady_allows c w others (.call (.allocate l)) hin trivial).elim hact hg
    have haligned : (Block.of a l).Aligned := hxa ▸ hafter.aligned x hx
    exact ⟨⟨nofun, fun h => absurd h hne⟩, fun _ => Or.inl ⟨a, rfl, halign ▸ haligned⟩⟩
  · exact ⟨⟨nofun, fun h => absurd h hne⟩, fun _ => Or.inr rfl⟩
  · exact absurd hg hbreach

end Answers

/-! ## At every moment -/

variable {ρ : Type} [Resource ρ] {b : Build} {kind : AllocatorKind} {B : Book ρ}

/-- **A size is answered rightly just if a layout can have it or it is zero**: every
larger one is said to be zero, by every kind of allocator, at every moment of every
run of calls on it and through any nest of restrictions. -/
theorem Chronicle.sizeAnswered_iff (h : Chronicle b Custody.Allows kind B)
    (nest : List Restriction) (size : Nat) {out : Except Failure Reply} {t : Scene Custody ρ}
    (hd : Custody.deal b nest (.call (.allocateBytes size)) ⟨B.custody, B.world⟩ = ending out t)
    (hg : Honoured t.world.events) :
    (SizeAnswered size out ↔ size ≤ maxSize defaultAlign) ∧
      (maxSize defaultAlign < size → out = .error (.refused .zeroSize)) := by
  obtain ⟨others, hin⟩ := h.inOrder Custody.steady_allows
  rw [Custody.deal_of_not_silences id] at hd
  have hlarge : maxSize defaultAlign < size → out = .error (.refused .zeroSize) := fun hlt =>
    Custody.answer_of_none (Layout.ofSize?_eq_none_iff.2 (Or.inr hlt)) hd
  refine ⟨⟨fun hs => ?_, fun hle => ?_⟩, hlarge⟩
  · by_contra hn
    have hzero := hs.zero.1 (hlarge (Nat.lt_of_not_le hn))
    omega
  · cases hl : Layout.ofSize? size with
    | none =>
      have hzero : size = 0 := (Layout.ofSize?_eq_none_iff.1 hl).resolve_right (Nat.not_lt.2 hle)
      have hout := Custody.answer_of_none hl hd
      exact ⟨⟨fun _ => hzero, fun _ => hout⟩, fun hne => absurd hzero hne⟩
    | some l => exact hin.sizeAnswered hl hd hg

/-- A new stack says of half the address space that it is nothing. -/
theorem not_sizeAnswered_half : ∃ t,
    Custody.deal .debug [] (.call (.allocateBytes 0x8000000000000000))
        ⟨newStack.custody, newStack.world⟩ = .error (.refused .zeroSize) t ∧
      ¬ SizeAnswered 0x8000000000000000 (.error (.refused .zeroSize)) :=
  ⟨_, rfl, fun h => absurd (h.zero.1 rfl) (by decide)⟩

/-- It has room for sixteen bytes, and answers as it should. -/
theorem sizeAnswered_newStack : ∃ out t,
    Custody.deal .debug [.noFree] (.call (.allocateBytes 16)) ⟨newStack.custody, newStack.world⟩ =
        ending out t ∧
      out = .ok (.block ⟨0x100000010, 16⟩) ∧ (SizeAnswered 16 out ↔ 16 ≤ maxSize defaultAlign) :=
  ⟨.ok (.block ⟨0x100000010, 16⟩), _, rfl, rfl, ((chronicle_newStack .debug _).sizeAnswered_iff
    [.noFree] 16 rfl (by decide +kernel)).1⟩

end Allocators
