import Allocators.Arena
import Allocators.Proofs.Buffer.Calls
/-!
# What the calls of an arena come to

On an arena only `allocate` does anything: a block is placed after the
others, with no header (`allocate_cases`). A resize is declined, and a
free changes nothing.
-/

namespace Allocators

variable {ρ : Type}

namespace Arena

open Buffer

variable {b : Build} {s : Buffer} {w : World ρ} {live : List Holding} {pending : List Registration}

/-- Without room no block is placed. -/
theorem allocate_of_none (l : Layout) (w : World ρ)
    (h : s.region.bump b l.size l.align 0 = .ok none) :
    allocate b l ⟨s, w⟩ = .error (.refused .outOfMemory) ⟨s, w⟩ := by
  simp only [allocate, Action.bind_apply, Action.self_apply, h, Action.ofExcept_ok,
    Action.refuse_apply]

/-- With room a block is placed. -/
theorem allocate_of_some (l : Layout) (w : World ρ) {p : Placement} {region : Region}
    (h : s.region.bump b l.size l.align 0 = .ok (some (p, region))) :
    allocate b l ⟨s, w⟩ = .ok ⟨region.addressOf p.offset, l.size⟩ ⟨{ s with region := region },
      w.record (.noted (some s.label) (.bumped l.size (region.addressOf p.offset)))⟩ := by
  simp only [allocate, Action.bind_apply, Action.self_apply, h, Action.ofExcept_ok,
    Action.note_apply, Action.become_apply, Action.pure_apply]

/-- **A block is placed after the others or declined.** -/
theorem allocate_cases (b : Build) (s : Buffer) (w : World ρ) (live : List Holding)
    (pending : List Registration) (l : Layout) :
    allocate b l ⟨s, w⟩ = .error (.refused .outOfMemory) ⟨s, w⟩ ∨
    ∃ a s' w', allocate b l ⟨s, w⟩ = .ok ⟨a, l.size⟩ ⟨s', w'⟩ ∧
      Step 0 w s live pending none w' s' (⟨⟨a, l.size, l.align⟩, s.region.cursor⟩ :: live)
        pending := by
  rcases s.region.bump_cases b l.size l.align_pos 0 with h | ⟨offset, h, hlo, hal, hhi⟩
  · exact Or.inl (allocate_of_none l w h)
  · have hlo' : s.region.base + s.region.cursor + 0 ≤ s.region.base + offset := by omega
    refine Or.inr ⟨_, _, _, allocate_of_some l w h, ?_, rfl⟩
    refine .push rfl hlo' ?_ hhi hal l.size_pos (Memory.ChangedIn.refl _ _ _)
      (fun h0 => absurd h0 (by decide))
    show s.region.base + offset + l.size = s.region.base + (offset + l.size)
    omega

/-- Nothing is resized. -/
theorem reallocate_apply (r : Resize) (w : World ρ) :
    reallocate r ⟨s, w⟩ = .error (.refused .unsupported)
      ⟨s, w.record (.noted (some s.label) (.resizeRefused r.address))⟩ := rfl

/-- Nothing is freed: a debug build finds fault, a release build goes on as
if it had not been asked. -/
theorem deallocate_apply (b : Build) (a : Nat) (w : World ρ) :
    deallocate b a ⟨s, w⟩ =
      match b with
      | .debug => .error (.fault (.cannotFree s.label a)) ⟨s, w⟩
      | .release => .ok () ⟨s, w.record (.noted (some s.label) (.freeIgnored a))⟩ := by
  cases b with
  | debug => rfl
  | release => rfl

end Arena

end Allocators
