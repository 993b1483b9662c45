import Allocators.Proofs.Operation
import Allocators.Proofs.Replay
/-!
# Debug and release builds agree

A debug build checks what its callers promise and every sum it forms, and a
heap lists its live blocks in a ledger; a release build does none of that.
As long as the checks find nothing, they are not noticed: over any
operations in which a debug build finds no fault of its own, a release
build comes to the same outcomes, by way of the same cursors, tails,
counters and callbacks, with the same bytes in memory and the same events
in the same order (`Allocator.run_release_eq`). Operations need not keep to the
agreement, the resource may do anything, and callbacks may fail.
-/

namespace Allocators

variable {ρ : Type}

/-- The allocator without its ledger, as a release build has it. -/
def Allocator.unlisted (k : Allocator) : Allocator := k.withLedger fun _ => Ledger.empty

namespace Stage

/-- The stage with the allocator as a release build has it. -/
def unlisted (st : Stage ρ) : Stage ρ :=
  ⟨st.outcome, ⟨st.scene.allocator.unlisted, st.scene.world⟩⟩

/-- The operation ended in a fault that is no callback's. -/
def OwnFault (st : Stage ρ) : Prop :=
  match st.outcome with
  | .ok _ => False
  | .error e => e.Own

instance (st : Stage ρ) : Decidable st.OwnFault :=
  match h : st.outcome with
  | .ok _ => .isFalse fun ho => by simp only [OwnFault, h] at ho
  | .error e => decidable_of_iff e.Own (by simp only [OwnFault, h])

end Stage

namespace Allocator

variable [Resource ρ] {k : Allocator} {w w' : World ρ} {os : List (Operation ρ)}

/-- **What a debug build does without a fault of its own, a release build
does too**, from any state and whatever the ledger says. -/
theorem run_unlisted (h : ∀ st ∈ run .debug os ⟨k, w⟩, ¬ st.OwnFault) :
    run .release os ⟨k.unlisted, w⟩ = (run .debug os ⟨k, w⟩).map Stage.unlisted := by
  have hown : ∀ st ∈ run .debug os ⟨k, w⟩, ∀ e, st.outcome = .error e → ¬ e.Own := by
    intro st hst e he ho
    refine h st hst ?_
    rw [Stage.OwnFault, he]
    exact ho
  have hrun := run_inStep World.coupling_eq (fun _ _ _ h => h ▸ rfl) .release
    (fun f _ _ _ h => h ▸ rfl) (rfl : w = w) hown
  have hsame : ∀ st st' : Stage ρ, InStage (fun _ => Ledger.empty) (fun w w' => w' = w) st st' →
      st.unlisted = st' := by
    rintro st ⟨outcome, allocator, world⟩ ⟨ho, ha, hw⟩
    cases ho
    cases ha
    cases hw
    rfl
  have hmap := List.forall₂_map_left_iff.2 (hrun.imp hsame)
  rw [List.forall₂_eq_eq_eq] at hmap
  exact hmap.symm

/-- A new allocator has listed nothing. -/
theorem unlisted_of_create {kind : AllocatorKind} {label : String} {capacity : Nat}
    (hc : create kind label capacity w = (.ok k, w')) : k.unlisted = k := by
  rcases create_cases kind label capacity w with
    ⟨zeroed, h⟩ | ⟨r, w₁, h, -⟩ | ⟨wrap, a, l, w₁, hw, h, -⟩
  · cases h.symm.trans hc
    rfl
  · cases h.symm.trans hc
  · cases h.symm.trans hc
    rcases hw with rfl | rfl <;> rfl

/-- **Debug and release builds agree**, on an allocator of any kind and over
any operations during which the debug build finds no fault of its own: every
operation has the same outcome, and leaves the same allocator, up to the
ledger, in the same world. -/
theorem run_release_eq {kind : AllocatorKind} {label : String} {capacity : Nat}
    (hc : create kind label capacity w = (.ok k, w')) (os : List (Operation ρ))
    (h : ∀ st ∈ run .debug os ⟨k, w'⟩, ¬ st.OwnFault) :
    run .release os ⟨k, w'⟩ = (run .debug os ⟨k, w'⟩).map Stage.unlisted := by
  have hrun := run_unlisted h
  rw [unlisted_of_create hc] at hrun
  exact hrun

/-- A stack of 256 bytes. -/
def small : Allocator :=
  .stack ⟨"stack", .fresh 0x100000000 ((Layout.ofSize? 256).get rfl), Callbacks.empty⟩

/-- The world it was made in. -/
def smallWorld : World Pool := (create .stack "stack" 256 (.start (Pool.ofSize 4096))).2

/-- A resize of a block that is not on top, one of a block that never was, a
clear in which a callback fails, and an end in which another does. -/
def misuses : List (Operation Pool) :=
  [.call [] (.allocate Estate.sampleLayout), .call [] (.allocateBytes 40),
    .call [] (.reallocate (.ofBlock 0x100000010 24 16)), .call [] (.reallocate (.ofBlock 0x10 8 8)),
    .call [] (.register 7 .fails), .text, .call [.noClear] .clear, .call [] .clear,
    .call [] (.register 8 .fails), .outside fun r m => ({ r with failing := 1 }, m), .space, .close]

/-- Four of these fail, and a debug build finds none of them to be a fault. -/
theorem run_release_eq_misuses :
    create .stack "stack" 256 (.start (Pool.ofSize 4096)) = (.ok small, smallWorld) ∧
    ((run .debug misuses ⟨small, smallWorld⟩).filter fun st => st.outcome.isOk = false).length = 4 ∧
    (∀ st ∈ run .debug misuses ⟨small, smallWorld⟩, ¬ st.OwnFault) ∧
    run .release misuses ⟨small, smallWorld⟩ =
      (run .debug misuses ⟨small, smallWorld⟩).map Stage.unlisted := by
  have hc : create .stack "stack" 256 (.start (Pool.ofSize 4096)) = (.ok small, smallWorld) := rfl
  have hown : ∀ st ∈ run .debug misuses ⟨small, smallWorld⟩, ¬ st.OwnFault := by decide +kernel
  exact ⟨hc, by decide +kernel, hown, run_release_eq hc misuses hown⟩

end Allocator

end Allocators
