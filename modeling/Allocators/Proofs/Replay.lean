import Allocators.Proofs.Estate
import Allocators.Resource.Pool
/-!
# Replaying runs

An order says what the next step is to be. Whether the agreement allows
the step can be decided, and what it comes to computed: `Estate.obey`
does both, and `Estate.replay` obeys orders one after the other. Each
order obeyed is a step (`step_of_obey`), so every state that orders lead
to is reachable (`reachable_of_replay`).
-/

namespace Allocators

open Trace

/-- What the next step is to be; allocators are told by their places. -/
inductive Order where
  | make (kind : AllocatorKind) (label : String) (capacity : Nat)
  | act (i : Nat) (d : Deed)
  | close (i : Nat)

namespace Estate

variable {ρ : Type} [Resource ρ] {b : Build} {E E' : Estate ρ} {mv : Move} {o : Order}

/-- The step an order asks for, if the agreement allows it and the resource
keeps its part. -/
def obey (b : Build) (E : Estate ρ) : Order → Option (Move × Estate ρ)
  | .make kind label capacity =>
    let (k, w') := Allocator.create kind label capacity E.world
    if Honoured w'.events then
      match k with
      | .ok k => some (.opened, ⟨w', .opened k E.world.events w'.events :: E.tenants, E.left⟩)
      | .error _ => some (.declined, ⟨w', E.tenants, E.left⟩)
    else
      none
  | .act i d =>
    match E.tenants.drop i with
    | [] => none
    | t :: after =>
      let (out, s) := Action.ended (Custody.act b d ⟨t.toCustody, E.world⟩)
      if t.Allows d ∧ Honoured s.world.events then
        some (.acted t d out, ⟨s.world, E.tenants.take i ++
          t.after s.allocator E.world.events s.world.events :: after, E.left⟩)
      else
        none
  | .close i =>
    match E.tenants.drop i with
    | [] => none
    | t :: after =>
      let (_, s) := Action.ended (Allocator.close ⟨t.allocator, E.world⟩)
      if Honoured s.world.events then
        some (.closed t, ⟨s.world, E.tenants.take i ++ after, t.remains ++ E.left⟩)
      else
        none

/-- Obeys orders, as long as that goes. -/
def replay (b : Build) (E : Estate ρ) : List Order → Option (Estate ρ)
  | [] => some E
  | o :: os =>
    match obey b E o with
    | some (_, E') => replay b E' os
    | none => none

/-- A list is what comes before a place, what is there, and the rest. -/
theorem eq_of_drop {α : Type} {xs ys : List α} {x : α} {i : Nat} (h : xs.drop i = x :: ys) :
    xs = xs.take i ++ x :: ys := by
  rw [← h, List.take_append_drop]

/-- **An order obeyed is a step.** -/
theorem step_of_obey (h : obey b E o = some (mv, E')) : Step b E mv E' := by
  cases o with
  | make kind label capacity =>
    unfold obey at h
    rcases hc : Allocator.create kind label capacity E.world with ⟨_ | k, w'⟩ <;>
      simp only [hc] at h <;> split at h <;> cases h
    · exact .declined hc ‹_›
    · exact .opened hc ‹_›
  | act i d =>
    unfold obey at h
    simp only at h
    split at h
    · cases h
    · next t after hd =>
      split at h
      · next hcond =>
        cases h
        exact .acted (eq_of_drop hd) hcond.1 (Action.ending_ended _).symm hcond.2
      · cases h
  | close i =>
    unfold obey at h
    simp only at h
    split at h
    · cases h
    · next t after hd =>
      split at h
      · next hcond =>
        cases h
        exact .closed (eq_of_drop hd) (Action.ending_ended _).symm hcond
      · cases h

/-- **What orders lead to is reachable.** -/
theorem reachable_of_replay {os : List Order} (h : Reachable b E)
    (hr : replay b E os = some E') : Reachable b E' := by
  induction os generalizing E with
  | nil =>
    cases hr
    exact h
  | cons o os ih =>
    unfold replay at hr
    split at hr
    · next mv E₁ ho => exact ih (h.step (step_of_obey ho)) hr
    · cases hr

/-- A small pool that has handed out nothing. -/
def start : Estate Pool := ⟨.start (Pool.ofSize 4096), [], []⟩

/-- A layout of so many bytes with the default alignment. -/
def sampleLayout : Layout := (Layout.ofSizeAlign? 24 defaultAlign).get rfl

/-- A stack with two blocks, of which the lower one has been written to, and
a callback, beside a heap with a block and a callback. -/
def sampleOrders : List Order :=
  [.make .stack "stack" 256, .act 0 (.call (.allocate sampleLayout)),
    .act 0 (.write 0x100000010 24 fun i _ => UInt8.ofNat i),
    .act 0 (.call (.register 7 .returns)), .act 0 (.call (.allocateBytes 40)),
    .make .heap "heap" 0, .act 0 (.call (.allocate sampleLayout)),
    .act 0 (.call (.register 9 .returns))]

/-- Where these orders lead to. -/
def sample (b : Build) : Estate Pool := (replay b start sampleOrders).getD start

/-- The sample is reachable, in either build. -/
theorem reachable_sample (b : Build) : Reachable b (sample b) := by
  have h : replay b start sampleOrders = some (sample b) := by
    cases b <;> rfl
  exact reachable_of_replay (.start (Pool.ofSize 4096) Memory.zero) h

end Estate

end Allocators
