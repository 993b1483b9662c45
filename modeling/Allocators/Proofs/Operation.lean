import Allocators.Proofs.Lockstep
/-!
# Operations one after another

An operation is anything that happens to an allocator after it has been
made: a call through a nest of restrictions, a question about its text or
its space, its end, or something done by others to the resource and the
memory. No operation is held to the agreement, so its arguments are any at
all. `Allocator.run` does operations one after the other and goes on after
failures; each is a `Stage`, with its outcome and the scene it leaves. Two
runs of the same operations are compared stage by stage:
`Allocator.run_inStep`.
-/

namespace Allocators

/-- What can happen to an allocator. -/
inductive Operation (ρ : Type) where
  /-- A call through a nest of restrictions. -/
  | call (nest : List Restriction) (c : Call)
  /-- The allocator's text is asked for. -/
  | text
  /-- How much is taken, and how much is left, is asked for. -/
  | space
  /-- The allocator ends. -/
  | close
  /-- Others do something to the resource and the memory. -/
  | outside (f : ρ → Memory → ρ × Memory)

/-- The answer to an operation. -/
inductive Answer where
  | reply (r : Reply)
  | text (t : String)
  | space (first second : Nat)
  | done
deriving DecidableEq, Repr

/-- What an operation came to: its outcome, and the scene it left. -/
structure Stage (ρ : Type) where
  outcome : Except Failure Answer
  scene : Scene Allocator ρ

/-- The two numbers an allocator tells about itself: the live blocks of a heap
and their bytes, or the bytes of a region that are taken and that are left. -/
def Allocator.space (b : Build) : Allocator → Except Failure (Nat × Nat)
  | .heap s => .ok (s.usage.allocations, s.usage.bytes)
  | .stack s => do return (← s.region.used b, ← s.region.free b)
  | .arena s => do return (← s.region.used b, ← s.region.free b)

/-- The world after others have done something in it. -/
def World.outside {ρ : Type} (f : ρ → Memory → ρ × Memory) (w : World ρ) : World ρ :=
  { w with resource := (f w.resource w.memory).1, memory := (f w.resource w.memory).2 }

namespace Operation

variable {ρ : Type} [Resource ρ]

/-- Does an operation. -/
def perform (b : Build) : Operation ρ → Action Allocator ρ Answer
  | .call nest c => Answer.reply <$> Restriction.perform b nest c
  | .text => do
    let k ← Action.self
    let m ← Action.memory
    let t ← Action.ofExcept (k.text b m)
    return .text t
  | .space => do
    let k ← Action.self
    let n ← Action.ofExcept (k.space b)
    return .space n.1 n.2
  | .close => (fun _ => Answer.done) <$> Allocator.close
  | .outside f => fun s => .ok .done { s with world := s.world.outside f }

end Operation

namespace Allocator

variable {ρ : Type} [Resource ρ]

/-- Does operations one after the other, whether they fail or not. -/
def run (b : Build) : List (Operation ρ) → Scene Allocator ρ → List (Stage ρ)
  | [], _ => []
  | o :: os, s =>
    let (outcome, t) := Action.ended (o.perform b s)
    ⟨outcome, t⟩ :: run b os t

/-! ## Two runs side by side -/

variable {b b' : Build} {g : Ledger → Ledger} {excused : Failure → Prop}
variable {T : World ρ → World ρ → Prop}

/-- The second stage is the first, on the allocator with its ledger changed
and in a related world. -/
structure InStage (g : Ledger → Ledger) (T : World ρ → World ρ → Prop) (st st' : Stage ρ) :
    Prop where
  outcome : st'.outcome = st.outcome
  allocator : st'.scene.allocator = st.scene.allocator.withLedger g
  world : T st.scene.world st'.scene.world

omit [Resource ρ] in
/-- What an allocator tells about itself. -/
theorem agrees_space (hb : Build.Covers b b' g excused) (k : Allocator) :
    Build.Agrees excused (k.space b) ((k.withLedger g).space b') := by
  cases k with
  | heap s => rfl
  | stack s =>
    refine .bind (Region.agrees_used hb _) fun used => ?_
    exact .bind (Region.agrees_free hb _) fun free => .refl _
  | arena s =>
    refine .bind (Region.agrees_used hb _) fun used => ?_
    exact .bind (Region.agrees_free hb _) fun free => .refl _

/-- **Every operation is in step with itself**, if what others do keeps the
worlds related. -/
theorem inStep_operation (hT : World.Coupling T) (hr : World.Runs T)
    (hb : Build.Covers b b' g excused) (o : Operation ρ)
    (ho : ∀ f, o = .outside f → ∀ w w', T w w' → T (w.outside f) (w'.outside f)) :
    Action.InStep (withLedger g) T excused (o.perform b) (o.perform b') := by
  cases o with
  | call nest c => exact .map _ (Restriction.inStep_perform hT hb nest c fun _ => hr)
  | text =>
    refine .self_bind fun k => .memory_bind hT fun m => ?_
    exact .bind (.ofExcept (agrees_text hb m k)) fun t => .pure _
  | space =>
    refine .self_bind fun k => ?_
    exact .bind (.ofExcept (agrees_space hb k)) fun n => .pure _
  | close => exact .map _ (inStep_close hT hr)
  | outside f => exact ⟨fun k w w' h => ⟨_, rfl, ho f rfl w w' h⟩⟩

/-- **Two runs are in step** for as long as the first comes to nothing that
would be excused. -/
theorem run_inStep (hT : World.Coupling T) (hr : World.Runs T) (hb : Build.Covers b b' g excused)
    {os : List (Operation ρ)} {k : Allocator} {w w' : World ρ}
    (ho : ∀ f, .outside f ∈ os → ∀ w w', T w w' → T (w.outside f) (w'.outside f))
    (hs : T w w')
    (he : ∀ st ∈ run b os ⟨k, w⟩, ∀ e, st.outcome = .error e → ¬ excused e) :
    List.Forall₂ (InStage g T) (run b os ⟨k, w⟩) (run b' os ⟨k.withLedger g, w'⟩) := by
  induction os generalizing k w w' with
  | nil => exact .nil
  | cons o os ih =>
    have hstep := (inStep_operation hT hr hb o fun f hf => ho f (hf ▸ List.mem_cons_self)).alike
      k w w' hs
    have hrest := fun f hf => ho f (List.mem_cons_of_mem o hf)
    unfold run at he ⊢
    cases hx : o.perform b ⟨k, w⟩ with
    | ok a t =>
      rw [hx] at hstep he
      obtain ⟨v, hy, hv⟩ := hstep
      rw [hy]
      refine .cons ⟨rfl, rfl, hv⟩ (ih hrest hv fun st hst => he st (List.mem_cons_of_mem _ hst))
    | error e t =>
      rw [hx] at hstep he
      have hne : ¬ excused e := he _ List.mem_cons_self e rfl
      obtain ⟨v, hy, hv⟩ := hstep.resolve_left hne
      rw [hy]
      refine .cons ⟨rfl, rfl, hv⟩ (ih hrest hv fun st hst => he st (List.mem_cons_of_mem _ hst))

end Allocator

end Allocators
