import Allocators.Proofs.Operation
import Allocators.Proofs.Replay
import Allocators.Proofs.Retraction
/-!
# A call that is declined changes nothing

Whatever state an allocator is in, and whichever requests its resource
declines, a call that is declined leaves the allocator, the memory and the
blocks outstanding as they were (`Restriction.untouched_of_declined`). So a
run that goes on from there is, stage by stage, the run that goes on
without the call, over any resource that cannot be told from the one that
has been asked in vain: `Restriction.noTrace_of_declined`.
-/

namespace Allocators

variable {ρ : Type}

/-- What a call that was declined leaves of a scene: all of it, but for
notices, and for requests that the resource has declined if the allocator
is one that asks for every block. -/
structure Scene.Untouched (s t : Scene Allocator ρ) : Prop where
  allocator : t.allocator = s.allocator
  world : s.world.Declined t.world
  resource : s.allocator.isHeap = false → t.world.resource = s.world.resource

/-- Nothing has happened. -/
theorem Scene.Untouched.refl (s : Scene Allocator ρ) : s.Untouched s :=
  ⟨rfl, World.lapse_declined.refl s.world, fun _ => rfl⟩

open Allocators.Action

/-! ## Calls of every kind -/

/-- A call that leaves the scene untouched when it is declined. -/
abbrev Action.LeavesUntouched {α : Type} (x : Action Allocator ρ α) : Prop :=
  ∀ s, Ensures (fun u => u = s) (fun _ _ => True) (IfRefused s.Untouched) x

/-- One that is not declined does. -/
theorem Action.Commits.leavesUntouched {α : Type} {x : Action Allocator ρ α} (h : Commits x) :
    LeavesUntouched x := fun _ => h.retracts

/-- **What every kind takes back is taken back.** -/
theorem Allocator.leavesUntouched_dispatch {α : Type} {x : Action Heap ρ α}
    {y z : Action Buffer ρ α} (hx : Retracts World.Declined x) (hy : Retracts World.Noticed y)
    (hz : Retracts World.Noticed z) : LeavesUntouched (dispatch x y z) := by
  refine fun s => ensures_dispatch ⟨fun _ _ => trivial, ?heap⟩ ⟨fun _ _ => trivial, ?stack⟩
    ⟨fun _ _ => trivial, ?arena⟩
  case heap =>
    rintro u t e rfl h r rfl
    obtain ⟨ha, hw⟩ := hx.declined World.lapse_declined h
    exact ⟨congrArg heap ha, hw, fun hk => by simp at hk⟩
  case stack =>
    rintro u t e rfl h r rfl
    obtain ⟨ha, hw⟩ := hy.declined World.lapse_noticed h
    exact ⟨congrArg stack ha, hw.toDeclined, fun _ => hw.resource⟩
  case arena =>
    rintro u t e rfl h r rfl
    obtain ⟨ha, hw⟩ := hz.declined World.lapse_noticed h
    exact ⟨congrArg arena ha, hw.toDeclined, fun _ => hw.resource⟩

namespace Restriction

variable [Resource ρ] {s t : Scene Allocator ρ} {r : Refusal} {b : Build}

/-- An allocation that is declined leaves the scene as it was. -/
theorem leavesUntouched_allocate (l : Layout) :
    LeavesUntouched (Allocator.allocate b l : Action Allocator ρ Allocation) :=
  Allocator.leavesUntouched_dispatch (Heap.retracts_allocate b l)
    (Stack.retracts_allocate World.lapse_noticed b l) (Arena.retracts_allocate b l)

/-- So does any call through a nest. -/
theorem leavesUntouched_perform (nest : List Restriction) (call : Call) :
    LeavesUntouched (perform b nest call : Action Allocator ρ Reply) := by
  intro s
  cases call with
  | allocate l => exact .map (leavesUntouched_allocate l s)
  | allocateBytes size =>
    refine .map (.bind (ensures_ofOption fun u hu => .intro ?_) fun l => ?_)
    · exact hu ▸ .refl s
    · exact leavesUntouched_allocate l s
  | reallocate x =>
    exact .map (Allocator.leavesUntouched_dispatch (Heap.retracts_reallocate b x)
      (Stack.retracts_reallocate b x) (Arena.retracts_reallocate World.lapse_noticed x) s)
  | deallocate a l =>
    refine .map (Commits.leavesUntouched ?_ s)
    by_cases hf : noFree ∈ nest
    · rw [deallocate_of_mem hf]
      exact ensures_record fun _ => id
    · rw [deallocate_of_not_mem hf]
      exact Allocator.commits_deallocate b a l
  | clear =>
    refine .map ?_
    by_cases hc : noClear ∈ nest
    · rw [clear_of_mem hc]
      exact Commits.leavesUntouched (ensures_record fun _ => id) s
    · rw [clear_of_not_mem hc]
      exact Allocator.leavesUntouched_dispatch (Heap.retracts_clear b World.lapse_declined)
        (fun _ => Buffer.commits_clear.retracts) (fun _ => Buffer.commits_clear.retracts) s
  | register data f =>
    exact .map (Allocator.leavesUntouched_dispatch (Heap.retracts_register data f)
      (Buffer.retracts_register b data f) (Buffer.retracts_register b data f) s)

/-- **A call that is declined leaves the scene as it was**, whatever the
call and whatever the scene. -/
theorem untouched_of_declined {nest : List Restriction} {call : Call}
    (h : perform b nest call s = .error (.refused r) t) : s.Untouched t :=
  (leavesUntouched_perform nest call s).failed rfl h r rfl

end Restriction

/-! ## Going on -/

/-- Resources that are related cannot be told apart by asking them. -/
structure Resource.Alike [Resource ρ] (Q : ρ → ρ → Prop) : Prop where
  take {r r' : ρ} (l : Layout) : Q r r' →
    (take r' l).1 = (take r l).1 ∧ Q (take r l).2 (take r' l).2
  give {r r' : ρ} (a : Nat) (l : Layout) : Q r r' →
    (give r' a l).1 = (give r a l).1 ∧ Q (give r a l).2 (give r' a l).2

/-- A resource cannot be told from itself. -/
theorem Resource.alike_eq [Resource ρ] : Alike (fun r r' : ρ => r' = r) where
  take _ h := h ▸ ⟨rfl, rfl⟩
  give _ _ h := h ▸ ⟨rfl, rfl⟩

/-- What others do, they do to related resources alike. -/
def Operation.Respects (Q : ρ → ρ → Prop) : Operation ρ → Prop
  | .outside f => ∀ r r' m, Q r r' → (f r' m).2 = (f r m).2 ∧ Q (f r m).1 (f r' m).1
  | _ => True

/-- The two worlds have come to the same since their traces were `es` and
`es'`: the same bytes, related resources, and the same events on top. -/
structure World.Resumed (Q : ρ → ρ → Prop) (es es' : Trace) (w w' : World ρ) : Prop where
  memory : w'.memory = w.memory
  resource : Q w.resource w'.resource
  events : ∃ new, w.events = new ++ es ∧ w'.events = new ++ es'

/-- The two stages have come to the same since then. -/
structure Stage.Resumed (Q : ρ → ρ → Prop) (es es' : Trace) (st st' : Stage ρ) : Prop where
  outcome : st'.outcome = st.outcome
  allocator : st'.scene.allocator = st.scene.allocator
  world : st.scene.world.Resumed Q es es' st'.scene.world

namespace World

variable {Q : ρ → ρ → Prop} {es es' : Trace} {w w' : World ρ}

/-- One event more on both sides. -/
theorem Resumed.record (h : w.Resumed Q es es' w') (e : Event) :
    (w.record e).Resumed Q es es' (w'.record e) := by
  obtain ⟨new, he, he'⟩ := h.events
  exact ⟨h.memory, h.resource, e :: new, congrArg (e :: ·) he, congrArg (e :: ·) he'⟩

/-- **Worlds that have come to the same stay so**, whatever is done in both. -/
theorem coupling_resumed [Resource ρ] (hQ : Resource.Alike Q) (es es' : Trace) :
    Coupling (Resumed Q es es') where
  memory h := h.memory
  noted label n h := h.record (.noted label n)
  write f h := ⟨congrArg f h.memory, h.resource, h.events⟩
  take {w w'} l h := by
    obtain ⟨ha, hq⟩ := hQ.take l h.resource
    obtain ⟨new, he, he'⟩ := h.events
    unfold World.take
    generalize Resource.take w.resource l = asked, Resource.take w'.resource l = asked' at ha hq
    obtain ⟨grant, r⟩ := asked
    obtain ⟨grant', r'⟩ := asked'
    obtain rfl : grant' = grant := ha
    cases grant' with
    | none => exact ⟨rfl, h.memory, hq, _ :: new, congrArg _ he, congrArg _ he'⟩
    | some g =>
      refine ⟨rfl, ?_, hq, _ :: new, congrArg _ he, congrArg _ he'⟩
      exact congrArg (fun m => Memory.update m g.address l.size g.contents) h.memory
  give {w w'} a l h := by
    obtain ⟨ha, hq⟩ := hQ.give a l h.resource
    obtain ⟨new, he, he'⟩ := h.events
    unfold World.give
    refine ⟨?_, hq, _ :: new, congrArg _ he, congrArg _ he'⟩
    show w'.memory.update a l.size _ = w.memory.update a l.size _
    rw [h.memory, ha]

/-- What others do to related resources alike keeps it so. -/
theorem Resumed.outside (h : w.Resumed Q es es' w') {f : ρ → Memory → ρ × Memory}
    (hf : (Operation.outside f).Respects Q) :
    (w.outside f).Resumed Q es es' (w'.outside f) := by
  obtain ⟨hm, hq⟩ := hf w.resource w'.resource w.memory h.resource
  refine ⟨?_, ?_, h.events⟩
  · show (f w'.resource w'.memory).2 = (f w.resource w.memory).2
    rw [h.memory, hm]
  · show Q (f w.resource w.memory).1 (f w'.resource w'.memory).1
    rw [h.memory]
    exact hq

end World

/-- **Runs from worlds that have come to the same are the same**, stage by
stage. -/
theorem Allocator.run_resumed [Resource ρ] {Q : ρ → ρ → Prop} (hQ : Resource.Alike Q)
    {es es' : Trace} {w w' : World ρ} (hw : w.Resumed Q es es' w') (b : Build) (k : Allocator)
    {os : List (Operation ρ)} (ho : ∀ o ∈ os, o.Respects Q) :
    List.Forall₂ (Stage.Resumed Q es es') (run b os ⟨k, w⟩) (run b os ⟨k, w'⟩) := by
  have hrun : List.Forall₂ _ (run b os ⟨k, w⟩) (run b os ⟨k.withLedger id, w'⟩) :=
    run_inStep (World.coupling_resumed hQ es es') (fun _ _ data h => h.record (.ran data))
      (.same b) (fun f hf _ _ h => h.outside (ho _ hf)) hw fun _ _ _ _ => id
  rw [withLedger_id] at hrun
  refine hrun.imp fun st st' h => ⟨h.outcome, ?_, h.world⟩
  rw [h.allocator, withLedger_id]

/-- **A call that was declined has left no trace.** The allocator with its
cursor, tail, counters, ledger and callbacks is as it was, and so is every
byte; nothing was taken from the resource or given back; and a run that
goes on from there comes to the same answers, states and events as one from
before the call, over a resource like the one that was asked in vain. -/
structure Scene.NoTrace [Resource ρ] (b : Build) (s t : Scene Allocator ρ) : Prop
    extends s.Untouched t where
  outstanding : Trace.outstanding t.world.events = Trace.outstanding s.world.events
  resumes : ∀ Q, Resource.Alike Q → ∀ r, Q t.world.resource r → ∀ os : List (Operation ρ),
    (∀ o ∈ os, o.Respects Q) →
      List.Forall₂ (Stage.Resumed Q t.world.events s.world.events) (Allocator.run b os t)
        (Allocator.run b os ⟨s.allocator, { s.world with resource := r }⟩)

/-- In particular from before the call, over the resource as the call has left
it. -/
theorem Scene.NoTrace.goes_on [Resource ρ] {b : Build} {s t : Scene Allocator ρ}
    (h : s.NoTrace b t) (os : List (Operation ρ)) :
    List.Forall₂ (Stage.Resumed (fun r r' => r' = r) t.world.events s.world.events)
      (Allocator.run b os t)
      (Allocator.run b os ⟨s.allocator, { s.world with resource := t.world.resource }⟩) := by
  refine h.resumes _ Resource.alike_eq _ rfl os fun o _ => ?_
  cases o with
  | outside f => exact fun r r' m hr => hr ▸ ⟨rfl, rfl⟩
  | _ => trivial

namespace Restriction

variable [Resource ρ] {b : Build} {nest : List Restriction} {call : Call} {r : Refusal}

/-- **Calls that are declined change nothing**: any call, on any allocator in
any state, over any resource. -/
theorem noTrace_of_declined {s t : Scene Allocator ρ}
    (h : perform b nest call s = .error (.refused r) t) : s.NoTrace b t := by
  have hu := untouched_of_declined h
  obtain ⟨new, he, hidle⟩ := hu.world.events
  refine ⟨hu, ?_, fun Q hQ r' hq os ho => ?_⟩
  · rw [he]
    exact Trace.outstanding_idle hidle
  · obtain ⟨k, w⟩ := t
    obtain rfl : k = s.allocator := hu.allocator
    have hw : w.Resumed Q w.events s.world.events { s.world with resource := r' } :=
      ⟨hu.world.memory.symm, hq, [], rfl, rfl⟩
    exact Allocator.run_resumed hQ hw b s.allocator ho

/-- A heap with a live block, over a pool that will decline one request. -/
def spent : Scene Allocator Pool :=
  let s := (Action.ended (perform .debug [] (.allocate Estate.sampleLayout)
    ⟨.heap (.create "heap" false), .start (Pool.ofSize 4096)⟩)).2
  { s with world := s.world.outside fun r m => ({ r with failing := 1 }, m) }

/-- A request for more room behind that block. -/
def growth : Call := .reallocate ((Resize.ofBlock 0x100000000 24 16).edit (.expandBack 8 8))

/-- The new block is declined, which uses the pool's one refusal up and
leaves no other trace. -/
theorem noTrace_of_declined_spent :
    let t := (Action.ended (perform .debug [] growth spent)).2
    spent.world.resource.failing = 1 ∧
      perform .debug [] growth spent = .error (.refused .outOfMemory) t ∧
      t.world.resource.failing = 0 ∧ spent.NoTrace .debug t := by
  have h : perform .debug [] growth spent = .error (.refused .outOfMemory)
      (Action.ended (perform .debug [] growth spent)).2 := rfl
  exact ⟨rfl, h, rfl, noTrace_of_declined h⟩

end Restriction

end Allocators
