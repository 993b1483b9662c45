import Allocators.Restriction
import Allocators.Proofs.Coupling
import Allocators.Proofs.Heap.Calls
/-!
# Every call in lockstep

Each call of an allocator is in step with itself, in worlds that a coupling
relates: in one build on both sides, or in a debug build on the first side
and a release build on the second (`Build.Covers`). In the second case the
ledger is left out on the second side, and what the first side finds fault
with by itself is excused; a release build forms the same sums and
differences where a debug build forms them at all, and its other paths are
those that a debug build never takes. Both cases are one argument, made
call by call in the order of their steps, up to `Restriction.inStep_perform`.
-/

namespace Allocators

/-- What an allocator finds fault with by itself, and no callback. -/
def Failure.Own : Failure → Prop
  | .refused _ => False
  | .fault f => f.isCallback = false

instance (e : Failure) : Decidable e.Own :=
  match e with
  | .refused _ => .isFalse id
  | .fault f => inferInstanceAs (Decidable (f.isCallback = false))

/-- The two sides, with what becomes of the first side's ledger on the
second, and which failures of the first side are excused. -/
inductive Build.Covers : Build → Build → (Ledger → Ledger) → (Failure → Prop) → Prop
  /-- One build on both sides. -/
  | same (b : Build) : Covers b b id fun _ => False
  /-- A debug build beside a release build. -/
  | release : Covers .debug .release (fun _ => Ledger.empty) Failure.Own

/-- The heap with its ledger changed. -/
def Heap.withLedger (g : Ledger → Ledger) (s : Heap) : Heap := { s with ledger := g s.ledger }

/-- The allocator with its ledger changed, if it has one. -/
def Allocator.withLedger (g : Ledger → Ledger) : Allocator → Allocator
  | heap s => heap (s.withLedger g)
  | stack s => stack s
  | arena s => arena s

/-- Nothing is changed. -/
@[simp] theorem Allocator.withLedger_id (k : Allocator) : k.withLedger id = k := by
  cases k <;> rfl

variable {ρ : Type} {b b' : Build} {g : Ledger → Ledger} {excused : Failure → Prop}

section Values

variable (hb : Build.Covers b b' g excused)

include hb

/-! ## Checked values -/

/-- A promise is looked at on both sides, or on the first only. -/
theorem Build.agrees_require (p : Prop) [Decidable p] {f : Fault} (hf : f.isCallback = false) :
    Agrees excused (b.require p f) (b'.require p f) := by
  cases hb with
  | same b => exact .refl _
  | release =>
    by_cases h : p
    · rw [require_of _ f h]
      rfl
    · rw [require, if_neg h]
      exact Or.inl hf

/-- A sum that is a word on the first side is that word on the second. -/
theorem Build.agrees_add (x y : Nat) : Agrees excused (b.add x y) (b'.add x y) := by
  cases hb with
  | same b => exact .refl _
  | release =>
    by_cases h : x + y < Word.size
    · rw [add_of_lt _ h, add_of_lt _ h]
      rfl
    · rw [add, if_neg h]
      exact Or.inl rfl

/-- A difference that is one on the first side is that on the second. -/
theorem Build.agrees_sub (x y : Nat) : Agrees excused (b.sub x y) (b'.sub x y) := by
  cases hb with
  | same b => exact .refl _
  | release =>
    by_cases h : y ≤ x
    · rw [sub_of_le _ h, sub_of_le _ h]
      rfl
    · rw [sub, if_neg h]
      exact Or.inl rfl

/-- What becomes of a side. -/
theorem Resize.agrees_side (flags : ResizeFlags) (shrink expand : ResizeFlag) (a : Amounts) :
    Build.Agrees excused (side b flags shrink expand a) (side b' flags shrink expand a) := by
  unfold side
  cases flags.has shrink with
  | false => cases flags.has expand <;> exact .refl _
  | true =>
    cases flags.has expand with
    | true => exact .refl _
    | false => exact .bind (Build.agrees_require hb _ rfl) fun _ => .refl _

/-- The plan of a request. -/
theorem Resize.agrees_plan (r : Resize) : Build.Agrees excused (r.plan b) (r.plan b') := by
  unfold plan
  split
  · refine .bind (agrees_side hb _ _ _ _) fun front => ?_
    exact .bind (agrees_side hb _ _ _ _) fun back => .refl _
  · exact .refl _

/-- The bytes taken in a region. -/
theorem Region.agrees_used (r : Region) : Build.Agrees excused (r.used b) (r.used b') :=
  .bind (Build.agrees_sub hb _ _) fun _ => Build.agrees_add hb _ _

/-- The bytes left in a region. -/
theorem Region.agrees_free (r : Region) : Build.Agrees excused (r.free b) (r.free b') :=
  Build.agrees_sub hb _ _

/-- The place of a block. -/
theorem Region.agrees_bump (r : Region) (size align header : Nat) :
    Build.Agrees excused (r.bump b size align header) (r.bump b' size align header) := by
  unfold bump
  simp only
  split
  · exact .refl _
  · exact .bind (Build.agrees_sub hb _ _) fun offset => .refl _

/-- A cursor that is moved. -/
theorem Region.agrees_setCursor (r : Region) (offset : Nat) :
    Build.Agrees excused (r.setCursor b offset) (r.setCursor b' offset) :=
  .bind (Build.agrees_require hb _ rfl) fun _ => .refl _

/-- The memory of an entry. -/
theorem Region.agrees_carveEntry (r : Region) :
    Build.Agrees excused (r.carveEntry b) (r.carveEntry b') := by
  unfold carveEntry carveTail
  refine .bind (Build.agrees_add hb _ _) fun stop => ?_
  simp only
  split
  · exact .refl _
  · refine .bind (Build.agrees_add hb _ _) fun low => ?_
    split
    · exact .refl _
    · exact .bind (Build.agrees_sub hb _ _) fun tail => .refl _

/-- The offset of a block on top. -/
theorem Stack.agrees_topOffset? (s : Buffer) (address size : Nat) :
    Build.Agrees excused (topOffset? b s address size) (topOffset? b' s address size) := by
  unfold topOffset?
  split
  · exact .refl _
  · split
    · exact .refl _
    · exact .bind (Build.agrees_add hb _ _) fun _ => .refl _

/-- The text of an allocator. -/
theorem Allocator.agrees_text (m : Memory) (k : Allocator) :
    Build.Agrees excused (k.text b m) ((k.withLedger g).text b' m) := by
  cases k with
  | heap s => rfl
  | stack s => exact .bind (Region.agrees_free hb _) fun _ => .refl _
  | arena s => exact .bind (Region.agrees_used hb _) fun _ => .refl _

end Values

/-! ## Running callbacks -/

variable {T : World ρ → World ρ → Prop}

/-- Worlds stay related when one callback runs in both. -/
def World.Runs (T : World ρ → World ρ → Prop) : Prop :=
  ∀ w w' data, T w w' → T (w.record (.ran data)) (w'.record (.ran data))

open Allocators.Action

namespace Callbacks

variable {κ : Type} {F : κ → κ}

/-- One callback runs, or fails, on both sides. -/
theorem inStep_invoke (hr : World.Runs T) (e : CallbackEntry) :
    InStep F T excused (invoke e : Action κ ρ Unit) (invoke e) := by
  have hrec : InStep F T excused (Action.record (.ran e.data) : Action κ ρ Unit)
      (Action.record (.ran e.data)) := ⟨fun _ w w' h => ⟨_, rfl, hr w w' e.data h⟩⟩
  refine .bind hrec fun _ => ?_
  cases e.handler with
  | returns => exact .pure ()
  | fails => exact .ofExcept (.refl _)

variable [Resource ρ]

/-- A chain runs on both sides, entry by entry. -/
theorem inStep_run (hT : World.Coupling T) (hr : World.Runs T) {release : Nat → Action κ ρ Unit}
    (hrel : ∀ a, InStep F T excused (release a) (release a)) (c : Callbacks) :
    InStep F T excused (c.run release) (c.run release) := by
  -- by the bound on the walk, from any entry on
  have hfrom : ∀ bound head, InStep F T excused (runFrom release bound head)
      (runFrom release bound head) := by
    intro bound
    induction bound with
    | zero => exact fun _ => .pure 0
    | succ bound ih =>
      intro head
      cases head with
      | none => exact .pure 0
      | some a =>
        rw [runFrom]
        refine .memory_bind hT fun m => ?_
        refine .bind (inStep_invoke hr _) fun _ => .bind (hrel a) fun _ => ?_
        exact .bind (ih _) fun _ => .pure _
  exact hfrom c.count c.head

end Callbacks

variable [Resource ρ] (hT : World.Coupling T) (hb : Build.Covers b b' g excused)

include hT hb

/-! ## Buffers, stacks and arenas -/

namespace Buffer

/-- An entry is carved and written on both sides. -/
theorem inStep_register (data : Nat) (h : Handler) :
    InStep id T excused (register b data h : Action Buffer ρ Unit) (register b' data h) := by
  refine .self_bind fun s => .bind (.ofExcept (Region.agrees_carveEntry hb _)) fun carved => ?_
  cases carved with
  | none => exact .refuse _
  | some c => exact .bind (.write hT _) fun _ => .become _

omit hb

/-- The callbacks of a buffer run on both sides. -/
theorem inStep_runCallbacks (hr : World.Runs T) :
    InStep id T excused (runCallbacks : Action Buffer ρ Nat) runCallbacks := by
  refine .self_bind fun s => .bind (.become _) fun _ => ?_
  exact Callbacks.inStep_run hT hr (fun _ => .pure ()) s.callbacks

/-- A buffer is cleared on both sides. -/
theorem inStep_clear (hr : World.Runs T) :
    InStep id T excused (clear : Action Buffer ρ Unit) clear := by
  refine .bind (inStep_runCallbacks hT hr) fun n => .self_bind fun s => ?_
  exact .bind (.become _) fun _ => .noted hT _ _

/-- A buffer ends on both sides. -/
theorem inStep_close (hr : World.Runs T) :
    InStep id T excused (close : Action Buffer ρ Unit) close := by
  refine .bind (inStep_runCallbacks hT hr) fun n => .self_bind fun s => ?_
  exact .bind (.when _ (.noted hT _ _)) fun _ => .give hT _ _

end Buffer

namespace Stack

/-- A block is put on top on both sides. -/
theorem inStep_allocate (l : Layout) :
    InStep id T excused (allocate b l : Action Buffer ρ Allocation) (allocate b' l) := by
  refine .self_bind fun s => .bind (.ofExcept (Region.agrees_bump hb _ _ _ _)) fun placed => ?_
  cases placed with
  | none => exact .bind (.noted hT _ _) fun _ => .refuse _
  | some placed =>
    refine .bind (.ofExcept (Build.agrees_sub hb _ _)) fun slot => ?_
    refine .bind (.write hT _) fun _ => .bind (.become _) fun _ => ?_
    exact .bind (.noted hT _ _) fun _ => .pure _

/-- The block on top is resized on both sides. -/
theorem inStep_reallocate (r : Resize) :
    InStep id T excused (reallocate b r : Action Buffer ρ Reallocation) (reallocate b' r) := by
  refine .bind (.ofExcept (Resize.agrees_plan hb r)) fun plan => .self_bind fun s => ?_
  refine .bind (.ofExcept (Build.agrees_require hb _ rfl)) fun _ => ?_
  refine .bind (.ofExcept (agrees_topOffset? hb s _ _)) fun top => ?_
  refine .bind (.ofOption _ _) fun offset => ?_
  refine .bind (.ofExcept (Build.agrees_sub hb _ _)) fun available => ?_
  refine .bind (.demand _ _) fun _ => .bind (.ofExcept (Build.agrees_sub hb _ _)) fun room => ?_
  refine .bind (.ofExcept (Build.agrees_add hb _ _)) fun size => ?_
  refine .bind (.when _ (.write hT _)) fun _ => ?_
  refine .bind (.ofExcept (Build.agrees_add hb _ _)) fun stop => ?_
  refine .bind (.ofExcept (Region.agrees_setCursor hb _ _)) fun region => ?_
  exact .bind (.become _) fun _ => .bind (.noted hT _ _) fun _ => .pure _

/-- The block on top is freed on both sides. -/
theorem inStep_deallocate (address : Nat) (l : Layout) :
    InStep id T excused (deallocate b address l : Action Buffer ρ Unit)
      (deallocate b' address l) := by
  refine .self_bind fun s => .bind (.ofExcept (agrees_topOffset? hb s _ _)) fun top => ?_
  refine .bind (.ofExcept (Build.agrees_require hb _ rfl)) fun _ => ?_
  cases top with
  | none => exact .noted hT _ _
  | some offset =>
    refine .bind (.ofExcept (Build.agrees_sub hb _ _)) fun slot => .memory_bind hT fun m => ?_
    refine .bind (.ofExcept (Region.agrees_setCursor hb _ _)) fun region => ?_
    exact .bind (.become _) fun _ => .noted hT _ _

end Stack

namespace Arena

/-- A block is placed on both sides. -/
theorem inStep_allocate (l : Layout) :
    InStep id T excused (allocate b l : Action Buffer ρ Allocation) (allocate b' l) := by
  refine .self_bind fun s => .bind (.ofExcept (Region.agrees_bump hb _ _ _ _)) fun placed => ?_
  cases placed with
  | none => exact .refuse _
  | some placed => exact .bind (.become _) fun _ => .bind (.noted hT _ _) fun _ => .pure _

omit hb in
/-- A resize is declined on both sides. -/
theorem inStep_reallocate (r : Resize) :
    InStep id T excused (reallocate r : Action Buffer ρ Reallocation) (reallocate r) :=
  .self_bind fun _ => .bind (.noted hT _ _) fun _ => .refuse _

/-- Nothing is freed on both sides. -/
theorem inStep_deallocate (address : Nat) :
    InStep id T excused (deallocate b address : Action Buffer ρ Unit) (deallocate b' address) :=
  .self_bind fun _ => .bind (.ofExcept (Build.agrees_require hb _ rfl)) fun _ => .noted hT _ _

end Arena

/-! ## Heaps -/

namespace Heap

omit hT hb

/-- A block that is found live on the first side need not be looked for on
the second. -/
theorem agrees_ledger_check (t : Ledger) (a : Nat) (l : Layout) :
    Build.Agrees Failure.Own (t.check a l) (.ok ()) := by
  unfold Ledger.check
  cases t.find? a with
  | none => exact Or.inl rfl
  | some live =>
    simp only
    split
    · rfl
    · exact Or.inl rfl

include hb

omit [Resource ρ] in
/-- A block is looked for on both sides, or on the first only. -/
theorem inStep_check (a : Nat) (l : Layout) :
    InStep (withLedger g) T excused (check b a l : Action Heap ρ Unit) (check b' a l) := by
  cases hb with
  | same b =>
    cases b with
    | debug => exact .self_bind fun s => .ofExcept (.refl _)
    | release => exact .pure ()
  | release =>
    show InStep _ T _ (check .debug a l) (Action.self >>= fun _ => Action.ofExcept (.ok ()))
    exact .self_bind fun s => .ofExcept (agrees_ledger_check s.ledger a l)

omit [Resource ρ] in
/-- A block is entered on both sides, or on the first only. -/
theorem inStep_enter (a : Nat) (l : Layout) :
    InStep (withLedger g) T excused (enter b a l : Action Heap ρ Unit) (enter b' a l) := by
  cases hb with
  | same b =>
    cases b with
    | debug => exact .self_bind fun s => .bind (.become _) fun _ => .ofExcept (.refl _)
    | release => exact .pure ()
  | release =>
    -- the second side leaves the heap, which has no ledger, as it is
    show InStep _ T _ (enter .debug a l) (Action.self >>= fun s => Action.become s >>= fun _ =>
      Action.ofExcept (.ok ()))
    refine .self_bind fun s => .bind (.become { s with ledger := s.ledger.insert a l }) fun _ => ?_
    exact .ofExcept (Build.agrees_require .release _ rfl)

omit [Resource ρ] in
/-- A block is struck out on both sides, or on the first only. -/
theorem inStep_strike (a : Nat) (l : Layout) :
    InStep (withLedger g) T excused (strike b a l : Action Heap ρ Unit) (strike b' a l) := by
  cases hb with
  | same b =>
    cases b with
    | debug => exact .bind (inStep_check (.same .debug) a l) fun _ => .self_bind fun s => .become _
    | release => exact .pure ()
  | release =>
    show InStep _ T _ (strike .debug a l) (check .release a l >>= fun _ => Action.self >>= fun s =>
      Action.become s)
    refine .bind (inStep_check .release a l) fun _ => .self_bind fun s => ?_
    exact .become { s with ledger := s.ledger.erase a }


include hT

/-- What the resource answers is gone on with on both sides. -/
theorem inStep_answer (label : String) (l : Layout) (found : Option Nat) :
    InStep (withLedger g) T excused (answer b label l found : Action Heap ρ Allocation)
      (answer b' label l found) := by
  cases found with
  | none => exact .bind (.noted hT _ _) fun _ => .refuse _
  | some a =>
    refine .bind (inStep_enter hb a l) fun _ => .self_bind fun s => ?_
    refine .bind (.become { s with usage := s.usage.add l.size }) fun _ => ?_
    exact .bind (.noted hT _ _) fun _ => .pure _

/-- A block is taken from the resource on both sides. -/
theorem inStep_allocate (l : Layout) :
    InStep (withLedger g) T excused (allocate b l : Action Heap ρ Allocation) (allocate b' l) := by
  refine ⟨fun s w w' h => ?_⟩
  have hdraw : (w'.draw s.zeroed l).1 = (w.draw s.zeroed l).1 ∧
      T (w.draw s.zeroed l).2 (w'.draw s.zeroed l).2 := by
    unfold World.draw
    cases s.zeroed with
    | false => exact hT.take l h
    | true => exact hT.takeZeroed l h
  obtain ⟨hfound, hT'⟩ := hdraw
  rw [allocate_apply, allocate_apply]
  have hanswer := (inStep_answer hT hb s.label l (w.draw s.zeroed l).1).alike s _ _ hT'
  rw [← hfound] at hanswer ⊢
  exact hanswer

/-- A block is given back on both sides. -/
theorem inStep_release (a : Nat) (l : Layout) :
    InStep (withLedger g) T excused (release b a l : Action Heap ρ Unit) (release b' a l) := by
  refine .bind (inStep_strike hb a l) fun _ => .bind (.give hT _ _) fun _ => .self_bind fun s => ?_
  exact .become { s with usage := s.usage.remove l.size }

/-- A block is moved on both sides. -/
theorem inStep_reallocate (r : Resize) :
    InStep (withLedger g) T excused (reallocate b r : Action Heap ρ Reallocation)
      (reallocate b' r) := by
  refine .bind (.ofExcept (Resize.agrees_plan hb r)) fun plan => .bind (.ofOption _ _) fun old => ?_
  refine .self_bind fun s => .bind (.ofExcept (Build.agrees_require hb _ rfl)) fun _ => ?_
  refine .bind (inStep_check hb _ _) fun _ => .bind (.ofOption _ _) fun layout => ?_
  refine .bind (inStep_allocate hT hb layout) fun new => .bind (.when _ ?_) fun _ => ?_
  · exact .bind (.write hT _) fun _ => inStep_release hT hb _ _
  · exact .bind (.noted hT _ _) fun _ => .pure _

/-- A block is freed on both sides. -/
theorem inStep_deallocate (a : Nat) (l : Layout) :
    InStep (withLedger g) T excused (deallocate b a l : Action Heap ρ Unit)
      (deallocate b' a l) := by
  refine .self_bind fun s => .bind (.ofExcept (Build.agrees_require hb _ rfl)) fun _ => ?_
  exact .bind (inStep_release hT hb _ _) fun _ => .noted hT _ _

/-- Nothing is cleared on both sides. -/
theorem inStep_clear :
    InStep (withLedger g) T excused (clear b : Action Heap ρ Unit) (clear b') :=
  .self_bind fun _ => .bind (.ofExcept (Build.agrees_require hb _ rfl)) fun _ => .noted hT _ _

omit hb

/-- An entry is taken from the resource and written on both sides. -/
theorem inStep_register (data : Nat) (h : Handler) :
    InStep (withLedger g) T excused (register data h : Action Heap ρ Unit) (register data h) := by
  refine .bind (.take hT _) fun found => ?_
  cases found with
  | none => exact .refuse _
  | some a =>
    refine .self_bind fun s => .bind (.write hT _) fun _ => ?_
    exact .become { s with callbacks := s.callbacks.push a }

/-- A heap ends on both sides. -/
theorem inStep_close (hr : World.Runs T) :
    InStep (withLedger g) T excused (close : Action Heap ρ Unit) close := by
  refine .self_bind fun s => .bind (.become { s with callbacks := Callbacks.empty }) fun _ => ?_
  refine .bind (Callbacks.inStep_run hT hr (fun _ => .give hT _ _) _) fun n => ?_
  exact .when _ (.noted hT _ _)

end Heap

/-! ## Allocators of every kind -/

namespace Allocator

variable {α : Type}

omit [Resource ρ] hT hb in
/-- What every kind does in step is in step. -/
theorem inStep_dispatch {x x' : Action Heap ρ α} {y y' z z' : Action Buffer ρ α}
    (hx : InStep (Heap.withLedger g) T excused x x') (hy : InStep id T excused y y')
    (hz : InStep id T excused z z') :
    InStep (withLedger g) T excused (dispatch x y z) (dispatch x' y' z') := by
  refine ⟨fun k w w' h => ?_⟩
  cases k with
  | heap s => exact hx.on (withLedger g) heap (fun _ => rfl) s h
  | stack s => exact hy.on (withLedger g) stack (fun _ => rfl) s h
  | arena s => exact hz.on (withLedger g) arena (fun _ => rfl) s h

/-- A block is handed out on both sides. -/
theorem inStep_allocate (l : Layout) :
    InStep (withLedger g) T excused (allocate b l : Action Allocator ρ Allocation)
      (allocate b' l) :=
  inStep_dispatch (Heap.inStep_allocate hT hb l) (Stack.inStep_allocate hT hb l)
    (Arena.inStep_allocate hT hb l)

/-- An allocator is cleared on both sides. -/
theorem inStep_clear (hr : World.Runs T) :
    InStep (withLedger g) T excused (clear b : Action Allocator ρ Unit) (clear b') :=
  inStep_dispatch (Heap.inStep_clear hT hb) (Buffer.inStep_clear hT hr)
    (Buffer.inStep_clear hT hr)

omit hb in
/-- An allocator ends on both sides. -/
theorem inStep_close (hr : World.Runs T) :
    InStep (withLedger g) T excused (close : Action Allocator ρ Unit) close :=
  inStep_dispatch (Heap.inStep_close hT hr) (Buffer.inStep_close hT hr)
    (Buffer.inStep_close hT hr)

end Allocator

namespace Restriction

/-- A nest passes a clear on or keeps it, on both sides. -/
theorem inStep_clear (hr : World.Runs T) (nest : List Restriction) :
    InStep (Allocator.withLedger g) T excused (clear b nest : Action Allocator ρ Unit)
      (clear b' nest) := by
  induction nest with
  | nil => exact Allocator.inStep_clear hT hb hr
  | cons r rest ih =>
    cases r with
    | noClear => exact .noted hT _ _
    | noFree => exact ih

/-- A nest passes a free on or keeps it, on both sides. -/
theorem inStep_deallocate (a : Nat) (l : Layout) (nest : List Restriction) :
    InStep (Allocator.withLedger g) T excused (deallocate b a l nest : Action Allocator ρ Unit)
      (deallocate b' a l nest) := by
  induction nest with
  | nil =>
    exact Allocator.inStep_dispatch (Heap.inStep_deallocate hT hb a l)
      (Stack.inStep_deallocate hT hb a l) (Arena.inStep_deallocate hT hb a)
  | cons r rest ih =>
    cases r with
    | noClear => exact ih
    | noFree => exact .noted hT _ _

/-- **Every call through a nest is in step with itself.** Only a clear runs
callbacks. -/
theorem inStep_perform (nest : List Restriction) (call : Call)
    (hr : call = .clear → World.Runs T) :
    InStep (Allocator.withLedger g) T excused (perform b nest call : Action Allocator ρ Reply)
      (perform b' nest call) := by
  cases call with
  | allocate l => exact .map _ (Allocator.inStep_allocate hT hb l)
  | allocateBytes size =>
    exact .map _ (.bind (.ofOption _ _) fun l => Allocator.inStep_allocate hT hb l)
  | reallocate r =>
    exact .map _ (Allocator.inStep_dispatch (Heap.inStep_reallocate hT hb r)
      (Stack.inStep_reallocate hT hb r) (Arena.inStep_reallocate hT r))
  | deallocate a l => exact .map _ (inStep_deallocate hT hb a l nest)
  | clear => exact .map _ (inStep_clear hT hb (hr rfl) nest)
  | register data h =>
    exact .map _ (Allocator.inStep_dispatch (Heap.inStep_register hT data h)
      (Buffer.inStep_register hT hb data h) (Buffer.inStep_register hT hb data h))

end Restriction

end Allocators
