import Allocators.Proofs.Chronicle
import Allocators.Proofs.Closure
/-!
# What an allocator says it is able to do

What an allocator says is told by its kind and by the nest of restrictions that
it is called through (`Restriction.has_features`), and the kind of an allocator
never changes: no call makes another of it, whatever the call and however it ends
(`Allocator.kind_perform`), so an allocator is of one kind from its first call
to its last (`Chronicle.kind_eq`).
-/

namespace Allocators

variable {ρ : Type}

/-! ## Kinds that stay -/

/-- What holds of the allocator before the call holds of it after the call,
whatever the call comes to. -/
abbrev Action.Maintains {κ α : Type} (I : κ → Prop) (x : Action κ ρ α) : Prop :=
  Ensures (fun s => I s.allocator) (fun _ t => I t.allocator) (fun _ t => I t.allocator) x

open Allocators.Action

namespace Heap

variable {b : Build} (z : Bool)

/-- A heap with other counts zeroes as it did. -/
theorem zeroed_with_usage (s : Heap) (u : Usage) :
    ({ s with usage := u } : Heap).zeroed = s.zeroed := rfl

/-- So does one that looks for a block. -/
theorem maintains_check (a : Nat) (l : Layout) :
    Maintains (fun s => s.zeroed = z) (check b a l : Action Heap ρ Unit) := by
  cases b with
  | release => exact ensures_pure fun _ => id
  | debug => exact .self_bind fun _ _ => ensures_ofExcept fun _ _ _ => id

/-- One that enters a block. -/
theorem maintains_enter (a : Nat) (l : Layout) :
    Maintains (fun s => s.zeroed = z) (enter b a l : Action Heap ρ Unit) := by
  cases b with
  | release => exact ensures_pure fun _ => id
  | debug =>
    refine .self_bind fun s hs => .bind (ensures_become fun _ _ => ?_) fun _ => ?_
    · exact hs
    · exact ensures_ofExcept fun _ _ _ => id

variable [Resource ρ]

/-- One that allocates. -/
theorem maintains_allocate (l : Layout) :
    Maintains (fun s => s.zeroed = z) (allocate b l : Action Heap ρ Allocation) := by
  have hanswer : ∀ label found, Maintains (fun s => s.zeroed = z)
      (answer b label l found : Action Heap ρ Allocation) := by
    intro label found
    cases found with
    | none => exact .bind (ensures_record fun _ => id) fun _ => ensures_refuse fun _ => id
    | some a =>
      refine .bind (maintains_enter z a l) fun _ => .self_bind fun s hs => ?_
      refine .bind (ensures_become fun _ _ => ?_) fun _ => ?_
      · exact (zeroed_with_usage s.allocator _).trans hs
      · exact .bind (ensures_record fun _ => id) fun _ => ensures_pure fun _ => id
  refine .self_bind fun s _ => ?_
  show Maintains (fun s => s.zeroed = z) (if s.allocator.zeroed then takeZeroed l >>= answer b _ l
    else take l >>= answer b _ l)
  split
  · exact .bind (ensures_takeZeroed fun _ => id) (hanswer _)
  · exact .bind (ensures_take fun _ => id) (hanswer _)

/-- One that gives a block back. -/
theorem maintains_release (a : Nat) (l : Layout) :
    Maintains (fun s => s.zeroed = z) (release b a l : Action Heap ρ Unit) := by
  have hstrike : Maintains (fun s => s.zeroed = z) (strike b a l : Action Heap ρ Unit) := by
    cases b with
    | release => exact ensures_pure fun _ => id
    | debug =>
      refine .bind (maintains_check z a l) fun _ => .self_bind fun s hs => ?_
      exact ensures_become fun _ _ => hs
  refine hstrike.bind fun _ => .bind (ensures_give fun _ => id) fun _ => ?_
  refine .self_bind fun s hs => ensures_become fun _ _ => ?_
  exact (zeroed_with_usage s.allocator _).trans hs

/-- One that resizes. -/
theorem maintains_reallocate (r : Resize) :
    Maintains (fun s => s.zeroed = z) (reallocate b r : Action Heap ρ Reallocation) := by
  refine .bind (ensures_ofExcept fun _ _ _ => id) fun plan => ?_
  refine .bind (ensures_ofOption fun _ => id) fun old => .self_bind fun s _ => ?_
  refine .bind (ensures_ofExcept fun _ _ _ => id) fun _ => ?_
  refine .bind (maintains_check z _ _) fun _ => ?_
  refine .bind (ensures_ofOption fun _ => id) fun layout => ?_
  refine .bind (maintains_allocate z layout) fun new => .bind (.when _ ?_) fun _ => ?_
  · exact .bind (ensures_write fun _ => id) fun _ => maintains_release z _ _
  · exact .bind (ensures_record fun _ => id) fun _ => ensures_pure fun _ => id

/-- One that frees. -/
theorem maintains_deallocate (a : Nat) (l : Layout) :
    Maintains (fun s => s.zeroed = z) (deallocate b a l : Action Heap ρ Unit) := by
  refine .self_bind fun s _ => .bind (ensures_ofExcept fun _ _ _ => id) fun _ => ?_
  exact .bind (maintains_release z a l) fun _ => ensures_record fun _ => id

omit [Resource ρ] in
/-- One that is told to clear. -/
theorem maintains_clear : Maintains (fun s => s.zeroed = z) (clear b : Action Heap ρ Unit) := by
  refine .self_bind fun s _ => .bind (ensures_ofExcept fun _ _ _ => id) fun _ => ?_
  exact ensures_record fun _ => id

/-- And one that registers a callback. -/
theorem maintains_register (data : Nat) (h : Handler) :
    Maintains (fun s => s.zeroed = z) (register data h : Action Heap ρ Unit) := by
  refine .bind (ensures_take fun _ => id) fun found => ?_
  cases found with
  | none => exact ensures_refuse fun _ => id
  | some a =>
    refine .self_bind fun s hs => .bind (ensures_write fun _ => id) fun _ => ?_
    exact ensures_become fun _ _ => hs

end Heap

/-! ## Kinds -/

namespace Allocator

/-- Heaps that zero alike are of one kind. -/
theorem kind_heap_congr {s s' : Heap} (h : s'.zeroed = s.zeroed) :
    (heap s').kind = (heap s).kind := by
  simp only [kind, h]

/-- A call that leaves a heap zeroing as it did leaves any allocator of its kind. -/
theorem maintains_dispatch {α : Type} {x : Action Heap ρ α} {y z : Action Buffer ρ α}
    (hx : ∀ zeroed, Maintains (fun s => s.zeroed = zeroed) x) (kind : AllocatorKind) :
    Maintains (fun k => k.kind = kind) (dispatch x y z) := by
  refine ensures_dispatch ⟨fun {s t a} hs h => ?_, fun {s t e} hs h => ?_⟩
    (ensures_const (.stack = kind) y) (ensures_const (.arena = kind) z)
  · exact (kind_heap_congr ((hx s.allocator.zeroed).answered rfl h)).trans hs
  · exact (kind_heap_congr ((hx s.allocator.zeroed).failed rfl h)).trans hs

variable [Resource ρ]

/-- **No call makes an allocator of another kind**, whatever the call and however
it ends. -/
theorem kind_perform (b : Build) (nest : List Restriction) (call : Call) (s : Scene Allocator ρ) :
    (ended (Restriction.perform b nest call s)).2.allocator.kind = s.allocator.kind := by
  have hkeeps : ∀ kind, Maintains (fun k => k.kind = kind)
      (Restriction.perform (ρ := ρ) b nest call) := by
    intro kind
    cases call with
    | allocate l => exact .map (maintains_dispatch (fun z => Heap.maintains_allocate z l) kind)
    | allocateBytes size =>
      refine .map (.bind (ensures_ofOption fun _ => id) fun l => ?_)
      exact maintains_dispatch (fun z => Heap.maintains_allocate z l) kind
    | reallocate r => exact .map (maintains_dispatch (fun z => Heap.maintains_reallocate z r) kind)
    | deallocate a l =>
      refine .map ?_
      by_cases hf : Restriction.noFree ∈ nest
      · rw [Restriction.deallocate_of_mem hf]
        exact ensures_record fun _ => id
      · rw [Restriction.deallocate_of_not_mem hf]
        exact maintains_dispatch (fun z => Heap.maintains_deallocate z a l) kind
    | clear =>
      refine .map ?_
      by_cases hc : Restriction.noClear ∈ nest
      · rw [Restriction.clear_of_mem hc]
        exact ensures_record fun _ => id
      · rw [Restriction.clear_of_not_mem hc]
        exact maintains_dispatch (fun z => Heap.maintains_clear z) kind
    | register data h =>
      exact .map (maintains_dispatch (fun z => Heap.maintains_register z data h) kind)
  exact (hkeeps s.allocator.kind).ended rfl

end Allocator

/-- **An allocator is of one kind** through every run of calls on it. -/
theorem Chronicle.kind_eq [Resource ρ] {b : Build} {p : Custody → Deed → Prop}
    {kind : AllocatorKind} {B : Book ρ} (h : Chronicle b p kind B) :
    B.custody.allocator.kind = kind := by
  induction h with
  | made _ hc _ => exact Allocator.kind_create hc
  | @dealt B nest d _ _ _ ih =>
    rw [← ih]
    cases d with
    | write start len f => rfl
    | call call =>
      have hkind := Allocator.kind_perform b nest call ⟨B.custody.allocator, B.world⟩
      unfold Book.turn Custody.deal
      simp only
      cases he : Restriction.perform b nest call ⟨B.custody.allocator, B.world⟩ with
      | ok reply t =>
        rw [he] at hkind
        show Allocator.kind (Custody.allocator (if _ then _ else _)) = _
        split
        · exact hkind
        · rw [Custody.allocator_answered]
          exact hkind
      | error e t =>
        rw [he] at hkind
        show Allocator.kind (B.custody.failed t.allocator call).allocator = _
        rw [Custody.allocator_failed]
        exact hkind
  | meanwhile _ _ _ ih => exact ih

/-! ## Features -/

/-- What allocators of the kind say that they are able to do. -/
def AllocatorKind.features : AllocatorKind → Features
  | heap => Heap.baseFeatures
  | zeroed => Heap.baseFeatures.union (Flags.single .zeroInit)
  | stack => Stack.features
  | arena => Arena.features

/-- An allocator says what its kind does. -/
theorem Allocator.features_eq (k : Allocator) : k.features = k.kind.features := by
  cases k with
  | heap s =>
    show s.features = (if s.zeroed then AllocatorKind.zeroed else .heap).features
    unfold Heap.features
    cases s.zeroed <;> rfl
  | stack s => rfl
  | arena s => rfl

namespace Restriction

/-- **What an allocator says through a nest** is what its kind says, but for
clearing where the nest keeps clears from it. -/
theorem has_features (k : Allocator) (nest : List Restriction) (f : Feature) :
    (features k nest).has f =
      (k.kind.features.has f && !(decide (f = .clearing) && decide (noClear ∈ nest))) := by
  induction nest with
  | nil =>
    show k.features.has f = _
    rw [Allocator.features_eq]
    simp
  | cons x rest ih =>
    cases x with
    | noClear =>
      show ((features k rest).difference (Flags.single .clearing)).has f = _
      have hbit : decide (FlagKind.bit Feature.clearing = FlagKind.bit f) =
          decide (f = .clearing) := by cases f <;> decide
      have hmem : decide (noClear ∈ noClear :: rest) = true := by simp
      rw [Flags.has_difference _ _ f.bit_lt, ih, Flags.has_single (Feature.bit_lt _), hbit, hmem]
      cases decide (f = .clearing) <;> simp
    | noFree =>
      have hmem : noClear ∈ noFree :: rest ↔ noClear ∈ rest := by simp
      simp only [hmem]
      exact ih

/-- So allocators of one kind say the same through the same nest. -/
theorem features_congr {k k' : Allocator} (h : k.kind = k'.kind) (nest : List Restriction) :
    features k nest = features k' nest := by
  induction nest with
  | nil =>
    show k.features = k'.features
    rw [k.features_eq, k'.features_eq, h]
  | cons x rest ih =>
    cases x with
    | noClear =>
      show (features k rest).difference _ = (features k' rest).difference _
      rw [ih]
    | noFree => exact ih

end Restriction

end Allocators
