import Allocators.Proofs.Operation
/-!
# Nests of restrictions

An `Interface` is all that can be asked of an allocator. A restriction
makes another interface out of the one it is put over: it hands every call
on, save the one that it switches off (`Restriction.over`). A nest of them
comes to what is in it, wherever in the nest and however often it is there:
`Interface.through_eq`. So two nests with the same restrictions in them
cannot be told apart, by one call or by any number: `Interface.nests_collapse`.
-/

namespace Allocators

variable {ρ : Type}

/-! ## Interfaces -/

/-- All that can be asked of an allocator. -/
structure Interface (ρ : Type) where
  allocate : Layout → Action Allocator ρ Allocation
  reallocate : Resize → Action Allocator ρ Reallocation
  deallocate : Nat → Layout → Action Allocator ρ Unit
  clear : Action Allocator ρ Unit
  features : Allocator → Features
  register : Nat → Handler → Action Allocator ρ Unit

/-- The interface with one operation of it switched off. Only a clear that is
switched off is missed among the features. -/
def Restriction.over : Restriction → Interface ρ → Interface ρ
  | noClear, i =>
    { i with
      clear := Action.record (.noted none .clearSuppressed)
      features := fun k => (i.features k).difference (Flags.single .clearing) }
  | noFree, i => { i with deallocate := fun a _ => Action.record (.noted none (.freeSuppressed a)) }

namespace Interface

/-- A block of this size, with the default alignment: a request like any other. -/
def allocateBytes (i : Interface ρ) (size : Nat) : Action Allocator ρ Allocation := do
  let l ← Action.ofOption .zeroSize (Layout.ofSize? size)
  i.allocate l

/-- Makes a call. -/
def perform (i : Interface ρ) : Call → Action Allocator ρ Reply
  | .allocate l => Reply.block <$> i.allocate l
  | .allocateBytes size => Reply.block <$> i.allocateBytes size
  | .reallocate r => Reply.resized <$> i.reallocate r
  | .deallocate a l => (fun _ => Reply.done) <$> i.deallocate a l
  | .clear => (fun _ => Reply.done) <$> i.clear
  | .register data h => (fun _ => Reply.done) <$> i.register data h

variable [Resource ρ]

/-- The allocator itself. -/
def base (b : Build) : Interface ρ where
  allocate := Allocator.allocate b
  reallocate := Allocator.reallocate b
  deallocate := Allocator.deallocate b
  clear := Allocator.clear b
  features := Allocator.features
  register := Allocator.register b

/-- The allocator through a nest, the outermost restriction first. -/
def through (b : Build) (nest : List Restriction) : Interface ρ :=
  nest.foldr Restriction.over (base b)

/-- The allocator with a clear and a free that are switched off where they are
told to be, and everything else its own. -/
def without (b : Build) (noClear noFree : Prop) [Decidable noClear] [Decidable noFree] :
    Interface ρ where
  allocate := Allocator.allocate b
  reallocate := Allocator.reallocate b
  deallocate a l :=
    if noFree then Action.record (.noted none (.freeSuppressed a)) else Allocator.deallocate b a l
  clear := if noClear then Action.record (.noted none .clearSuppressed) else Allocator.clear b
  features k :=
    if noClear then k.features.difference (Flags.single .clearing) else k.features
  register := Allocator.register b

end Interface

/-! ## What a nest comes to -/

/-- What has been taken out of a set is not taken out again. -/
theorem Flags.difference_difference {φ : Type} [FlagKind φ] (a b : Flags φ) :
    (a.difference b).difference b = a.difference b := by
  unfold difference
  rw [BitVec.and_assoc, BitVec.and_self]

namespace Interface

open Restriction

section

variable [Resource ρ]

/-- **A nest comes to what is in it.** -/
theorem through_eq (b : Build) (nest : List Restriction) :
    (through b nest : Interface ρ) = without b (noClear ∈ nest) (noFree ∈ nest) := by
  induction nest with
  | nil => simp [through, without, base]
  | cons x rest ih =>
    have hcons : (through b (x :: rest) : Interface ρ) = x.over (through b rest) := rfl
    rw [hcons, ih]
    cases x with
    | noClear =>
      by_cases hc : noClear ∈ rest
      · simp [Restriction.over, without, hc, Flags.difference_difference]
      · simp [Restriction.over, without, hc]
    | noFree => simp [Restriction.over, without]

/-- Calls through a nest are made on what it comes to. -/
theorem perform_through (b : Build) (nest : List Restriction) (c : Call) :
    (through b nest : Interface ρ).perform c = Restriction.perform b nest c := by
  rw [through_eq]
  cases c with
  | deallocate a l =>
    simp only [Interface.perform, Restriction.perform, without]
    by_cases hf : noFree ∈ nest
    · rw [if_pos hf, deallocate_of_mem hf]
    · rw [if_neg hf, deallocate_of_not_mem hf]
  | clear =>
    simp only [Interface.perform, Restriction.perform, without]
    by_cases hc : noClear ∈ nest
    · rw [if_pos hc, clear_of_mem hc]
    · rw [if_neg hc, clear_of_not_mem hc]
  | _ => rfl

/-- So are questions about features. -/
theorem features_through (b : Build) (nest : List Restriction) (k : Allocator) :
    (through b nest : Interface ρ).features k = Restriction.features k nest := by
  induction nest with
  | nil => rfl
  | cons x rest ih =>
    cases x with
    | noClear =>
      have hover : (through b (noClear :: rest) : Interface ρ).features k =
        ((through b rest : Interface ρ).features k).difference (Flags.single .clearing) := rfl
      rw [hover, ih]
      rfl
    | noFree => exact ih

/-- Two nests with the same restrictions in them come to the same. -/
theorem through_congr (b : Build) {nest nest' : List Restriction}
    (h : ∀ x, x ∈ nest ↔ x ∈ nest') : (through b nest : Interface ρ) = through b nest' := by
  simp only [through_eq, h]

end

end Interface

/-! ## Calls that sign -/

/-- When the call is answered, the last thing that it has done is to leave a
notice under some label. -/
abbrev Action.Signs {κ α : Type} (x : Action κ ρ α) : Prop :=
  Ensures (fun _ => True)
    (fun _ t => ∃ label notice, t.world.events.head? = some (.noted (some label) notice))
    (fun _ _ => True) x

open Allocators.Action

/-- A notice under a label is one. -/
theorem Action.signs_note {κ : Type} (label : String) (n : Notice) :
    Signs (note label n : Action κ ρ Unit) :=
  .of_ok fun _ _ => ⟨(), _, rfl, label, n, rfl⟩

namespace Allocator

/-- A clear that is answered has been signed, whoever did it. -/
theorem signs_clear (b : Build) : Signs (clear b : Action Allocator ρ Unit) := by
  have hheap : Signs (Heap.clear b : Action Heap ρ Unit) :=
    .last fun _ => .last fun _ => signs_note _ _
  have hbuffer : Signs (Buffer.clear : Action Buffer ρ Unit) :=
    .last fun _ => .last fun _ => .last fun _ => signs_note _ _
  exact ensures_dispatch hheap hbuffer hbuffer

/-- So has a free. -/
theorem signs_deallocate [Resource ρ] (b : Build) (a : Nat) (l : Layout) :
    Signs (deallocate b a l : Action Allocator ρ Unit) := by
  have hheap : Signs (Heap.deallocate b a l : Action Heap ρ Unit) :=
    .last fun _ => .last fun _ => .last fun _ => signs_note _ _
  have hstack : Signs (Stack.deallocate b a l : Action Buffer ρ Unit) := by
    refine .last fun s => .last fun top => .last fun _ => ?_
    cases top with
    | none => exact signs_note _ _
    | some offset =>
      exact .last fun _ => .last fun _ => .last fun _ => .last fun _ => signs_note _ _
  have harena : Signs (Arena.deallocate b a : Action Buffer ρ Unit) :=
    .last fun _ => .last fun _ => signs_note _ _
  exact ensures_dispatch hheap hstack harena

end Allocator

/-- What is signed is not a remark of nobody's. -/
theorem Action.Signs.ne_unsigned {κ α : Type} {x : Action κ ρ α} (h : Signs x) (s : Scene κ ρ)
    (a : α) (n : Notice) : x s ≠ .ok a ⟨s.allocator, s.world.record (.noted none n)⟩ := by
  intro hx
  obtain ⟨label, notice, hhead⟩ := h.answered trivial hx
  cases hhead

/-! ## Whole runs -/

/-- The operation with a nest between the caller and the allocator. -/
def Operation.within (nest : List Restriction) : Operation ρ → Operation ρ
  | .call inner c => .call (nest ++ inner) c
  | o => o

section

variable [Resource ρ]

/-- Operations that are performed alike make the same run. -/
theorem Allocator.run_map_congr (b : Build) {f g : Operation ρ → Operation ρ}
    (h : ∀ o, (f o).perform b = (g o).perform b) (os : List (Operation ρ))
    (s : Scene Allocator ρ) : run b (os.map f) s = run b (os.map g) s := by
  induction os generalizing s with
  | nil => rfl
  | cons o os ih =>
    rw [List.map_cons, List.map_cons]
    unfold run
    rw [h o]
    exact congrArg (_ :: ·) (ih _)

/-- Within nests with the same restrictions in them an operation is performed
alike. -/
theorem Operation.perform_within_congr (b : Build) {nest nest' : List Restriction}
    (h : ∀ x, x ∈ nest ↔ x ∈ nest') (o : Operation ρ) :
    (o.within nest).perform b = (o.within nest').perform b := by
  cases o with
  | call inner c =>
    have hinner : ∀ x, x ∈ nest ++ inner ↔ x ∈ nest' ++ inner := by
      intro x
      rw [List.mem_append, List.mem_append, h]
    have hcall : Restriction.perform (ρ := ρ) b (nest ++ inner) c =
        Restriction.perform b (nest' ++ inner) c := by
      rw [← Interface.perform_through, ← Interface.perform_through,
        Interface.through_congr b hinner]
    exact congrArg (Answer.reply <$> ·) hcall
  | _ => rfl

open Restriction in
/-- What a nest comes to, from whichever scene. -/
structure Interface.Collapsed (ρ : Type) [Resource ρ] (b : Build) (nest : List Restriction) :
    Prop where
  /-- A call is made through the nest as it is made on what the nest comes to. -/
  perform : ∀ c, (through b nest : Interface ρ).perform c = Restriction.perform b nest c
  allocate : ∀ l, (through b nest : Interface ρ).allocate l = Allocator.allocate b l
  allocateBytes : ∀ n, (through b nest : Interface ρ).allocateBytes n = Allocator.allocateBytes b n
  reallocate : ∀ r, (through b nest : Interface ρ).reallocate r = Allocator.reallocate b r
  register : ∀ data h, (through b nest : Interface ρ).register data h =
    Allocator.register b data h
  /-- A clear leaves a remark and nothing else just where one is switched off. -/
  clear_skipped_iff : ∀ s, (through b nest : Interface ρ).clear s =
    .ok () ⟨s.allocator, s.world.record (.noted none .clearSuppressed)⟩ ↔ noClear ∈ nest
  clear : noClear ∉ nest → (through b nest : Interface ρ).clear = Allocator.clear b
  /-- A free leaves a remark and nothing else just where one is switched off. -/
  free_skipped_iff : ∀ a l s, (through b nest : Interface ρ).deallocate a l s =
    .ok () ⟨s.allocator, s.world.record (.noted none (.freeSuppressed a))⟩ ↔ noFree ∈ nest
  deallocate : noFree ∉ nest → ∀ a l, (through b nest : Interface ρ).deallocate a l =
    Allocator.deallocate b a l
  features : ∀ k, (through b nest : Interface ρ).features k =
    if noClear ∈ nest then k.features.difference (Flags.single .clearing) else k.features
  features_eq : ∀ k, (through b nest : Interface ρ).features k = Restriction.features k nest
  /-- Nests with the same restrictions in them cannot be told apart. -/
  indistinct : ∀ nest', (∀ x, x ∈ nest ↔ x ∈ nest') →
    (through b nest : Interface ρ) = through b nest' ∧
      ∀ (os : List (Operation ρ)) (s : Scene Allocator ρ),
        Allocator.run b (os.map (.within nest)) s = Allocator.run b (os.map (.within nest')) s

open Restriction in
/-- **Nests collapse.** Through a nest every call is the allocator's own and comes
to the same, save for a clear or a free where the nest has a restriction on it,
and there it does nothing. How the nest is made makes no difference, to a call
or to a whole run. -/
theorem Interface.nests_collapse (b : Build) (nest : List Restriction) :
    Collapsed ρ b nest where
  perform := perform_through b nest
  allocate _ := by rw [through_eq]; rfl
  allocateBytes _ := by rw [through_eq]; rfl
  reallocate _ := by rw [through_eq]; rfl
  register _ _ := by rw [through_eq]; rfl
  clear_skipped_iff s := by
    rw [through_eq]
    by_cases hc : noClear ∈ nest
    · simp [without, hc]
    · simpa [without, hc] using (Allocator.signs_clear b).ne_unsigned s () .clearSuppressed
  clear hc := by
    rw [through_eq]
    exact if_neg hc
  free_skipped_iff a l s := by
    rw [through_eq]
    by_cases hf : noFree ∈ nest
    · simp [without, hf]
    · simpa [without, hf] using
        (Allocator.signs_deallocate b a l).ne_unsigned s () (.freeSuppressed a)
  deallocate hf a l := by
    rw [through_eq]
    exact if_neg hf
  features _ := by rw [through_eq]; rfl
  features_eq := features_through b nest
  indistinct nest' h := by
    refine ⟨through_congr b h, fun os s => ?_⟩
    exact Allocator.run_map_congr b (Operation.perform_within_congr b h) os s

end

end Allocators
