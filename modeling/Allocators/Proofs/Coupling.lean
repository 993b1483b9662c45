import Allocators.Restriction
/-!
# Calls in step

Two runs side by side: a call is made in one world and another call in a
second one that is related to it. The calls are in step when they come to
the same answer, or the same failure, and leave related worlds behind
(`Action.InStep`), unless the first ends in a failure that is excused. A
relation of worlds is a `World.Coupling` when the memory is the same on
both sides and everything a call does in a world, short of running a
callback, keeps the worlds related. The rules below take a call apart in
the order of its steps, so that what follows of two allocators, two builds
or two resources is read off the text of the calls.
-/

namespace Allocators

variable {ρ : Type}

/-- A relation of worlds that calls keep up. -/
structure World.Coupling [Resource ρ] (T : World ρ → World ρ → Prop) : Prop where
  memory {w w' : World ρ} : T w w' → w'.memory = w.memory
  noted {w w' : World ρ} (label : Option String) (n : Notice) :
    T w w' → T (w.record (.noted label n)) (w'.record (.noted label n))
  write {w w' : World ρ} (f : Memory → Memory) : T w w' → T (w.write f) (w'.write f)
  take {w w' : World ρ} (l : Layout) :
    T w w' → (w'.take l).1 = (w.take l).1 ∧ T (w.take l).2 (w'.take l).2
  give {w w' : World ρ} (a : Nat) (l : Layout) : T w w' → T (w.give a l) (w'.give a l)

/-- Being the same world is a coupling. -/
theorem World.coupling_eq [Resource ρ] : Coupling (fun w w' : World ρ => w' = w) where
  memory h := h ▸ rfl
  noted _ _ h := h ▸ rfl
  write _ h := h ▸ rfl
  take _ h := h ▸ ⟨rfl, rfl⟩
  give _ _ h := h ▸ rfl

/-- Being asked for zeros keeps worlds related, and they answer alike. -/
theorem World.Coupling.takeZeroed [Resource ρ] {T : World ρ → World ρ → Prop} (hT : Coupling T)
    {w w' : World ρ} (l : Layout) (h : T w w') :
    (w'.takeZeroed l).1 = (w.takeZeroed l).1 ∧ T (w.takeZeroed l).2 (w'.takeZeroed l).2 := by
  have ht := hT.take l h
  unfold World.takeZeroed
  generalize w.take l = asked, w'.take l = asked' at ht
  obtain ⟨a, v⟩ := asked
  obtain ⟨a', v'⟩ := asked'
  obtain ⟨rfl, hw⟩ := ht
  cases a' with
  | none => exact ⟨rfl, hw⟩
  | some a => exact ⟨rfl, hT.write (fun m => m.fill a l.size 0) hw⟩

/-! ## Values in step -/

/-- The second value is the first, unless that is a failure that is excused. -/
def Build.Agrees {α : Type} (excused : Failure → Prop) (x y : Except Failure α) : Prop :=
  match x with
  | .ok a => y = .ok a
  | .error e => excused e ∨ y = .error e

namespace Build.Agrees

variable {α β : Type} {excused : Failure → Prop} {x y : Except Failure α}
variable {f g : α → Except Failure β}

/-- A value agrees with itself. -/
theorem refl (x : Except Failure α) : Agrees excused x x := by
  cases x with
  | ok a => rfl
  | error e => exact Or.inr rfl

/-- Values that agree are gone on with in the same way. -/
theorem bind (h : Agrees excused x y) (hf : ∀ a, Agrees excused (f a) (g a)) :
    Agrees excused (x >>= f) (y >>= g) := by
  cases x with
  | ok a =>
    obtain rfl : y = .ok a := h
    exact hf a
  | error e =>
    rcases h with h | rfl
    · exact Or.inl h
    · exact Or.inr rfl

end Build.Agrees

/-! ## Calls in step -/

namespace Action

variable {κ κ' α β : Type} {F : κ → κ} {T : World ρ → World ρ → Prop}
variable {excused : Failure → Prop}

/-- The second outcome is the first, with what `F` makes of the allocator and
in a related world, unless the first is a failure that is excused. -/
def Alike (F : κ → κ) (T : World ρ → World ρ → Prop) (excused : Failure → Prop) :
    (r r' : EStateM.Result Failure (Scene κ ρ) α) → Prop
  | .ok a t, r' => ∃ v, r' = .ok a ⟨F t.allocator, v⟩ ∧ T t.world v
  | .error e t, r' => excused e ∨ ∃ v, r' = .error e ⟨F t.allocator, v⟩ ∧ T t.world v

/-- Two calls come to the same: the first on an allocator in a world, the
second on what `F` makes of the allocator in a related world. -/
structure InStep (F : κ → κ) (T : World ρ → World ρ → Prop) (excused : Failure → Prop)
    (x y : Action κ ρ α) : Prop where
  alike : ∀ k w w', T w w' → Alike F T excused (x ⟨k, w⟩) (y ⟨F k, w'⟩)

/-- The resource is asked, and its answer is the answer. -/
theorem take_apply [Resource ρ] (l : Layout) (k : κ) (w : World ρ) :
    take l ⟨k, w⟩ = .ok (w.take l).1 ⟨k, (w.take l).2⟩ := rfl

namespace InStep

variable {x y : Action κ ρ α} {f g : α → Action κ ρ β}

/-- A value is in step with itself. -/
theorem pure (a : α) : InStep F T excused (Pure.pure a) (Pure.pure a) :=
  ⟨fun _ _ w' h => ⟨w', rfl, h⟩⟩

/-- Two calls in a row are in step when both are. -/
theorem bind (h : InStep F T excused x y) (hf : ∀ a, InStep F T excused (f a) (g a)) :
    InStep F T excused (x >>= f) (y >>= g) := by
  refine ⟨fun k w w' hT => ?_⟩
  have hxy := h.alike k w w' hT
  rw [bind_apply, bind_apply]
  cases hx : x ⟨k, w⟩ with
  | ok a t =>
    rw [hx] at hxy
    obtain ⟨v, hy, hv⟩ := hxy
    rw [hy]
    exact (hf a).alike t.allocator t.world v hv
  | error e t =>
    rw [hx] at hxy
    rcases hxy with he | ⟨v, hy, hv⟩
    · exact Or.inl he
    · rw [hy]
      exact Or.inr ⟨v, rfl, hv⟩

/-- Calls that are told what the allocator is. -/
theorem self_bind {f g : κ → Action κ ρ β} (hf : ∀ k, InStep F T excused (f k) (g (F k))) :
    InStep F T excused (self >>= f) (self >>= g) :=
  ⟨fun k w w' hT => (hf k).alike k w w' hT⟩

/-- The changed allocator is put in place on both sides. -/
theorem become (k : κ) : InStep F T excused (Action.become k : Action κ ρ Unit)
    (Action.become (F k)) := ⟨fun _ _ w' h => ⟨w', rfl, h⟩⟩

/-- Values that agree are in step. -/
theorem ofExcept {x y : Except Failure α} (h : Build.Agrees excused x y) :
    InStep F T excused (Action.ofExcept x) (Action.ofExcept y) := by
  refine ⟨fun k w w' hT => ?_⟩
  cases x with
  | ok a =>
    obtain rfl : y = .ok a := h
    exact ⟨w', rfl, hT⟩
  | error e =>
    rcases h with h | rfl
    · exact Or.inl h
    · exact Or.inr ⟨w', rfl, hT⟩

/-- A call is declined on both sides. -/
theorem refuse (r : Refusal) : InStep F T excused (Action.refuse r : Action κ ρ α)
    (Action.refuse r) := ⟨fun _ _ w' h => Or.inr ⟨w', rfl, h⟩⟩

/-- What is there on one side is there on the other. -/
theorem ofOption (r : Refusal) (x : Option α) :
    InStep F T excused (Action.ofOption r x) (Action.ofOption r x) := by
  cases x with
  | some a => exact pure a
  | none => exact refuse r

/-- A demand is met on both sides or on neither. -/
theorem demand (p : Prop) [Decidable p] (r : Refusal) :
    InStep F T excused (Action.demand p r) (Action.demand p r) := by
  unfold Action.demand
  split
  · exact pure ()
  · exact refuse r

/-- A call is made on both sides or on neither. -/
theorem when (p : Prop) [Decidable p] {x y : Action κ ρ Unit} (h : InStep F T excused x y) :
    InStep F T excused (Action.when p x) (Action.when p y) := by
  unfold Action.when
  split
  · exact h
  · exact pure ()

/-- Answers are passed on changed in the same way. -/
theorem map (p : α → β) (h : InStep F T excused x y) :
    InStep F T excused (p <$> x) (p <$> y) := by
  refine ⟨fun k w w' hT => ?_⟩
  have hxy := h.alike k w w' hT
  rw [map_apply, map_apply]
  cases hx : x ⟨k, w⟩ with
  | ok a t =>
    rw [hx] at hxy
    obtain ⟨v, hy, hv⟩ := hxy
    rw [hy]
    exact ⟨v, rfl, hv⟩
  | error e t =>
    rw [hx] at hxy
    rcases hxy with he | ⟨v, hy, hv⟩
    · exact Or.inl he
    · rw [hy]
      exact Or.inr ⟨v, rfl, hv⟩

/-- Calls on a part that are in step come to the same as calls on the
whole. -/
theorem on (h : InStep F T excused x y) (F' : κ' → κ') (whole : κ → κ')
    (hw : ∀ k, F' (whole k) = whole (F k)) (part : κ) {k k' : κ'} {w w' : World ρ} (hT : T w w') :
    Alike F' T excused (Action.on part whole x ⟨k, w⟩) (Action.on (F part) whole y ⟨k', w'⟩) := by
  have hxy := h.alike part w w' hT
  unfold Action.on
  cases hx : x ⟨part, w⟩ with
  | ok a t =>
    rw [hx] at hxy
    obtain ⟨v, hy, hv⟩ := hxy
    exact ⟨v, by simp only [hy, hw], hv⟩
  | error e t =>
    rw [hx] at hxy
    rcases hxy with he | ⟨v, hy, hv⟩
    · exact Or.inl he
    · exact Or.inr ⟨v, by simp only [hy, hw], hv⟩

/-! ## What is done in the world -/

variable [Resource ρ] (hT : World.Coupling T)

include hT

/-- A notice is left on both sides. -/
theorem noted (label : Option String) (n : Notice) :
    InStep F T excused (Action.record (.noted label n) : Action κ ρ Unit)
      (Action.record (.noted label n)) :=
  ⟨fun _ _ _ h => ⟨_, rfl, hT.noted label n h⟩⟩

/-- The memory is changed on both sides. -/
theorem write (m : Memory → Memory) :
    InStep F T excused (Action.write m : Action κ ρ Unit) (Action.write m) :=
  ⟨fun _ _ _ h => ⟨_, rfl, hT.write m h⟩⟩

/-- Calls that are told what the memory is. -/
theorem memory_bind {f g : Memory → Action κ ρ β} (hf : ∀ m, InStep F T excused (f m) (g m)) :
    InStep F T excused (memory >>= f) (memory >>= g) := by
  refine ⟨fun k w w' h => ?_⟩
  have hm := (hf w.memory).alike k w w' h
  rw [bind_apply, bind_apply]
  simp only [memory_apply]
  rw [hT.memory h]
  exact hm

/-- The resource is asked on both sides, and answers alike. -/
theorem take (l : Layout) :
    InStep F T excused (Action.take l : Action κ ρ (Option Nat)) (Action.take l) := by
  refine ⟨fun k w w' h => ?_⟩
  obtain ⟨ha, hw⟩ := hT.take l h
  rw [take_apply, take_apply, ha]
  exact ⟨_, rfl, hw⟩

/-- A block is given back on both sides. -/
theorem give (a : Nat) (l : Layout) :
    InStep F T excused (Action.give a l : Action κ ρ Unit) (Action.give a l) :=
  ⟨fun _ _ _ h => ⟨_, rfl, hT.give a l h⟩⟩

end InStep

end Action

end Allocators
