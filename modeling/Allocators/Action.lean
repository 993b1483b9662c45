import Allocators.Build
import Allocators.Resource
/-!
# Actions — calls on an allocator in its world

An `Action` is a call: it reads and changes an allocator and the world
around it, and ends with an answer or with a failure. A failure undoes
nothing by itself, so what a call had done before it failed is part of the
outcome. `bind_eq_ok_iff` and `bind_eq_error_iff` take the outcome of two
calls in a row apart.
-/

namespace Allocators

/-- An allocator and the world it draws on. -/
structure Scene (κ ρ : Type) where
  allocator : κ
  world : World ρ

/-- A call on an allocator of type `κ` over a resource of type `ρ`. -/
abbrev Action (κ ρ : Type) := EStateM Failure (Scene κ ρ)

namespace Action

variable {κ κ' ρ α : Type}

/-- The allocator as it is now. -/
def self : Action κ ρ κ := fun s => .ok s.allocator s

/-- Puts a changed allocator in place of the old one. -/
def become (k : κ) : Action κ ρ Unit := fun s => .ok () { s with allocator := k }

/-- The memory as it is now. -/
def memory : Action κ ρ Memory := fun s => .ok s.world.memory s

/-- Changes the memory. -/
def write (f : Memory → Memory) : Action κ ρ Unit := fun s =>
  .ok () { s with world := s.world.write f }

/-- Records an event. -/
def record (e : Event) : Action κ ρ Unit := fun s =>
  .ok () { s with world := s.world.record e }

/-- Leaves a notice under a label. -/
def note (label : String) (n : Notice) : Action κ ρ Unit := record (.noted (some label) n)

/-- Declines the call. -/
def refuse (r : Refusal) : Action κ ρ α := fun s => .error (.refused r) s

/-- Goes on with the value, or ends with the failure. -/
def ofExcept (x : Except Failure α) : Action κ ρ α := fun s =>
  match x with
  | .ok a => .ok a s
  | .error e => .error e s

/-- Goes on with the value, or declines the call. -/
def ofOption (r : Refusal) (x : Option α) : Action κ ρ α := fun s =>
  match x with
  | some a => .ok a s
  | none => .error (.refused r) s

/-- Goes on if the condition holds, or declines the call. -/
def demand (p : Prop) [Decidable p] (r : Refusal) : Action κ ρ Unit :=
  if p then pure () else refuse r

/-- Makes a call if the condition holds, and goes on. -/
def when (p : Prop) [Decidable p] (call : Action κ ρ Unit) : Action κ ρ Unit :=
  if p then call else pure ()

/-- Asks the resource for a block. -/
def take [Resource ρ] (l : Layout) : Action κ ρ (Option Nat) := fun s =>
  let (a, w) := s.world.take l
  .ok a { s with world := w }

/-- Asks the resource for a block of zeros. -/
def takeZeroed [Resource ρ] (l : Layout) : Action κ ρ (Option Nat) := fun s =>
  let (a, w) := s.world.takeZeroed l
  .ok a { s with world := w }

/-- Gives a block back to the resource. -/
def give [Resource ρ] (a : Nat) (l : Layout) : Action κ ρ Unit := fun s =>
  .ok () { s with world := s.world.give a l }

/-- Makes a call and goes on with its answer or its refusal; a fault ends
this call too. -/
def attempt (call : Action κ ρ α) : Action κ ρ (Except Refusal α) := fun s =>
  match call s with
  | .ok a t => .ok (.ok a) t
  | .error (.refused r) t => .ok (.error r) t
  | .error (.fault f) t => .error (.fault f) t

/-- A call on a part, made as a call on the whole that `whole` puts the part
into. -/
def on (part : κ) (whole : κ → κ') (call : Action κ ρ α) : Action κ' ρ α := fun s =>
  match call ⟨part, s.world⟩ with
  | .ok a t => .ok a ⟨whole t.allocator, t.world⟩
  | .error e t => .error e ⟨whole t.allocator, t.world⟩

/-! ## Outcomes -/

variable {β : Type}

/-- A value is the outcome that changes nothing. -/
@[simp] theorem pure_apply (a : α) (s : Scene κ ρ) : (pure a : Action κ ρ α) s = .ok a s := rfl

/-- The second call starts where the first ended. -/
theorem bind_apply (x : Action κ ρ α) (f : α → Action κ ρ β) (s : Scene κ ρ) :
    (x >>= f) s = match x s with
      | .ok a t => f a t
      | .error e t => .error e t := by
  show EStateM.bind x f s = _
  unfold EStateM.bind
  cases x s <;> rfl

/-- Two calls in a row end with an answer when both do. -/
theorem bind_eq_ok_iff {x : Action κ ρ α} {f : α → Action κ ρ β} {s t : Scene κ ρ} {b : β} :
    (x >>= f) s = .ok b t ↔ ∃ a u, x s = .ok a u ∧ f a u = .ok b t := by
  rw [bind_apply]
  cases h : x s with
  | ok a u =>
    constructor
    · intro hf
      exact ⟨a, u, rfl, hf⟩
    · rintro ⟨a', u', he, hf⟩
      cases he
      exact hf
  | error e u => simp

/-- Two calls in a row fail when the first does, or the second after it. -/
theorem bind_eq_error_iff {x : Action κ ρ α} {f : α → Action κ ρ β} {s t : Scene κ ρ}
    {e : Failure} :
    (x >>= f) s = .error e t ↔
      x s = .error e t ∨ ∃ a u, x s = .ok a u ∧ f a u = .error e t := by
  rw [bind_apply]
  cases h : x s with
  | ok a u =>
    constructor
    · intro hf
      exact Or.inr ⟨a, u, rfl, hf⟩
    · rintro (he | ⟨a', u', he, hf⟩)
      · cases he
      · cases he
        exact hf
  | error e u => simp

/-- What an allocator is, is told without a change. -/
@[simp] theorem self_apply (s : Scene κ ρ) : self s = .ok s.allocator s := rfl

/-- What the memory is, is told without a change. -/
@[simp] theorem memory_apply (s : Scene κ ρ) : memory s = .ok s.world.memory s := rfl

/-- A changed allocator takes the place of the old one. -/
@[simp] theorem become_apply (k : κ) (s : Scene κ ρ) : become k s = .ok () ⟨k, s.world⟩ := rfl

/-- A write changes the memory. -/
@[simp] theorem write_apply (f : Memory → Memory) (s : Scene κ ρ) :
    write f s = .ok () ⟨s.allocator, s.world.write f⟩ := rfl

/-- An event is recorded. -/
@[simp] theorem record_apply (e : Event) (s : Scene κ ρ) :
    record e s = .ok () ⟨s.allocator, s.world.record e⟩ := rfl

/-- A notice is an event. -/
@[simp] theorem note_apply (label : String) (n : Notice) (s : Scene κ ρ) :
    note label n s = .ok () ⟨s.allocator, s.world.record (.noted (some label) n)⟩ := rfl

/-- A value goes on. -/
@[simp] theorem ofExcept_ok (a : α) (s : Scene κ ρ) : ofExcept (.ok a) s = .ok a s := rfl

/-- A failure ends the call. -/
@[simp] theorem ofExcept_error (e : Failure) (s : Scene κ ρ) :
    (ofExcept (.error e) : Action κ ρ α) s = .error e s := rfl

/-- A value that is there goes on. -/
@[simp] theorem ofOption_some (r : Refusal) (a : α) (s : Scene κ ρ) :
    ofOption r (some a) s = .ok a s := rfl

/-- A value that is not there ends the call. -/
@[simp] theorem ofOption_none (r : Refusal) (s : Scene κ ρ) :
    (ofOption r none : Action κ ρ α) s = .error (.refused r) s := rfl

/-- A demand is met, or the call is declined. -/
theorem demand_apply (p : Prop) [Decidable p] (r : Refusal) (s : Scene κ ρ) :
    (demand p r : Action κ ρ Unit) s = if p then .ok () s else .error (.refused r) s := by
  unfold demand
  split <;> rfl

/-- A call is made, or nothing is. -/
theorem when_apply (p : Prop) [Decidable p] (call : Action κ ρ Unit) (s : Scene κ ρ) :
    Action.when p call s = if p then call s else .ok () s := by
  unfold Action.when
  split <;> rfl

/-- An answer is passed on changed, a failure as it is. -/
theorem map_apply (g : α → β) (x : Action κ ρ α) (s : Scene κ ρ) :
    (g <$> x) s = match x s with
      | .ok a t => .ok (g a) t
      | .error e t => .error e t := by
  show EStateM.map g x s = _
  unfold EStateM.map
  cases x s <;> rfl

/-- A declined call changes nothing. -/
@[simp] theorem refuse_apply (r : Refusal) (s : Scene κ ρ) :
    (refuse r : Action κ ρ α) s = .error (.refused r) s := rfl

/-- A call on a part that is answered. -/
theorem on_of_ok {part k : κ} {whole : κ → κ'} {call : Action κ ρ α} {w w' : World ρ} {a : α}
    (h : call ⟨part, w⟩ = .ok a ⟨k, w'⟩) (k' : κ') :
    on part whole call ⟨k', w⟩ = .ok a ⟨whole k, w'⟩ := by
  unfold on
  simp only [h]

/-- A call on a part that fails. -/
theorem on_of_error {part k : κ} {whole : κ → κ'} {call : Action κ ρ α} {w w' : World ρ}
    {e : Failure} (h : call ⟨part, w⟩ = .error e ⟨k, w'⟩) (k' : κ') :
    on part whole call ⟨k', w⟩ = .error e ⟨whole k, w'⟩ := by
  unfold on
  simp only [h]

end Action

end Allocators
