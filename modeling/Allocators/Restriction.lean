import Allocators.Allocator
/-!
# Restrictions — an allocator with one operation switched off

A restriction stands between a caller and an allocator and passes
everything on except one operation, which does nothing. Restrictions nest:
a nest is a list, the outermost first. `clear_of_mem` and
`deallocate_of_mem` say that the place of a restriction in its nest does
not matter, `clear_of_not_mem` and `deallocate_of_not_mem` that a call is
passed on where there is none.
-/

namespace Allocators

/-- The operation that is switched off. -/
inductive Restriction where
  | noClear
  | noFree
deriving DecidableEq, Repr

/-- A call on an allocator, as a caller makes it. -/
inductive Call where
  | allocate (l : Layout)
  | allocateBytes (size : Nat)
  | reallocate (r : Resize)
  | deallocate (address : Nat) (l : Layout)
  | clear
  | register (data : Nat) (h : Handler)

/-- The answer to a call. -/
inductive Reply where
  | block (a : Allocation)
  | resized (r : Reallocation)
  | done
deriving DecidableEq, Repr

namespace Restriction

variable {ρ : Type}

/-- Clears through a nest. -/
def clear (b : Build) : List Restriction → Action Allocator ρ Unit
  | [] => Allocator.clear b
  | noClear :: _ => Action.record (.noted none .clearSuppressed)
  | noFree :: rest => clear b rest

/-- Frees through a nest. -/
def deallocate [Resource ρ] (b : Build) (a : Nat) (l : Layout) :
    List Restriction → Action Allocator ρ Unit
  | [] => Allocator.deallocate b a l
  | noClear :: rest => deallocate b a l rest
  | noFree :: _ => Action.record (.noted none (.freeSuppressed a))

/-- What an allocator is able to do through a nest. A free that does nothing
is still a free. -/
def features (s : Allocator) : List Restriction → Features
  | [] => s.features
  | noClear :: rest => (features s rest).difference (Flags.single .clearing)
  | noFree :: rest => features s rest

/-- Makes a call through a nest. -/
def perform [Resource ρ] (b : Build) (nest : List Restriction) : Call → Action Allocator ρ Reply
  | .allocate l => Reply.block <$> Allocator.allocate b l
  | .allocateBytes size => Reply.block <$> Allocator.allocateBytes b size
  | .reallocate r => Reply.resized <$> Allocator.reallocate b r
  | .deallocate a l => (fun _ => Reply.done) <$> deallocate b a l nest
  | .clear => (fun _ => Reply.done) <$> clear b nest
  | .register data h => (fun _ => Reply.done) <$> Allocator.register b data h

/-- The name of a restriction with the text of what it restricts. -/
def text (backing : String) : Restriction → String
  | noClear => Fields.render "DisableClearing" [("backing", backing)]
  | noFree => Fields.render "DisableFreeing" [("backing", backing)]

/-- One restriction on clearing anywhere in the nest is enough. -/
theorem clear_of_mem {b : Build} {nest : List Restriction} (h : noClear ∈ nest) :
    clear (ρ := ρ) b nest = Action.record (.noted none .clearSuppressed) := by
  induction nest with
  | nil => cases h
  | cons x rest ih =>
    cases x with
    | noClear => rfl
    | noFree => exact ih (by simpa using h)

/-- One restriction on freeing anywhere in the nest is enough. -/
theorem deallocate_of_mem [Resource ρ] {b : Build} {a : Nat} {l : Layout}
    {nest : List Restriction} (h : noFree ∈ nest) :
    deallocate (ρ := ρ) b a l nest = Action.record (.noted none (.freeSuppressed a)) := by
  induction nest with
  | nil => cases h
  | cons x rest ih =>
    cases x with
    | noClear => exact ih (by simpa using h)
    | noFree => rfl

/-- Without a restriction on clearing a clear is passed on. -/
theorem clear_of_not_mem {b : Build} {nest : List Restriction} (h : noClear ∉ nest) :
    clear (ρ := ρ) b nest = Allocator.clear b := by
  induction nest with
  | nil => rfl
  | cons x rest ih =>
    cases x with
    | noClear => exact absurd List.mem_cons_self h
    | noFree => exact ih fun hm => h (List.mem_cons_of_mem _ hm)

/-- Without a restriction on freeing a free is passed on. -/
theorem deallocate_of_not_mem [Resource ρ] {b : Build} {a : Nat} {l : Layout}
    {nest : List Restriction} (h : noFree ∉ nest) :
    deallocate (ρ := ρ) b a l nest = Allocator.deallocate b a l := by
  induction nest with
  | nil => rfl
  | cons x rest ih =>
    cases x with
    | noClear => exact ih fun hm => h (List.mem_cons_of_mem _ hm)
    | noFree => exact absurd List.mem_cons_self h

end Restriction

end Allocators
