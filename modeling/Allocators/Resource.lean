import Allocators.Event
import Allocators.Memory
/-!
# Resources and the world — where memory comes from

A resource hands out blocks and takes them back, and may decline any
request. What it does to the bytes of a block that it hands out or takes
back is its own affair, and it changes no other byte. A `World` is a
resource with the memory it gives access to and the record of what has
happened, latest first.
-/

namespace Allocators

/-- A block handed out: where it is, and what becomes of each of its bytes
by being handed out. -/
structure Grant where
  address : Nat
  contents : Nat → UInt8 → UInt8

/-- A source of memory. -/
class Resource (ρ : Type) where
  /-- Asks for a block. -/
  take : ρ → Layout → Option Grant × ρ
  /-- Gives a block back; the answer tells what becomes of its bytes. -/
  give : ρ → Nat → Layout → (Nat → UInt8 → UInt8) × ρ

/-- A resource, the memory, and what has happened so far, latest first. -/
structure World (ρ : Type) where
  resource : ρ
  memory : Memory
  events : List Event

namespace World

variable {ρ : Type}

/-- A resource before anything has happened. -/
def start (r : ρ) : World ρ := ⟨r, Memory.zero, []⟩

/-- Records an event. -/
def record (w : World ρ) (e : Event) : World ρ := { w with events := e :: w.events }

/-- Changes the memory. -/
def write (w : World ρ) (f : Memory → Memory) : World ρ := { w with memory := f w.memory }

variable [Resource ρ]

/-- Asks the resource for a block. -/
def take (w : World ρ) (l : Layout) : Option Nat × World ρ :=
  match Resource.take w.resource l with
  | (none, r) => (none, { w with resource := r, events := .taken l none :: w.events })
  | (some g, r) =>
    (some g.address,
      { resource := r
        memory := w.memory.update g.address l.size g.contents
        events := .taken l (some g.address) :: w.events })

/-- Asks the resource for a block and writes zeros all over it. -/
def takeZeroed (w : World ρ) (l : Layout) : Option Nat × World ρ :=
  match w.take l with
  | (none, w') => (none, w')
  | (some a, w') => (some a, w'.write fun m => m.fill a l.size 0)

/-- Gives a block back to the resource. -/
def give (w : World ρ) (a : Nat) (l : Layout) : World ρ :=
  let (f, r) := Resource.give w.resource a l
  { resource := r, memory := w.memory.update a l.size f, events := .given a l :: w.events }

end World

end Allocators
