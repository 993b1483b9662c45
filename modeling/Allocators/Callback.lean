import Allocators.Action
/-!
# Destruction callbacks

A callback is registered with a word of data and is run, newest first,
when its allocator is cleared or ends. Each registration is an entry of
three words in memory of the allocator it is registered on: the data, the
handler, and the address of the entry before it. The allocator itself
holds the address of the newest entry and how many there are, which bounds
the walk along the chain. `read_write` is an entry read back.
-/

namespace Allocators

/-- What a callback does once it has been noticed to run. -/
inductive Handler where
  /-- It returns. -/
  | returns
  /-- It fails. -/
  | fails
deriving DecidableEq, Repr

namespace Handler

/-- The word a handler is stored as. -/
def code : Handler → Nat
  | returns => 1
  | fails => 2

/-- The handler a word stands for. -/
def ofCode (n : Nat) : Handler := if n = fails.code then fails else returns

/-- A stored handler is read back. -/
@[simp] theorem ofCode_code (h : Handler) : ofCode h.code = h := by cases h <;> rfl

end Handler

/-- One registration. -/
structure CallbackEntry where
  data : Nat
  handler : Handler
  previous : Option Nat
deriving DecidableEq, Repr

/-- The callbacks of an allocator: the address of the newest entry, and how
many entries follow from it. -/
structure Callbacks where
  head : Option Nat
  count : Nat
deriving DecidableEq, Repr

namespace CallbackEntry

/-- A link as a word; zero is no address. -/
def linkWord (link : Option Nat) : Nat := link.getD 0

/-- The link a word stands for. -/
def linkOf (n : Nat) : Option Nat := if n = 0 then none else some n

/-- The entry stored at an address. -/
def read (m : Memory) (a : Nat) : CallbackEntry :=
  ⟨m.word a, Handler.ofCode (m.word (a + 8)), linkOf (m.word (a + 16))⟩

/-- Stores an entry at an address. -/
def write (m : Memory) (a : Nat) (e : CallbackEntry) : Memory :=
  ((m.writeWord a e.data).writeWord (a + 8) e.handler.code).writeWord (a + 16) (linkWord e.previous)

/-- An entry whose fields are words is read back. -/
theorem read_write (m : Memory) (a : Nat) {e : CallbackEntry} (hd : e.data < Word.size)
    (hp : ∀ x ∈ e.previous, 0 < x ∧ x < Word.size) : read (write m a e) a = e := by
  have hc : e.handler.code < Word.size := by cases e.handler <;> decide
  have hl : linkWord e.previous < Word.size ∧ linkOf (linkWord e.previous) = e.previous := by
    cases h : e.previous with
    | none => exact ⟨by decide, rfl⟩
    | some x =>
      have hx := hp x (by simp [h])
      exact ⟨hx.2, if_neg (by have := hx.1; show ¬ x = 0; omega)⟩
  unfold read write
  rw [Memory.word_writeWord _ _ hl.1, hl.2,
    Memory.word_writeWord_of_disjoint (a := a + 16) (b := a) _ _
      (Or.inr (by unfold Word.bytes; omega)),
    Memory.word_writeWord_of_disjoint (a := a + 8) (b := a) _ _
      (Or.inr (by unfold Word.bytes; omega)),
    Memory.word_writeWord _ _ hd,
    Memory.word_writeWord_of_disjoint (a := a + 16) (b := a + 8) _ _
      (Or.inr (by unfold Word.bytes; omega)),
    Memory.word_writeWord _ _ hc, Handler.ofCode_code]

end CallbackEntry

namespace Callbacks

/-- No callback. -/
def empty : Callbacks := ⟨none, 0⟩

/-- The callbacks with the entry at `a` in front of them. -/
def push (c : Callbacks) (a : Nat) : Callbacks := ⟨some a, c.count + 1⟩

/-- The entry that `push` at `a` needs in memory. -/
def entry (c : Callbacks) (data : Nat) (h : Handler) : CallbackEntry := ⟨data, h, c.head⟩

/-- How many entries are found by walking the chain, `bound` at most. -/
def walk (m : Memory) : Nat → Option Nat → Nat
  | 0, _ => 0
  | _, none => 0
  | bound + 1, some a => walk m bound (CallbackEntry.read m a).previous + 1

/-- How many entries the chain has. -/
def length (c : Callbacks) (m : Memory) : Nat := walk m c.count c.head

variable {κ ρ : Type}

/-- Runs one callback. -/
def invoke (e : CallbackEntry) : Action κ ρ Unit := do
  Action.record (.ran e.data)
  match e.handler with
  | .returns => pure ()
  | .fails => Action.ofExcept (.error (.fault (.callback e.data)))

/-- Runs the chain from an entry on, `bound` callbacks at most, and passes
each entry to `release` after it has run. The link is read before that, so
the entry may be gone then. The answer is how many callbacks ran. -/
def runFrom (release : Nat → Action κ ρ Unit) : Nat → Option Nat → Action κ ρ Nat
  | 0, _ => pure 0
  | _, none => pure 0
  | bound + 1, some a => do
    let e := CallbackEntry.read (← Action.memory) a
    invoke e
    release a
    let n ← runFrom release bound e.previous
    return n + 1

/-- Runs all callbacks, newest first. -/
def run (release : Nat → Action κ ρ Unit) (c : Callbacks) : Action κ ρ Nat :=
  runFrom release c.count c.head

end Callbacks

end Allocators
