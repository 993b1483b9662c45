import Allocators.Failure
/-!
# Builds — what is checked

In a debug build an allocator checks what its callers promise, and every
sum and difference it forms; in a release build it checks neither, and
words wrap. `add_of_lt` and `sub_of_le` say that the two builds agree
wherever the exact result is a word.
-/

namespace Allocators

/-- Whether checks are made. -/
inductive Build where
  | debug
  | release
deriving DecidableEq, Repr

namespace Build

/-- A promise of the caller, looked at in a debug build only. -/
def require (b : Build) (p : Prop) [Decidable p] (f : Fault) : Except Failure Unit :=
  match b with
  | debug => if p then .ok () else .error (.fault f)
  | release => .ok ()

/-- A sum of words. -/
def add (b : Build) (x y : Nat) : Except Failure Nat :=
  if x + y < Word.size then
    .ok (x + y)
  else
    match b with
    | debug => .error (.fault .sumOverflow)
    | release => .ok (Word.add x y)

/-- A difference of words. -/
def sub (b : Build) (x y : Nat) : Except Failure Nat :=
  if y ≤ x then
    .ok (x - y)
  else
    match b with
    | debug => .error (.fault .differenceOverflow)
    | release => .ok (Word.sub x y)

/-- A promise that is kept is not noticed. -/
theorem require_of (b : Build) {p : Prop} [Decidable p] (f : Fault) (h : p) :
    b.require p f = .ok () := by
  cases b <;> simp [require, h]

/-- A sum that is a word is the sum, in either build. -/
theorem add_of_lt (b : Build) {x y : Nat} (h : x + y < Word.size) : b.add x y = .ok (x + y) := by
  simp [add, h]

/-- A difference that is not below zero is the difference, in either build. -/
theorem sub_of_le (b : Build) {x y : Nat} (h : y ≤ x) : b.sub x y = .ok (x - y) := by
  simp [sub, h]

end Build

end Allocators
