/-!
# Machine words

Sizes, counts and addresses are natural numbers, and the machine's limit
is a number they are compared with: a word is a number below `Word.size`.
Sums and differences that the machine keeps within a word without looking
are `Word.add` and `Word.sub`; the ones it looks at are in `Build`.
`roundUp` and `roundDown` move an address to a multiple of an alignment.
-/

namespace Allocators

namespace Word

/-- How many values a word can hold: eight bytes of bits. -/
def size : Nat := 0x10000000000000000

/-- The largest distance within one block: half the address space. -/
def maxDistance : Nat := 0x7fffffffffffffff

/-- How many bytes a word occupies, which is also its alignment. -/
def bytes : Nat := 8

/-- The sum, kept within a word by dropping whole multiples of its size. -/
def add (x y : Nat) : Nat := (x + y) % size

/-- The difference, kept within a word the same way. -/
def sub (x y : Nat) : Nat := (x + (size - y % size)) % size

end Word

/-- The least multiple of `align` that is at least `n`. -/
def roundUp (n align : Nat) : Nat :=
  if n % align = 0 then n else n + (align - n % align)

/-- The greatest multiple of `align` that is at most `n`. -/
def roundDown (n align : Nat) : Nat := n - n % align

/-- Rounding up never goes below. -/
theorem le_roundUp (n align : Nat) : n ≤ roundUp n align := by
  unfold roundUp
  split <;> omega

/-- Rounding up lands on a multiple. -/
theorem roundUp_mod {n align : Nat} (h : 0 < align) : roundUp n align % align = 0 := by
  unfold roundUp
  split
  · assumption
  · have hlt : n % align < align := Nat.mod_lt _ h
    have hn : n + (align - n % align) = align * (n / align + 1) := by
      have := Nat.div_add_mod n align
      rw [Nat.mul_add, Nat.mul_one]
      omega
    rw [hn, Nat.mul_mod_right]

/-- Rounding down never goes above. -/
theorem roundDown_le (n align : Nat) : roundDown n align ≤ n := Nat.sub_le _ _

/-- Rounding down lands on a multiple. -/
theorem roundDown_mod (n align : Nat) : roundDown n align % align = 0 := by
  have h : roundDown n align = align * (n / align) := by
    have := Nat.div_add_mod n align
    unfold roundDown
    omega
  rw [h, Nat.mul_mod_right]

end Allocators
