import Allocators.Word
/-!
# Memory — a byte at every address

Memory is a function from addresses to bytes, and every write is a change
to a stretch of it: `byteAt_update` and `byteAt_copy` say which bytes a
write changes and to what. Words lie in memory lowest byte first;
`word_writeWord` reads one back.
-/

namespace Allocators

/-- Plain bytes. -/
structure Memory where
  byteAt : Nat → UInt8

namespace Memory

/-- Whether an address lies in the stretch of `len` bytes from `start`. -/
def Within (start len a : Nat) : Prop := start ≤ a ∧ a < start + len

instance (start len a : Nat) : Decidable (Within start len a) :=
  inferInstanceAs (Decidable (_ ∧ _))

/-- Memory that is zero everywhere. -/
def zero : Memory := ⟨fun _ => 0⟩

/-! ## Writing -/

/-- Changes a stretch byte by byte: byte number `i` becomes what `f` makes
of `i` and of the byte that was there. -/
def update (m : Memory) (start len : Nat) (f : Nat → UInt8 → UInt8) : Memory :=
  ⟨fun a => if Within start len a then f (a - start) (m.byteAt a) else m.byteAt a⟩

/-- Writes one byte all over a stretch. -/
def fill (m : Memory) (start len : Nat) (b : UInt8) : Memory := m.update start len fun _ _ => b

/-- Writes bytes that count up from `seed`. -/
def fillFrom (m : Memory) (start len seed : Nat) : Memory :=
  m.update start len fun i _ => UInt8.ofNat (seed + i)

/-- Copies a stretch onto another, which may overlap it. -/
def copy (m : Memory) (source target len : Nat) : Memory :=
  ⟨fun a => if Within target len a then m.byteAt (source + (a - target)) else m.byteAt a⟩

/-- Byte number `i` of a number, the lowest first. -/
def byteOf (n : Nat) : Nat → UInt8
  | 0 => UInt8.ofNat n
  | i + 1 => byteOf (n / 256) i

/-- Writes a word. -/
def writeWord (m : Memory) (a : Nat) (n : Nat) : Memory :=
  m.update a Word.bytes fun i _ => byteOf n i

/-! ## Reading -/

/-- The bytes of a stretch, in order. -/
def read (m : Memory) (start len : Nat) : List UInt8 :=
  (List.range len).map fun i => m.byteAt (start + i)

/-- How many values `k` bytes can hold. -/
def span : Nat → Nat
  | 0 => 1
  | k + 1 => 256 * span k

/-- The number whose bytes stand from `a` on, `k` of them, lowest first. -/
def number (m : Memory) (a : Nat) : Nat → Nat
  | 0 => 0
  | k + 1 => (m.byteAt a).toNat + 256 * number m (a + 1) k

/-- The word at an address. -/
def word (m : Memory) (a : Nat) : Nat := m.number a Word.bytes

/-! ## What a write changes -/

/-- A change reaches its stretch and nothing else. -/
theorem byteAt_update (m : Memory) (start len : Nat) (f : Nat → UInt8 → UInt8) (a : Nat) :
    (m.update start len f).byteAt a =
      if Within start len a then f (a - start) (m.byteAt a) else m.byteAt a := rfl

/-- A copy reaches its target and nothing else, and takes its bytes from
before the copy. -/
theorem byteAt_copy (m : Memory) (source target len : Nat) (a : Nat) :
    (m.copy source target len).byteAt a =
      if Within target len a then m.byteAt (source + (a - target)) else m.byteAt a := rfl

/-- As many bytes are read as were asked for. -/
@[simp] theorem length_read (m : Memory) (start len : Nat) : (m.read start len).length = len := by
  simp [read]

/-- A number depends on its own bytes only. -/
theorem number_congr {m m' : Memory} {a : Nat} {k : Nat}
    (h : ∀ x, Within a k x → m.byteAt x = m'.byteAt x) : m.number a k = m'.number a k := by
  induction k generalizing a with
  | zero => rfl
  | succ k ih =>
    have h0 := h a ⟨Nat.le_refl _, by omega⟩
    have hr := ih (a := a + 1) fun x hx => h x ⟨by have := hx.1; omega, by have := hx.2; omega⟩
    rw [number, number, h0, hr]

/-- The bytes of `n`, lowest first, make up `n` again. -/
theorem number_of_bytes {m : Memory} {a : Nat} {n k : Nat}
    (h : ∀ i, i < k → m.byteAt (a + i) = byteOf n i) : m.number a k = n % span k := by
  induction k generalizing a n with
  | zero => simp [number, span, Nat.mod_one]
  | succ k ih =>
    have h0 : m.byteAt a = UInt8.ofNat n := h 0 (Nat.zero_lt_succ k)
    have hr : m.number (a + 1) k = n / 256 % span k := by
      apply ih
      intro i hi
      rw [Nat.add_assoc, Nat.add_comm 1 i]
      exact h (i + 1) (Nat.succ_lt_succ hi)
    rw [number, h0, hr, UInt8.toNat_ofNat', span, Nat.mod_mul]

/-- **A word is read back** as it was written. -/
theorem word_writeWord (m : Memory) (a : Nat) {n : Nat} (h : n < Word.size) :
    (m.writeWord a n).word a = n := by
  unfold word writeWord
  rw [number_of_bytes (n := n), Nat.mod_eq_of_lt]
  · exact h
  · intro i hi
    rw [byteAt_update, if_pos ⟨Nat.le_add_right _ _, Nat.add_lt_add_left hi a⟩,
      Nat.add_sub_cancel_left]

/-- A word somewhere else is not touched. -/
theorem word_writeWord_of_disjoint (m : Memory) {a b : Nat} (n : Nat)
    (h : a + Word.bytes ≤ b ∨ b + Word.bytes ≤ a) : (m.writeWord a n).word b = m.word b := by
  apply number_congr
  intro x hx
  unfold writeWord
  rw [byteAt_update, if_neg]
  rintro ⟨h1, h2⟩
  have := hx.1
  have := hx.2
  omega

end Memory

end Allocators
