import Allocators.Word
import Allocators.Text.Fields
/-!
# Layouts — the shape of an allocation request

A `Layout` is a size and an alignment: the size is not zero and at most
`Word.maxDistance`, the alignment is a power of two and a word. A request
made in numbers, `ofSizeAlign?`, is held to one condition more, that the
size rounded up to the alignment stays within `Word.maxDistance`; it is
`Layout.Fits`, and `ofSizeAlign?_eq_some_iff` says the requests accepted
are those that fit. A layout taken from a value, `ofValue?`, is checked
before an empty value is given its one byte, so it may miss `Fits` at the
largest alignment of all.
-/

namespace Allocators

/-- The alignment a block gets when none is asked for: two words. -/
def defaultAlign : Nat := 16

/-- The largest size a block of this alignment can have. -/
def maxSize (align : Nat) : Nat := Word.maxDistance - (align - 1)

/-- The size and alignment of a block. -/
structure Layout where
  size : Nat
  align : Nat
  size_pos : 0 < size
  size_le : size ≤ Word.maxDistance
  align_pow : align.isPowerOfTwo
  align_lt : align < Word.size

namespace Layout

/-- Two layouts of one size and alignment are one layout. -/
theorem eq_of_fields {x y : Layout} (hs : x.size = y.size) (ha : x.align = y.align) : x = y := by
  cases x; cases y; cases hs; cases ha; rfl

instance : DecidableEq Layout := fun x y =>
  if h : x.size = y.size ∧ x.align = y.align then
    isTrue (eq_of_fields h.1 h.2)
  else
    isFalse fun e => h (e ▸ ⟨rfl, rfl⟩)

/-- The size, rounded up to the alignment, stays within a block's largest
distance. -/
def Fits (l : Layout) : Prop := l.size ≤ maxSize l.align

instance (l : Layout) : Decidable l.Fits := inferInstanceAs (Decidable (_ ≤ _))

/-! ## Construction -/

/-- A size that is not zero and within the limit of its alignment leaves
the alignment a word. -/
theorem align_lt_of_le_maxSize {size align : Nat} (hs : 0 < size) (h : size ≤ maxSize align) :
    align < Word.size := by
  unfold maxSize Word.maxDistance at h
  unfold Word.size
  omega

/-- The layout of this size and alignment, if a block can have it. -/
def ofSizeAlign? (size align : Nat) : Option Layout :=
  if h : align.isPowerOfTwo ∧ 0 < size ∧ size ≤ maxSize align then
    some ⟨size, align, h.2.1, Nat.le_trans h.2.2 (Nat.sub_le _ _), h.1,
      align_lt_of_le_maxSize h.2.1 h.2.2⟩
  else
    none

/-- The layout of this size with the default alignment. -/
def ofSize? (size : Nat) : Option Layout := ofSizeAlign? size defaultAlign

/-- The layout of a value of this size and alignment. A value may be empty,
a block may not: it gets one byte. -/
def ofValue? (size align : Nat) : Option Layout :=
  if h : align.isPowerOfTwo ∧ align < Word.size ∧ size ≤ maxSize align then
    some ⟨max size 1, align, by omega,
      Nat.max_le.2 ⟨Nat.le_trans h.2.2 (Nat.sub_le _ _), by decide⟩, h.1, h.2.1⟩
  else
    none

/-- A callback entry's layout: three words. -/
def entry : Layout := ⟨24, 8, by decide, by decide, by decide, by decide⟩

/-- **The requests accepted are those that fit.** -/
theorem ofSizeAlign?_eq_some_iff {size align : Nat} {l : Layout} :
    ofSizeAlign? size align = some l ↔ l.size = size ∧ l.align = align ∧ l.Fits := by
  unfold ofSizeAlign?
  constructor
  · intro h
    split at h
    · next hc => cases h; exact ⟨rfl, rfl, hc.2.2⟩
    · cases h
  · rintro ⟨rfl, rfl, hf⟩
    rw [dif_pos ⟨l.align_pow, l.size_pos, hf⟩]

/-- The alignment is not zero. -/
theorem align_pos (l : Layout) : 0 < l.align := by
  obtain ⟨k, hk⟩ := l.align_pow
  rw [hk]
  exact Nat.two_pow_pos k

/-! ## Text -/

/-- The layout's text. -/
def text (l : Layout) : String :=
  Fields.render "Layout" [("size", toString l.size), ("align", toString l.align)]

end Layout

end Allocators
