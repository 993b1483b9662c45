import Allocators.Proofs.Planning
/-!
# The layouts that callers can name

The platform accepts a value's size and alignment if the size, rounded up to
the alignment, stays within the largest distance. A power of two divides the
whole of the address space's lower half, so that comes to the limit that
requests made in numbers are held to (`Layout.le_maxSize_iff`). A block,
unlike a value, is never empty: the layout of an empty value gets one byte
after it has been checked, and at the largest alignment there is no room for
that one. `Layout.Made.regular_iff` says that this is the only layout that can
be named and is not regular.
-/

namespace Allocators

/-! ## Rounding up -/

/-- Rounding up goes less than one multiple up. -/
theorem roundUp_lt {align : Nat} (h : 0 < align) (n : Nat) : roundUp n align < n + align := by
  have hlt := Nat.mod_lt n h
  unfold roundUp
  split <;> omega

/-- A size that is rounded up stays below a multiple of the alignment if there is
room for one multiple more. -/
theorem roundUp_lt_iff {align limit : Nat} (h : 0 < align) (hd : align ∣ limit) (n : Nat) :
    roundUp n align < limit ↔ n + align ≤ limit := by
  constructor
  · intro hlt
    obtain ⟨k, rfl⟩ := hd
    obtain ⟨j, hj⟩ := Nat.dvd_of_mod_eq_zero (roundUp_mod (n := n) h)
    have hle := le_roundUp n align
    rw [hj] at hlt hle
    have hjk : j + 1 ≤ k := Nat.lt_of_mul_lt_mul_left hlt
    calc n + align ≤ align * j + align := Nat.add_le_add_right hle align
      _ = align * (j + 1) := (Nat.mul_succ align j).symm
      _ ≤ align * k := Nat.mul_le_mul_left align hjk
  · exact fun hle => Nat.lt_of_lt_of_le (roundUp_lt h n) hle

namespace Layout

/-! ## What is accepted -/

/-- A size has no layout at an alignment just if it is zero or beyond the limit. -/
theorem ofSizeAlign?_eq_none_iff {size align : Nat} (ha : align.isPowerOfTwo) :
    ofSizeAlign? size align = none ↔ size = 0 ∨ maxSize align < size := by
  unfold ofSizeAlign?
  by_cases h : 0 < size ∧ size ≤ maxSize align
  · rw [dif_pos ⟨ha, h⟩]
    simp only [reduceCtorEq, false_iff]
    omega
  · rw [dif_neg fun hc => h hc.2]
    simp only [true_iff]
    omega

/-- The platform accepts a value of this size and alignment. -/
def Accepted (size align : Nat) : Prop :=
  align.isPowerOfTwo ∧ align < Word.size ∧ roundUp size align ≤ Word.maxDistance

/-- An alignment that is a word divides the lower half of the address space. -/
theorem dvd_half {align : Nat} (ha : align.isPowerOfTwo) (hw : align < Word.size) :
    align ∣ Word.maxDistance + 1 := by
  obtain ⟨k, hk, rfl⟩ := Word.exists_two_pow ha hw
  have hhalf : Word.maxDistance + 1 = 2 ^ 63 := by decide
  rw [hhalf]
  exact Nat.pow_dvd_pow 2 (by omega)

/-- **The limit of an alignment is what rounding leaves of the largest distance.** -/
theorem le_maxSize_iff {size align : Nat} (ha : align.isPowerOfTwo) (hw : align < Word.size) :
    size ≤ maxSize align ↔ roundUp size align ≤ Word.maxDistance := by
  obtain ⟨hpos, hslack⟩ := Resize.pred_le_maxDistance ha hw
  have hround := roundUp_lt_iff hpos (dvd_half ha hw) size
  unfold maxSize
  omega

/-- A value has a layout just if the platform accepts it. -/
theorem isSome_ofValue?_iff {size align : Nat} :
    (ofValue? size align).isSome = true ↔ Accepted size align := by
  unfold ofValue? Accepted
  constructor
  · intro h
    split at h
    · next hc => exact ⟨hc.1, hc.2.1, (le_maxSize_iff hc.1 hc.2.1).1 hc.2.2⟩
    · cases h
  · rintro ⟨ha, hw, hr⟩
    rw [dif_pos ⟨ha, hw, (le_maxSize_iff ha hw).2 hr⟩]
    rfl

/-- What a layout should be: requests made in numbers accept it back as it is, and
so does the platform. -/
structure Regular (l : Layout) : Prop where
  size_pos : 0 < l.size
  align_pow : l.align.isPowerOfTwo
  size_le : l.size ≤ maxSize l.align
  again : ofSizeAlign? l.size l.align = some l
  accepted : Accepted l.size l.align

/-- It is that if it fits. -/
theorem regular_iff_fits {l : Layout} : l.Regular ↔ l.Fits :=
  ⟨Regular.size_le, fun h => ⟨l.size_pos, l.align_pow, h,
    ofSizeAlign?_eq_some_iff.2 ⟨rfl, rfl, h⟩,
    l.align_pow, l.align_lt, (le_maxSize_iff l.align_pow l.align_lt).1 h⟩⟩

/-- The layout of a value has its size, or one byte if it is empty, and its
alignment. -/
theorem ofValue?_eq_some_iff {size align : Nat} {l : Layout} :
    ofValue? size align = some l ↔
      Accepted size align ∧ l.size = max size 1 ∧ l.align = align := by
  constructor
  · intro h
    refine ⟨isSome_ofValue?_iff.1 (by rw [h]; rfl), ?_⟩
    unfold ofValue? at h
    split at h
    · cases h
      exact ⟨rfl, rfl⟩
    · cases h
  · rintro ⟨hacc, hs, ha⟩
    obtain ⟨l', hl'⟩ := Option.isSome_iff_exists.1 (isSome_ofValue?_iff.2 hacc)
    rw [hl']
    unfold ofValue? at hl'
    split at hl'
    · cases hl'
      exact congrArg some (eq_of_fields hs.symm ha.symm)
    · cases hl'

/-- One byte fits at every alignment but the largest. -/
theorem one_le_maxSize_iff {align : Nat} (ha : align.isPowerOfTwo) (hw : align < Word.size) :
    1 ≤ maxSize align ↔ align ≠ 0x8000000000000000 := by
  obtain ⟨hpos, hslack⟩ := Resize.pred_le_maxDistance ha hw
  have hmax : Word.maxDistance = 0x7fffffffffffffff := rfl
  unfold maxSize
  omega

/-- **Every layout that can be named is regular**, but for that of an empty value at
the largest alignment of all. -/
theorem Made.regular_iff {l : Layout} (h : l.Made) :
    l.Regular ↔ ofValue? 0 0x8000000000000000 ≠ some l := by
  rw [regular_iff_fits]
  have hlargest : ofValue? 0 0x8000000000000000 = some l →
      l.size = 1 ∧ l.align = 0x8000000000000000 := fun hl => (ofValue?_eq_some_iff.1 hl).2
  constructor
  · intro hf hl
    obtain ⟨hs, ha⟩ := hlargest hl
    have hone := one_le_maxSize_iff l.align_pow l.align_lt
    unfold Fits at hf
    rw [hs] at hf
    exact hone.1 hf ha
  · intro hne
    rcases h with ⟨size, align, h⟩ | ⟨size, align, h⟩
    · exact (ofSizeAlign?_eq_some_iff.1 h).2.2
    · obtain ⟨⟨ha, hw, hround⟩, hs, hal⟩ := ofValue?_eq_some_iff.1 h
      have hle := (le_maxSize_iff ha hw).2 hround
      have hone := one_le_maxSize_iff ha hw
      -- a value that is not empty keeps the size it was checked with
      unfold Fits
      rw [hs, hal]
      by_cases hz : size = 0
      · subst hz
        have hal' : align ≠ 0x8000000000000000 := by
          rintro rfl
          exact hne h
        exact hone.2 hal'
      · omega

/-- The layout of a callback's entry is such a one. -/
theorem regular_iff_entry : entry.Made ∧ entry.Regular ∧
    (entry.Regular ↔ ofValue? 0 0x8000000000000000 ≠ some entry) := by
  have hmade : entry.Made := Or.inl ⟨24, 8, rfl⟩
  exact ⟨hmade, regular_iff_fits.2 (by decide), hmade.regular_iff⟩

/-- The layout of an empty value at the largest alignment is accepted before it gets
its byte, and by none afterwards. -/
theorem not_regular_largest : Accepted 0 0x8000000000000000 ∧
    ∃ l, ofValue? 0 0x8000000000000000 = some l ∧ l.size = 1 ∧ l.align = 0x8000000000000000 ∧
      ofSizeAlign? l.size l.align = none ∧ ¬ Accepted l.size l.align ∧ ¬ l.Regular := by
  have hacc : Accepted 0 0x8000000000000000 := ⟨⟨63, rfl⟩, by decide, by decide⟩
  obtain ⟨l, hl⟩ := Option.isSome_iff_exists.1 (isSome_ofValue?_iff.2 hacc)
  obtain ⟨-, hs, ha⟩ := ofValue?_eq_some_iff.1 hl
  refine ⟨hacc, l, hl, hs, ha, ?_, ?_, fun hr => ?_⟩
  · rw [hs, ha]
    exact dif_neg (by decide +kernel)
  · rw [hs, ha]
    exact fun h => absurd h.2.2 (by decide)
  · have hle := hr.size_le
    rw [hs, ha] at hle
    exact absurd hle (by decide)

end Layout

end Allocators
