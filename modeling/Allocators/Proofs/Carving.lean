import Mathlib.Order.Bounds.Defs
import Allocators.Proofs.Arena
import Allocators.Proofs.Layouts
/-!
# What a region finds room for

A block may start at any offset that leaves its header after the cursor, is
that of an aligned address and has so many bytes before the tail;
`Region.slots` are all of these. From the front a region gives the least of
its slots and from the tail the greatest, and it declines only where there is
none. Rounding is what both come to: `roundUp_le_iff` and `le_roundDown_iff`
say that rounding up is least and rounding down greatest among multiples, so
one comparison with the rounded address decides whether there is a slot at
all. The machine forms the addresses in words (`Region.bumpWords`,
`Region.carveWords`), with sums that are checked at the front and sums that
are not at the tail, where a mask stands for rounding down; in a region that
lies in the address space they come to the same. Main statement:
`Region.Bounded.bump_least_carve_greatest`.
-/

namespace Allocators

/-! ## Rounding -/

/-- Rounding up is at most a multiple just if the number is. -/
theorem roundUp_le_iff {n align m : Nat} (h : 0 < align) (hm : m % align = 0) :
    roundUp n align ≤ m ↔ n ≤ m := by
  refine ⟨Nat.le_trans (le_roundUp n align), fun hnm => Nat.le_of_not_lt fun hlt => ?_⟩
  -- above `m` the next multiple is a whole alignment away, and rounding goes less far
  obtain ⟨j, rfl⟩ := Nat.dvd_of_mod_eq_zero hm
  obtain ⟨k, hk⟩ := Nat.dvd_of_mod_eq_zero (roundUp_mod (n := n) h)
  have hshort := roundUp_lt h n
  rw [hk] at hlt hshort
  have hjk : j + 1 ≤ k := Nat.lt_of_mul_lt_mul_left hlt
  have hnext : align * (j + 1) ≤ align * k := Nat.mul_le_mul_left align hjk
  rw [Nat.mul_succ] at hnext
  omega

/-- A multiple is at most what rounding down leaves just if it is at most the number. -/
theorem le_roundDown_iff {n align m : Nat} (h : 0 < align) (hm : m % align = 0) :
    m ≤ roundDown n align ↔ m ≤ n := by
  refine ⟨fun hle => Nat.le_trans hle (roundDown_le n align), fun hmn => ?_⟩
  obtain ⟨j, rfl⟩ := Nat.dvd_of_mod_eq_zero hm
  have hj : j ≤ n / align := (Nat.le_div_iff_mul_le h).2 (Nat.mul_comm align j ▸ hmn)
  have hmul : align * j ≤ align * (n / align) := Nat.mul_le_mul_left align hj
  have hdiv := Nat.div_add_mod n align
  unfold roundDown
  omega

namespace Word

/-- The word with every bit turned over. -/
def complement (x : Nat) : Nat := size - 1 - x

/-- The least multiple that is at least the word, if it is a word. -/
def roundUp? (n align : Nat) : Option Nat :=
  if align = 0 then
    none
  else if n % align = 0 then
    some n
  else
    checkedAdd n (align - n % align)

/-- The word with the bits below its alignment cleared. -/
def clearLow (b : Build) (n align : Nat) : Except Failure Nat := do
  let low ← b.sub align 1
  return n &&& complement low

/-- A word is rounded up if the multiple is a word. -/
theorem roundUp?_eq {n align : Nat} (h : 0 < align) (hn : n < size) :
    roundUp? n align =
      if Allocators.roundUp n align < size then some (Allocators.roundUp n align) else none := by
  unfold roundUp? Allocators.roundUp
  rw [if_neg (by omega)]
  by_cases hm : n % align = 0
  · simp only [if_pos hm, if_pos hn]
  · simp only [if_neg hm]
    rfl

/-- Clearing the bits below a power of two rounds a word down. -/
theorem and_complement {n k : Nat} (hn : n < size) (hk : k ≤ 64) :
    n &&& complement (2 ^ k - 1) = roundDown n (2 ^ k) := by
  have hsize : size = 2 ^ 64 := rfl
  have hpow : 2 ^ k ≤ 2 ^ 64 := Nat.pow_le_pow_right (by decide) hk
  have hpos := Nat.two_pow_pos k
  have hmask : complement (2 ^ k - 1) = 2 ^ 64 - (2 ^ k - 1 + 1) := by
    unfold complement
    omega
  have hround : roundDown n (2 ^ k) = 2 ^ k * (n / 2 ^ k) := by
    have hdiv := Nat.div_add_mod n (2 ^ k)
    unfold roundDown
    omega
  refine Nat.eq_of_testBit_eq fun i => ?_
  have hlt : 2 ^ k - 1 < 2 ^ 64 := by omega
  rw [hmask, hround, Nat.testBit_and, Nat.testBit_two_pow_sub_succ hlt,
    Nat.testBit_two_pow_sub_one, Nat.testBit_two_pow_mul, Nat.testBit_div_two_pow]
  by_cases hlow : i < k
  · simp [hlow]
  · by_cases hi : i < 64
    · simp [hlow, hi, show k ≤ i by omega]
    · -- a word has no bits up there
      have hzero : n.testBit i = false := Nat.testBit_lt_two_pow
        (Nat.lt_of_lt_of_le hn (Nat.pow_le_pow_right (Nat.two_pos) (by omega : 64 ≤ i)))
      simp [hi, hzero, show k ≤ i by omega]

/-- So does the machine, for every alignment that is a word. -/
theorem clearLow_eq (b : Build) {n align : Nat} (hn : n < size) (ha : align.isPowerOfTwo)
    (hw : align < size) : clearLow b n align = .ok (roundDown n align) := by
  obtain ⟨k, hk, rfl⟩ := exists_two_pow ha hw
  unfold clearLow
  rw [b.sub_of_le (Nat.two_pow_pos k)]
  exact congrArg Except.ok (and_complement hn hk.le)

end Word

namespace Region

/-! ## In words -/

/-- Places a block from the front, with sums of words that are checked; what
becomes of the region is part of the outcome. -/
def bumpWords (b : Build) (r : Region) (size align header : Nat) :
    Except Failure (Option Placement × Region) :=
  match ((Word.checkedAdd r.base r.cursor).bind (Word.checkedAdd · header)).bind
    (Word.roundUp? · align) with
  | none => .ok (none, r)
  | some start => do
    let offset ← b.sub start r.base
    match Word.checkedAdd offset size with
    | none => return (none, r)
    | some stop =>
      if r.tail < stop then
        return (none, r)
      return (some ⟨offset, r.cursor⟩, { r with cursor := stop })

/-- Carves from the tail, with sums of words that are not checked. -/
def carveWords (b : Build) (r : Region) (size align : Nat) :
    Except Failure (Option Nat × Region) := do
  let stop ← b.add r.base r.tail
  if stop < size then
    return (none, r)
  let start ← Word.clearLow b (stop - size) align
  if start < (← b.add r.base r.cursor) then
    return (none, r)
  let tail ← b.sub start r.base
  return (some (r.addressOf tail), { r with tail := tail })

/-! ## Slots -/

/-- The region lies in the address space, and its marks are in order. -/
structure Bounded (r : Region) : Prop where
  cursor_le : r.cursor ≤ r.tail
  tail_le : r.tail ≤ r.capacity
  end_lt : r.base + r.capacity < Word.size

/-- The offsets from `lo` on, of aligned addresses, with so many bytes before the
tail. -/
def slots (r : Region) (lo size align : Nat) : Set Nat :=
  {o | lo ≤ o ∧ (r.base + o) % align = 0 ∧ o + size ≤ r.tail}

/-- The first offset from `lo` on that is aligned. -/
def first (r : Region) (lo align : Nat) : Nat := roundUp (r.base + lo) align - r.base

/-- The address of the last aligned place for so many bytes before the tail. -/
def last (r : Region) (size align : Nat) : Nat := roundDown (r.base + r.tail - size) align

variable {r : Region} {lo size align header : Nat}

/-- It is where rounding leads. -/
theorem base_add_first (r : Region) (lo align : Nat) :
    r.base + r.first lo align = roundUp (r.base + lo) align := by
  have hle := le_roundUp (r.base + lo) align
  unfold first
  omega

/-- No slot is below it. -/
theorem first_le (h : 0 < align) {o : Nat} (ho : o ∈ r.slots lo size align) :
    r.first lo align ≤ o := by
  have hle := (roundUp_le_iff h ho.2.1).2 (Nat.add_le_add_left ho.1 r.base)
  rw [← base_add_first] at hle
  omega

/-- **If so many bytes fit there it is the least slot.** -/
theorem isLeast_first (h : 0 < align) (hfit : r.first lo align + size ≤ r.tail) :
    IsLeast (r.slots lo size align) (r.first lo align) := by
  have hle := le_roundUp (r.base + lo) align
  have heq := r.base_add_first lo align
  refine ⟨⟨by omega, ?_, hfit⟩, fun o ho => first_le h ho⟩
  rw [heq]
  exact roundUp_mod h

/-- If they do not there is no slot. -/
theorem not_nonempty_of_first (h : 0 < align) (hfit : r.tail < r.first lo align + size) :
    ¬ (r.slots lo size align).Nonempty := by
  rintro ⟨o, ho⟩
  have hle := first_le h ho
  have hend := ho.2.2
  omega

/-- No slot is above the last place. -/
theorem le_last (h : 0 < align) {o : Nat} (ho : o ∈ r.slots lo size align) :
    r.base + o ≤ r.last size align := by
  have hend := ho.2.2
  exact (le_roundDown_iff h ho.2.1).2 (by omega)

/-- **If that is not below `lo` it is the greatest slot.** -/
theorem isGreatest_last (h : 0 < align) (hsize : size ≤ r.base + r.tail)
    (hfit : r.base + lo ≤ r.last size align) :
    IsGreatest (r.slots lo size align) (r.last size align - r.base) := by
  have hle : r.last size align ≤ r.base + r.tail - size := roundDown_le _ _
  refine ⟨⟨by omega, ?_, by omega⟩, fun o ho => ?_⟩
  · rw [show r.base + (r.last size align - r.base) = r.last size align by omega]
    exact roundDown_mod _ _
  · have hmax := le_last h ho
    omega

/-- If it is there is no slot, and neither is there if more is asked for than the
address space has below the tail. -/
theorem not_nonempty_of_last (h : 0 < align)
    (hfit : r.base + r.tail < size ∨ r.last size align < r.base + lo) :
    ¬ (r.slots lo size align).Nonempty := by
  rintro ⟨o, ho⟩
  have hlo := ho.1
  have hend := ho.2.2
  have hmax := le_last h ho
  omega

/-! ## From the front -/

/-- What a bump gives is the least slot, and the region is as after that. -/
structure GivesLeast (r : Region) (size align header : Nat) (out : Option Placement)
    (r' : Region) : Prop where
  /-- Something is given just if there is a slot. -/
  granted : out.isSome = true ↔ (r.slots (r.cursor + header) size align).Nonempty
  /-- It is the least, told with the cursor from before, and the cursor is moved past it. -/
  least : ∀ p ∈ out, IsLeast (r.slots (r.cursor + header) size align) p.offset ∧
    p.previous = r.cursor ∧ r' = { r with cursor := p.offset + size }
  /-- A region that declines stays as it is. -/
  declined : out = none → r' = r

/-- What has been placed at the first aligned offset, if it ends before the tail. -/
theorem Bounded.bump_eq (hr : r.Bounded) (b : Build) (size align header : Nat) :
    r.bump b size align header =
      .ok (if r.tail < r.first (r.cursor + header) align + size then none
        else some (⟨r.first (r.cursor + header) align, r.cursor⟩,
          { r with cursor := r.first (r.cursor + header) align + size })) := by
  have hle := le_roundUp (r.base + (r.cursor + header)) align
  have heq := r.base_add_first (r.cursor + header) align
  have htail := hr.tail_le
  have hend := hr.end_lt
  simp only [bump, bind, Except.bind, pure, Except.pure, Nat.add_assoc r.base, ← heq]
  by_cases hw : Word.size ≤ r.base + r.first (r.cursor + header) align
  · rw [if_pos hw, if_pos (by omega)]
  · rw [if_neg hw, b.sub_of_le (Nat.le_add_right _ _)]
    simp only [Nat.add_sub_cancel_left]
    split <;> rfl

/-- The first address at which a block may start after its header, in words. -/
theorem start_eq (r : Region) (header : Nat) (h : 0 < align) :
    ((Word.checkedAdd r.base r.cursor).bind (Word.checkedAdd · header)).bind
        (Word.roundUp? · align) =
      if r.base + r.first (r.cursor + header) align < Word.size then
        some (r.base + r.first (r.cursor + header) align)
      else none := by
  have hle := le_roundUp (r.base + (r.cursor + header)) align
  rw [base_add_first]
  unfold Word.checkedAdd
  by_cases hc : r.base + r.cursor < Word.size
  · by_cases hh : r.base + r.cursor + header < Word.size
    · simp only [if_pos hc, Option.bind_some, if_pos hh, Word.roundUp?_eq h hh]
      rw [Nat.add_assoc]
    · simp only [if_pos hc, Option.bind_some, if_neg hh, Option.bind_none]
      rw [if_neg (by omega)]
  · simp only [if_neg hc, Option.bind_none]
    rw [if_neg (by omega)]

/-- The same in words: a sum that is no word is beyond the tail. -/
theorem Bounded.bumpWords_eq (hr : r.Bounded) (b : Build) (h : 0 < align) :
    r.bumpWords b size align header =
      .ok (if r.tail < r.first (r.cursor + header) align + size then (none, r)
        else (some ⟨r.first (r.cursor + header) align, r.cursor⟩,
          { r with cursor := r.first (r.cursor + header) align + size })) := by
  have htail := hr.tail_le
  have hend := hr.end_lt
  unfold bumpWords
  rw [start_eq r header h]
  by_cases hw : r.base + r.first (r.cursor + header) align < Word.size
  · simp only [if_pos hw, b.sub_of_le (Nat.le_add_right _ _), Nat.add_sub_cancel_left, bind,
      Except.bind, pure, Except.pure, Word.checkedAdd]
    by_cases hs : r.first (r.cursor + header) align + size < Word.size
    · simp only [if_pos hs]
      split <;> rfl
    · simp only [if_neg hs]
      rw [if_pos (by omega)]
  · simp only [if_neg hw]
    rw [if_pos (by omega)]

/-- **The front gives the least slot**, in words as in exact numbers. -/
theorem Bounded.bump_givesLeast (hr : r.Bounded) (b : Build) (h : 0 < align)
    (size header : Nat) :
    ∃ out r', r.bumpWords b size align header = .ok (out, r') ∧
      r.bump b size align header = .ok (out.map (·, r')) ∧
      r.GivesLeast size align header out r' := by
  rw [hr.bumpWords_eq b h, hr.bump_eq b]
  by_cases hfit : r.tail < r.first (r.cursor + header) align + size
  · rw [if_pos hfit, if_pos hfit]
    have hnone := not_nonempty_of_first h hfit
    exact ⟨none, r, rfl, rfl, ⟨⟨nofun, fun hne => absurd hne hnone⟩, nofun, fun _ => rfl⟩⟩
  · rw [if_neg hfit, if_neg hfit]
    have hleast := isLeast_first h (Nat.le_of_not_lt hfit)
    refine ⟨_, _, rfl, rfl, ⟨⟨fun _ => ⟨_, hleast.1⟩, fun _ => rfl⟩, ?_, nofun⟩⟩
    rintro p hp
    cases hp
    exact ⟨hleast, rfl, rfl⟩

/-! ## From the tail -/

/-- What is carved from the tail is the greatest slot, and the region is as after
that. -/
structure CarvesGreatest (r : Region) (size align : Nat) (out : Option Nat) (r' : Region) :
    Prop where
  /-- Something is carved just if there is a slot. -/
  granted : out.isSome = true ↔ (r.slots r.cursor size align).Nonempty
  /-- It is the greatest, told by its address, and the tail is moved there. -/
  greatest : ∀ a ∈ out, ∃ o, IsGreatest (r.slots r.cursor size align) o ∧ a = r.addressOf o ∧
    r' = { r with tail := o }
  /-- A region that declines stays as it is. -/
  declined : out = none → r' = r

/-- The address of the tail is a word, -/
theorem Bounded.add_tail (hr : r.Bounded) (b : Build) :
    b.add r.base r.tail = .ok (r.base + r.tail) :=
  b.add_of_lt (Nat.lt_of_le_of_lt (Nat.add_le_add_left hr.tail_le _) hr.end_lt)

/-- and so is that of the cursor. -/
theorem Bounded.add_cursor (hr : r.Bounded) (b : Build) :
    b.add r.base r.cursor = .ok (r.base + r.cursor) := by
  have htail := hr.tail_le
  have hend := hr.end_lt
  have hcur := hr.cursor_le
  exact b.add_of_lt (by omega)

/-- What has been carved at the last place, if it starts after the cursor. -/
theorem Bounded.carveTail_eq (hr : r.Bounded) (b : Build) :
    r.carveTail b size align =
      .ok (if r.base + r.tail < size ∨ r.last size align < r.base + r.cursor then none
        else some (r.last size align, { r with tail := r.last size align - r.base })) := by
  have hcur := hr.cursor_le
  have htail := hr.tail_le
  have hend := hr.end_lt
  have hlast : roundDown (r.base + r.tail - size) align = r.last size align := rfl
  simp only [carveTail, hr.add_tail b, hr.add_cursor b, hlast, bind, Except.bind, pure, Except.pure]
  by_cases hs : r.base + r.tail < size
  · rw [if_pos hs, if_pos (Or.inl hs)]
  · rw [if_neg hs]
    by_cases hl : r.last size align < r.base + r.cursor
    · rw [if_pos hl, if_pos (Or.inr hl)]
    · rw [if_neg hl, if_neg (not_or.2 ⟨hs, hl⟩), b.sub_of_le (by omega)]

/-- The same in words: no sum is beyond the address space, and the mask rounds down. -/
theorem Bounded.carveWords_eq (hr : r.Bounded) (b : Build) (ha : align.isPowerOfTwo)
    (hw : align < Word.size) :
    r.carveWords b size align =
      .ok (if r.base + r.tail < size ∨ r.last size align < r.base + r.cursor then (none, r)
        else (some (r.last size align), { r with tail := r.last size align - r.base })) := by
  have hcur := hr.cursor_le
  have htail := hr.tail_le
  have hend := hr.end_lt
  have hclear : Word.clearLow b (r.base + r.tail - size) align = .ok (r.last size align) :=
    Word.clearLow_eq b (by omega) ha hw
  simp only [carveWords, hr.add_tail b, hr.add_cursor b, hclear, bind, Except.bind, pure,
    Except.pure]
  by_cases hs : r.base + r.tail < size
  · rw [if_pos hs, if_pos (Or.inl hs)]
  · rw [if_neg hs]
    by_cases hl : r.last size align < r.base + r.cursor
    · rw [if_pos hl, if_pos (Or.inr hl)]
    · have hback : r.addressOf (r.last size align - r.base) = r.last size align := by
        unfold addressOf
        omega
      rw [if_neg hl, if_neg (not_or.2 ⟨hs, hl⟩), b.sub_of_le (by omega)]
      simp only [hback]

/-- **The tail gives the greatest slot**, in words as in exact numbers. -/
theorem Bounded.carveTail_carvesGreatest (hr : r.Bounded) (b : Build) (ha : align.isPowerOfTwo)
    (hw : align < Word.size) (size : Nat) :
    ∃ out r', r.carveWords b size align = .ok (out, r') ∧
      r.carveTail b size align = .ok (out.map (·, r')) ∧
      r.CarvesGreatest size align out r' := by
  have hpos : 0 < align := Nat.pos_of_isPowerOfTwo ha
  rw [hr.carveWords_eq b ha hw, hr.carveTail_eq b]
  by_cases hfit : r.base + r.tail < size ∨ r.last size align < r.base + r.cursor
  · rw [if_pos hfit, if_pos hfit]
    have hnone := not_nonempty_of_last hpos hfit
    exact ⟨none, r, rfl, rfl, ⟨⟨nofun, fun hne => absurd hne hnone⟩, nofun, fun _ => rfl⟩⟩
  · rw [if_neg hfit, if_neg hfit]
    have hgreatest : IsGreatest (r.slots r.cursor size align) (r.last size align - r.base) :=
      isGreatest_last hpos (by omega) (by omega)
    refine ⟨_, _, rfl, rfl, ⟨⟨fun _ => ⟨_, hgreatest.1⟩, fun _ => rfl⟩, ?_, nofun⟩⟩
    rintro a ha
    cases ha
    refine ⟨_, hgreatest, ?_, rfl⟩
    unfold addressOf
    omega

/-! ## An arena -/

/-- Where every address is aligned nothing is passed over. -/
theorem first_one (r : Region) (lo : Nat) : r.first lo 1 = lo := by
  have hmod : (r.base + lo) % 1 = 0 := Nat.mod_one _
  unfold first roundUp
  rw [if_pos hmod]
  omega

/-- The free space of a region is what lies between its marks. -/
theorem Bounded.free_eq (hr : r.Bounded) (b : Build) : r.free b = .ok (r.tail - r.cursor) :=
  b.sub_of_le hr.cursor_le

end Region

/-- **An arena serves bytes that need no alignment just if it has them free**: they
start at its cursor, and otherwise nothing about it changes. -/
theorem Arena.allocate_unaligned {ρ : Type} {s : Buffer} (hr : s.region.Bounded) (b : Build)
    (w : World ρ) {l : Layout} (hl : l.align = 1) :
    ∃ n, s.region.free b = .ok n ∧
      (l.size ≤ n → ∃ w', allocate b l ⟨s, w⟩ = .ok ⟨s.region.addressOf s.region.cursor, l.size⟩
        ⟨{ s with region := { s.region with cursor := s.region.cursor + l.size } }, w'⟩) ∧
      (n < l.size → allocate b l ⟨s, w⟩ = .error (.refused .outOfMemory) ⟨s, w⟩) := by
  have hcur := hr.cursor_le
  have hbump := hr.bump_eq b l.size l.align 0
  rw [hl, Region.first_one, Nat.add_zero, ← hl] at hbump
  refine ⟨_, hr.free_eq b, fun hle => ?_, fun hlt => ?_⟩
  · rw [if_neg (by omega)] at hbump
    exact ⟨_, allocate_of_some l w hbump⟩
  · rw [if_pos (by omega)] at hbump
    exact allocate_of_none l w hbump

namespace Region

/-! ## Tight and complete -/

/-- **A region finds room just where there is some.** From the front it gives the
least slot and from the tail the greatest, in words as in exact numbers and in
either build; where there is no slot it declines and stays as it is. An arena over
it serves bytes that need no alignment just if it has as many free. -/
theorem Bounded.bump_least_carve_greatest {r : Region} (hr : r.Bounded) (b : Build) {align : Nat}
    (ha : align.isPowerOfTwo) (hw : align < Word.size) (size header : Nat) :
    (∃ out r', r.bumpWords b size align header = .ok (out, r') ∧
      r.bump b size align header = .ok (out.map (·, r')) ∧
      r.GivesLeast size align header out r') ∧
    (∃ out r', r.carveWords b size align = .ok (out, r') ∧
      r.carveTail b size align = .ok (out.map (·, r')) ∧
      r.CarvesGreatest size align out r') ∧
    ∀ (ρ : Type) (label : String) (callbacks : Callbacks) (w : World ρ) (l : Layout),
      l.align = 1 → ∃ n, r.free b = .ok n ∧
        (l.size ≤ n → ∃ w', Arena.allocate b l ⟨⟨label, r, callbacks⟩, w⟩ =
          .ok ⟨r.addressOf r.cursor, l.size⟩
            ⟨⟨label, { r with cursor := r.cursor + l.size }, callbacks⟩, w'⟩) ∧
        (n < l.size → Arena.allocate b l ⟨⟨label, r, callbacks⟩, w⟩ =
          .error (.refused .outOfMemory) ⟨⟨label, r, callbacks⟩, w⟩) :=
  ⟨hr.bump_givesLeast b (Nat.pos_of_isPowerOfTwo ha) size header,
    hr.carveTail_carvesGreatest b ha hw size,
    fun _ label callbacks w _ hl =>
      Arena.allocate_unaligned (s := ⟨label, r, callbacks⟩) hr b w hl⟩

/-- A region of 96 bytes that ends with the address space, with some of them taken at
either end. -/
def brink : Region := ⟨Word.size - 97, ⟨96, 16, by decide, by decide, by decide, by decide⟩, 10, 80⟩

/-- Words reach far enough to place blocks there at either end, and no further: past
the last aligned address there is no slot, although so many bytes are free. -/
theorem bump_least_carve_greatest_brink : brink.Bounded ∧
    brink.bumpWords .release 20 16 8 = .ok (some ⟨33, 10⟩, { brink with cursor := 53 }) ∧
    IsLeast (brink.slots 18 20 16) 33 ∧
    brink.carveWords .release 24 16 =
      .ok (some (Word.size - 48), { brink with tail := 49 }) ∧
    IsGreatest (brink.slots 10 24 16) 49 ∧
    brink.bumpWords .release 1 32 60 = .ok (none, brink) ∧
    ¬ (brink.slots 70 1 32).Nonempty := by
  have hr : brink.Bounded := ⟨by decide, by decide, by decide⟩
  have hfront : brink.bumpWords .release 20 16 8 =
    .ok (some ⟨33, 10⟩, { brink with cursor := 53 }) := rfl
  have htail : brink.carveWords .release 24 16 =
    .ok (some (Word.size - 48), { brink with tail := 49 }) := rfl
  have hfull : brink.bumpWords .release 1 32 60 = .ok (none, brink) := rfl
  obtain ⟨⟨_, _, hout, -, hleast⟩, -, -⟩ :=
    hr.bump_least_carve_greatest .release ⟨4, rfl⟩ (by decide) 20 8
  cases hfront.symm.trans hout
  obtain ⟨-, ⟨_, _, hout, -, hgreatest⟩, -⟩ :=
    hr.bump_least_carve_greatest .release ⟨4, rfl⟩ (by decide) 24 0
  cases htail.symm.trans hout
  obtain ⟨⟨_, _, hout, -, hnone⟩, -, -⟩ :=
    hr.bump_least_carve_greatest .release ⟨5, rfl⟩ (by decide) 1 60
  cases hfull.symm.trans hout
  refine ⟨hr, hfront, (hleast.least _ rfl).1, htail, ?_, hfull, fun hne => ?_⟩
  · obtain ⟨o, ho, -, ht⟩ := hgreatest.greatest _ rfl
    obtain rfl : 49 = o := congrArg Region.tail ht
    exact ho
  · exact absurd (hnone.granted.2 hne) Bool.false_ne_true

end Region

end Allocators
