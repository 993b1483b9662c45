import Allocators.Proofs.Layouts
/-!
# The largest size of an alignment

A block of an alignment can have any size but zero that, rounded up to the
alignment, stays within the largest distance. Nothing is rounded to find that
out: whoever makes a layout and whoever plans a resize takes the slack of the
alignment from the largest distance and compares the size with what is left.
The differences are words that nobody checks (`Layout.ofSizeAlignWords`), and
they never go below zero, since no alignment is above half the address space.
Both limits are the same and both are exact: `Layout.limit_exact`.
-/

namespace Allocators

namespace Layout

/-- The size and alignment of the layout made of these words, if one is, with
differences of words that are not checked. -/
def ofSizeAlignWords (b : Build) (size align : Nat) : Except Failure (Option (Nat × Nat)) :=
  if align.isPowerOfTwo then
    if size = 0 then
      .ok none
    else do
      let limit ← b.sub Word.maxDistance (← b.sub align 1)
      if limit < size then
        return none
      return some (size, align)
  else
    .ok none

variable {size align : Nat}

/-- **Words make the layouts that exact numbers make**: neither difference goes below
zero. -/
theorem ofSizeAlignWords_eq (hw : align < Word.size) (b : Build) (size : Nat) :
    ofSizeAlignWords b size align =
      .ok ((ofSizeAlign? size align).map fun l => (l.size, l.align)) := by
  unfold ofSizeAlignWords ofSizeAlign?
  by_cases ha : align.isPowerOfTwo
  · obtain ⟨hpos, hslack⟩ := Resize.pred_le_maxDistance ha hw
    rw [if_pos ha]
    by_cases hz : size = 0
    · rw [if_pos hz, dif_neg fun hc => by omega]
      rfl
    · rw [if_neg hz, b.sub_of_le hpos]
      simp only [bind, Except.bind, pure, Except.pure, b.sub_of_le hslack]
      by_cases hle : size ≤ maxSize align
      · rw [dif_pos ⟨ha, Nat.pos_of_ne_zero hz, hle⟩]
        exact if_neg (Nat.not_lt.2 hle)
      · rw [dif_neg fun hc => hle hc.2.2]
        exact if_pos (Nat.lt_of_not_le hle)
  · rw [if_neg ha, dif_neg fun hc => ha hc.1]
    rfl

/-- **A layout is made just if it can be**: of a size that is not zero and an
alignment that is a power of two, if the size rounded up is within the largest
distance. -/
theorem isSome_ofSizeAlign?_iff (hw : align < Word.size) :
    (ofSizeAlign? size align).isSome = true ↔
      size ≠ 0 ∧ align.isPowerOfTwo ∧ roundUp size align ≤ Word.maxDistance := by
  by_cases ha : align.isPowerOfTwo
  · rw [Option.isSome_iff_ne_none, ne_eq, ofSizeAlign?_eq_none_iff ha, ← le_maxSize_iff ha hw,
      not_or, Nat.not_lt]
    simp only [ha, true_and]
  · have hnone : ofSizeAlign? size align = none := dif_neg fun hc => ha hc.1
    simp only [hnone, ha, Option.isSome_none, Bool.false_eq_true, false_and, and_false]

end Layout

namespace Resize

variable {b : Build} {r : Resize} {size : Nat}

/-- The request is planned as far as its new size, which is this: nothing is wrong
with its alignment and its sides, and something is left of the block. -/
structure Reaches (b : Build) (r : Resize) (size : Nat) : Prop where
  inWords : r.InWords
  align_pow : r.align.isPowerOfTwo
  sides : ∃ front back, side b r.flags .shrinkFront .expandFront r.front = .ok front ∧
    side b r.flags .shrinkBack .expandBack r.back = .ok back ∧
    front.dropped + back.dropped < r.size ∧
    size = r.size - (front.dropped + back.dropped) + front.added + back.added

/-- Something is left, so the new size is not zero. -/
theorem Reaches.ne_zero (h : r.Reaches b size) : size ≠ 0 := by
  obtain ⟨front, back, -, -, hlt, rfl⟩ := h.sides
  omega

/-- From there on only the limit of the alignment is in its way. -/
theorem Reaches.plan_eq (h : r.Reaches b size) : ∃ p, p.newSize = size ∧
    r.plan b = if maxSize r.align < size then .error (.refused .infeasibleResize) else .ok p := by
  obtain ⟨front, back, hfront, hback, hlt, rfl⟩ := h.sides
  unfold plan
  rw [if_pos h.align_pow, hfront, hback]
  simp only [bind, Except.bind]
  unfold join
  rw [if_neg (Nat.not_le.2 hlt)]
  exact ⟨_, rfl, rfl⟩

/-- **It is declined for its new size just if the size has no layout** at the alignment
of the block, and else planned with that size. -/
theorem Reaches.declined_iff (h : r.Reaches b size) :
    (r.plan b = .error (.refused .infeasibleResize) ↔
      Layout.ofSizeAlign? size r.align = none) ∧
    ∀ l, Layout.ofSizeAlign? size r.align = some l → ∃ p, r.plan b = .ok p ∧ p.newSize = size := by
  obtain ⟨p, hp, hplan⟩ := h.plan_eq
  have hnone : Layout.ofSizeAlign? size r.align = none ↔ size = 0 ∨ maxSize r.align < size :=
    Layout.ofSizeAlign?_eq_none_iff h.align_pow
  rw [hplan]
  by_cases hlt : maxSize r.align < size
  · rw [if_pos hlt, hnone.2 (Or.inr hlt)]
    exact ⟨⟨fun _ => rfl, fun _ => rfl⟩, nofun⟩
  · have hsome := mt hnone.1 (not_or.2 ⟨h.ne_zero, hlt⟩)
    rw [if_neg hlt]
    exact ⟨⟨nofun, fun hl => absurd hl hsome⟩, fun _ _ => ⟨p, rfl, hp⟩⟩

/-- A side that is told nothing does not change. -/
theorem side_empty (b : Build) (shrink expand : ResizeFlag) (a : Amounts) :
    side b Flags.empty shrink expand a = .ok ⟨0, 0, 0⟩ := by
  unfold side
  rw [Flags.has_empty, Flags.has_empty]

/-- A block that is only to be given another place keeps its size. -/
theorem reaches_ofBlock {address size align : Nat} (b : Build) (hd : address < Word.size)
    (hs : size < Word.size) (hw : align < Word.size) (ha : align.isPowerOfTwo)
    (hz : size ≠ 0) : (ofBlock address size align).Reaches b size where
  inWords :=
    have hzero : 0 < Word.size := by decide
    ⟨hd, hs, hw, ⟨hzero, hzero⟩, ⟨hzero, hzero⟩⟩
  align_pow := ha
  sides := ⟨_, _, side_empty b _ _ _, side_empty b _ _ _, Nat.pos_of_ne_zero hz, rfl⟩

end Resize

namespace Layout

/-- **The limit is exact**, in words as in exact numbers and in either build. A size
has a layout at an alignment just if it is not zero, the alignment is a power of two
and the size rounded up is within the largest distance; the slack of an alignment is
never more than that distance. Any size but zero is the new size of some resize, and a
resize is declined for its new size just if that has no layout at the alignment of the
block. -/
theorem limit_exact {align : Nat} (hw : align < Word.size) (b : Build) (size : Nat) :
    ofSizeAlignWords b size align =
      .ok ((ofSizeAlign? size align).map fun l => (l.size, l.align)) ∧
    ((ofSizeAlign? size align).isSome = true ↔
      size ≠ 0 ∧ align.isPowerOfTwo ∧ roundUp size align ≤ Word.maxDistance) ∧
    (∀ l, ofSizeAlign? size align = some l → l.size = size ∧ l.align = align) ∧
    (align.isPowerOfTwo →
      (1 ≤ align ∧ align - 1 ≤ Word.maxDistance) ∧
      (size < Word.size → (size ≠ 0 ↔ ∃ r : Resize, r.align = align ∧ r.Reaches b size)) ∧
      ∀ r : Resize, r.align = align → r.Reaches b size →
        r.planWords b = r.plan b ∧
        (r.plan b = .error (.refused .infeasibleResize) ↔ ofSizeAlign? size align = none) ∧
        ∀ l, ofSizeAlign? size align = some l → ∃ p, r.plan b = .ok p ∧ p.newSize = size) := by
  refine ⟨ofSizeAlignWords_eq hw b size, isSome_ofSizeAlign?_iff hw, fun l hl => ?_, fun ha =>
    ⟨Resize.pred_le_maxDistance ha hw, fun hs => ⟨fun hz => ?_, ?_⟩, ?_⟩⟩
  · obtain ⟨hsize, halign, -⟩ := ofSizeAlign?_eq_some_iff.1 hl
    exact ⟨hsize, halign⟩
  · exact ⟨_, rfl, Resize.reaches_ofBlock b (show 0 < Word.size by decide) hs hw ha hz⟩
  · rintro ⟨r, -, hr⟩
    exact hr.ne_zero
  · rintro r rfl hr
    exact ⟨Resize.planWords_eq_plan b hr.inWords, hr.declined_iff⟩

/-- A resize can ask for the largest block of an alignment. At the largest alignment
of all there is none of a single byte, and no difference is below zero yet. -/
theorem limit_exact_brim :
    ofSizeAlignWords .debug (maxSize 16) 16 = .ok (some (maxSize 16, 16)) ∧
    (∃ p, Resize.brim.planWords .debug = .ok p ∧ p.newSize = maxSize 16) ∧
    ofSizeAlignWords .debug 1 0x8000000000000000 = .ok none ∧
    (Resize.ofBlock 0x1000 1 0x8000000000000000).planWords .debug =
      .error (.refused .infeasibleResize) := by
  have hlargest : Nat.isPowerOfTwo 0x8000000000000000 := ⟨63, rfl⟩
  have hbrim : Resize.brim.Reaches .debug (maxSize 16) :=
    ⟨⟨by decide, by decide, by decide, by decide, by decide⟩, ⟨4, rfl⟩,
      ⟨24, 0, 0⟩, ⟨0, maxSize 16 - 76, Word.size - 1 - (maxSize 16 - 76)⟩, by decide, by decide,
      by decide, by decide⟩
  have hbyte : (Resize.ofBlock 0x1000 1 0x8000000000000000).Reaches .debug 1 :=
    Resize.reaches_ofBlock .debug (by decide) (by decide) (by decide) hlargest (by decide)
  obtain ⟨hwords, haccept, hfields, hplan⟩ :=
    limit_exact (show 16 < Word.size by decide) .debug (maxSize 16)
  obtain ⟨hwords', haccept', -, hplan'⟩ :=
    limit_exact (show 0x8000000000000000 < Word.size by decide) .debug 1
  obtain ⟨l, hl⟩ := Option.isSome_iff_exists.1 (haccept.2 ⟨by decide, ⟨4, rfl⟩, by decide⟩)
  have hnone : ofSizeAlign? 1 0x8000000000000000 = none :=
    Option.not_isSome_iff_eq_none.1 fun h => absurd (haccept'.1 h).2.2 (by decide)
  obtain ⟨hsame, -, hroom⟩ := (hplan ⟨4, rfl⟩).2.2 Resize.brim rfl hbrim
  obtain ⟨hsame', hrefused, -⟩ := (hplan' hlargest).2.2 _ rfl hbyte
  refine ⟨?_, hsame ▸ hroom l hl, ?_, hsame'.trans (hrefused.2 hnone)⟩
  · obtain ⟨hsize, halign⟩ := hfields l hl
    rw [hwords, hl, Option.map_some, hsize, halign]
  · rw [hwords', hnone]
    rfl

end Layout

end Allocators
