import Allocators.Proofs.Granted
import Allocators.Proofs.Shorthands
/-!
# The sides of a block are independent

A request about both sides of a block can be made at once, or about one side
after the other. What survives is the same and comes to be at the same place
(`Reshape.Splits.source?`), so that two blocks made in these two ways are as
large and hold the same bytes, wherever each of the three requests is granted.
Not every order can be planned, since a block must not be too large in between;
but where both sides at once can be, so can what shrinks before what grows
(`Reshape.Splits.inTurn`). Main statement: `Chronicle.sides_independent`.
-/

namespace Allocators

open Trace

/-! ## What a request fits -/

namespace Reshape

variable {b : Build} {q q₁ q₂ : Reshape} {x : Block} {p : Plan}

/-- What a block loses at both sides. -/
def lost (q : Reshape) : Nat := q.amount .shrinkFront q.front + q.amount .shrinkBack q.back

/-- What it gains. -/
def gained (q : Reshape) : Nat := q.amount .expandFront q.front + q.amount .expandBack q.back

/-- Nothing is wrong with either side. -/
def Sided (b : Build) (q : Reshape) : Prop := ∃ front back,
  Resize.side b q.flags .shrinkFront .expandFront q.front = .ok front ∧
    Resize.side b q.flags .shrinkBack .expandBack q.back = .ok back

/-- A block that is left something of, and not made too large. -/
structure Fits (q : Reshape) (x : Block) : Prop where
  left : q.lost < x.size
  limit : x.size - q.lost + q.gained ≤ maxSize x.align

/-- A request that is planned fits its block. -/
theorem fits_of_plan (hp : (q.about x).plan b = .ok p) : x.align.isPowerOfTwo ∧ q.Sided b ∧
    q.Fits x ∧ p.newSize = x.size - q.lost + q.gained := by
  obtain ⟨ha, front, back, hf, hb, hj⟩ := Resize.plan_eq_ok_iff.1 hp
  obtain ⟨hlt, hle, rfl⟩ := Resize.join_eq_ok_iff.1 hj
  obtain ⟨hfd, hfa, -⟩ := Resize.side_eq_ok hf
  obtain ⟨hbd, hba, -⟩ := Resize.side_eq_ok hb
  change front.dropped = q.amount .shrinkFront q.front at hfd
  change front.added = q.amount .expandFront q.front at hfa
  change back.dropped = q.amount .shrinkBack q.back at hbd
  change back.added = q.amount .expandBack q.back at hba
  change front.dropped + back.dropped < x.size at hlt
  change x.size - (front.dropped + back.dropped) + front.added + back.added ≤ maxSize x.align at hle
  rw [hfd, hbd] at hlt hle
  rw [hfa, hba, Nat.add_assoc] at hle
  refine ⟨ha, ⟨front, back, hf, hb⟩, ⟨hlt, hle⟩, ?_⟩
  show x.size - (front.dropped + back.dropped) + front.added + back.added = _
  rw [hfd, hbd, hfa, hba, Nat.add_assoc]
  rfl

/-- A request that fits is planned. -/
theorem exists_plan (ha : x.align.isPowerOfTwo) (hs : q.Sided b) (hx : q.Fits x) :
    ∃ p, (q.about x).plan b = .ok p ∧ p.newSize = x.size - q.lost + q.gained := by
  obtain ⟨front, back, hf, hb⟩ := hs
  obtain ⟨hfd, hfa, -⟩ := Resize.side_eq_ok hf
  obtain ⟨hbd, hba, -⟩ := Resize.side_eq_ok hb
  have hd : front.dropped + back.dropped = q.lost := by rw [hfd, hbd]; rfl
  have hg : front.added + back.added = q.gained := by rw [hfa, hba]; rfl
  have hle : x.size - q.lost + front.added + back.added ≤ maxSize x.align := by
    rw [Nat.add_assoc, hg]
    exact hx.limit
  have hj : ∃ p, (q.about x).join front back = .ok p ∧
      p.newSize = x.size - q.lost + front.added + back.added := by
    rw [← hd] at hle ⊢
    exact ⟨_, Resize.join_eq_ok_iff.2 ⟨hd ▸ hx.left, hle, rfl⟩, rfl⟩
  obtain ⟨p, hp, hn⟩ := hj
  refine ⟨p, Resize.plan_eq_ok_iff.2 ⟨ha, front, back, hf, hb, hp⟩, ?_⟩
  rw [hn, Nat.add_assoc, hg]

/-- Two requests can be planned one after the other, and make a block of this size:
where the block is in between is left open. -/
def InTurn (b : Build) (q₁ q₂ : Reshape) (x : Block) (size : Nat) : Prop :=
  ∃ p₁, (q₁.about x).plan b = .ok p₁ ∧ ∀ a, ∃ p₂,
    (q₂.about ⟨a, p₁.newSize, x.align⟩).plan b = .ok p₂ ∧ p₂.newSize = size

/-- They can if the block is not too large in between. -/
theorem inTurn_of_fits (ha : x.align.isPowerOfTwo) (hs : q.Fits x) (hl : q.lost = q₁.lost + q₂.lost)
    (hg : q.gained = q₁.gained + q₂.gained) (hs₁ : q₁.Sided b) (hs₂ : q₂.Sided b)
    (hle : x.size - q₁.lost + q₁.gained ≤ maxSize x.align) :
    InTurn b q₁ q₂ x (x.size - q.lost + q.gained) := by
  obtain ⟨hleft, hlimit⟩ := hs
  obtain ⟨p₁, hp₁, hn₁⟩ := exists_plan ha hs₁ ⟨by omega, hle⟩
  refine ⟨p₁, hp₁, fun a => ?_⟩
  have hfits : q₂.Fits ⟨a, p₁.newSize, x.align⟩ := by
    constructor
    · show q₂.lost < p₁.newSize
      omega
    · show p₁.newSize - q₂.lost + q₂.gained ≤ maxSize x.align
      omega
  obtain ⟨p₂, hp₂, hn₂⟩ := exists_plan (x := ⟨a, p₁.newSize, x.align⟩) ha hs₂ hfits
  refine ⟨p₂, hp₂, hn₂.trans ?_⟩
  show p₁.newSize - q₂.lost + q₂.gained = _
  omega

/-! ## What shrinks before what grows -/

/-- The request with these of its flags. -/
def only (q : Reshape) (fs : List ResizeFlag) : Reshape :=
  { q with flags := q.flags.intersection (.ofList fs) }

/-- What of the request is to shrink. -/
def shrinking (q : Reshape) : Reshape := q.only [.shrinkFront, .shrinkBack]

/-- What of it is to grow. -/
def growing (q : Reshape) : Reshape := q.only [.expandFront, .expandBack]

/-- Whether some side is to shrink. -/
def shrinks (q : Reshape) : Bool := q.flags.has .shrinkFront || q.flags.has .shrinkBack

/-- Whether some side is to grow. -/
def grows (q : Reshape) : Bool := q.flags.has .expandFront || q.flags.has .expandBack

/-- Nothing is wrong with a side that was in order, once a flag of it is left out. -/
theorem side_of_subset {flags flags' : ResizeFlags} {shrink expand : ResizeFlag} {a : Amounts}
    {c : SideChange} (h : Resize.side b flags shrink expand a = .ok c)
    (hs : flags'.has shrink = true → flags.has shrink = true)
    (he : flags'.has expand = true → flags.has expand = true) :
    ∃ c', Resize.side b flags' shrink expand a = .ok c' := by
  obtain ⟨-, -, -, hone⟩ := Resize.side_eq_ok h
  unfold Resize.side at h ⊢
  cases hs' : flags'.has shrink with
  | true =>
    have hshrink := hs hs'
    cases he' : flags'.has expand with
    | true => cases hshrink.symm.trans (hone (he he'))
    | false =>
      cases hexpand : flags.has expand with
      | true => cases hshrink.symm.trans (hone hexpand)
      | false =>
        rw [hshrink, hexpand] at h
        exact ⟨c, h⟩
  | false =>
    cases he' : flags'.has expand with
    | true =>
      have hexpand := he he'
      rw [hone hexpand, hexpand] at h
      exact ⟨c, h⟩
    | false => exact ⟨_, rfl⟩

/-- Nothing is wrong with a side that nothing is asked of. -/
theorem side_of_idle {flags : ResizeFlags} {shrink expand : ResizeFlag} (a : Amounts)
    (hs : flags.has shrink = false) (he : flags.has expand = false) :
    ∃ c, Resize.side b flags shrink expand a = .ok c :=
  ⟨⟨0, 0, 0⟩, by unfold Resize.side; rw [hs, he]⟩

/-- Some flags are kept. -/
theorem has_only (q : Reshape) (fs : List ResizeFlag) (f : ResizeFlag) :
    (q.only fs).flags.has f = (q.flags.has f && (Flags.ofList fs).has f) :=
  Flags.has_intersection _ _ _

/-- And what they ask for. -/
theorem amount_only (q : Reshape) (fs : List ResizeFlag) (f : ResizeFlag) (a : Amounts) :
    (q.only fs).amount f a = if (Flags.ofList fs).has f then q.amount f a else 0 := by
  simp only [amount_eq]
  rw [has_only]
  cases (Flags.ofList fs).has f <;> simp

/-- A request is in order with some of its flags. -/
theorem Sided.only (h : q.Sided b) (fs : List ResizeFlag) : (q.only fs).Sided b := by
  obtain ⟨front, back, hf, hb⟩ := h
  have himp : ∀ f, (q.only fs).flags.has f = true → q.flags.has f = true := by
    intro f hf
    rw [has_only, Bool.and_eq_true] at hf
    exact hf.1
  obtain ⟨front', hf'⟩ := side_of_subset hf (himp _) (himp _)
  obtain ⟨back', hb'⟩ := side_of_subset hb (himp _) (himp _)
  exact ⟨front', back', hf', hb'⟩

/-- **What shrinks can be done before what grows**, if both can be done at once. -/
theorem inTurn_shrinking (hp : (q.about x).plan b = .ok p) :
    InTurn b q.shrinking q.growing x p.newSize := by
  obtain ⟨ha, hs, hx, hn⟩ := fits_of_plan hp
  have hlost : q.shrinking.lost = q.lost ∧ q.growing.lost = 0 := by
    constructor <;> exact congrArg₂ (· + ·) (amount_only ..) (amount_only ..)
  have hgained : q.shrinking.gained = 0 ∧ q.growing.gained = q.gained := by
    constructor <;> exact congrArg₂ (· + ·) (amount_only ..) (amount_only ..)
  have hlimit := hx.limit
  rw [hn]
  exact inTurn_of_fits ha hx (by omega) (by omega) (hs.only _) (hs.only _) (by omega)

/-! ## Two halves -/

/-- A request about the front alone, with the bytes copied. -/
structure AtFront (q : Reshape) : Prop where
  copies : q.flags.has .keepOldNocopy = false
  shrink : q.flags.has .shrinkBack = false
  expand : q.flags.has .expandBack = false

/-- A request about the back alone, with the bytes copied and no size left to choose. -/
structure AtBack (q : Reshape) : Prop where
  exact : q.Exact
  shrink : q.flags.has .shrinkFront = false
  expand : q.flags.has .expandFront = false

/-- The front of one request and the back of another. -/
def beside (q q' : Reshape) : Reshape := ⟨q.front, q'.back, q.flags.union q'.flags⟩

/-- A request about both sides, made in two: in either order. -/
inductive Splits : Reshape → Reshape → Reshape → Prop
  | frontFirst {q q' : Reshape} : q.AtFront → q'.AtBack → Splits (q.beside q') q q'
  | backFirst {q q' : Reshape} : q.AtFront → q'.AtBack → Splits (q.beside q') q' q

section Halves

variable {q q' : Reshape} (hf : q.AtFront) (hb : q'.AtBack)

include hf hb

/-- Each side's flags come from its own half. -/
theorem has_beside (f : ResizeFlag) :
    (q.beside q').flags.has f = (q.flags.has f || q'.flags.has f) ∧
      (f = .shrinkFront ∨ f = .expandFront → q'.flags.has f = false) ∧
      (f = .shrinkBack ∨ f = .expandBack → q.flags.has f = false) := by
  refine ⟨Flags.has_union _ _ f, ?_, ?_⟩
  · rintro (rfl | rfl)
    · exact hb.shrink
    · exact hb.expand
  · rintro (rfl | rfl)
    · exact hf.shrink
    · exact hf.expand

/-- What is asked of the front is asked by its half. -/
theorem amount_front {f : ResizeFlag} (h : f = .shrinkFront ∨ f = .expandFront) :
    (q.beside q').amount f (q.beside q').front = q.amount f q.front ∧
      q'.amount f q'.front = 0 := by
  obtain ⟨hunion, hnot, -⟩ := has_beside hf hb f
  simp only [amount_eq]
  rw [hunion, hnot h, Bool.or_false]
  exact ⟨rfl, rfl⟩

/-- And what is asked of the back by the other. -/
theorem amount_back {f : ResizeFlag} (h : f = .shrinkBack ∨ f = .expandBack) :
    (q.beside q').amount f (q.beside q').back = q'.amount f q'.back ∧ q.amount f q.back = 0 := by
  obtain ⟨hunion, -, hnot⟩ := has_beside hf hb f
  simp only [amount_eq]
  rw [hunion, hnot h, Bool.false_or]
  exact ⟨rfl, rfl⟩

/-- Both halves lose and gain what the whole does. -/
theorem lost_beside : (q.beside q').lost = q.lost + q'.lost ∧
    (q.beside q').gained = q.gained + q'.gained := by
  obtain ⟨hsf, hsf'⟩ := amount_front hf hb (.inl rfl)
  obtain ⟨hef, hef'⟩ := amount_front hf hb (.inr rfl)
  obtain ⟨hsb, hsb'⟩ := amount_back hf hb (.inl rfl)
  obtain ⟨heb, heb'⟩ := amount_back hf hb (.inr rfl)
  unfold lost gained
  omega

/-- **What survives of both halves** survives of the whole, and comes to be at the
same place: the front first, or the back. -/
theorem source?_beside {n : Nat} (hlt : (q.beside q').lost < n) (i : Nat) :
    (q'.source? (n - q.lost + q.gained) i).bind (q.source? n) = (q.beside q').source? n i ∧
      (q.source? (n - q'.lost + q'.gained) i).bind (q'.source? n) =
        (q.beside q').source? n i := by
  obtain ⟨hsf, hsf'⟩ := amount_front hf hb (.inl rfl)
  obtain ⟨hef, hef'⟩ := amount_front hf hb (.inr rfl)
  obtain ⟨hsb, hsb'⟩ := amount_back hf hb (.inl rfl)
  obtain ⟨heb, heb'⟩ := amount_back hf hb (.inr rfl)
  unfold lost gained at *
  unfold source?
  simp only [hsf, hef, hsb, hsf', hef', hsb', heb'] at hlt ⊢
  generalize q.amount .shrinkFront q.front = sf at *
  generalize q.amount .expandFront q.front = ef at *
  generalize q'.amount .shrinkBack q'.back = sb at *
  generalize q'.amount .expandBack q'.back = eb at *
  constructor
  · ext k
    simp only [Option.bind_eq_some_iff, Option.ite_none_right_eq_some, Option.some.injEq]
    constructor
    · rintro ⟨j, ⟨hi, rfl⟩, hj, rfl⟩
      omega
    · rintro ⟨hi, rfl⟩
      exact ⟨i, by omega, by omega, rfl⟩
  · ext k
    simp only [Option.bind_eq_some_iff, Option.ite_none_right_eq_some, Option.some.injEq]
    constructor
    · rintro ⟨j, ⟨hi, rfl⟩, hj, rfl⟩
      omega
    · rintro ⟨hi, rfl⟩
      exact ⟨sf + (i - ef), by omega, by omega, by omega⟩

/-- Nor is anything wrong with a half if nothing is with the whole. -/
theorem Sided.halves (h : (q.beside q').Sided b) : q.Sided b ∧ q'.Sided b := by
  obtain ⟨front, back, hfront, hback⟩ := h
  have hl : ∀ f, q.flags.has f = true → (q.beside q').flags.has f = true := fun f h => by
    rw [(has_beside hf hb f).1, h, Bool.true_or]
  have hr : ∀ f, q'.flags.has f = true → (q.beside q').flags.has f = true := fun f h => by
    rw [(has_beside hf hb f).1, h, Bool.or_true]
  obtain ⟨c, hc⟩ := side_of_subset hfront (hl _) (hl _)
  obtain ⟨c', hc'⟩ := side_of_subset hback (hr _) (hr _)
  obtain ⟨d, hd⟩ := side_of_idle (b := b) q.back hf.shrink hf.expand
  obtain ⟨d', hd'⟩ := side_of_idle (b := b) q'.front hb.shrink hb.expand
  exact ⟨⟨c, d, hc, hd⟩, ⟨d', c', hd', hc'⟩⟩

/-- No request here leaves a size to choose. -/
theorem exact_beside : (q.beside q').Exact ∧ q.Exact ∧ q'.Exact := by
  have hexact : q.Exact := ⟨hf.copies, fun he => Bool.noConfusion (he.symm.trans hf.expand)⟩
  refine ⟨⟨?_, fun he hs => hb.exact.back ?_ ?_⟩, hexact, hb.exact⟩
  · rw [(has_beside hf hb _).1, hf.copies, hb.exact.copies, Bool.or_self]
  · rwa [(has_beside hf hb _).1, hf.expand, Bool.false_or] at he
  · rwa [(has_beside hf hb _).1, hf.shrink, Bool.false_or] at hs

end Halves

/-- A request about one side that is in order does not tell it both to shrink and to
grow. -/
theorem Sided.one_way (h : q.Sided b) (hone : q.AtFront ∨ q.AtBack) (hs : q.shrinks = true) :
    q.grows = false := by
  obtain ⟨front, back, hfront, hback⟩ := h
  obtain ⟨-, -, -, hf⟩ := Resize.side_eq_ok hfront
  obtain ⟨-, -, -, hb⟩ := Resize.side_eq_ok hback
  unfold shrinks at hs
  unfold grows
  rcases hone with h | h
  · rw [h.shrink, Bool.or_false] at hs
    rw [h.expand, Bool.or_false]
    by_contra he
    exact Bool.noConfusion (hs.symm.trans (hf (eq_true_of_ne_false he)))
  · rw [h.shrink, Bool.false_or] at hs
    rw [h.expand, Bool.false_or]
    by_contra he
    exact Bool.noConfusion (hs.symm.trans (hb (eq_true_of_ne_false he)))

/-- Where bytes survive from is within the old block. -/
theorem lt_of_source? {n i j : Nat} (h : q.source? n i = some j) : j < n := by
  simp only [source?] at h
  split at h
  · cases h
    omega
  · cases h

/-- Without a flag to shrink nothing is lost. -/
theorem lost_of_not_shrinks (h : q.shrinks = false) : q.lost = 0 := by
  obtain ⟨hf, hb⟩ := Bool.or_eq_false_iff.1 h
  simp [lost, amount_eq, hf, hb]

/-- Without one to grow nothing is gained. -/
theorem gained_of_not_grows (h : q.grows = false) : q.gained = 0 := by
  obtain ⟨hf, hb⟩ := Bool.or_eq_false_iff.1 h
  simp [gained, amount_eq, hf, hb]

namespace Splits

variable (hs : q.Splits q₁ q₂)

include hs

/-- All three have their bytes copied and leave no size to choose. -/
theorem exact : q.Exact ∧ q₁.Exact ∧ q₂.Exact := by
  cases hs with
  | frontFirst hf hb => exact exact_beside hf hb
  | backFirst hf hb =>
    obtain ⟨h, h₁, h₂⟩ := exact_beside hf hb
    exact ⟨h, h₂, h₁⟩

/-- What is lost and gained is lost and gained in two parts. -/
theorem lost_gained : q.lost = q₁.lost + q₂.lost ∧ q.gained = q₁.gained + q₂.gained := by
  cases hs with
  | frontFirst hf hb => exact lost_beside hf hb
  | backFirst hf hb =>
    obtain ⟨hl, hg⟩ := lost_beside hf hb
    exact ⟨hl.trans (Nat.add_comm _ _), hg.trans (Nat.add_comm _ _)⟩

/-- What survives is the same, and in the same place. -/
theorem source? {n : Nat} (hlt : q.lost < n) (i : Nat) :
    (q₂.source? (n - q₁.lost + q₁.gained) i).bind (q₁.source? n) = q.source? n i := by
  cases hs with
  | frontFirst hf hb => exact (source?_beside hf hb hlt i).1
  | backFirst hf hb => exact (source?_beside hf hb hlt i).2

/-- Nothing is wrong with the parts if nothing is with the whole. -/
theorem sided (h : q.Sided b) : q₁.Sided b ∧ q₂.Sided b := by
  cases hs with
  | frontFirst hf hb => exact h.halves hf hb
  | backFirst hf hb => exact (h.halves hf hb).symm

/-- The second is about one side. -/
theorem one_sided : q₂.AtFront ∨ q₂.AtBack := by
  cases hs with
  | frontFirst hf hb => exact Or.inr hb
  | backFirst hf hb => exact Or.inl hf

/-- If any part grows the whole does. -/
theorem grows (h : q.grows = true) : q₁.grows = true ∨ q₂.grows = true := by
  unfold Reshape.grows at *
  cases hs with
  | frontFirst hf hb =>
    rw [(has_beside hf hb _).1, (has_beside hf hb _).1] at h
    simp only [Bool.or_eq_true] at h ⊢
    tauto
  | backFirst hf hb =>
    rw [(has_beside hf hb _).1, (has_beside hf hb _).1] at h
    simp only [Bool.or_eq_true] at h ⊢
    tauto

/-- **Two parts can be planned in turn** if both can be at once, unless the first
grows and the second shrinks, or both shrink a block that is larger than any
that can be asked for. -/
theorem inTurn (hp : (q.about x).plan b = .ok p) (horder : q₁.grows = true → q₂.shrinks = false)
    (hx : q.grows = true ∨ x.Formed) : InTurn b q₁ q₂ x p.newSize := by
  obtain ⟨ha, hsided, hfits, hn⟩ := fits_of_plan hp
  obtain ⟨hs₁, hs₂⟩ := hs.sided hsided
  obtain ⟨hl, hg⟩ := hs.lost_gained
  have hleft := hfits.left
  have hlimit := hfits.limit
  rw [hn]
  refine inTurn_of_fits ha hfits hl hg hs₁ hs₂ ?_
  cases hshrinks : q₂.shrinks with
  | false =>
    have hlost := lost_of_not_shrinks hshrinks
    omega
  | true =>
    -- then the first part does not grow, and the second does not either
    have hgrows₁ : q₁.grows = false := by
      by_contra hgrows
      cases hshrinks.symm.trans (horder (eq_true_of_ne_false hgrows))
    have hgrows₂ := hs₂.one_way hs.one_sided hshrinks
    have hgained := gained_of_not_grows hgrows₁
    have hformed : x.Formed := by
      refine hx.resolve_left fun hgrows => ?_
      rcases hs.grows hgrows with h | h
      · cases hgrows₁.symm.trans h
      · cases hgrows₂.symm.trans h
    have hle : x.size ≤ maxSize x.align := hformed.resolve_right (by omega)
    omega

end Splits

end Reshape

/-! ## What the bytes are -/

/-- Equal stretches have equal bytes. -/
theorem Memory.byteAt_of_read {m m' : Memory} {a a' n k : Nat} (h : m'.read a' n = m.read a n)
    (hk : k < n) : m'.byteAt (a' + k) = m.byteAt (a + k) :=
  List.map_inj_left.1 h k (List.mem_range.2 hk)

/-- A stretch that is read as zeros has only zeros. -/
theorem Memory.byteAt_of_zeros {m : Memory} {a n k : Nat} (h : m.read a n = List.replicate n 0)
    (hk : k < n) : m.byteAt (a + k) = 0 := by
  have hmem : m.byteAt (a + k) ∈ m.read a n := List.mem_map_of_mem (List.mem_range.2 hk)
  rw [h] at hmem
  exact List.eq_of_mem_replicate hmem

namespace Custody

variable {ρ : Type} [Resource ρ] {b : Build} {kind : AllocatorKind} {q q₁ q₂ : Reshape}
variable {c c' c₁ c₂ : Custody} {w w' w₁ w₂ : World ρ} {x y y₁ y₂ : Block} {others : List Block}
variable {p : Plan}

namespace Granted

variable (hg : Granted b kind q c w x p c' w' y)

include hg

/-- If there is no size to choose, the block is as large as planned. -/
theorem size_eq (hq : q.Exact) : y.size = p.newSize := by
  cases hk : c.allocator with
  | heap s => exact (hg.heap s hk).1
  | stack s =>
    obtain ⟨h, older, hr⟩ := hg.stack s hk
    rw [hr.size, (hq.planned hg.planned).2, Nat.add_zero]
    exact Nat.min_eq_left hr.fits
  | arena s =>
    -- an arena resizes nothing
    exact absurd (hg.kind.trans (congrArg _ hk)) hg.resizable.kind_ne_arena

/-- Bytes that come from the old block are those that it had. -/
theorem descends {i j : Nat} (h : q.source? x.size i = some j) :
    w'.memory.byteAt (y.address + i) = w.memory.byteAt (x.address + j) := by
  obtain ⟨k, hk, rfl, rfl⟩ := Reshape.exists_of_source? hg.planned h
  rw [← Nat.add_assoc, ← Nat.add_assoc]
  exact Memory.byteAt_of_read hg.carried.survivors hk

/-- And the others are zeros, on a heap that zeroes. -/
theorem zero {s : Heap} (hk : c.allocator = .heap s) (hz : s.zeroed = true) {i : Nat}
    (hi : i < p.newSize) (h : q.source? x.size i = none) :
    w'.memory.byteAt (y.address + i) = 0 := by
  obtain ⟨-, old, new, -, hm⟩ := hg.heap s hk
  have hf := Resize.planned hg.planned
  have hkept : p.kept = x.size - (p.source + q.amount .shrinkBack q.back) := hf.kept
  have htarget : p.target = q.amount .expandFront q.front := hf.target
  have hsource : p.source = q.amount .shrinkFront q.front := hf.source
  have hsize := (Resize.plan_sizes hg.planned).1
  have hout : i < p.target ∨ p.target + p.kept ≤ i := by
    simp only [Reshape.source?, ← htarget, ← hsource] at h
    split at h
    · cases h
    · omega
  -- the stretch before what survives and the one after it are read as zeros
  have hzeros := hm.zeros hz
  rw [hsize, Memory.read_add, Memory.read_add] at hzeros
  obtain ⟨hfirst, hlast⟩ := List.append_inj hzeros (by
    simp only [List.length_append, Memory.length_read, List.length_replicate])
  obtain ⟨hfront, -⟩ := List.append_inj hfirst (by rw [Memory.length_read, List.length_replicate])
  rcases hout with hlt | hle
  · exact Memory.byteAt_of_zeros hfront hlt
  · have hback := Memory.byteAt_of_zeros hlast (k := i - (p.target + p.kept)) (by omega)
    rwa [Nat.add_assoc, Nat.add_sub_cancel' hle] at hback

end Granted

/-! ## Two ways to one block -/

/-- A block was made of `x` by one request, and by two. -/
structure Coincides (c₀ : Custody) (w₀ : World ρ) (x : Block) (q q₁ q₂ : Reshape) (c : Custody)
    (w : World ρ) (y y₁ : Block) (c₂ : Custody) (w₂ : World ρ) (y₂ : Block) : Prop where
  /-- Both blocks are of one shape. -/
  size : y₂.size = y.size
  align : y₂.align = y.align
  /-- Their bytes descend alike from those of the old block. -/
  descent : ∀ i, (q₂.source? y₁.size i).bind (q₁.source? x.size) = q.source? x.size i
  /-- Both hold what the old block held, wherever they descend from it. -/
  bytes : ∀ i j, q.source? x.size i = some j →
    w.memory.byteAt (y.address + i) = w₀.memory.byteAt (x.address + j) ∧
      w₂.memory.byteAt (y₂.address + i) = w₀.memory.byteAt (x.address + j)
  /-- On a heap that zeroes they hold the same. -/
  zeroed : ∀ s, c₀.allocator = .heap s → s.zeroed = true →
    w₂.memory.read y₂.address y₂.size = w.memory.read y.address y.size
  /-- On a stack they are the same, where the old one was, and the stack is as it is
  either way. -/
  stack : ∀ s, c₀.allocator = .stack s → y₂ = y ∧ y.address = x.address ∧ c₂ = c

/-- **One request or two come to the same**, whenever they are granted. -/
theorem InOrder.coincides (hin : c.InOrder b kind others w) (hx : x ∈ c.blocks)
    (hs : q.Splits q₁ q₂) (h : c.Resizes b q w x c' w' y) (h₁ : c.Resizes b q₁ w x c₁ w₁ y₁)
    (h₂ : c₁.Resizes b q₂ w₁ y₁ c₂ w₂ y₂) : Coincides c w x q q₁ q₂ c' w' y y₁ c₂ w₂ y₂ := by
  obtain ⟨hexact, hexact₁, hexact₂⟩ := hs.exact
  obtain ⟨p, hg⟩ := hin.granted hx hexact.copies h
  obtain ⟨p₁, hg₁⟩ := hin.granted hx hexact₁.copies h₁
  obtain ⟨others₁, hin₁⟩ := hg₁.inOrder
  obtain ⟨p₂, hg₂⟩ := hin₁.granted hg₁.resizable.mem hexact₂.copies h₂
  obtain ⟨-, -, hfits, hn⟩ := Reshape.fits_of_plan hg.planned
  obtain ⟨-, -, -, hn₁⟩ := Reshape.fits_of_plan hg₁.planned
  obtain ⟨-, -, -, hn₂⟩ := Reshape.fits_of_plan hg₂.planned
  have hy := hg.size_eq hexact
  have hy₁ := hg₁.size_eq hexact₁
  have hy₂ := hg₂.size_eq hexact₂
  obtain ⟨hlost, hgained⟩ := hs.lost_gained
  have hleft := hfits.left
  have hsize : y₂.size = y.size := by omega
  have hdescent : ∀ i, (q₂.source? y₁.size i).bind (q₁.source? x.size) = q.source? x.size i := by
    intro i
    rw [hy₁, hn₁]
    exact hs.source? hleft i
  -- a byte of the second block comes from one of the first, and that from the old
  have htwice : ∀ i j, q.source? x.size i = some j →
      w₂.memory.byteAt (y₂.address + i) = w.memory.byteAt (x.address + j) := by
    intro i j hij
    rw [← hdescent] at hij
    obtain ⟨k, hik, hkj⟩ := Option.bind_eq_some_iff.1 hij
    exact (hg₂.descends hik).trans (hg₁.descends hkj)
  refine ⟨hsize, h₂.align.trans (h₁.align.trans h.align.symm), hdescent,
    fun i j hij => ⟨hg.descends hij, htwice i j hij⟩, fun s hk hz => ?_, fun s hk => ?_⟩
  · obtain ⟨s₁, hk₁, hz₁⟩ := exists_heap_of_kind (hg₁.kind.trans (congrArg _ hk))
    rw [hsize]
    refine List.map_congr_left fun i hi => ?_
    have hi : i < y.size := List.mem_range.1 hi
    cases hij : q.source? x.size i with
    | some j => exact (htwice i j hij).trans (hg.descends hij).symm
    | none =>
      rw [hg.zero hk hz (hy ▸ hi) hij]
      cases hik : q₂.source? y₁.size i with
      | none => exact hg₂.zero hk₁ (hz₁.trans hz) (by omega) hik
      | some k =>
        have hkj : q₁.source? x.size k = none := by
          have hbind := hdescent i
          rwa [hik, hij] at hbind
        have hlt := Reshape.lt_of_source? hik
        exact (hg₂.descends hik).trans (hg₁.zero hk hz (by omega) hkj)
  · obtain ⟨h₀, older, hr⟩ := hg.stack s hk
    obtain ⟨h₀', older', hr₁⟩ := hg₁.stack s hk
    cases hr.live.symm.trans hr₁.live
    have haddress := hr₁.address
    obtain ⟨-, -, hafter₁, -, -, rfl⟩ := hr₁
    obtain ⟨h₁', older₁, hlive₂, -, hafter₂, -, -, rfl⟩ := hg₂.stack _ rfl
    cases hlive₂
    refine ⟨?_, hr.address, ?_⟩
    · rw [← hafter₂, ← hr.after, hsize]
    · rw [hr.custody, hsize, haddress]
      rfl

end Custody

/-- **The sides of a block are independent**, at every moment of every run of calls
on its allocator. A request about both sides of a live block and the two requests
that it splits into, in either order, make the same block of it whenever all three
are granted.
If the whole can be planned, so can what shrinks of it before what grows; and so
can its two parts, unless the first grows and the second shrinks. (Two parts
that both shrink need a block of a size that can be asked for: a stack gives its
blocks larger ones where they prefer that.) -/
theorem Chronicle.sides_independent {ρ : Type} [Resource ρ] {b : Build} {kind : AllocatorKind}
    {B : Book ρ} (h : Chronicle b Custody.Allows kind B) {x : Block} (hx : x ∈ B.custody.blocks)
    {q q₁ q₂ : Reshape} (hs : q.Splits q₁ q₂) :
    (∀ c w y c₁ w₁ y₁ c₂ w₂ y₂, B.custody.Resizes b q B.world x c w y →
      B.custody.Resizes b q₁ B.world x c₁ w₁ y₁ → c₁.Resizes b q₂ w₁ y₁ c₂ w₂ y₂ →
        B.custody.Coincides B.world x q q₁ q₂ c w y y₁ c₂ w₂ y₂) ∧
    ∀ p, (q.about x).plan b = .ok p → Reshape.InTurn b q.shrinking q.growing x p.newSize ∧
      ((q₁.grows = true → q₂.shrinks = false) → q.grows = true ∨ x.Formed →
        Reshape.InTurn b q₁ q₂ x p.newSize) := by
  obtain ⟨others, hin⟩ := h.inOrder Custody.steady_allows
  exact ⟨fun c w y c₁ w₁ y₁ c₂ w₂ y₂ h h₁ h₂ => hin.coincides hx hs h h₁ h₂,
    fun p hp => ⟨Reshape.inTurn_shrinking hp, fun ho hx => hs.inTurn hp ho hx⟩⟩

/-- Eight bytes more in front. -/
def outward : Reshape := ⟨⟨8, 8⟩, ⟨0, 0⟩, .single .expandFront⟩

/-- Four bytes less at the back. -/
def inward : Reshape := ⟨⟨0, 0⟩, ⟨4, 0⟩, .single .shrinkBack⟩

/-- The first block of a heap with zeros, resized at once. -/
def atOnce : Book Pool :=
  (newZeroed.turns .debug inscribed).resized .debug (outward.beside inward)
    (Block.of 0x100000000 Estate.sampleLayout)

/-- And one side after the other: what shrinks comes first, and the new blocks are at
other places. -/
def inTurns : Book Pool :=
  ((newZeroed.turns .debug inscribed).resized .debug inward
    (Block.of 0x100000000 Estate.sampleLayout)).resized .debug outward ⟨0x100000050, 20, 16⟩

/-- Eight zeros and twenty of the bytes are read, either way. -/
theorem sides_independent_inscribed : ∃ c₁ w₁,
    (newZeroed.turns .debug inscribed).custody.Coincides (newZeroed.turns .debug inscribed).world
      (Block.of 0x100000000 Estate.sampleLayout) (outward.beside inward) inward outward
      atOnce.custody atOnce.world ⟨0x100000050, 28, 16⟩ ⟨0x100000050, 20, 16⟩
      inTurns.custody inTurns.world ⟨0x100000070, 28, 16⟩ ∧
    (newZeroed.turns .debug inscribed).custody.Resizes .debug inward
      (newZeroed.turns .debug inscribed).world (Block.of 0x100000000 Estate.sampleLayout) c₁ w₁
      ⟨0x100000050, 20, 16⟩ ∧
    atOnce.world.memory.read 0x100000050 28 =
      [0, 0, 0, 0, 0, 0, 0, 0, 1, 2, 3, 4, 5, 6, 7, 8, 9, 10, 11, 12, 13, 14, 15, 16, 17, 18, 19,
        20] := by
  have hc : Allocator.create .zeroed "zeroed" 0 (.start (Pool.ofSize 4096)) =
      (.ok (.heap (.create "zeroed" true)), .start (Pool.ofSize 4096)) := rfl
  have hmade : Chronicle .debug Custody.Allows .zeroed newZeroed := .made Accounts.nil hc trivial
  have hfair : newZeroed.Fair .debug Custody.Allows inscribed := by decide +kernel
  have hs : (outward.beside inward).Splits inward outward :=
    .backFirst ⟨by decide, by decide, by decide⟩ ⟨by decide, by decide, by decide⟩
  obtain ⟨hsame, -⟩ := (hmade.turns hfair).sides_independent
    (x := Block.of 0x100000000 Estate.sampleLayout) (by decide +kernel) hs
  have h := Book.resizes_resized (b := .debug) (newZeroed.turns .debug inscribed)
    (outward.beside inward) (Block.of 0x100000000 Estate.sampleLayout) ⟨0x100000050, 28, 16⟩
    (some 0x100000058) (by rfl) rfl (by decide +kernel)
  have h₁ := Book.resizes_resized (b := .debug) (newZeroed.turns .debug inscribed) inward
    (Block.of 0x100000000 Estate.sampleLayout) ⟨0x100000050, 20, 16⟩ (some 0x100000050) (by rfl) rfl
    (by decide +kernel)
  have h₂ := Book.resizes_resized (b := .debug) ((newZeroed.turns .debug inscribed).resized .debug
      inward (Block.of 0x100000000 Estate.sampleLayout)) outward ⟨0x100000050, 20, 16⟩
    ⟨0x100000070, 28, 16⟩ (some 0x100000078) (by rfl) rfl (by decide +kernel)
  exact ⟨_, _, hsame _ _ _ _ _ _ _ _ _ h h₁ h₂, h₁, by decide +kernel⟩

end Allocators
