import Allocators.Proofs.Reshape
import Allocators.Proofs.Retraction
/-!
# How resize requests are decided

A request is decided by its amounts alone. `Resize.objections` lists what
can be said against one, in the order in which it is looked for, with every
sum an exact integer; the first that applies is the answer, and a request
without any gets its plan. The machine forms the same sums in words, each
checked (`Resize.planWords`), and comes to the same: a sum that is no word
is beyond every limit it would have been compared with
(`joinWords_eq_join`). Main statement: `Resize.planWords_decides`.
-/

namespace Allocators

/-- The sum, if it is a word. -/
def Word.checkedAdd (x y : Nat) : Option Nat := if x + y < size then some (x + y) else none

/-- An alignment that is a word is one of sixty-four. -/
theorem Word.exists_two_pow {align : Nat} (ha : align.isPowerOfTwo) (hw : align < size) :
    ∃ k < 64, align = 2 ^ k := by
  obtain ⟨k, rfl⟩ := ha
  exact ⟨k, (Nat.pow_lt_pow_iff_right (by decide : 1 < 2)).1 hw, rfl⟩

namespace Resize

/-! ## In words -/

/-- All numbers of the request are words. -/
structure InWords (r : Resize) : Prop where
  address : r.address < Word.size
  size : r.size < Word.size
  align : r.align < Word.size
  front : r.front.required < Word.size ∧ r.front.preferred < Word.size
  back : r.back.required < Word.size ∧ r.back.preferred < Word.size

/-- The plan made of what becomes of the two sides, with sums of words that are
checked and differences of words that are not. -/
def joinWords (b : Build) (r : Resize) (front back : SideChange) : Except Failure Plan :=
  match Word.checkedAdd front.dropped back.dropped with
  | none => .error (.refused .infeasibleResize)
  | some dropped =>
    if r.size ≤ dropped then
      .error (.refused .infeasibleResize)
    else do
      let kept ← b.sub r.size dropped
      match (Word.checkedAdd kept front.added).bind (Word.checkedAdd · back.added) with
      | none => .error (.refused .infeasibleResize)
      | some newSize => do
        let limit ← b.sub Word.maxDistance (← b.sub r.align 1)
        if limit < newSize then
          .error (.refused .infeasibleResize)
        else
          .ok ⟨front.dropped, front.added, back.added, back.spare, kept, newSize,
            r.flags.has .keepOldNocopy⟩

/-- The plan of a request, worked out in words. -/
def planWords (b : Build) (r : Resize) : Except Failure Plan :=
  if r.align.isPowerOfTwo then do
    let front ← side b r.flags .shrinkFront .expandFront r.front
    let back ← side b r.flags .shrinkBack .expandBack r.back
    joinWords b r front back
  else
    .error (.refused .invalidAlignment)

/-- A power of two that is a word leaves room below the largest distance. -/
theorem pred_le_maxDistance {align : Nat} (ha : align.isPowerOfTwo) (hw : align < Word.size) :
    1 ≤ align ∧ align - 1 ≤ Word.maxDistance := by
  obtain ⟨k, hk, rfl⟩ := Word.exists_two_pow ha hw
  have hle : 2 ^ k ≤ 2 ^ 63 := Nat.pow_le_pow_right (by decide) (by omega)
  have hmax : Word.maxDistance = 2 ^ 63 - 1 := by decide
  have hpos : 0 < 2 ^ k := Nat.two_pow_pos k
  omega

/-- **Words come to the same as exact numbers**: a sum that is no word is beyond
the size of the block, and beyond the size that any block can have. -/
theorem joinWords_eq_join {r : Resize} (b : Build) (hw : r.InWords) (ha : r.align.isPowerOfTwo)
    (front back : SideChange) : r.joinWords b front back = r.join front back := by
  obtain ⟨hpos, hslack⟩ := pred_le_maxDistance ha hw.align
  have hsize := hw.size
  have hlimit : maxSize r.align < Word.size := by
    have hmax : Word.maxDistance < Word.size := by decide
    unfold maxSize
    omega
  unfold joinWords join Word.checkedAdd
  by_cases hd : front.dropped + back.dropped < Word.size
  · simp only [if_pos hd]
    by_cases hle : r.size ≤ front.dropped + back.dropped
    · rw [if_pos hle, if_pos hle]
    · rw [if_neg hle, if_neg hle, b.sub_of_le (by omega)]
      simp only [bind, Except.bind]
      by_cases hf : r.size - (front.dropped + back.dropped) + front.added < Word.size
      · simp only [if_pos hf, Option.bind_some]
        by_cases hn : r.size - (front.dropped + back.dropped) + front.added + back.added < Word.size
        · simp only [if_pos hn, b.sub_of_le hpos, b.sub_of_le hslack]
          rfl
        · simp only [if_neg hn]
          rw [if_pos (by omega)]
      · simp only [if_neg hf, Option.bind_none]
        rw [if_pos (by omega)]
  · simp only [if_neg hd]
    rw [if_pos (by omega)]

/-- So does the whole plan. -/
theorem planWords_eq_plan {r : Resize} (b : Build) (hw : r.InWords) : r.planWords b = r.plan b := by
  unfold planWords plan
  by_cases ha : r.align.isPowerOfTwo
  · simp only [if_pos ha, joinWords_eq_join b hw ha]
  · rw [if_neg ha, if_neg ha]

/-! ## Objections -/

/-- The bytes that are dropped at either end. -/
def dropped (r : Resize) : Nat := r.amount .shrinkFront r.front + r.amount .shrinkBack r.back

/-- The bytes that survive, which in a request that asks for too much are less
than none. -/
def surviving (r : Resize) : Int := r.size - r.dropped

/-- The size that the block would have. -/
def resulting (r : Resize) : Int :=
  r.amount .expandFront r.front + r.surviving + r.amount .expandBack r.back

/-- What can be said against a request, in the order in which it is looked for:
whether it applies, and the answer then. -/
def objections (r : Resize) : List (Bool × Refusal) :=
  [(!decide r.align.isPowerOfTwo, .invalidAlignment),
    (r.flags.has .expandFront && r.flags.has .shrinkFront, .conflictingFlags),
    (r.flags.has .expandFront && decide (r.front.preferred < r.front.required), .infeasibleResize),
    (r.flags.has .expandBack && r.flags.has .shrinkBack, .conflictingFlags),
    (r.flags.has .expandBack && decide (r.back.preferred < r.back.required), .infeasibleResize),
    (decide ((r.size : Int) ≤ r.dropped), .infeasibleResize),
    (decide ((Word.maxDistance : Int) - (r.align - 1) < r.resulting), .infeasibleResize)]

/-- The first objection that applies. -/
def objection? (r : Resize) : Option Refusal := r.objections.lookup true

/-- What the request comes to if nothing is said against it. -/
def outline (r : Resize) : Plan where
  source := r.amount .shrinkFront r.front
  target := r.amount .expandFront r.front
  addedBack := r.amount .expandBack r.back
  spareBack := if r.flags.has .expandBack then r.back.preferred - r.back.required else 0
  kept := r.surviving.toNat
  newSize := r.resulting.toNat
  nocopy := r.flags.has .keepOldNocopy

/-- The decision: the first objection, or the plan. -/
def decision (r : Resize) : Except Failure Plan :=
  match r.objection? with
  | some e => .error (.refused e)
  | none => .ok r.outline

/-- Nothing is wrong with a side: it is not told both to grow and to shrink, nor to
grow by more than it prefers. -/
structure Orderly (flags : ResizeFlags) (shrink expand : ResizeFlag) (a : Amounts) : Prop where
  one_way : (flags.has expand && flags.has shrink) = false
  preferred : (flags.has expand && decide (a.preferred < a.required)) = false

/-- Both can be said in one sentence. -/
theorem orderly_iff {flags : ResizeFlags} {shrink expand : ResizeFlag} {a : Amounts} :
    Orderly flags shrink expand a ↔ (flags.has expand && flags.has shrink) = false ∧
      (flags.has expand && decide (a.preferred < a.required)) = false :=
  ⟨fun h => ⟨h.one_way, h.preferred⟩, fun h => ⟨h.1, h.2⟩⟩

/-- What becomes of a side: it is told to do both, or to grow by more than it
prefers, or it changes as it is told; and a debug build finds fault with one
that only shrinks and has something to prefer. -/
theorem side_cases (b : Build) (flags : ResizeFlags) (shrink expand : ResizeFlag) (a : Amounts) :
    (flags.has expand = true ∧ flags.has shrink = true ∧
      side b flags shrink expand a = .error (.refused .conflictingFlags)) ∨
    (flags.has expand = true ∧ flags.has shrink = false ∧ a.preferred < a.required ∧
      side b flags shrink expand a = .error (.refused .infeasibleResize)) ∨
    (Orderly flags shrink expand a ∧
      side b flags shrink expand a =
        .ok ⟨if flags.has shrink then a.required else 0, if flags.has expand then a.required else 0,
          if flags.has expand then a.preferred - a.required else 0⟩) ∨
    (b = .debug ∧ flags.has shrink = true ∧ flags.has expand = false ∧ a.preferred ≠ 0 ∧
      side b flags shrink expand a = .error (.fault (.preferredOnShrink a.preferred))) := by
  unfold side
  cases hs : flags.has shrink with
  | true =>
    cases he : flags.has expand with
    | true => simp
    | false =>
      have hfine : Orderly flags shrink expand a := ⟨by simp [he], by simp [he]⟩
      by_cases hp : a.preferred = 0
      · simp [hfine, b.require_of _ hp, bind, Except.bind, pure, Except.pure]
      · cases b with
        | debug => simp [Build.require, hp, bind, Except.bind]
        | release => simp [hfine, Build.require, bind, Except.bind, pure, Except.pure]
  | false =>
    cases he : flags.has expand with
    | true =>
      by_cases hp : a.preferred < a.required
      · simp [hp]
      · have hfine : Orderly flags shrink expand a := ⟨by simp [hs], by simp [hp]⟩
        simp [hp, hfine]
    | false =>
      have hfine : Orderly flags shrink expand a := ⟨by simp [he], by simp [he]⟩
      simp [hfine]

/-- The first objection of a request that has nothing wrong with its alignment or
either of its sides: the sizes are looked at last. -/
theorem objection?_of_sides {r : Resize} (ha : r.align.isPowerOfTwo)
    (hf : Orderly r.flags .shrinkFront .expandFront r.front)
    (hb : Orderly r.flags .shrinkBack .expandBack r.back) :
    r.objection? =
      if (r.size : Int) ≤ r.dropped ∨ (Word.maxDistance : Int) - (r.align - 1) < r.resulting then
        some .infeasibleResize
      else none := by
  have halign : (!decide r.align.isPowerOfTwo) = false := by simpa using ha
  simp only [objection?, objections, List.lookup_cons, halign, hf.one_way, hf.preferred,
    hb.one_way, hb.preferred, List.lookup_nil, Bool.true_beq]
  by_cases hd : (r.size : Int) ≤ r.dropped
  · simp only [hd, decide_true, true_or, if_true]
  · by_cases hn : (Word.maxDistance : Int) - (r.align - 1) < r.resulting
    · simp only [hd, hn, decide_true, decide_false, or_true, if_true]
    · simp only [hd, hn, decide_false, or_self, if_false]

/-- The plan made of two sides that change as they are told is the decision: sums
of naturals that are looked at before they are taken apart are the integers'. -/
theorem join_eq_decision {r : Resize} (hw : r.InWords) (ha : r.align.isPowerOfTwo)
    (hf : Orderly r.flags .shrinkFront .expandFront r.front)
    (hb : Orderly r.flags .shrinkBack .expandBack r.back) (spare : Nat) :
    r.join ⟨r.amount .shrinkFront r.front, r.amount .expandFront r.front, spare⟩
      ⟨r.amount .shrinkBack r.back, r.amount .expandBack r.back,
        if r.flags.has .expandBack then r.back.preferred - r.back.required else 0⟩ =
      r.decision := by
  obtain ⟨hpos, hslack⟩ := pred_le_maxDistance ha hw.align
  have hdropped : r.dropped = r.amount .shrinkFront r.front + r.amount .shrinkBack r.back := rfl
  have hsurviving : r.surviving = (r.size : Int) - r.dropped := rfl
  have hresulting : r.resulting =
    r.amount .expandFront r.front + r.surviving + r.amount .expandBack r.back := rfl
  have hmax : maxSize r.align = Word.maxDistance - (r.align - 1) := rfl
  unfold decision
  rw [objection?_of_sides ha hf hb]
  unfold join
  simp only [← hdropped]
  by_cases hd : r.size ≤ r.dropped
  · rw [if_pos hd, if_pos (Or.inl (by omega))]
  · rw [if_neg hd]
    by_cases hn : maxSize r.align <
        r.size - r.dropped + r.amount .expandFront r.front + r.amount .expandBack r.back
    · rw [if_pos hn, if_pos (Or.inr (by omega))]
    · have hkept : r.size - r.dropped = r.surviving.toNat := by omega
      have hnew : r.size - r.dropped + r.amount .expandFront r.front + r.amount .expandBack r.back =
        r.resulting.toNat := by omega
      have hnone : ¬ ((r.size : Int) ≤ r.dropped ∨
          (Word.maxDistance : Int) - (r.align - 1) < r.resulting) := by omega
      rw [if_neg hn, if_neg hnone, hnew, hkept]
      rfl

/-- The request was stopped by a debug build: a side that only shrinks has
something to prefer. -/
def Stopped (b : Build) (r : Resize) : Prop :=
  b = .debug ∧ ∃ a, r.plan b = .error (.fault (.preferredOnShrink a.preferred)) ∧
    a.preferred ≠ 0 ∧
    ((a = r.front ∧ r.flags.has .shrinkFront = true ∧ r.flags.has .expandFront = false) ∨
      (a = r.back ∧ r.flags.has .shrinkBack = true ∧ r.flags.has .expandBack = false))

/-- **A plan is the decision**, unless a debug build stops the request. -/
theorem plan_eq_decision_or_stopped {r : Resize} (b : Build) (hw : r.InWords) :
    r.plan b = r.decision ∨ r.Stopped b := by
  by_cases ha : r.align.isPowerOfTwo
  · have hplan : r.plan b = (do
        let front ← side b r.flags .shrinkFront .expandFront r.front
        let back ← side b r.flags .shrinkBack .expandBack r.back
        r.join front back) := if_pos ha
    rcases side_cases b r.flags .shrinkFront .expandFront r.front with
      ⟨he, hs, hside⟩ | ⟨he, hs, hp, hside⟩ | ⟨hf, hfront⟩ | ⟨hb, hs, he, hp, hside⟩
    · left
      rw [hplan, hside]
      simp [decision, objection?, objections, List.lookup_cons, ha, he, hs, bind, Except.bind]
    · left
      rw [hplan, hside]
      simp [decision, objection?, objections, List.lookup_cons, ha, he, hs, hp, bind, Except.bind]
    · rcases side_cases b r.flags .shrinkBack .expandBack r.back with
        ⟨he, hs, hside⟩ | ⟨he, hs, hp, hside⟩ | ⟨hb, hback⟩ | ⟨hb, hs, he, hp, hside⟩
      · left
        rw [hplan, hfront, hside]
        simp [decision, objection?, objections, List.lookup_cons, ha, hf.one_way, hf.preferred, he,
          hs, bind, Except.bind]
      · left
        rw [hplan, hfront, hside]
        simp [decision, objection?, objections, List.lookup_cons, ha, hf.one_way, hf.preferred, he,
          hs, hp, bind, Except.bind]
      · left
        rw [hplan, hfront, hback]
        exact join_eq_decision hw ha hf hb _
      · right
        refine ⟨hb, r.back, ?_, hp, Or.inr ⟨rfl, hs, he⟩⟩
        rw [hplan, hfront, hside]
        rfl
    · right
      refine ⟨hb, r.front, ?_, hp, Or.inl ⟨rfl, hs, he⟩⟩
      rw [hplan, hside]
      rfl
  · left
    have hplan : r.plan b = .error (.refused .invalidAlignment) := if_neg ha
    rw [hplan]
    simp [decision, objection?, objections, ha]

/-! ## What a plan promises -/

/-- A plan in exact integers: what it does to the bytes of the block. -/
structure Fitted (r : Resize) (p : Plan) : Prop where
  source : p.source = r.amount .shrinkFront r.front
  target : p.target = r.amount .expandFront r.front
  kept : (p.kept : Int) =
    r.size - r.amount .shrinkFront r.front - r.amount .shrinkBack r.back
  kept_pos : 1 ≤ p.kept
  newSize : p.newSize = r.amount .expandFront r.front + p.kept + r.amount .expandBack r.back
  within_old : p.source + p.kept ≤ r.size
  within_new : p.target + p.kept ≤ p.newSize
  one_sided : p.source = 0 ∨ p.target = 0
  addedBack : p.addedBack = r.amount .expandBack r.back
  spareBack : (p.spareBack : Int) =
    if r.flags.has .expandBack then (r.back.preferred : Int) - r.back.required else 0
  nocopy : p.nocopy = r.flags.has .keepOldNocopy
  layout : ∃ l, Layout.ofSizeAlign? p.newSize r.align = some l

/-- Nothing is said against a request that is right in every respect. -/
theorem objection?_eq_none_iff {r : Resize} :
    r.objection? = none ↔ r.align.isPowerOfTwo ∧
      Orderly r.flags .shrinkFront .expandFront r.front ∧
      Orderly r.flags .shrinkBack .expandBack r.back ∧
      (r.dropped : Int) < r.size ∧ r.resulting ≤ (Word.maxDistance : Int) - (r.align - 1) := by
  simp [objection?, objections, List.lookup_eq_none_iff, orderly_iff, and_assoc]

/-- **A request without objections is fitted** by its plan. -/
theorem decision_fitted {r : Resize} {p : Plan} (h : r.decision = .ok p) : r.Fitted p := by
  unfold decision at h
  cases ho : r.objection? with
  | some e =>
    rw [ho] at h
    cases h
  | none =>
    rw [ho] at h
    obtain rfl : r.outline = p := Except.ok.inj h
    obtain ⟨ha, hf, hb, hlt, hle⟩ := objection?_eq_none_iff.1 ho
    have hsurviving : r.surviving = (r.size : Int) - r.dropped := rfl
    have hdropped : r.dropped = r.amount .shrinkFront r.front + r.amount .shrinkBack r.back := rfl
    have hresulting : r.resulting =
      r.amount .expandFront r.front + r.surviving + r.amount .expandBack r.back := rfl
    have hkept : (r.outline.kept : Int) = r.surviving := Int.toNat_of_nonneg (by omega)
    have hnew : (r.outline.newSize : Int) = r.resulting := Int.toNat_of_nonneg (by omega)
    have hsource : r.outline.source = r.amount .shrinkFront r.front := rfl
    have htarget : r.outline.target = r.amount .expandFront r.front := rfl
    have hone : r.outline.source = 0 ∨ r.outline.target = 0 := by
      simp only [hsource, htarget, amount]
      by_cases he : r.flags.has .expandFront = true
      · have hs : r.flags.has .shrinkFront = false := by
          simpa only [he, Bool.true_and] using hf.one_way
        exact Or.inl (if_neg (Bool.not_eq_true _ ▸ hs))
      · exact Or.inr (if_neg he)
    have hspare : (r.outline.spareBack : Int) =
        if r.flags.has .expandBack then (r.back.preferred : Int) - r.back.required else 0 := by
      show ((if r.flags.has .expandBack then r.back.preferred - r.back.required else 0 : Nat) :
        Int) = _
      by_cases he : r.flags.has .expandBack = true
      · have hpref : ¬ r.back.preferred < r.back.required := by
          simpa only [he, Bool.true_and, decide_eq_false_iff_not] using hb.preferred
        rw [if_pos he, if_pos he]
        omega
      · rw [if_neg he, if_neg he]
        rfl
    have hpos : 0 < r.align := Nat.pos_of_isPowerOfTwo ha
    have hfit : r.outline.newSize ≤ maxSize r.align := by
      unfold maxSize
      omega
    obtain ⟨l, hl, -⟩ := Layout.exists_ofSizeAlign? ha (by omega) hfit
    exact ⟨hsource, htarget, by omega, by omega, by omega, by omega, by omega, hone, rfl, hspare,
      rfl, l, hl⟩

end Resize

/-! ## On a heap -/

namespace Action

variable {κ ρ α β : Type}

/-- A value is passed on. -/
theorem ofExcept_ok_bind (a : α) (f : α → Action κ ρ β) : (ofExcept (.ok a) >>= f) = f a := rfl

/-- A value that is there is passed on. -/
theorem ofOption_some_bind (e : Refusal) (a : α) (f : α → Action κ ρ β) :
    (ofOption e (some a) >>= f) = f a := rfl

end Action

/-- An allocation on a heap is declined for one reason only. -/
theorem Heap.refusal_of_allocate {ρ : Type} [Resource ρ] {b : Build} {l : Layout}
    {s t : Scene Heap ρ} {e : Refusal} (h : allocate b l s = .error (.refused e) t) :
    e = .outOfMemory := by
  obtain ⟨k, w⟩ := s
  rcases w.draw_cases k.zeroed l with ⟨w', hd, -⟩ | ⟨a, w', hd, -⟩
  · rw [allocate_of_none b hd] at h
    cases h
    rfl
  · rw [allocate_apply, hd] at h
    exact absurd h (commits_answer b k.label l a).not_declined

/-- Once it is planned, a resize on a heap is declined for two reasons only: the block
is of a size that it cannot ask about, or the resource declines the new one. -/
theorem Heap.refusal_of_planned {ρ : Type} [Resource ρ] {b : Build} {r : Resize} {p : Plan}
    {s t : Scene Heap ρ} {e : Refusal} (hp : r.plan b = .ok p)
    (hnew : ∃ l, Layout.ofSizeAlign? p.newSize r.align = some l)
    (h : reallocate b r s = .error (.refused e) t) :
    (Layout.ofSizeAlign? r.size r.align = none ∧ e = .infeasibleResize) ∨ e = .outOfMemory := by
  obtain ⟨new, hnew⟩ := hnew
  cases hold : Layout.ofSizeAlign? r.size r.align with
  | none =>
    obtain ⟨k, w⟩ := s
    rw [reallocate_of_no_old w hp hold] at h
    cases h
    exact Or.inl ⟨rfl, rfl⟩
  | some old =>
    right
    unfold reallocate at h
    rw [hp, hold, Action.ofExcept_ok_bind, Action.ofOption_some_bind] at h
    -- the block is looked for, the new one taken, and nothing is declined after that
    rcases Action.bind_eq_error_iff.1 h with h | ⟨k, u, -, h⟩
    · cases h
    rcases Action.bind_eq_error_iff.1 h with h | ⟨-, u, -, h⟩
    · exact absurd h (Action.commits_ofExcept (b.require_ne_refused _ _)).not_declined
    rcases Action.bind_eq_error_iff.1 h with h | ⟨-, u, -, h⟩
    · exact absurd h (commits_check b _ _).not_declined
    rw [hnew, Action.ofOption_some_bind] at h
    rcases Action.bind_eq_error_iff.1 h with h | ⟨a, v, -, h⟩
    · exact refusal_of_allocate h
    · refine absurd h (Action.Commits.not_declined ((commits_move b p _ old _).bind fun _ => ?_))
      exact .bind (Action.ensures_record fun _ => id) fun _ => Action.ensures_pure fun _ => id

/-! ## The decision -/

namespace Resize

/-- **How a request is decided**: in words as in exact numbers, by the first
objection that applies, or else by a plan that fits the block, unless a debug
build stops it for preferring something on a side that only shrinks. A heap that
can ask about the block can then ask for the new one, so that it declines a
planned resize only where the resource does. -/
theorem planWords_decides {r : Resize} (hw : r.InWords) (b : Build) :
    r.planWords b = r.plan b ∧ (r.plan b = r.decision ∨ r.Stopped b) ∧
      ∀ p, r.plan b = .ok p → r.Fitted p ∧
        ∀ (ρ : Type) [Resource ρ] (s t : Scene Heap ρ) (e : Refusal),
          Heap.reallocate b r s = .error (.refused e) t →
            (Layout.ofSizeAlign? r.size r.align = none ∧ e = .infeasibleResize) ∨
              e = .outOfMemory := by
  refine ⟨planWords_eq_plan b hw, plan_eq_decision_or_stopped b hw, fun p hp => ?_⟩
  have hdecision : r.decision = .ok p := by
    rcases plan_eq_decision_or_stopped b hw with h | ⟨-, a, h, -⟩
    · rw [← h, hp]
    · rw [hp] at h
      cases h
  have hfitted := decision_fitted hdecision
  exact ⟨hfitted, fun ρ _ s t e h => Heap.refusal_of_planned hp hfitted.layout h⟩

/-- A block that loses 24 bytes in front and grows at its back to the largest size
of its alignment, with words that leave no room for a carry. -/
def brim : Resize :=
  ⟨0x1000, 100, 16, ⟨24, 0⟩, ⟨maxSize 16 - 76, Word.size - 1⟩,
    Flags.ofList [.shrinkFront, .expandBack]⟩

/-- The largest block of an alignment can be asked for, in one resize. -/
theorem planWords_brim : brim.InWords ∧
    brim.plan .debug = .ok ⟨24, 0, maxSize 16 - 76, Word.size - 1 - (maxSize 16 - 76), 76,
      maxSize 16, false⟩ ∧ brim.planWords .debug = brim.decision ∧
    ∃ l, Layout.ofSizeAlign? (maxSize 16) 16 = some l := by
  have hw : brim.InWords := ⟨by decide, by decide, by decide, by decide, by decide⟩
  obtain ⟨hwords, hdecision, hfit⟩ := planWords_decides hw .debug
  have hplan : brim.plan .debug = .ok ⟨24, 0, maxSize 16 - 76,
      Word.size - 1 - (maxSize 16 - 76), 76, maxSize 16, false⟩ := by decide
  refine ⟨hw, hplan, ?_, (hfit _ hplan).1.layout⟩
  rcases hdecision with h | ⟨-, a, h, -⟩
  · exact hwords.trans h
  · rw [hplan] at h
    cases h

end Resize

end Allocators
