import Mathlib.Data.List.Perm.Basic
import Allocators.Proofs.Planning
import Allocators.Proofs.Faultless
/-!
# Requests described by shorthands

The shorthands set a flag and, where they are about a side, both amounts of
that side. Flags add up and amounts are written over, so a description has
every flag that a step of it sets, and of each side the amounts that the last
step about it gave. Such a request never contradicts what a debug build takes
for granted: a side that only shrinks was last told to shrink, and prefers
nothing. And it depends on each side's steps in their order and on the set of
the others, not on how they are mingled (`edits_eq_of_rearranged`). Main
statement: `Resize.shorthands_plan`.
-/

namespace Allocators

open List (Perm)

/-- A step by which the shell describes a resize: a shorthand for a side, or a
flag that concerns neither. -/
def Edit.Shorthand : Edit → Prop
  | .expandFront _ _ => True
  | .expandBack _ _ => True
  | .shrinkFront _ => True
  | .shrinkBack _ => True
  | .keepOldNocopy => True
  | .tryDefragment => True
  | _ => False

/-! ## What a side prefers -/

namespace Resize

variable {r : Resize} {e : Edit} {es : List Edit}

/-- A side that does not grow prefers nothing. -/
structure Modest (r : Resize) : Prop where
  front : r.flags.has .expandFront = false → r.front.preferred = 0
  back : r.flags.has .expandBack = false → r.back.preferred = 0

/-- Then a side that only shrinks does not either. -/
theorem Modest.sensible (h : r.Modest) : r.Sensible := ⟨fun _ => h.front, fun _ => h.back⟩

/-- A block as it is prefers nothing. -/
theorem modest_ofBlock (address size align : Nat) : (ofBlock address size align).Modest :=
  ⟨fun _ => rfl, fun _ => rfl⟩

/-- A flag that is asked for is set, and the others are as before. -/
theorem has_withFlag (r : Resize) (f g : ResizeFlag) :
    (r.withFlag f).flags.has g = (r.flags.has g || decide (f.ctorIdx = g.ctorIdx)) := by
  unfold withFlag
  rw [Flags.has_union, Flags.has_single (ResizeFlag.bit_lt f)]
  rfl

/-- A shorthand leaves the request modest. -/
theorem Modest.edit (h : r.Modest) (he : e.Shorthand) : (r.edit e).Modest := by
  obtain ⟨hf, hb⟩ := h
  have hkeep : ∀ f g, (r.withFlag f).flags.has g = false → r.flags.has g = false := by
    intro f g hg
    rw [has_withFlag, Bool.or_eq_false_iff] at hg
    exact hg.1
  have hset : ∀ f, (r.withFlag f).flags.has f ≠ false := by
    intro f hg
    simp [has_withFlag] at hg
  cases e with
  | expandFront n p => exact ⟨fun hg => absurd hg (hset _), fun hg => hb (hkeep _ _ hg)⟩
  | expandBack n p => exact ⟨fun hg => hf (hkeep _ _ hg), fun hg => absurd hg (hset _)⟩
  | shrinkFront n => exact ⟨fun _ => rfl, fun hg => hb (hkeep _ _ hg)⟩
  | shrinkBack n => exact ⟨fun hg => hf (hkeep _ _ hg), fun _ => rfl⟩
  | keepOldNocopy => exact ⟨fun hg => hf (hkeep _ _ hg), fun hg => hb (hkeep _ _ hg)⟩
  | tryDefragment => exact ⟨fun hg => hf (hkeep _ _ hg), fun hg => hb (hkeep _ _ hg)⟩
  | _ => exact he.elim

/-- And so do any number of them. -/
theorem Modest.edits (h : r.Modest) (hes : ∀ e ∈ es, e.Shorthand) : (r.edits es).Modest := by
  induction es generalizing r with
  | nil => exact h
  | cons e es ih =>
    exact ih (h.edit (hes e List.mem_cons_self)) fun e' he' => hes e' (List.mem_cons_of_mem _ he')

/-- A description is about the block it started with. -/
theorem edits_block (r : Resize) (es : List Edit) :
    (r.edits es).address = r.address ∧ (r.edits es).size = r.size ∧
      (r.edits es).align = r.align := by
  induction es generalizing r with
  | nil => exact ⟨rfl, rfl, rfl⟩
  | cons e es ih =>
    obtain ⟨ha, hs, hal⟩ := ih (r.edit e)
    have he : (r.edit e).address = r.address ∧ (r.edit e).size = r.size ∧
        (r.edit e).align = r.align := by
      cases e <;> exact ⟨rfl, rfl, rfl⟩
    exact ⟨ha.trans he.1, hs.trans he.2.1, hal.trans he.2.2⟩

end Resize

/-! ## What a description adds up to -/

/-- The sides of a block. -/
inductive Side where
  | front
  | back
deriving DecidableEq

namespace Side

/-- The flag by which a side is to shrink. -/
def shrink : Side → ResizeFlag
  | front => .shrinkFront
  | back => .shrinkBack

/-- The flag by which it is to grow. -/
def expand : Side → ResizeFlag
  | front => .expandFront
  | back => .expandBack

end Side

namespace Edit

/-- The side that a step is about; a step about the flags is about neither. -/
def side? : Edit → Option Side
  | requiredFront _ | preferredFront _ | expandFront _ _ | shrinkFront _ => some .front
  | requiredBack _ | preferredBack _ | expandBack _ _ | shrinkBack _ => some .back
  | flags _ | keepOldNocopy | tryDefragment => none

/-- The flag that a shorthand sets. -/
def flag? : Edit → Option ResizeFlag
  | expandFront _ _ => some .expandFront
  | expandBack _ _ => some .expandBack
  | shrinkFront _ => some .shrinkFront
  | shrinkBack _ => some .shrinkBack
  | keepOldNocopy => some .keepOldNocopy
  | tryDefragment => some .tryDefragment
  | _ => none

/-- The numbers of a step are words. -/
def InWords : Edit → Prop
  | requiredFront n | requiredBack n | preferredFront n | preferredBack n => n < Word.size
  | expandFront n p | expandBack n p => n < Word.size ∧ p < Word.size
  | shrinkFront n | shrinkBack n => n < Word.size
  | flags _ | keepOldNocopy | tryDefragment => True

end Edit

namespace Resize

variable {r : Resize} {e : Edit} {es : List Edit} {side : Side}

/-- What is asked of a side. -/
def amounts (r : Resize) : Side → Amounts
  | .front => r.front
  | .back => r.back

/-- A step about something else leaves a side as it is. -/
theorem amounts_edit_of_ne (h : e.side? ≠ some side) :
    (r.edit e).amounts side = r.amounts side := by
  cases e <;> cases side <;> first | rfl | exact absurd rfl h

/-- What a step makes of its side depends on that side alone. -/
theorem amounts_edit_congr {r' : Resize} (h : r.amounts side = r'.amounts side) :
    (r.edit e).amounts side = (r'.edit e).amounts side := by
  cases side <;> simp only [amounts] at h <;> cases e <;> simp only [edit, amounts, withFlag, h]

/-- **A side is what its own steps make of it.** -/
theorem amounts_edits (r : Resize) (es : List Edit) (side : Side) :
    (r.edits es).amounts side =
      (r.edits (es.filter fun e => e.side? = some side)).amounts side := by
  suffices h : ∀ r r' : Resize, r.amounts side = r'.amounts side → (r.edits es).amounts side =
      (r'.edits (es.filter fun e => e.side? = some side)).amounts side from h r r rfl
  induction es with
  | nil => exact fun _ _ h => h
  | cons e es ih =>
    intro r r' h
    by_cases he : e.side? = some side
    · rw [List.filter_cons_of_pos (by simpa using he)]
      exact ih _ _ (amounts_edit_congr h)
    · rw [List.filter_cons_of_neg (by simpa using he)]
      exact ih _ _ ((amounts_edit_of_ne he).trans h)

/-- A shorthand sets its flag. -/
theorem exists_flag (he : e.Shorthand) :
    ∃ f, e.flag? = some f ∧ ∀ r : Resize, (r.edit e).flags = r.flags.union (Flags.single f) := by
  cases e <;> first | exact ⟨_, rfl, fun _ => rfl⟩ | exact he.elim

/-- **The flags of a description** are those that its steps set. -/
theorem flags_edits (r : Resize) (hes : ∀ e ∈ es, e.Shorthand) :
    (r.edits es).flags =
      (es.filterMap Edit.flag?).foldl (fun s f => s.union (Flags.single f)) r.flags := by
  induction es generalizing r with
  | nil => rfl
  | cons e es ih =>
    obtain ⟨f, hf, hflags⟩ := exists_flag (hes e List.mem_cons_self)
    rw [List.filterMap_cons_some hf, List.foldl_cons, ← hflags]
    exact ih (r.edit e) fun e' he' => hes e' (List.mem_cons_of_mem _ he')

/-- A flag stays set. -/
theorem has_edits_of_has {f : ResizeFlag} (hes : ∀ e ∈ es, e.Shorthand)
    (h : r.flags.has f = true) : (r.edits es).flags.has f = true := by
  induction es generalizing r with
  | nil => exact h
  | cons e es ih =>
    obtain ⟨g, -, hflags⟩ := exists_flag (hes e List.mem_cons_self)
    refine ih (fun e' he' => hes e' (List.mem_cons_of_mem _ he')) ?_
    rw [hflags, Flags.has_union, h, Bool.true_or]

/-- So a description has the flag of every step in it. -/
theorem has_edits_of_mem {f : ResizeFlag} (hes : ∀ e ∈ es, e.Shorthand) (he : e ∈ es)
    (hf : e.flag? = some f) : (r.edits es).flags.has f = true := by
  obtain ⟨before, after, rfl⟩ := List.append_of_mem he
  obtain ⟨g, hg, hflags⟩ := exists_flag (hes e he)
  obtain rfl : g = f := Option.some.inj (hg.symm.trans hf)
  have hafter : ∀ e' ∈ after, e'.Shorthand := fun e' he' => hes e' (by simp [he'])
  show ((before ++ e :: after).foldl edit r).flags.has g = true
  rw [List.foldl_append, List.foldl_cons]
  refine has_edits_of_has hafter ?_
  rw [hflags, Flags.has_union, Flags.has_single (ResizeFlag.bit_lt g), decide_eq_true rfl,
    Bool.or_true]

/-- Numbers that are words stay words. -/
theorem InWords.edit (h : r.InWords) (he : e.InWords) : (r.edit e).InWords := by
  obtain ⟨ha, hs, hal, ⟨hf, hpf⟩, hb, hpb⟩ := h
  cases e with
  | requiredFront n => exact ⟨ha, hs, hal, ⟨he, hpf⟩, hb, hpb⟩
  | requiredBack n => exact ⟨ha, hs, hal, ⟨hf, hpf⟩, he, hpb⟩
  | preferredFront n => exact ⟨ha, hs, hal, ⟨hf, he⟩, hb, hpb⟩
  | preferredBack n => exact ⟨ha, hs, hal, ⟨hf, hpf⟩, hb, he⟩
  | expandFront n p => exact ⟨ha, hs, hal, he, hb, hpb⟩
  | expandBack n p => exact ⟨ha, hs, hal, ⟨hf, hpf⟩, he⟩
  | shrinkFront n => exact ⟨ha, hs, hal, ⟨he, Nat.zero_lt_of_lt he⟩, hb, hpb⟩
  | shrinkBack n => exact ⟨ha, hs, hal, ⟨hf, hpf⟩, he, Nat.zero_lt_of_lt he⟩
  | _ => exact ⟨ha, hs, hal, ⟨hf, hpf⟩, hb, hpb⟩

/-- However many steps there are. -/
theorem InWords.edits (h : r.InWords) (hes : ∀ e ∈ es, e.InWords) : (r.edits es).InWords := by
  induction es generalizing r with
  | nil => exact h
  | cons e es ih =>
    exact ih (h.edit (hes e List.mem_cons_self)) fun e' he' => hes e' (List.mem_cons_of_mem _ he')

end Resize

/-! ## The order of the steps -/

/-- The same steps in another order: those about one side keep theirs, and those
about neither may change places. -/
structure Rearranged (es es' : List Edit) : Prop where
  sides : ∀ side : Side,
    es.filter (fun e => e.side? = some side) = es'.filter fun e => e.side? = some side
  others : (es.filter fun e => e.side? = none).Perm (es'.filter fun e => e.side? = none)

/-- Steps, sorted by what they are about. -/
theorem perm_by_side (es : List Edit) :
    es.Perm (es.filter (fun e => e.side? = some .front) ++
      (es.filter (fun e => e.side? = some .back) ++ es.filter fun e => e.side? = none)) := by
  induction es with
  | nil => exact Perm.refl _
  | cons e es ih =>
    rcases he : e.side? with - | side
    · simp only [List.filter_cons, he, reduceCtorEq, decide_false, Bool.false_eq_true, if_false,
        decide_true, if_true]
      exact (ih.cons e).trans (List.perm_middle.symm.trans (List.perm_middle.symm.append_left _))
    · cases side with
      | front => simpa [he] using ih.cons e
      | back =>
        simp only [List.filter_cons, he, Option.some.injEq, reduceCtorEq, decide_false,
          Bool.false_eq_true, if_false, decide_true, if_true]
        exact (ih.cons e).trans List.perm_middle.symm

namespace Rearranged

variable {es es' : List Edit}

/-- They are the same steps. -/
theorem perm (h : Rearranged es es') : es.Perm es' := by
  refine (perm_by_side es).trans (Perm.trans ?_ (perm_by_side es').symm)
  rw [h.sides .front, h.sides .back]
  exact (h.others.append_left _).append_left _

/-- A step about a side may be moved past one that is not about it. -/
theorem swap {e e' : Edit} (h : e.side? ≠ e'.side?) (before after : List Edit) :
    Rearranged (before ++ e :: e' :: after) (before ++ e' :: e :: after) := by
  refine ⟨fun side => ?_, ?_⟩
  · by_cases he : e.side? = some side
    · have he' : e'.side? ≠ some side := fun he' => h (he.trans he'.symm)
      simp [he, he']
    · simp [List.filter_cons, he]
  · by_cases he : e.side? = none
    · have he' : e'.side? ≠ none := fun he' => h (he.trans he'.symm)
      simp [he, he']
    · simp [List.filter_cons, he]

end Rearranged

namespace Resize

/-- **Rearranged shorthands describe the same request.** -/
theorem edits_eq_of_rearranged {es es' : List Edit} (r : Resize) (hes : ∀ e ∈ es, e.Shorthand)
    (h : Rearranged es es') : r.edits es' = r.edits es := by
  have hes' : ∀ e ∈ es', e.Shorthand := fun e he => hes e (h.perm.mem_iff.2 he)
  have hsides : ∀ side, (r.edits es').amounts side = (r.edits es).amounts side := by
    intro side
    rw [amounts_edits, ← h.sides, ← amounts_edits]
  have hflags : (r.edits es').flags = (r.edits es).flags := by
    -- a union takes the flags in any order
    have hcomm : ∀ (s : ResizeFlags) (f g : ResizeFlag),
        (s.union (Flags.single f)).union (Flags.single g) =
          (s.union (Flags.single g)).union (Flags.single f) := by
      intro s f g
      simp only [Flags.union, BitVec.or_assoc, BitVec.or_comm (Flags.single f).bits]
    rw [flags_edits r hes, flags_edits r hes']
    exact (h.perm.filterMap Edit.flag?).symm.foldl_eq' (fun f _ g _ s => hcomm s f g) r.flags
  obtain ⟨ha, hs, hal⟩ := edits_block r es
  obtain ⟨ha', hs', hal'⟩ := edits_block r es'
  have hfront : (r.edits es').front = (r.edits es).front := hsides .front
  have hback : (r.edits es').back = (r.edits es).back := hsides .back
  generalize r.edits es = q at *
  generalize r.edits es' = q' at *
  obtain ⟨address, size, align, front, back, flags⟩ := q
  obtain ⟨address', size', align', front', back', flags'⟩ := q'
  simp only at ha hs hal ha' hs' hal' hfront hback hflags
  rw [ha', hs', hal', ← ha, ← hs, ← hal, hfront, hback, hflags]

/-! ## The plan -/

/-- A side that is told both to grow and to shrink is objected to. -/
theorem decision_of_torn {r : Resize} {side : Side} (he : r.flags.has side.expand = true)
    (hs : r.flags.has side.shrink = true) : ∃ e, r.decision = .error (.refused e) := by
  have hboth : (r.flags.has side.expand && r.flags.has side.shrink) = true := by
    rw [he, hs, Bool.and_self]
  unfold decision
  cases ho : r.objection? with
  | some e => exact ⟨e, rfl⟩
  | none =>
    obtain ⟨-, hf, hb, -⟩ := objection?_eq_none_iff.1 ho
    cases side with
    | front => exact absurd (hboth.symm.trans hf.one_way) (by decide)
    | back => exact absurd (hboth.symm.trans hb.one_way) (by decide)

/-- **What shorthands describe can be planned.** Whatever the block and the numbers,
as long as they are words: no build finds fault with the request, and the machine's
plan is the exact one; a side that is told both to grow and to shrink, by any two
steps, is refused; and neither the request nor its plan depends on how the steps
about one side are mingled with those about the other and with the rest. -/
theorem shorthands_plan {address size align : Nat} {es : List Edit}
    (hr : (ofBlock address size align).InWords) (hes : ∀ e ∈ es, e.Shorthand)
    (hw : ∀ e ∈ es, e.InWords) :
    (∀ b, ((ofBlock address size align).edits es).planWords b =
        ((ofBlock address size align).edits es).plan b ∧
      ((ofBlock address size align).edits es).plan b =
        ((ofBlock address size align).edits es).decision ∧
      ∀ f, ((ofBlock address size align).edits es).planWords b ≠ .error (.fault f)) ∧
    (∀ side : Side, (∃ e ∈ es, e.flag? = some side.expand) →
      (∃ e ∈ es, e.flag? = some side.shrink) →
      ∀ b, ∃ e, ((ofBlock address size align).edits es).planWords b = .error (.refused e)) ∧
    ∀ es', Rearranged es es' → ∀ b, ((ofBlock address size align).edits es').planWords b =
      ((ofBlock address size align).edits es).planWords b := by
  have hwords := hr.edits hw
  have hsensible := ((modest_ofBlock address size align).edits hes).sensible
  have hplan : ∀ b, ((ofBlock address size align).edits es).planWords b =
      ((ofBlock address size align).edits es).plan b := fun b => planWords_eq_plan b hwords
  have hdecision : ∀ b, ((ofBlock address size align).edits es).plan b =
      ((ofBlock address size align).edits es).decision := by
    intro b
    refine (plan_eq_decision_or_stopped b hwords).resolve_right ?_
    rintro ⟨-, a, hfault, -⟩
    exact hsensible.plan_ne_fault b _ hfault
  refine ⟨fun b => ⟨hplan b, hdecision b, fun f => ?_⟩, ?_, fun es' h b => ?_⟩
  · rw [hplan]
    exact hsensible.plan_ne_fault b f
  · rintro side ⟨grow, hgrow, hexpand⟩ ⟨drop, hdrop, hshrink⟩ b
    rw [hplan, hdecision]
    exact decision_of_torn (has_edits_of_mem hes hgrow hexpand)
      (has_edits_of_mem hes hdrop hshrink)
  · rw [edits_eq_of_rearranged _ hes h]

/-- A front that is told to grow long after it was told to shrink, with the largest
word to prefer at the back in between. -/
def torn : List Edit :=
  [.shrinkFront 24, .expandBack 8 (Word.size - 1), .tryDefragment, .expandFront 8 16]

/-- It is refused, and just so with the last step moved past the one before it. -/
theorem shorthands_plan_torn : (∃ e, ((ofBlock 0x1000 100 16).edits torn).planWords .debug =
      .error (.refused e)) ∧
    ((ofBlock 0x1000 100 16).edits [.shrinkFront 24, .expandBack 8 (Word.size - 1),
        .expandFront 8 16, .tryDefragment]).planWords .debug =
      ((ofBlock 0x1000 100 16).edits torn).planWords .debug := by
  have hr : (ofBlock 0x1000 100 16).InWords :=
    ⟨by decide, by decide, by decide, by decide, by decide⟩
  have hes : ∀ e ∈ torn, e.Shorthand := by simp [torn, Edit.Shorthand]
  have hw : ∀ e ∈ torn, e.InWords := by simp [torn, Edit.InWords, Word.size]
  obtain ⟨-, hrefused, hmingled⟩ := shorthands_plan hr hes hw
  exact ⟨hrefused .front ⟨.expandFront 8 16, by simp [torn], rfl⟩
      ⟨.shrinkFront 24, by simp [torn], rfl⟩ .debug,
    hmingled _ (Rearranged.swap (by decide) [.shrinkFront 24, .expandBack 8 (Word.size - 1)] [])
      .debug⟩

end Resize

end Allocators
