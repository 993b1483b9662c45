import Allocators.Proofs.Replay
/-!
# A stack is last in, first out

A stack does not store which block is on top: it looks whether a block
ends at the cursor, and finds the cursor from before in a word that lies
among its callers' data. Beside the list of its live blocks, latest
first, it is a stack all the same (`Reachable.lifo_of_stack`): a block is resized
or freed just when no later one is live, and to free it sets the cursor
back to where it stood before the block was allocated.
-/

namespace Allocators

open Trace

/-- A stack with its cursor somewhere else. -/
def Buffer.withCursor (s : Buffer) (cursor : Nat) : Buffer :=
  { s with region := { s.region with cursor := cursor } }

namespace Custody

variable {ρ : Type} [Resource ρ]

/-- What a stack does with a block, by whether later blocks are live: `newer`
are those, `older` the earlier ones. -/
structure Lifo (b : Build) (w : World ρ) (c : Custody) (s : Buffer) (newer : List Holding)
    (x : Holding) (older : List Holding) : Prop where
  /-- A resize that is a plan is declined as not on top just for a block
  with a later one. -/
  resize : ∀ r plan, r.Describes x.toBlock → r.plan b = .ok plan →
    ((∃ u, act b (.call (.reallocate r)) ⟨c, w⟩ = .error (.refused .notStackTop) u) ↔ newer ≠ [])
  /-- The latest block is freed: it leaves the list, and the cursor goes
  back. -/
  free : newer = [] → ∀ l, l.size = x.size → ∃ w',
    act b (.call (.deallocate x.address l)) ⟨c, w⟩ =
      .ok .done ⟨⟨.stack (s.withCursor x.mark), older, c.pending⟩, w'⟩ ∧ w'.memory = w.memory
  /-- Any other block is not freed: a debug build finds fault, and a release
  build leaves everything as it was, but for a notice. -/
  keep : newer ≠ [] → ∀ l, l.size = x.size →
    act b (.call (.deallocate x.address l)) ⟨c, w⟩ =
      match b with
      | .debug => .error (.fault (.notTop s.label x.address)) ⟨c, w⟩
      | .release => .ok .done
          ⟨c, w.record (.noted (some s.label) (.freeBelowTop x.address))⟩

/-- A stack that is in order is last in, first out. -/
theorem lifo_of_sound {b : Build} {w : World ρ} {s : Buffer} {newer older : List Holding}
    {x : Holding} {pending : List Registration}
    (hs : s.Sound Stack.header w.memory (newer ++ x :: older) pending) :
    Lifo b w ⟨.stack s, newer ++ x :: older, pending⟩ s newer x older where
  resize := by
    intro r plan hr hp
    constructor
    · rintro ⟨u, hu⟩ rfl
      rcases Stack.reallocate_top hs hr hp with h | ⟨size, start, s', w', h, -⟩
      · cases hu.symm.trans (act_of_error rfl h)
      · cases hu.symm.trans (act_of_ok rfl h)
    · exact fun hn => ⟨_, act_of_error rfl (Stack.reallocate_under hs hn hr hp)⟩
  free := by
    rintro rfl l hl
    refine ⟨w.record (.noted (some s.label) (.popped l.size x.address)), ?_, rfl⟩
    rw [act_of_ok rfl (Stack.deallocate_top hs b hl)]
    simp only [answered, Allocator.freed, List.nil_append, if_pos]
    rfl
  keep := by
    intro hn l hl
    have h := Stack.deallocate_under hs hn b hl
    cases b with
    | debug => exact act_of_error rfl h
    | release =>
      refine (act_of_ok rfl h).trans ?_
      -- the block on top starts elsewhere, so the list stays as it is
      obtain ⟨y, newer, rfl⟩ := List.exists_cons_of_ne_nil hn
      have hlt := hs.piled.end_le (y := y) List.mem_cons_self
      have hpos := (hs.shaped x (by simp)).2
      simp only [answered, Allocator.freed, List.cons_append]
      rw [if_neg (by omega)]

end Custody

namespace Estate

variable {ρ : Type} [Resource ρ] {b : Build} {E : Estate ρ}

/-- **Every stack of every reachable state is last in, first out.** -/
theorem Reachable.lifo_of_stack (h : Reachable b E) {t : Tenant} (ht : t ∈ E.tenants) {s : Buffer}
    (hs : t.allocator = .stack s) {newer older : List Holding} {x : Holding}
    (hl : t.live = newer ++ x :: older) : t.Lifo b E.world s newer x older := by
  have hsound := h.sound.sound t ht
  obtain ⟨⟨k, live, pending⟩, made⟩ := t
  cases hs
  cases hl
  exact Custody.lifo_of_sound hsound

/-- The two blocks of the sample's stack: the upper one can be freed, and
the lower one cannot. -/
theorem lifo_of_stack_sample : ∃ t ∈ (sample .release).tenants, ∃ s x y, t.allocator = .stack s ∧
    t.live = [y, x] ∧ x.mark = 0 ∧ y.mark = 40 ∧
    t.Lifo .release (sample .release).world s [] y [x] ∧
    t.Lifo .release (sample .release).world s [y] x [] :=
  have ht := List.getElem_mem (l := (sample .release).tenants) (n := 1) (by decide)
  ⟨_, ht, _, _, _, rfl, rfl, rfl, rfl,
    (reachable_sample .release).lifo_of_stack ht rfl rfl,
    (reachable_sample .release).lifo_of_stack ht rfl rfl⟩

end Estate

end Allocators
