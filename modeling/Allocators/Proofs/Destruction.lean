import Allocators.Proofs.Replay
import Allocators.Proofs.Tally
/-!
# Callbacks run once, newest first

The calls on record tell which callbacks still have to run: those that have
been registered since the last clear that came through to a stack or an arena.
If all callbacks return, each clear runs just those, newest first, dropping the
allocator runs what is left, and nothing else runs any. That is so for every
kind, in either build: `Chronicle.callbacks_run_once_newest_first`.
-/

namespace Allocators

open Trace

variable {ρ : Type} {b : Build} {kind : AllocatorKind}

/-! ## What the record says -/

/-- Whether the deed, done through the nest, clears allocators of the kind. -/
def AllocatorKind.clears (kind : AllocatorKind) (nest : List Restriction) : Deed → Bool
  | .call .clear => !kind.isHeap && decide (Restriction.noClear ∉ nest)
  | _ => false

/-- The callback that the deed has registered, if it ended so. -/
def Deed.registered? : Deed → Except Failure Reply → Option (Nat × Handler)
  | .call (.register data h), .ok _ => some (data, h)
  | _, _ => none

/-- The callbacks that have been registered, latest first. -/
def registeredIn (pages : List Page) : List (Nat × Handler) :=
  pages.filterMap fun p => p.deed.registered? p.outcome

/-- The callbacks that have been registered since the last clear, latest
first. -/
def awaiting (kind : AllocatorKind) : List Page → List (Nat × Handler)
  | [] => []
  | p :: older =>
    if kind.clears p.nest p.deed then
      []
    else
      (p.deed.registered? p.outcome).toList ++ awaiting kind older

/-- The callbacks that have run. -/
def ranIn (pages : List Page) : List Nat := pages.flatMap fun p => invoked p.events

/-- The deed ran what was due: a clear runs the callbacks that await it,
latest first, and reports their number, and any other deed runs none. -/
def Page.Due (kind : AllocatorKind) (older : List Page) (p : Page) : Prop :=
  if kind.clears p.nest p.deed then
    p.outcome = .ok .done ∧ invoked p.events = (awaiting kind older).map Prod.fst ∧
      reported p.events = [(awaiting kind older).length]
  else
    invoked p.events = []

/-- Every deed ran what was due after the ones before it. -/
def AllDue (kind : AllocatorKind) : List Page → Prop
  | [] => True
  | p :: older => p.Due kind older ∧ AllDue kind older

/-- Of the callbacks that awaited it each clear ran those that `f` picks out,
and no other deed ran any. -/
def AllRan (f : List (Nat × Handler) → List (Nat × Handler)) (kind : AllocatorKind) :
    List Page → Prop
  | [] => True
  | p :: older =>
    invoked p.events =
        (if kind.clears p.nest p.deed then (f (awaiting kind older)).map Prod.fst else []) ∧
      AllRan f kind older

/-- Of the callbacks that awaited a clear those that `g` picks out, for every
clear, latest first. -/
def passedOver (g : List (Nat × Handler) → List (Nat × Handler)) (kind : AllocatorKind) :
    List Page → List (Nat × Handler)
  | [] => []
  | p :: older =>
    (if kind.clears p.nest p.deed then g (awaiting kind older) else []) ++ passedOver g kind older

section Pages

variable {p : Page} {pages older : List Page} {nest : List Restriction} {d : Deed}

/-- A call adds the callback that it registers. -/
theorem registeredIn_cons (p : Page) (older : List Page) :
    registeredIn (p :: older) = (p.deed.registered? p.outcome).toList ++ registeredIn older := by
  rw [registeredIn, List.filterMap_cons]
  cases p.deed.registered? p.outcome <;> rfl

/-- What has been registered before stays so. -/
theorem registeredIn_subset_cons (p : Page) (older : List Page) :
    registeredIn older ⊆ registeredIn (p :: older) := by
  rw [registeredIn_cons]
  exact List.subset_append_right _ _

/-- What awaits its run has been registered. -/
theorem awaiting_subset (kind : AllocatorKind) (pages : List Page) :
    awaiting kind pages ⊆ registeredIn pages := by
  induction pages with
  | nil => exact List.Subset.refl _
  | cons p older ih =>
    rw [awaiting]
    split
    · exact List.nil_subset _
    · refine List.append_subset.2 ⟨?_, List.Subset.trans ih (registeredIn_subset_cons p older)⟩
      rw [registeredIn_cons]
      exact List.subset_append_left _ _

/-- What clears is a clear that is not kept from its allocator. -/
theorem AllocatorKind.clears_iff : kind.clears nest d = true ↔
    d = .call .clear ∧ kind.isHeap = false ∧ Restriction.noClear ∉ nest := by
  cases d with
  | write start len f => exact ⟨nofun, nofun⟩
  | call call =>
    cases call with
    | clear => simp [clears]
    | _ => exact ⟨nofun, nofun⟩

/-- A deed that is kept from its allocator does not clear it. -/
theorem AllocatorKind.not_clears_of_silences (h : Restriction.Silences nest d) :
    ¬ kind.clears nest d = true := by
  intro hc
  obtain ⟨rfl, -, hn⟩ := clears_iff.1 hc
  exact hn h

/-- Nor does it register a callback. -/
theorem Deed.registered?_of_silences (h : Restriction.Silences nest d)
    (out : Except Failure Reply) : d.registered? out = none := by
  rcases d with (_ | _ | _ | _ | _ | ⟨data, f⟩) | _ <;> first | rfl | exact h.elim

/-- **What has been registered has run, awaits its run, or was passed over**,
each once, if clears run what they do not pass over. -/
theorem AllRan.perm {f g : List (Nat × Handler) → List (Nat × Handler)}
    (hfg : ∀ cs, f cs ++ g cs = cs) (h : AllRan f kind pages) :
    (ranIn pages ++ (awaiting kind pages ++ passedOver g kind pages).map Prod.fst).Perm
      ((registeredIn pages).map Prod.fst) := by
  induction pages with
  | nil => exact .refl _
  | cons p older ih =>
    have hran : ranIn (p :: older) = invoked p.events ++ ranIn older := List.flatMap_cons
    have ih := ih h.2
    rw [hran, h.1, awaiting, passedOver, registeredIn_cons]
    refine List.perm_iff_count.2 fun d => ?_
    have hd := ih.count_eq d
    by_cases hc : kind.clears p.nest p.deed = true
    · have hnone : p.deed.registered? p.outcome = none := by
        rw [(AllocatorKind.clears_iff.1 hc).1]
        rfl
      -- what awaited the clear is split in two
      rw [← hfg (awaiting kind older)] at hd
      simp only [if_pos hc, hnone, Option.toList_none, List.nil_append, List.map_append,
        List.count_append] at hd ⊢
      omega
    · simp only [if_neg hc, List.nil_append, List.map_append, List.count_append] at hd ⊢
      omega

/-- What is due is everything that awaits a clear. -/
theorem AllDue.allRan (h : AllDue kind pages) : AllRan id kind pages := by
  induction pages with
  | nil => exact trivial
  | cons p older ih =>
    obtain ⟨hdue, hrest⟩ := h
    unfold Page.Due at hdue
    refine ⟨?_, ih hrest⟩
    by_cases hc : kind.clears p.nest p.deed = true
    · rw [if_pos hc] at hdue ⊢
      exact hdue.2.1
    · rw [if_neg hc] at hdue ⊢
      exact hdue

/-- Then nothing is passed over. -/
theorem passedOver_nil (kind : AllocatorKind) (pages : List Page) :
    passedOver (fun _ => []) kind pages = [] := by
  induction pages with
  | nil => rfl
  | cons p older ih => rw [passedOver, ih, ite_self, List.append_nil]

/-- **What has been registered has run or awaits its run**, each once. -/
theorem AllDue.perm (h : AllDue kind pages) :
    (ranIn pages ++ (awaiting kind pages).map Prod.fst).Perm
      ((registeredIn pages).map Prod.fst) := by
  have hp := h.allRan.perm (g := fun _ => []) List.append_nil
  rwa [passedOver_nil, List.append_nil] at hp

end Pages

/-! ## One deed -/

variable [Resource ρ]

namespace Custody

variable {nest : List Restriction} {d : Deed} {c : Custody} {call : Call} {w : World ρ}

/-- A clear lets go of the callbacks that are registered, if it comes to a
buffer. -/
theorem pending_act_clear (b : Build) (c : Custody) (w : World ρ) :
    (Action.ended (act b (.call .clear) ⟨c, w⟩)).2.allocator.pending =
      if c.allocator.isHeap then c.pending else [] := by
  unfold act
  simp only
  cases Restriction.perform b [] .clear ⟨c.allocator, w⟩ with
  | ok reply t => exact apply_ite Custody.pending _ _ _
  | error e t => rfl

/-- Any other call leaves them, with the one that it registers in front. -/
theorem pending_act (hc : call ≠ .clear) (b : Build) (c : Custody) (w : World ρ) :
    let r := Action.ended (act b (.call call) ⟨c, w⟩)
    r.2.allocator.pending.map Registration.callback =
      ((Deed.call call).registered? r.1).toList ++ c.pending.map Registration.callback := by
  unfold act
  simp only
  cases Restriction.perform b [] call ⟨c.allocator, w⟩ with
  | ok reply t =>
    cases call with
    | clear => exact absurd rfl hc
    | register data h => rfl
    | deallocate a l => rfl
    | allocate l => cases reply <;> rfl
    | allocateBytes size => cases reply <;> rfl
    | reallocate r => cases reply <;> rfl
  | error e t =>
    cases call with
    | clear => exact absurd rfl hc
    | _ => rfl

/-- **A clear lets go of the callbacks** that are registered, a registration
puts one in front of them, and no other deed changes them. -/
theorem pending_deal (hk : c.allocator.isHeap = kind.isHeap) (b : Build)
    (nest : List Restriction) (d : Deed) (w : World ρ) :
    let r := Action.ended (deal b nest d ⟨c, w⟩)
    r.2.allocator.pending.map Registration.callback =
      if kind.clears nest d then [] else
        (d.registered? r.1).toList ++ c.pending.map Registration.callback := by
  intro r
  subst r
  by_cases hs : Restriction.Silences nest d
  · rw [deal_of_silences hs, if_neg (AllocatorKind.not_clears_of_silences hs)]
    simp only [Action.ended, Deed.registered?_of_silences hs, Option.toList_none, List.nil_append]
  · rw [deal_of_not_silences hs]
    cases d with
    | write start len f => rfl
    | call call =>
      by_cases hcl : call = .clear
      · subst hcl
        have hn : Restriction.noClear ∉ nest := hs
        have hc : kind.clears nest (.call .clear) = !c.allocator.isHeap := by
          rw [hk, AllocatorKind.clears, decide_eq_true hn, Bool.and_true]
        simp only [pending_act_clear, hc]
        cases c.allocator.isHeap <;> rfl
      · have hc : ¬ kind.clears nest (.call call) = true := fun hc =>
          hcl (Deed.call.inj (AllocatorKind.clears_iff.1 hc).1)
        rw [if_neg hc]
        exact pending_act hcl b c w

/-- **Only a clear of a buffer runs callbacks.** -/
theorem runsNone_deal (hk : c.allocator.isHeap = kind.isHeap) (hc : ¬ kind.clears nest d = true)
    (b : Build) (w : World ρ) :
    RunsNone w.events (Action.ended (deal b nest d ⟨c, w⟩)).2.world.events := by
  have hnil : RunsNone w.events w.events := ⟨[], .refl _⟩
  cases d with
  | write start len f => exact hnil
  | call call =>
    by_cases hs : Restriction.Silences nest (.call call)
    · rw [deal_of_silences hs]
      exact hnil.cons rfl
    · by_cases hcl : call = .clear
      · -- it is a heap that is asked to clear, and does not
        subst hcl
        obtain ⟨k, live, pending⟩ := c
        rw [deal_of_not_silences hs]
        cases k with
        | heap s =>
          have h := Heap.clear_apply b s w
          cases b with
          | debug =>
            rw [act_of_error (g := fun _ => .done) rfl h]
            exact hnil
          | release =>
            rw [act_of_ok (g := fun _ => .done) rfl h]
            exact hnil.cons rfl
        | stack s => exact absurd (AllocatorKind.clears_iff.2 ⟨rfl, hk.symm, hs⟩) hc
        | arena s => exact absurd (AllocatorKind.clears_iff.2 ⟨rfl, hk.symm, hs⟩) hc
      · have hi := Restriction.runsNone_perform b nest hcl c.allocator w
        unfold deal
        simp only
        cases hp : Restriction.perform b nest call ⟨c.allocator, w⟩ <;> rw [hp] at hi <;> exact hi

/-- **A clear of a buffer runs the callbacks that are registered**, newest
first. -/
theorem deal_of_clears (hk : c.allocator.isHeap = kind.isHeap) (hs : c.Sound b w.memory)
    (hr : ∀ e ∈ c.pending, e.Returns) (hc : kind.clears nest d = true) :
    ∃ k w', deal b nest d ⟨c, w⟩ = .ok .done ⟨⟨k, [], []⟩, w'⟩ ∧
      Tells w.events w'.events (c.pending.map Registration.data) [c.pending.length] := by
  obtain ⟨rfl, hheap, hn⟩ := AllocatorKind.clears_iff.1 hc
  have hsil : ¬ Restriction.Silences nest (.call .clear) := hn
  rw [deal_of_not_silences hsil]
  exact tells_clear hs (hk.trans hheap) hr

end Custody

/-! ## Runs of calls -/

namespace Chronicle

variable {B : Book ρ}

/-- **The callbacks that are registered are those that await their run.** -/
theorem pending_eq (h : Chronicle b Custody.Allows kind B) :
    B.custody.pending.map Registration.callback = awaiting kind B.pages := by
  induction h with
  | made _ hc _ => rfl
  | @dealt B nest d h _ _ ih =>
    obtain ⟨others, hin⟩ := h.inOrder Custody.steady_allows
    show (Action.ended (Custody.deal b nest d ⟨B.custody, B.world⟩)).2.allocator.pending.map _ = _
    rw [Custody.pending_deal hin.kind, ih]
    rfl
  | meanwhile _ _ _ ih => exact ih

/-- They are as many. -/
theorem length_pending (h : Chronicle b Custody.Allows kind B) :
    B.custody.pending.length = (awaiting kind B.pages).length := by
  rw [← h.pending_eq, List.length_map]

/-- Their data is that of those. -/
theorem data_pending (h : Chronicle b Custody.Allows kind B) :
    B.custody.pending.map Registration.data = (awaiting kind B.pages).map Prod.fst := by
  rw [← h.pending_eq, List.map_map]
  rfl

/-- They return if all that have ever been registered do. -/
theorem returns_pending (h : Chronicle b Custody.Allows kind B)
    (hr : ∀ x ∈ registeredIn B.pages, x.2 = .returns) : ∀ e ∈ B.custody.pending, e.Returns := by
  intro e he
  have hm : e.callback ∈ awaiting kind B.pages := h.pending_eq ▸ List.mem_map_of_mem he
  exact hr _ (awaiting_subset kind B.pages hm)

/-- **Every deed has run what was due.** -/
theorem allDue (h : Chronicle b Custody.Allows kind B)
    (hr : ∀ x ∈ registeredIn B.pages, x.2 = .returns) : AllDue kind B.pages := by
  -- one deed at a time; what others do in the meantime is on no page
  induction h with
  | made _ _ _ => exact trivial
  | @dealt B nest d h _ _ ih =>
    have hr' : ∀ x ∈ registeredIn B.pages, x.2 = .returns := fun x hx =>
      hr x (registeredIn_subset_cons _ B.pages hx)
    refine ⟨?_, ih hr'⟩
    obtain ⟨others, hin⟩ := h.inOrder Custody.steady_allows
    unfold Page.Due
    by_cases hc : kind.clears nest d = true
    · rw [if_pos hc]
      obtain ⟨k, w', hd, ht⟩ := Custody.deal_of_clears hin.kind hin.sound (h.returns_pending hr') hc
      rw [h.data_pending, h.length_pending] at ht
      simp only [hd]
      exact ⟨trivial, ht.added⟩
    · rw [if_neg hc]
      obtain ⟨ns, ht⟩ := Custody.runsNone_deal hin.kind hc b B.world
      exact ht.added.1
  | meanwhile _ _ _ ih => exact ih hr

end Chronicle

/-- How the callbacks that were registered in a run are called back. -/
structure Book.CallsBack (b : Build) (kind : AllocatorKind) (B : Book ρ) : Prop where
  /-- Each clear that came through to a buffer ran just the callbacks that
  had been registered since the one before it, latest first, and reported
  their number; no other deed ran any. -/
  due : AllDue kind B.pages
  /-- Each callback that has been registered has run or awaits its run. -/
  left : (ranIn B.pages ++ (awaiting kind B.pages).map Prod.fst).Perm
    ((registeredIn B.pages).map Prod.fst)
  /-- The text says how many await it. -/
  text : B.custody.allocator.Counts → ∃ front, B.custody.allocator.text b B.world.memory =
    .ok (front ++ "\n  Destruction callbacks: " ++ toString (awaiting kind B.pages).length ++ "\n")
  /-- The end runs those, latest first, and reports their number if there are
  any; then each has run once that has ever been registered. -/
  ended : ∃ k w', Allocator.close ⟨B.custody.allocator, B.world⟩ = .ok () ⟨k, w'⟩ ∧
    let last := Trace.added B.world.events w'.events
    let n := (awaiting kind B.pages).length
    invoked last = (awaiting kind B.pages).map Prod.fst ∧
      reported last = (if n = 0 then [] else [n]) ∧
      (ranIn B.pages ++ invoked last).Perm ((registeredIn B.pages).map Prod.fst)

/-- **Every callback runs exactly once, newest first**, if all return: at every
moment of every run of calls on an allocator, and if the allocator is dropped
there. -/
theorem Chronicle.callbacks_run_once_newest_first {B : Book ρ}
    (h : Chronicle b Custody.Allows kind B)
    (hr : ∀ x ∈ registeredIn B.pages, x.2 = .returns) : B.CallsBack b kind := by
  obtain ⟨others, hin⟩ := h.inOrder Custody.steady_allows
  have hdue := h.allDue hr
  obtain ⟨k, w', hclose, ht⟩ := Custody.tells_close hin.sound hin.accounts (h.returns_pending hr)
  rw [h.data_pending, h.length_pending] at ht
  refine ⟨hdue, hdue.perm, fun hc => ?_, k, w', hclose, ht.added.1, ht.added.2, ?_⟩
  · rw [← h.length_pending]
    exact Custody.text_eq hin.sound hc
  · rw [ht.added.1]
    exact hdue.perm

/-- The layout of a small region. -/
def smallRegion : Layout := (Layout.ofSizeAlign? 96 defaultAlign).get rfl

/-- A small stack that has handed out nothing. -/
def newStack : Book Pool :=
  ⟨[], .opened (.stack ⟨"stack", .fresh 0x100000000 smallRegion, .empty⟩),
    ((World.start (Pool.ofSize 4096)).take smallRegion).2⟩

/-- It has just been made, whatever callers may do with it from then on. -/
theorem chronicle_newStack (b : Build) (p : Custody → Deed → Prop) :
    Chronicle b p .stack newStack := by
  have hc : Allocator.create .stack "stack" 96 (.start (Pool.ofSize 4096)) =
      (.ok newStack.custody.allocator, newStack.world) := rfl
  exact .made Accounts.nil hc (by decide +kernel)

/-- Two callbacks are registered and a third finds no room, a clear is kept
from the stack and another is not, and one more callback is registered. -/
def rounds : List (List Restriction × Deed) :=
  [([], .call (.register 1 .returns)), ([], .call (.register 2 .returns)),
    ([], .call (.allocate Estate.sampleLayout)), ([], .call (.register 3 .returns)),
    ([.noClear], .call .clear), ([.noFree], .call .clear), ([], .call (.register 4 .returns))]

/-- The first two have run by then, the last one awaits its run, and the one
that found no room is not among them. -/
theorem callbacks_run_once_newest_first_rounds :
    (newStack.turns .debug rounds).pages.map (fun p => invoked p.events) =
      [[], [2, 1], [], [], [], [], []] ∧
    awaiting .stack (newStack.turns .debug rounds).pages = [(4, .returns)] ∧
    (newStack.turns .debug rounds).CallsBack .debug .stack := by
  have hc : Allocator.create .stack "stack" 96 (.start (Pool.ofSize 4096)) =
      (.ok newStack.custody.allocator, newStack.world) := rfl
  have hmade : Chronicle .debug Custody.Allows .stack newStack :=
    .made Accounts.nil hc (by decide +kernel)
  have hfair : newStack.Fair .debug Custody.Allows rounds := by decide +kernel
  exact ⟨by decide +kernel, by decide +kernel,
    (hmade.turns hfair).callbacks_run_once_newest_first (by decide +kernel)⟩

end Allocators
