import Allocators.Proofs.Heap.Sound
/-!
# What the calls of a heap come to

A heap passes its calls on to the resource. A block is handed out, or
declined, or found to be one that is still live, and that last is a breach
by the resource (`allocate_cases`). A live block is given back without a
fault (`release_apply`). A resize is both, one after the other
(`reallocate_of_copy`), and ending a heap gives back each entry as its
callback returns (`close_apply`).
-/

namespace Allocators

variable {ρ : Type} [Resource ρ]

/-! ## Asking the resource -/

/-- Asks for a block the way a heap does, with zeros written over it if it
is a heap that zeroes. -/
def World.draw (w : World ρ) (zeroed : Bool) (l : Layout) : Option Nat × World ρ :=
  if zeroed then w.takeZeroed l else w.take l

/-- What is granted changes its own bytes only, whether zeros are written
over it or not. -/
theorem World.draw_cases (w : World ρ) (zeroed : Bool) (l : Layout) :
    (∃ w', w.draw zeroed l = (none, w') ∧ w'.memory = w.memory ∧
      w'.events = .taken l none :: w.events) ∨
    ∃ a w', w.draw zeroed l = (some a, w') ∧ w.memory.ChangedIn w'.memory a (a + l.size) ∧
      w'.events = .taken l (some a) :: w.events := by
  unfold draw takeZeroed
  cases zeroed with
  | false => exact w.take_cases l
  | true =>
    rcases w.take_cases l with ⟨w', h, hm, he⟩ | ⟨a, w', h, hm, he⟩
    · exact Or.inl ⟨w', by rw [if_pos rfl, h], hm, he⟩
    · have hz := w'.memory.changedIn_update a l.size fun _ _ => 0
      exact Or.inr ⟨a, w'.write fun m => m.fill a l.size 0, by rw [if_pos rfl, h], hm.trans hz, he⟩

/-- It is granted what the resource would grant. -/
theorem World.fst_draw (w : World ρ) (zeroed : Bool) (l : Layout) :
    (w.draw zeroed l).1 = (w.take l).1 := by
  unfold draw takeZeroed
  rcases w.take l with ⟨_ | a, w'⟩ <;> cases zeroed <;> rfl

namespace Heap

open Trace

variable {b : Build} {s : Heap} {w w' : World ρ} {live rest : List Block}
variable {pending : List Registration} {l : Layout} {a : Nat}

/-! ## Allocating -/

/-- What a heap does with the resource's answer to its request. -/
def answer (b : Build) (label : String) (l : Layout) : Option Nat → Action Heap ρ Allocation
  | none => do
    Action.note label (.resourceEmpty l.size)
    Action.refuse .outOfMemory
  | some a => do
    enter b a l
    let s ← Action.self
    Action.become { s with usage := s.usage.add l.size }
    Action.note s.label (.allocated l.size a)
    return ⟨a, l.size⟩

/-- A heap asks the resource as its kind does and goes on with the answer. -/
theorem allocate_apply (b : Build) (s : Heap) (w : World ρ) (l : Layout) :
    allocate b l ⟨s, w⟩ =
      answer b s.label l (w.draw s.zeroed l).1 ⟨s, (w.draw s.zeroed l).2⟩ := by
  -- the two ways to ask come to one request, so what follows is stated once
  simp only [allocate, Action.bind_apply, Action.self_apply]
  unfold World.draw
  cases s.zeroed <;> rfl

/-- A request that the resource declines is declined. -/
theorem allocate_of_none (b : Build) (h : w.draw s.zeroed l = (none, w')) :
    allocate b l ⟨s, w⟩ = .error (.refused .outOfMemory)
      ⟨s, w'.record (.noted (some s.label) (.resourceEmpty l.size))⟩ := by
  simp only [allocate_apply, h, answer, Action.bind_apply, Action.note_apply, Action.refuse_apply]

/-- A block that is not live yet is entered and handed out. -/
theorem allocate_of_some (h : w.draw s.zeroed l = (some a, w'))
    (hf : b = .debug → s.ledger.find? a = none) :
    allocate b l ⟨s, w⟩ = .ok ⟨a, l.size⟩
      ⟨s.entered b a l, w'.record (.noted (some s.label) (.allocated l.size a))⟩ := by
  cases b with
  | debug =>
    simp only [allocate_apply, h, answer, enter, Action.bind_apply, Action.self_apply,
      Action.become_apply, Build.require_of _ _ (hf rfl), Action.ofExcept_ok, Action.note_apply,
      Action.pure_apply, entered]
  | release =>
    simp only [allocate_apply, h, answer, enter, Action.bind_apply, Action.self_apply,
      Action.become_apply, Action.note_apply, Action.pure_apply, entered]

/-- A debug build finds fault with a block that is live already. -/
theorem allocate_of_twice (h : w.draw s.zeroed l = (some a, w')) (hf : ¬ s.ledger.find? a = none) :
    allocate .debug l ⟨s, w⟩ = .error (.fault (.handedOutTwice a))
      ⟨{ s with ledger := s.ledger.insert a l }, w'⟩ := by
  simp only [allocate_apply, h, answer, enter, Action.bind_apply, Action.self_apply,
    Action.become_apply, Build.require, if_neg hf, Action.ofExcept_error]

/-- **A block that is granted is handed out, or handed out twice**, and that
only by a resource that breaks the agreement. -/
theorem allocate_of_draw (hs : Sound b w.memory s live pending)
    (ha : Accounts w.events (live ++ rest)) (hd : w.draw s.zeroed l = (some a, w'))
    (hm : w.memory.ChangedIn w'.memory a (a + l.size))
    (he : w'.events = .taken l (some a) :: w.events) :
    (∃ w', allocate b l ⟨s, w⟩ = .ok ⟨a, l.size⟩ ⟨s.entered b a l, w'⟩ ∧
      (b = .debug → s.ledger.find? a = none) ∧ w.memory.ChangedIn w'.memory a (a + l.size) ∧
      calls w'.events = calls (.taken l (some a) :: w.events)) ∨
    ∃ e s' w', allocate b l ⟨s, w⟩ = .error e ⟨s', w'⟩ ∧ ¬ Honoured w'.events := by
  by_cases hf : b = .debug → s.ledger.find? a = none
  · refine Or.inl ⟨_, allocate_of_some hd hf, hf, hm, ?_⟩
    rw [← he]
    rfl
  · obtain ⟨rfl, hne⟩ := Classical.not_imp.1 hf
    refine Or.inr ⟨_, _, _, allocate_of_twice hd hne, ?_⟩
    -- the block found in the ledger is outstanding, and not apart from the new one
    intro hg
    rw [he] at hg
    obtain ⟨l', hl'⟩ := Option.ne_none_iff_exists'.1 hne
    exact not_mem_of_apart (fun y hy => ha.apart hg y (List.mem_append_left _ hy)) l'
      ((hs.listed rfl a l').1 hl')

/-- **A block is declined, handed out, or handed out twice.** -/
theorem allocate_cases (hs : Sound b w.memory s live pending)
    (ha : Accounts w.events (live ++ rest)) (l : Layout) :
    (∃ w', allocate b l ⟨s, w⟩ = .error (.refused .outOfMemory) ⟨s, w'⟩ ∧
      w'.memory = w.memory ∧ calls w'.events = calls (.taken l none :: w.events)) ∨
    (∃ a w', allocate b l ⟨s, w⟩ = .ok ⟨a, l.size⟩ ⟨s.entered b a l, w'⟩ ∧
      (b = .debug → s.ledger.find? a = none) ∧ w.memory.ChangedIn w'.memory a (a + l.size) ∧
      calls w'.events = calls (.taken l (some a) :: w.events)) ∨
    ∃ e s' w', allocate b l ⟨s, w⟩ = .error e ⟨s', w'⟩ ∧ ¬ Honoured w'.events := by
  rcases w.draw_cases s.zeroed l with ⟨w', hd, hm, he⟩ | ⟨a, w', hd, hm, he⟩
  · refine Or.inl ⟨_, allocate_of_none b hd, hm, ?_⟩
    rw [← he]
    rfl
  · exact Or.inr ((allocate_of_draw hs ha hd hm he).imp (fun h => ⟨a, h⟩) id)

/-! ## Giving back -/

omit [Resource ρ] in
/-- A live block is found in order. -/
theorem check_apply (hf : b = .debug → s.ledger.find? a = some l) (w : World ρ) :
    check b a l ⟨s, w⟩ = .ok () ⟨s, w⟩ := by
  cases b with
  | debug =>
    have hc := Ledger.check_eq_ok_iff.2 (hf rfl)
    simp only [check, Action.bind_apply, Action.self_apply, hc, Action.ofExcept_ok]
  | release => rfl

/-- A live block is given back. -/
theorem release_apply (hf : b = .debug → s.ledger.find? a = some l) (w : World ρ) :
    release b a l ⟨s, w⟩ = .ok () ⟨s.struck b a l, w.give a l⟩ := by
  cases b with
  | debug =>
    simp only [release, strike, check_apply hf, Action.bind_apply, Action.self_apply,
      Action.become_apply, Action.give, struck]
  | release =>
    simp only [release, strike, Action.bind_apply, Action.pure_apply, Action.self_apply,
      Action.become_apply, Action.give, struck]

/-- A live block is freed. -/
theorem deallocate_apply (hm : a % l.align = 0) (hf : b = .debug → s.ledger.find? a = some l)
    (w : World ρ) :
    deallocate b a l ⟨s, w⟩ = .ok () ⟨s.struck b a l,
      (w.give a l).record (.noted (some s.label) (.freed l.size a))⟩ := by
  simp only [deallocate, Action.bind_apply, Action.self_apply, Build.require_of _ _ hm,
    Action.ofExcept_ok, release_apply hf, Action.note_apply]

/-! ## Resizing -/

section Resizing

variable {r : Resize} {plan : Plan} {old new : Layout} {s' : Heap}

/-- A request that is no plan changes nothing. -/
theorem reallocate_of_error (w : World ρ) {e : Failure} (hp : r.plan b = .error e) :
    reallocate b r ⟨s, w⟩ = .error e ⟨s, w⟩ := by
  simp only [reallocate, Action.bind_apply, hp, Action.ofExcept_error]

/-- Nor does one about a size that it cannot ask about. -/
theorem reallocate_of_no_old (w : World ρ) (hp : r.plan b = .ok plan)
    (ho : Layout.ofSizeAlign? r.size r.align = none) :
    reallocate b r ⟨s, w⟩ = .error (.refused .infeasibleResize) ⟨s, w⟩ := by
  simp only [reallocate, Action.bind_apply, hp, Action.ofExcept_ok, ho, Action.ofOption_none]

variable (hp : r.plan b = .ok plan) (ho : Layout.ofSizeAlign? r.size r.align = some old)
variable (hm : r.address % r.align = 0) (hf : b = .debug → s.ledger.find? r.address = some old)

include hp ho hm hf

/-- Nor does one for a size that no block can have. -/
theorem reallocate_of_no_new (w : World ρ) (hn : Layout.ofSizeAlign? plan.newSize r.align = none) :
    reallocate b r ⟨s, w⟩ = .error (.refused .infeasibleResize) ⟨s, w⟩ := by
  simp only [reallocate, Action.bind_apply, hp, Action.ofExcept_ok, ho, Action.ofOption_some,
    Action.self_apply, Build.require_of _ _ hm, check_apply hf, hn, Action.ofOption_none]

variable (hn : Layout.ofSizeAlign? plan.newSize r.align = some new)

include hn

/-- A resize fails if the new block is not handed out. -/
theorem reallocate_of_declined {e : Failure} (ha : allocate b new ⟨s, w⟩ = .error e ⟨s', w'⟩) :
    reallocate b r ⟨s, w⟩ = .error e ⟨s', w'⟩ := by
  simp only [reallocate, Action.bind_apply, hp, Action.ofExcept_ok, ho, Action.ofOption_some,
    Action.self_apply, Build.require_of _ _ hm, check_apply hf, hn, ha]

variable (ha : allocate b new ⟨s, w⟩ = .ok ⟨a, new.size⟩ ⟨s', w'⟩)

include ha

/-- A request that asks for it keeps the old block beside the new one. -/
theorem reallocate_of_nocopy (hc : plan.nocopy = true) :
    reallocate b r ⟨s, w⟩ = .ok ⟨a, new.size, plan.oldStart a, true⟩
      ⟨s', w'.record (.noted (some s.label) (.moved old.size r.address new.size a true))⟩ := by
  simp only [reallocate, Action.bind_apply, hp, Action.ofExcept_ok, ho, Action.ofOption_some,
    Action.self_apply, Build.require_of _ _ hm, check_apply hf, hn, ha, Action.when_apply, hc,
    Bool.true_eq_false, if_false, Action.note_apply, Action.pure_apply]

/-- Any other moves the bytes that survive, and gives the old block back. -/
theorem reallocate_of_copy (hc : plan.nocopy = false)
    (hl : b = .debug → s'.ledger.find? r.address = some old) :
    reallocate b r ⟨s, w⟩ = .ok ⟨a, new.size, plan.oldStart a, false⟩
      ⟨s'.struck b r.address old,
        ((w'.write fun m => m.copy (r.address + plan.source) (a + plan.target) plan.kept).give
          r.address old).record
            (.noted (some s.label) (.moved old.size r.address new.size a false))⟩ := by
  simp only [reallocate, Action.bind_apply, hp, Action.ofExcept_ok, ho, Action.ofOption_some,
    Action.self_apply, Build.require_of _ _ hm, check_apply hf, hn, ha, Action.when_apply, hc,
    if_true, Action.write_apply, release_apply hl, Action.note_apply, Action.pure_apply]

end Resizing

/-! ## Clearing, registering and ending -/

/-- A heap cannot be cleared. -/
theorem not_has_clearing (s : Heap) : ¬ s.features.has .clearing = true := by
  unfold features
  cases s.zeroed <;> decide

omit [Resource ρ] in
/-- Nothing is cleared: a debug build finds fault, a release build goes on
as if it had not been asked. -/
theorem clear_apply (b : Build) (s : Heap) (w : World ρ) :
    clear b ⟨s, w⟩ =
      match b with
      | .debug => .error (.fault (.cannotClear s.label)) ⟨s, w⟩
      | .release => .ok () ⟨s, w.record (.noted (some s.label) .clearIgnored)⟩ := by
  cases b with
  | debug =>
    simp only [clear, Action.bind_apply, Action.self_apply, Build.require,
      if_neg (not_has_clearing s), Action.ofExcept_error]
  | release => rfl

/-- A callback is registered if the resource grants its entry. -/
theorem register_cases (s : Heap) (w : World ρ) (data : Nat) (h : Handler) :
    (∃ w', register data h ⟨s, w⟩ = .error (.refused .bookkeeping) ⟨s, w'⟩ ∧
      w'.memory = w.memory ∧ w'.events = .taken Layout.entry none :: w.events) ∨
    ∃ a m w', register data h ⟨s, w⟩ = .ok () ⟨{ s with callbacks := s.callbacks.push a }, w'⟩ ∧
      w.memory.ChangedIn m a (a + 24) ∧
      w'.memory = CallbackEntry.write m a (s.callbacks.entry data h) ∧
      w'.events = .taken Layout.entry (some a) :: w.events := by
  have ht : (Action.take Layout.entry : Action Heap ρ (Option Nat)) ⟨s, w⟩ =
      .ok (w.draw false Layout.entry).1 ⟨s, (w.draw false Layout.entry).2⟩ := rfl
  rcases w.draw_cases false Layout.entry with ⟨w', hd, hm, he⟩ | ⟨a, w', hd, hm, he⟩
  · refine Or.inl ⟨w', ?_, hm, he⟩
    simp only [register, Action.bind_apply, ht, hd, Action.refuse_apply]
  · refine Or.inr ⟨a, w'.memory,
      w'.write fun m => CallbackEntry.write m a (s.callbacks.entry data h), ?_, hm, rfl, he⟩
    simp only [register, Action.bind_apply, ht, hd, Action.self_apply, Action.write_apply,
      Action.become_apply]

/-- **A heap ends in the order of its chain**, giving back the entries
whose callbacks return. -/
theorem close_apply (hs : Sound b w.memory s live pending)
    (ha : (pending.map Registration.block).Pairwise Block.Apart) :
    close ⟨s, w⟩ = Action.ending ((runResult pending).map fun _ => ())
      ⟨{ s with callbacks := Callbacks.empty },
        (w.walked (fun a w => w.give a Layout.entry) pending).farewell s.label
          (runResult pending)⟩ := by
  have hrun : ∀ k : Heap, Callbacks.runFrom (fun a => Action.give a Layout.entry) pending.length
      s.callbacks.head ⟨k, w⟩ = Action.ending (runResult pending)
        ⟨k, w.walked (fun a w => w.give a Layout.entry) pending⟩ :=
    Callbacks.runFrom_linked (g := fun a w => w.give a Layout.entry) (fun _ _ _ => rfl)
      (fun a w x hx => w.changedIn_give a Layout.entry x hx.symm) hs.linked ha
  simp only [close, Action.bind_apply, Action.self_apply, Action.become_apply, Callbacks.run,
    hs.counted, hrun]
  cases runResult pending with
  | error e => rfl
  | ok n => cases n <;> rfl

end Heap

end Allocators
