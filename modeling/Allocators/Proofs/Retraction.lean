import Allocators.Restriction
import Allocators.Proofs.Heap.Calls
/-!
# Calls that take back what they did

A call can be declined at many points: by its plan, by its layouts, by the
block on top, for want of room, by the resource. Up to the last of them it
has only looked (`Action.Looks`), and after that it is not declined any
more (`Action.Commits`). So a call that is declined leaves the allocator
and the memory as they were (`Action.Retracts`), with no more in between
than notices and requests that the resource has declined. The rules take a
call apart in the order of its steps, and the calls of every kind follow.
-/

namespace Allocators

variable {ρ : Type}

/-! ## What may lie in between -/

/-- A notice, or a request that the resource has declined. -/
def Event.Idle : Event → Prop
  | .taken _ none => True
  | .noted _ _ => True
  | _ => False

/-- Idle events leave the same blocks outstanding. -/
theorem Trace.outstanding_idle {new es : Trace} (h : ∀ e ∈ new, e.Idle) :
    outstanding (new ++ es) = outstanding es := by
  induction new with
  | nil => rfl
  | cons e new ih =>
    have hrest := ih fun e he => h e (List.mem_cons_of_mem _ he)
    have he := h e List.mem_cons_self
    cases e with
    | taken l a =>
      cases a with
      | none => exact hrest
      | some a => exact he.elim
    | given a l => exact he.elim
    | ran data => exact he.elim
    | noted label n => exact hrest

/-- At most notices and declined requests lie between the two worlds. -/
structure World.Declined (w w' : World ρ) : Prop where
  memory : w'.memory = w.memory
  events : ∃ new, w'.events = new ++ w.events ∧ ∀ e ∈ new, e.Idle

/-- At most notices lie between the two worlds. -/
structure World.Noticed (w w' : World ρ) : Prop extends World.Declined w w' where
  resource : w'.resource = w.resource

/-- A relation of a world with later ones that notices keep up. -/
structure World.Lapse (D : World ρ → World ρ → Prop) : Prop where
  refl (w : World ρ) : D w w
  trans {w w' w'' : World ρ} : D w w' → D w' w'' → D w w''
  noted (w : World ρ) (label : Option String) (n : Notice) : D w (w.record (.noted label n))

namespace World

/-- Declined requests and notices add up. -/
theorem lapse_declined : Lapse (Declined (ρ := ρ)) where
  refl _ := ⟨rfl, [], rfl, nofun⟩
  trans := by
    rintro w w' w'' ⟨hm, new, he, hi⟩ ⟨hm', new', he', hi'⟩
    refine ⟨hm'.trans hm, new' ++ new, by rw [he', he, List.append_assoc], fun e hmem => ?_⟩
    rcases List.mem_append.1 hmem with hmem | hmem
    · exact hi' e hmem
    · exact hi e hmem
  noted _ label n := by
    refine ⟨rfl, [.noted label n], rfl, fun e he => ?_⟩
    rw [List.mem_singleton.1 he]
    trivial

/-- Notices add up. -/
theorem lapse_noticed : Lapse (Noticed (ρ := ρ)) where
  refl w := ⟨lapse_declined.refl w, rfl⟩
  trans h h' := ⟨lapse_declined.trans h.toDeclined h'.toDeclined, h'.resource.trans h.resource⟩
  noted w label n := ⟨lapse_declined.noted w label n, rfl⟩

end World

/-! ## Looking and committing -/

namespace Action

variable {κ α : Type} {D : World ρ → World ρ → Prop} {x : Action κ ρ α}

/-- The scene is as it was, but for what has lapsed in the world. -/
def Still (D : World ρ → World ρ → Prop) (s t : Scene κ ρ) : Prop :=
  t.allocator = s.allocator ∧ D s.world t.world

/-- What holds of the scene if it is a refusal that has ended the call. -/
def IfRefused (P : Scene κ ρ → Prop) (e : Failure) (t : Scene κ ρ) : Prop :=
  ∀ r, e = .refused r → P t

/-- A call that, unless it ends in a fault, leaves the scene as it was. -/
abbrev Looks (D : World ρ → World ρ → Prop) (x : Action κ ρ α) : Prop :=
  ∀ s, Ensures (Still D s) (fun _ => Still D s) (IfRefused (Still D s)) x

/-- A call that leaves the scene as it was when it is declined. -/
abbrev Retracts (D : World ρ → World ρ → Prop) (x : Action κ ρ α) : Prop :=
  ∀ s, Ensures (Still D s) (fun _ _ => True) (IfRefused (Still D s)) x

/-- A call that is not declined. -/
abbrev Commits (x : Action κ ρ α) : Prop :=
  Ensures (fun _ => True) (fun _ _ => True) (IfRefused fun _ => False) x

/-- What holds in any case holds if the call was refused. -/
theorem IfRefused.intro {P : Scene κ ρ → Prop} {e : Failure} {t : Scene κ ρ} (h : P t) :
    IfRefused P e t := fun _ _ => h

/-- Refusals that are none ask for nothing. -/
theorem ifRefused_of_ne {P : Scene κ ρ → Prop} {v : Except Failure α}
    (h : ∀ r, v ≠ .error (.refused r)) {e : Failure} {t : Scene κ ρ} (hv : v = .error e) :
    IfRefused P e t := fun r he => absurd (he ▸ hv) (h r)

/-- So there is no refusal. -/
theorem Commits.not_declined (h : Commits x) {s t : Scene κ ρ} {r : Refusal} :
    x s ≠ .error (.refused r) t := fun hx => h.failed trivial hx r rfl

/-- **What is not declined any more may follow**: it has nothing to take back. -/
theorem Commits.retracts (h : Commits x) {P I : Scene κ ρ → Prop} :
    Ensures P (fun _ _ => True) (IfRefused I) x :=
  h.imp (fun _ _ => trivial) (fun _ _ => id) fun _ _ he r hr => (he r hr).elim

section Lapse

variable (hD : World.Lapse D) {s t : Scene κ ρ}

include hD

/-- The scene is as it is. -/
theorem still_refl (s : Scene κ ρ) : Still D s s := ⟨rfl, hD.refl s.world⟩

/-- A notice only lapses. -/
theorem Still.note (h : Still D s t) (label : String) (n : Notice) :
    Still D s ⟨t.allocator, t.world.record (.noted (some label) n)⟩ :=
  ⟨h.1, hD.trans h.2 (hD.noted t.world (some label) n)⟩

/-- What is taken back to where the call started is taken back to where the
scene was still before. -/
theorem Retracts.of_declined
    (h : ∀ s t r, x s = .error (.refused r) t → Still D s t) : Retracts D x := by
  refine fun s₀ => ⟨fun _ _ => trivial, fun {s t e} hs hx r he => ?_⟩
  obtain ⟨ha, hd⟩ := h s t r (he ▸ hx)
  exact ⟨ha.trans hs.1, hD.trans hs.2 hd⟩

/-- What it takes back when it is declined. -/
theorem Retracts.declined (h : Retracts D x) {r : Refusal} (hx : x s = .error (.refused r) t) :
    Still D s t :=
  (h s).failed (still_refl hD s) hx r rfl

end Lapse

end Action

/-! ## Values that are no refusals -/

/-- A promise that is not kept is a fault. -/
theorem Build.require_ne_refused (b : Build) (p : Prop) [Decidable p] (f : Fault) (r : Refusal) :
    b.require p f ≠ .error (.refused r) := by
  cases b with
  | debug =>
    unfold require
    by_cases h : p
    · rw [if_pos h]
      exact nofun
    · rw [if_neg h]
      exact nofun
  | release => exact nofun

/-- A sum that is no word is a fault. -/
theorem Build.add_ne_refused (b : Build) (x y : Nat) (r : Refusal) :
    b.add x y ≠ .error (.refused r) := by
  unfold add
  split
  · exact nofun
  · cases b <;> exact nofun

/-- A difference below zero is a fault. -/
theorem Build.sub_ne_refused (b : Build) (x y : Nat) (r : Refusal) :
    b.sub x y ≠ .error (.refused r) := by
  unfold sub
  split
  · exact nofun
  · cases b <;> exact nofun

/-- A block that is not on top is none, and what is too long is a fault. -/
theorem Stack.topOffset?_ne_refused (b : Build) (s : Buffer) (address size : Nat) (r : Refusal) :
    topOffset? b s address size ≠ .error (.refused r) := by
  unfold topOffset?
  split
  · exact nofun
  · next offset _ =>
    split
    · exact nofun
    · have hadd := b.add_ne_refused offset size r
      cases h : b.add offset size with
      | ok stop => exact nofun
      | error e =>
        rw [h] at hadd
        rintro ⟨⟩
        exact hadd rfl

/-- A cursor past the tail is a fault. -/
theorem Region.setCursor_ne_refused (b : Build) (s : Region) (offset : Nat) (r : Refusal) :
    s.setCursor b offset ≠ .error (.refused r) := by
  have hreq := b.require_ne_refused (offset ≤ s.tail) .cursorPastTail r
  unfold setCursor
  cases h : b.require (offset ≤ s.tail) .cursorPastTail with
  | ok u => exact nofun
  | error e =>
    rw [h] at hreq
    rintro ⟨⟩
    exact hreq rfl

/-- A block that is not in the ledger is a fault. -/
theorem Ledger.check_ne_refused (t : Ledger) (a : Nat) (l : Layout) (r : Refusal) :
    t.check a l ≠ .error (.refused r) := by
  unfold check
  split
  · exact nofun
  · split <;> exact nofun

open Allocators.Action

variable {b : Build} {D : World ρ → World ρ → Prop}

/-- A value that is no refusal is not declined. -/
theorem Action.commits_ofExcept {κ α : Type} {v : Except Failure α}
    (h : ∀ r, v ≠ .error (.refused r)) : Commits (ofExcept v : Action κ ρ α) :=
  ensures_ofExcept fun _ _ hv _ => ifRefused_of_ne h hv

/-- A callback that is run is not declined. -/
theorem Callbacks.commits_invoke {κ : Type} (e : CallbackEntry) :
    Commits (invoke e : Action κ ρ Unit) := by
  refine .bind (ensures_record fun _ => id) fun _ => ?_
  cases e.handler with
  | returns => exact ensures_pure fun _ => id
  | fails => exact commits_ofExcept fun _ => nofun

/-- Nor are several, one after the other. -/
theorem Callbacks.commits_run {κ : Type} {release : Nat → Action κ ρ Unit}
    (hr : ∀ a, Commits (release a)) (c : Callbacks) : Commits (c.run release) := by
  have hfrom : ∀ bound head, Commits (runFrom release bound head) := by
    intro bound
    induction bound with
    | zero => exact fun _ => ensures_pure fun _ => id
    | succ bound ih =>
      intro head
      cases head with
      | none => exact ensures_pure fun _ => id
      | some a =>
        rw [runFrom]
        refine .bind ensures_memory fun m => .bind (commits_invoke _) fun _ => ?_
        exact (hr a).bind fun _ => (ih _).bind fun _ => ensures_pure fun _ => id
  exact hfrom c.count c.head

/-! ## Buffers, stacks and arenas -/

namespace Buffer

/-- A registration that is declined leaves the buffer as it was. -/
theorem retracts_register (b : Build) (data : Nat) (h : Handler) :
    Retracts D (register b data h : Action Buffer ρ Unit) := by
  intro s₀
  refine .bind ensures_self fun s => .bind (ensures_ofExcept fun _ _ _ => .intro) fun carved => ?_
  cases carved with
  | none => exact ensures_refuse fun _ => .intro
  | some c =>
    refine Commits.retracts ?_
    exact .bind (ensures_write fun _ => id) fun _ => ensures_become fun _ => id

/-- A clear is not declined. -/
theorem commits_clear : Commits (clear : Action Buffer ρ Unit) := by
  have hrun : Commits (runCallbacks : Action Buffer ρ Nat) := by
    refine .bind ensures_self fun s => .bind (ensures_become fun _ => id) fun _ => ?_
    exact Callbacks.commits_run (fun _ => ensures_pure fun _ => id) s.callbacks
  refine hrun.bind fun n => .bind ensures_self fun s => ?_
  exact .bind (ensures_become fun _ => id) fun _ => ensures_record fun _ => id

end Buffer

namespace Stack

/-- An allocation that is declined leaves the stack as it was. -/
theorem retracts_allocate (hD : World.Lapse D) (b : Build) (l : Layout) :
    Retracts D (allocate b l : Action Buffer ρ Allocation) := by
  intro s₀
  refine .bind ensures_self fun s => .bind (ensures_ofExcept fun _ _ _ => .intro) fun placed => ?_
  cases placed with
  | none =>
    refine .bind (ensures_record fun _ ht => ht.note hD _ _) fun _ => ?_
    exact ensures_refuse fun _ => .intro
  | some placed =>
    refine .bind (ensures_ofExcept fun _ _ _ => .intro) fun slot => Commits.retracts ?_
    refine .bind (ensures_write fun _ => id) fun _ => .bind (ensures_become fun _ => id) fun _ => ?_
    exact .bind (ensures_record fun _ => id) fun _ => ensures_pure fun _ => id

/-- A resize that is declined leaves the stack as it was: past the demand for
room nothing is declined. -/
theorem retracts_reallocate (b : Build) (r : Resize) :
    Retracts D (reallocate b r : Action Buffer ρ Reallocation) := by
  intro s₀
  refine .bind (ensures_ofExcept fun _ _ _ => .intro) fun plan => .bind ensures_self fun s => ?_
  refine .bind (ensures_ofExcept fun _ _ _ => .intro) fun _ => ?_
  refine .bind (ensures_ofExcept fun _ _ _ => .intro) fun top => ?_
  refine .bind (ensures_ofOption fun _ => .intro) fun offset => ?_
  refine .bind (ensures_ofExcept fun _ _ _ => .intro) fun available => ?_
  refine .bind (ensures_demand _ fun _ => .intro) fun _ => ?_
  refine .bind (ensures_ofExcept fun _ _ _ => .intro) fun room => ?_
  refine .bind (ensures_ofExcept fun _ _ _ => .intro) fun size => Commits.retracts ?_
  refine .bind (.when _ (ensures_write fun _ => id)) fun _ => ?_
  refine .bind (commits_ofExcept (b.add_ne_refused _ _)) fun stop => ?_
  refine .bind (commits_ofExcept (Region.setCursor_ne_refused b _ _)) fun region => ?_
  refine .bind (ensures_become fun _ => id) fun _ => ?_
  exact .bind (ensures_record fun _ => id) fun _ => ensures_pure fun _ => id

/-- A free is not declined. -/
theorem commits_deallocate (b : Build) (address : Nat) (l : Layout) :
    Commits (deallocate b address l : Action Buffer ρ Unit) := by
  refine .bind ensures_self fun s => ?_
  refine .bind (commits_ofExcept (topOffset?_ne_refused b s address l.size)) fun top => ?_
  refine .bind (commits_ofExcept (b.require_ne_refused _ _)) fun _ => ?_
  cases top with
  | none => exact ensures_record fun _ => id
  | some offset =>
    refine .bind (commits_ofExcept (b.sub_ne_refused _ _)) fun slot => ?_
    refine .bind ensures_memory fun m => ?_
    refine .bind (commits_ofExcept (Region.setCursor_ne_refused b _ _)) fun region => ?_
    exact .bind (ensures_become fun _ => id) fun _ => ensures_record fun _ => id

end Stack

namespace Arena

/-- An allocation that is declined leaves the arena as it was. -/
theorem retracts_allocate (b : Build) (l : Layout) :
    Retracts D (allocate b l : Action Buffer ρ Allocation) := by
  intro s₀
  refine .bind ensures_self fun s => .bind (ensures_ofExcept fun _ _ _ => .intro) fun placed => ?_
  cases placed with
  | none => exact ensures_refuse fun _ => .intro
  | some placed =>
    refine Commits.retracts (.bind (ensures_become fun _ => id) fun _ => ?_)
    exact .bind (ensures_record fun _ => id) fun _ => ensures_pure fun _ => id

/-- A resize leaves the arena as it was. -/
theorem retracts_reallocate (hD : World.Lapse D) (r : Resize) :
    Retracts D (reallocate r : Action Buffer ρ Reallocation) := by
  intro s₀
  refine .bind ensures_self fun s => .bind (ensures_record fun _ ht => ht.note hD _ _) fun _ => ?_
  exact ensures_refuse fun _ => .intro

/-- A free is not declined. -/
theorem commits_deallocate (b : Build) (address : Nat) :
    Commits (deallocate b address : Action Buffer ρ Unit) := by
  refine .bind ensures_self fun s => .bind (commits_ofExcept (b.require_ne_refused _ _)) fun _ => ?_
  exact ensures_record fun _ => id

end Arena

/-! ## Heaps -/

namespace Heap

variable (b)

/-- A block that is looked for in the ledger stays there. -/
theorem looks_check (a : Nat) (l : Layout) : Looks D (check b a l : Action Heap ρ Unit) := by
  intro s₀
  cases b with
  | release => exact ensures_pure fun _ => id
  | debug => exact .bind ensures_self fun s => ensures_ofExcept fun _ _ _ => .intro

/-- To look for a block is not declined. -/
theorem commits_check (a : Nat) (l : Layout) : Commits (check b a l : Action Heap ρ Unit) := by
  cases b with
  | release => exact ensures_pure fun _ => id
  | debug => exact .bind ensures_self fun s => commits_ofExcept (Ledger.check_ne_refused _ _ _)

variable [Resource ρ]

omit [Resource ρ] in
/-- A block that the resource hands out is not declined any more. -/
theorem commits_answer (label : String) (l : Layout) (a : Nat) :
    Commits (answer b label l (some a) : Action Heap ρ Allocation) := by
  have henter : Commits (enter b a l : Action Heap ρ Unit) := by
    cases b with
    | release => exact ensures_pure fun _ => id
    | debug =>
      refine .bind ensures_self fun s => .bind (ensures_become fun _ => id) fun _ => ?_
      exact commits_ofExcept (Build.require_ne_refused _ _ _)
  refine henter.bind fun _ => .bind ensures_self fun s => ?_
  refine .bind (ensures_become fun _ => id) fun _ => ?_
  exact .bind (ensures_record fun _ => id) fun _ => ensures_pure fun _ => id

/-- A block that is given back is not declined. -/
theorem commits_release (a : Nat) (l : Layout) : Commits (release b a l : Action Heap ρ Unit) := by
  have hstrike : Commits (strike b a l : Action Heap ρ Unit) := by
    cases b with
    | release => exact ensures_pure fun _ => id
    | debug =>
      refine (commits_check _ a l).bind fun _ => .bind ensures_self fun s => ?_
      exact ensures_become fun _ => id
  refine hstrike.bind fun _ => .bind (ensures_give fun _ => id) fun _ => ?_
  exact .bind ensures_self fun s => ensures_become fun _ => id

/-- What follows a new block of a resize is not declined. -/
theorem commits_move (p : Plan) (a : Nat) (old : Layout) (m : Memory → Memory) :
    Commits (Action.when (p.nocopy = false) (do write m; release b a old) :
      Action Heap ρ Unit) :=
  .when _ (.bind (ensures_write fun _ => id) fun _ => commits_release b a old)

/-- An allocation is declined only with a request that the resource has
declined. -/
theorem retracts_allocate (l : Layout) :
    Retracts World.Declined (allocate b l : Action Heap ρ Allocation) := by
  refine Retracts.of_declined World.lapse_declined fun s t r h => ?_
  obtain ⟨k, w⟩ := s
  rcases w.draw_cases k.zeroed l with ⟨w', hd, hm, he⟩ | ⟨a, w', hd, -⟩
  · rw [allocate_of_none b hd] at h
    cases h
    refine ⟨rfl, hm, [.noted (some k.label) (.resourceEmpty l.size), .taken l none], ?_, ?_⟩
    · show _ :: w'.events = _
      rw [he]
      rfl
    · intro e he
      rcases List.mem_cons.1 he with rfl | he
      · trivial
      · rw [List.mem_singleton.1 he]
        trivial
  · rw [allocate_apply, hd] at h
    exact absurd h (commits_answer b k.label l a).not_declined

/-- A resize that is declined leaves the heap as it was: once a new block
has been handed out nothing is declined. -/
theorem retracts_reallocate (r : Resize) :
    Retracts World.Declined (reallocate b r : Action Heap ρ Reallocation) := by
  intro s₀
  refine .bind (ensures_ofExcept fun _ _ _ => .intro) fun plan => ?_
  refine .bind (ensures_ofOption fun _ => .intro) fun old => .bind ensures_self fun s => ?_
  refine .bind (ensures_ofExcept fun _ _ _ => .intro) fun _ => ?_
  refine .bind (looks_check b _ _ s₀) fun _ => ?_
  refine .bind (ensures_ofOption fun _ => .intro) fun layout => ?_
  refine .bind (retracts_allocate b layout s₀) fun new => Commits.retracts ?_
  refine (commits_move b plan _ old _).bind fun _ => ?_
  exact .bind (ensures_record fun _ => id) fun _ => ensures_pure fun _ => id

/-- A free is not declined. -/
theorem commits_deallocate (a : Nat) (l : Layout) :
    Commits (deallocate b a l : Action Heap ρ Unit) := by
  refine .bind ensures_self fun s => .bind (commits_ofExcept (b.require_ne_refused _ _)) fun _ => ?_
  exact (commits_release b a l).bind fun _ => ensures_record fun _ => id

/-- A registration is declined only with a request that the resource has
declined. -/
theorem retracts_register (data : Nat) (h : Handler) :
    Retracts World.Declined (register data h : Action Heap ρ Unit) := by
  refine Retracts.of_declined World.lapse_declined fun s t r hx => ?_
  obtain ⟨k, w⟩ := s
  rcases register_cases k w data h with ⟨w', hd, hm, he⟩ | ⟨a, m, w', hd, -⟩
  · rw [hd] at hx
    cases hx
    refine ⟨rfl, hm, [.taken Layout.entry none], he, fun e he => ?_⟩
    rw [List.mem_singleton.1 he]
    trivial
  · rw [hd] at hx
    cases hx

omit [Resource ρ] in
/-- A clear leaves the heap as it was. -/
theorem retracts_clear (hD : World.Lapse D) : Retracts D (clear b : Action Heap ρ Unit) := by
  intro s₀
  refine .bind ensures_self fun s => .bind (ensures_ofExcept fun _ _ _ => .intro) fun _ => ?_
  exact (ensures_record fun _ ht => ht.note hD _ _).imp (fun _ => id) (fun _ _ _ => trivial)
    fun _ _ => id

end Heap

/-- **A free is not declined**, whatever the allocator. -/
theorem Allocator.commits_deallocate [Resource ρ] (b : Build) (a : Nat) (l : Layout) :
    Commits (deallocate b a l : Action Allocator ρ Unit) :=
  ensures_dispatch (Heap.commits_deallocate b a l) (Stack.commits_deallocate b a l)
    (Arena.commits_deallocate b a)

end Allocators
