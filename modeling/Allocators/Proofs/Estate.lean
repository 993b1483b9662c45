import Allocators.Proofs.Life
/-!
# Estates — every run of several allocators over one resource

An `Estate` is the state of a program that uses several allocators at once:
the resource with its memory, each allocator with its live blocks and callbacks
(a `Tenant`), and the blocks that are still live of heaps which have been
dropped. A step creates an allocator, does a deed on one of them within the
agreement, or drops one. The resource may decline any request and hand out any
block that the agreement lets it. `Reachable` are the states that any number of
such steps lead to, in any order, and `Reachable.sound` is the invariant: the
accounts with the resource are straight, and every allocator is in order.
-/

namespace Allocators

open Trace

/-- The calls on the resource made between two traces, latest first. -/
def Trace.since (before after : Trace) : Trace :=
  (calls after).take ((calls after).length - (calls before).length)

/-- One call more. -/
theorem Trace.since_taken (l : Layout) (a : Option Nat) (es : Trace) :
    since es (.taken l a :: es) = [.taken l a] := by
  have hc : calls (.taken l a :: es) = .taken l a :: calls es := rfl
  rw [since, hc, List.length_cons, Nat.add_sub_cancel_left]
  rfl

/-- No call more. -/
theorem Trace.since_of_calls_eq {before after : Trace} (h : calls after = calls before) :
    since before after = [] := by
  rw [since, h, Nat.sub_self, List.take_zero]

/-- One of several allocators, with its live blocks and callbacks and the calls
on the resource that have been made for it, latest first. -/
structure Tenant extends Custody where
  made : Trace

/-- The state of several allocators over one resource: the resource in its world,
the allocators that draw on it, and the blocks that are still live of heaps
which have been dropped. -/
structure Estate (ρ : Type) where
  world : World ρ
  tenants : List Tenant
  left : List Block

/-- What a step was. -/
inductive Move where
  /-- An allocator was made. -/
  | opened
  /-- An allocator could not be made. -/
  | declined
  /-- A deed on this allocator ended so. -/
  | acted (t : Tenant) (d : Deed) (out : Except Failure Reply)
  /-- This allocator ended. -/
  | closed (t : Tenant)

namespace Tenant

/-- An allocator that has just been made. -/
def opened (k : Allocator) (before after : Trace) : Tenant := ⟨.opened k, since before after⟩

/-- An allocator after a deed. -/
def after (t : Tenant) (c : Custody) (before after : Trace) : Tenant :=
  ⟨c, since before after ++ t.made⟩

end Tenant

namespace Estate

variable {ρ : Type} [Resource ρ] {b : Build} {E E' : Estate ρ} {mv : Move}

/-- The blocks of the resource that someone answers for. -/
def held (E : Estate ρ) : List Block := E.tenants.flatMap (·.footprint) ++ E.left

/-- The blocks in the hands of callers, and those left behind. -/
def blocks (E : Estate ρ) : List Block := E.tenants.flatMap (·.blocks) ++ E.left

/-- One step. Callers keep to the agreement (`Allows`), and so does the
resource (`Honoured`). -/
inductive Step (b : Build) (E : Estate ρ) : Move → Estate ρ → Prop
  | opened {kind : AllocatorKind} {label : String} {capacity : Nat} {k : Allocator}
      {w' : World ρ} :
      Allocator.create kind label capacity E.world = (.ok k, w') → Honoured w'.events →
      Step b E .opened ⟨w', .opened k E.world.events w'.events :: E.tenants, E.left⟩
  | declined {kind : AllocatorKind} {label : String} {capacity : Nat} {r : Refusal}
      {w' : World ρ} :
      Allocator.create kind label capacity E.world = (.error r, w') → Honoured w'.events →
      Step b E .declined ⟨w', E.tenants, E.left⟩
  | acted {before after : List Tenant} {t : Tenant} {d : Deed} {out : Except Failure Reply}
      {c' : Custody} {w' : World ρ} : E.tenants = before ++ t :: after → t.Allows d →
      Custody.act b d ⟨t.toCustody, E.world⟩ = Action.ending out ⟨c', w'⟩ → Honoured w'.events →
      Step b E (.acted t d out)
        ⟨w', before ++ t.after c' E.world.events w'.events :: after, E.left⟩
  | closed {before after : List Tenant} {t : Tenant} {out : Except Failure Unit} {k : Allocator}
      {w' : World ρ} : E.tenants = before ++ t :: after →
      Allocator.close ⟨t.allocator, E.world⟩ = Action.ending out ⟨k, w'⟩ → Honoured w'.events →
      Step b E (.closed t) ⟨w', before ++ after, t.remains ++ E.left⟩

/-- **The states that runs lead to**, from a resource in any state that has handed
out nothing, over memory with any contents. -/
inductive Reachable (b : Build) : Estate ρ → Prop
  | start (r : ρ) (m : Memory) : Reachable b ⟨⟨r, m, []⟩, [], []⟩
  | step {E E' : Estate ρ} {mv : Move} : Reachable b E → Step b E mv E' → Reachable b E'

/-- What holds after every step: everything outstanding is
answered for, every allocator is in order, and a buffer has made one call
on the resource, for its region. -/
structure Sound (b : Build) (E : Estate ρ) : Prop where
  accounts : Accounts E.world.events E.held
  sound : ∀ t ∈ E.tenants, t.Sound b E.world.memory
  made : ∀ t ∈ E.tenants, t.allocator.isHeap = false →
    ∃ a l, t.made = [.taken l (some a)] ∧ t.footprint = [Block.of a l]

/-! ## One allocator among the others -/

/-- What is held beside an allocator's own. -/
def beside (before after : List Tenant) (left : List Block) : List Block :=
  before.flatMap (·.footprint) ++ after.flatMap (·.footprint) ++ left

/-- An allocator's own blocks put first. -/
theorem perm_held (before after : List Tenant) (t : Tenant) (left : List Block) :
    ((before ++ t :: after).flatMap (·.footprint) ++ left).Perm
      (t.footprint ++ beside before after left) := by
  unfold beside
  rw [List.flatMap_append, List.flatMap_cons, ← List.append_assoc, ← List.append_assoc,
    ← List.append_assoc]
  exact (List.perm_append_comm.append_right _).append_right _

/-- The blocks of the other allocators are beside an allocator's own. -/
theorem mem_beside {before after : List Tenant} {left : List Block} {u : Tenant}
    (hu : u ∈ before ++ after) : ∀ x ∈ u.footprint, x ∈ beside before after left := by
  intro x hx
  rw [beside, ← List.flatMap_append]
  exact List.mem_append_left _ (List.mem_flatMap.2 ⟨u, hu, hx⟩)

/-- One of the allocators, or one of the others. -/
theorem mem_split {before after : List Tenant} {t u : Tenant} :
    u ∈ before ++ t :: after ↔ u = t ∨ u ∈ before ++ after := by
  simp [or_left_comm]

omit [Resource ρ] in
/-- The other allocators stay in order while what is beside the one is kept. -/
theorem Sound.others (h : E.Sound b) {before after : List Tenant} {t : Tenant}
    (hE : E.tenants = before ++ t :: after) {m : Memory}
    (hk : ∀ x ∈ beside before after E.left, E.world.memory.Keeps m x) {u : Tenant}
    (hu : u ∈ before ++ after) : u.Sound b m :=
  (h.sound u (hE ▸ mem_split.2 (Or.inr hu))).congr fun x hx => hk x (mem_beside hu x hx)

omit [Resource ρ] in
/-- A live block of an allocator lies in a block that it has of the resource. -/
theorem Sound.inside (h : E.Sound b) {t : Tenant} (ht : t ∈ E.tenants) {x : Block}
    (hx : x ∈ t.blocks) : ∃ y ∈ t.footprint, x.Inside y := by
  obtain ⟨y, hy, rfl⟩ := List.mem_map.1 hx
  exact (h.sound t ht).inside hy

omit [Resource ρ] in
/-- An allocator's own blocks and those beside them are what is outstanding. -/
theorem Sound.accounts_beside (h : E.Sound b) {before after : List Tenant} {t : Tenant}
    (hE : E.tenants = before ++ t :: after) :
    Accounts E.world.events (t.footprint ++ beside before after E.left) := by
  have ha := h.accounts
  rw [held, hE] at ha
  exact ha.reorder (perm_held before after t E.left)

omit [Resource ρ] in
/-- So there are such blocks beside the own ones of any allocator. -/
theorem Sound.accounts_tenant (h : E.Sound b) {t : Tenant} (ht : t ∈ E.tenants) :
    ∃ rest, Accounts E.world.events (t.footprint ++ rest) := by
  obtain ⟨before, after, hE⟩ := List.append_of_mem ht
  exact ⟨_, h.accounts_beside hE⟩

/-- A deed on one allocator leaves it in order, and what is beside it as it was. -/
theorem Sound.upkeep (h : E.Sound b) {before after : List Tenant} {t : Tenant}
    (hE : E.tenants = before ++ t :: after) {d : Deed} (hd : t.Allows d)
    {out : Except Failure Reply} {c' : Custody} {w' : World ρ}
    (hact : Custody.act b d ⟨t.toCustody, E.world⟩ = Action.ending out ⟨c', w'⟩)
    (hg : Honoured w'.events) :
    Custody.Upkeep b (beside before after E.left) d out t.toCustody E.world c' w' :=
  (Custody.ends_act (h.sound t (hE ▸ mem_split.2 (Or.inl rfl))) (h.accounts_beside hE)
    hd).elim hact hg

/-- To drop one gives back all that it has but what remains with its holders, and
leaves what is beside it as it was. -/
theorem Sound.dropped (h : E.Sound b) {before after : List Tenant} {t : Tenant}
    (hE : E.tenants = before ++ t :: after) {out : Except Failure Unit} {k : Allocator}
    {w' : World ρ}
    (hcl : Allocator.close ⟨t.allocator, E.world⟩ = Action.ending out ⟨k, w'⟩) :
    Accounts w'.events (t.remains ++ beside before after E.left) ∧
      ∀ x ∈ t.remains ++ beside before after E.left, E.world.memory.Keeps w'.memory x := by
  obtain ⟨k', w₁, hcl', hacc, hk⟩ :=
    Custody.close_cases (h.sound t (hE ▸ mem_split.2 (Or.inl rfl))) (h.accounts_beside hE)
  -- it ends in one way only, so this is the world that it has led to
  obtain rfl : w₁ = w' := Action.world_eq_of_ending (hcl'.symm.trans hcl)
  exact ⟨hacc, hk⟩

/-! ## Every run -/

/-- **A step keeps the invariant.** -/
theorem Sound.step (h : E.Sound b) (hst : Step b E mv E') : E'.Sound b := by
  cases hst with
  | @opened kind label capacity k w' hc hg =>
    obtain ⟨hs, ha, hk⟩ := Custody.create_ok hc hg h.accounts b
    -- the new allocator first, and the others as they were
    refine ⟨?_, fun t ht => ?_, fun t ht hkind => ?_⟩
    · show Accounts w'.events ((Custody.opened k).footprint ++ _ ++ _)
      rw [List.append_assoc]
      exact ha
    · rcases List.mem_cons.1 ht with rfl | ht
      · exact hs
      · exact (h.sound t ht).congr fun x hx =>
          hk x (List.mem_append_left _ (List.mem_flatMap.2 ⟨t, ht, hx⟩))
    · rcases List.mem_cons.1 ht with rfl | ht
      · obtain ⟨a, l, he, hf⟩ := Custody.create_region hc hkind
        refine ⟨a, l, ?_, hf⟩
        show since E.world.events w'.events = _
        rw [he, since_taken]
      · exact h.made t ht hkind
  | declined hc hg =>
    obtain ⟨ha, hm⟩ := Custody.create_error hc h.accounts
    exact ⟨ha, hm ▸ h.sound, h.made⟩
  | @acted before after t d out c' w' hE hd hact hg =>
    have hmem : t ∈ E.tenants := hE ▸ mem_split.2 (Or.inl rfl)
    have hu := h.upkeep hE hd hact hg
    refine ⟨?_, fun u hu' => ?_, fun u hu' hkind => ?_⟩
    · exact hu.accounts.reorder
        (perm_held before after (t.after c' E.world.events w'.events) E.left).symm
    · rcases mem_split.1 hu' with rfl | hu'
      · exact hu.sound
      · exact h.others hE hu.keeps_rest hu'
    · rcases mem_split.1 hu' with rfl | hu'
      · -- a buffer that has been used has made no call more
        have hkt : t.allocator.isHeap = false := hu.kind ▸ hkind
        obtain ⟨hcalls, hfoot⟩ := hu.quiet hkt
        obtain ⟨a, l, hm, hf⟩ := h.made t hmem hkt
        refine ⟨a, l, ?_, hfoot.trans hf⟩
        show since E.world.events w'.events ++ t.made = _
        rw [since_of_calls_eq hcalls, hm]
        rfl
      · exact h.made u (hE ▸ mem_split.2 (Or.inr hu')) hkind
  | @closed before after t out k w' hE hcl hg =>
    obtain ⟨hacc, hk⟩ := h.dropped hE hcl
    refine ⟨hacc.reorder ?_, fun u hu => ?_, fun u hu => ?_⟩
    · show (t.remains ++ beside before after E.left).Perm
        ((before ++ after).flatMap (·.footprint) ++ (t.remains ++ E.left))
      rw [beside, ← List.flatMap_append, ← List.append_assoc, ← List.append_assoc]
      exact List.perm_append_comm.append_right _
    · exact h.others hE (fun x hx => hk x (List.mem_append_right _ hx)) hu
    · exact h.made u (hE ▸ mem_split.2 (Or.inr hu))

/-- **The invariant holds of every reachable state.** -/
theorem Reachable.sound (h : Reachable b E) : E.Sound b := by
  induction h with
  | start r m =>
    exact ⟨Accounts.nil, nofun, nofun⟩
  | step _ hst ih => exact ih.step hst

end Estate

end Allocators
