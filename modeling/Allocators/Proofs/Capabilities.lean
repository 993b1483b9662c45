import Allocators.Proofs.Faultless
import Allocators.Proofs.Formed
/-!
# Features tell the truth

Callers go by an allocator's features alone. What each feature promises, or
its absence, is a field of `Custody.Truthful`, and all of it holds at every
moment of every run of calls on an allocator of any kind, through whatever
nest of restrictions it is called: `Chronicle.features_truthful`.
-/

namespace Allocators

open Trace Allocators.Action

/-- A stack resizes a block where it is, and keeps no other beside it. -/
theorem Stack.yields_reallocate {ρ : Type} (b : Build) (r : Resize) :
    Yields (fun y => y.address = r.address ∧ y.kept = false)
      (reallocate b r : Action Buffer ρ Reallocation) :=
  -- whatever the steps before come to, the answer is made by the last
  .last fun _ => .last fun _ => .last fun _ => .last fun _ => .last fun _ => .last fun _ =>
    .last fun _ => .last fun _ => .last fun _ => .last fun _ => .last fun _ => .last fun _ =>
      .last fun _ => .last fun _ => ensures_pure fun _ _ => ⟨rfl, rfl⟩

/-! ## What features promise -/

/-- A remark has been left, and nothing else has happened. -/
def Scene.Remarked {κ ρ : Type} (s t : Scene κ ρ) : Prop :=
  ∃ label n, t = ⟨s.allocator, s.world.record (.noted label n)⟩

/-- So many bytes have become free: the usage of a heap has gone down by them,
or the space of a stack has gone up. -/
def Allocator.Reclaims (b : Build) (n : Nat) : Allocator → Allocator → Prop
  | heap s, heap t => t.usage.bytes + n = s.usage.bytes
  | stack s, stack t => ∃ free, s.region.free b = .ok free ∧ t.region.free b = .ok (free + n)
  | _, _ => False

/-- **What the features promise** of an allocator that is spoken to through a
nest, in the state that it is in. -/
structure Custody.Truthful {ρ : Type} [Resource ρ] (b : Build) (nest : List Restriction)
    (c : Custody) (w : World ρ) : Prop where
  /-- Others cannot move the top of a stack between two calls of a thread. -/
  consistent : (Restriction.features c.allocator nest).isConsistent = true
  /-- Nothing that is said to clear nothing does. -/
  clear : (Restriction.features c.allocator nest).has .clearing = false →
    ∀ out t, Restriction.perform b nest .clear ⟨c.allocator, w⟩ = ending out t →
      (∃ f, out = .error (.fault f)) ∨
        out = .ok .done ∧ Scene.Remarked ⟨c.allocator, w⟩ t
  /-- Where blocks are not resized one by one, none is. -/
  resize : (Restriction.features c.allocator nest).has .freeAndRealloc = false →
    ∀ r, ∃ t, Restriction.perform b nest (.reallocate r) ⟨c.allocator, w⟩ =
      .error (.refused .unsupported) t ∧ Scene.Remarked ⟨c.allocator, w⟩ t
  /-- Nor is any freed. -/
  free : (Restriction.features c.allocator nest).has .freeAndRealloc = false →
    ∀ a l out t, Restriction.perform b nest (.deallocate a l) ⟨c.allocator, w⟩ = ending out t →
      (∃ f, out = .error (.fault f)) ∨
        out = .ok .done ∧ Scene.Remarked ⟨c.allocator, w⟩ t
  /-- Blocks stay where they are. -/
  inPlace : (Restriction.features c.allocator nest).has .inPlace = true →
    ∀ r y t, Restriction.perform b nest (.reallocate r) ⟨c.allocator, w⟩ = .ok (.resized y) t →
      y.address = r.address
  /-- No block is kept beside the one that takes its place. -/
  keepOld : (Restriction.features c.allocator nest).has .keepOld = false →
    ∀ r y t, Restriction.perform b nest (.reallocate r) ⟨c.allocator, w⟩ = .ok (.resized y) t →
      y.kept = false
  /-- A block that shrinks sets free what it loses, neither more nor less. -/
  shrinkReclaims : (Restriction.features c.allocator nest).has .shrinkReclaims = true →
    ∀ r, c.Allows (.call (.reallocate r)) → r.flags.has .keepOldNocopy = false →
      ∀ y t, Restriction.perform b nest (.reallocate r) ⟨c.allocator, w⟩ = .ok (.resized y) t →
        y.size < r.size → c.allocator.Reclaims b (r.size - y.size) t.allocator
  /-- Any live block can be resized whatever else is live: only the resource can
  decline a plan for it. -/
  resizeAny : (Restriction.features c.allocator nest).has .stacklike = false →
    (Restriction.features c.allocator nest).has .freeAndRealloc = true →
      ∀ x ∈ c.blocks, ∀ r p, r.Describes x → r.plan b = .ok p → ∀ out t,
        Restriction.perform b nest (.reallocate r) ⟨c.allocator, w⟩ = ending out t →
          Honoured t.world.events →
            (∃ y, out = .ok (.resized y) ∧ y.size = p.newSize) ∨
              out = .error (.refused .outOfMemory) ∧
                ∃ l, l.size = p.newSize ∧ calls t.world.events = .taken l none :: calls w.events
  /-- And any can be freed, where frees are passed on: it is given back. -/
  freeAny : (Restriction.features c.allocator nest).has .stacklike = false →
    (Restriction.features c.allocator nest).has .freeAndRealloc = true →
      Restriction.noFree ∉ nest → ∀ x ∈ c.blocks, ∃ l t, Block.of x.address l = x ∧
        Restriction.perform b nest (.deallocate x.address l) ⟨c.allocator, w⟩ = .ok .done t ∧
          calls t.world.events = .given x.address l :: calls w.events
  /-- New blocks are zero. -/
  zeroInit : (Restriction.features c.allocator nest).has .zeroInit = true →
    ∀ call y t, Restriction.perform b nest call ⟨c.allocator, w⟩ = .ok (.block y) t →
      ∀ i, i < y.size → t.world.memory.byteAt (y.address + i) = 0
  /-- And of a block that has been resized, all but what survives. -/
  zeroResized : (Restriction.features c.allocator nest).has .zeroInit = true →
    ∀ r p, c.Allows (.call (.reallocate r)) → r.plan b = .ok p →
      ∀ y t, Restriction.perform b nest (.reallocate r) ⟨c.allocator, w⟩ = .ok (.resized y) t →
        Honoured t.world.events → ∀ i, i < y.size →
          (p.nocopy = true ∨ i < p.target ∨ p.target + p.kept ≤ i) →
            t.world.memory.byteAt (y.address + i) = 0

/-! ## Which kinds say what -/

/-- Features other than clearing are what the kind says, through any nest. -/
theorem Restriction.has_features_of_ne (k : Allocator) (nest : List Restriction) {f : Feature}
    (h : f ≠ .clearing) : (features k nest).has f = k.kind.features.has f := by
  rw [has_features, decide_eq_false h]
  simp

/-- What a heap says, but for zeros, is what every heap says. -/
theorem Heap.has_kind (s : Heap) {f : Feature} (h : f ≠ .zeroInit) :
    (Allocator.heap s).kind.features.has f = Heap.baseFeatures.has f := by
  show (if s.zeroed then AllocatorKind.zeroed else .heap).features.has f = _
  cases s.zeroed with
  | false => rfl
  | true =>
    show (Heap.baseFeatures.union (Flags.single .zeroInit)).has f = _
    have hbit : decide (FlagKind.bit Feature.zeroInit = FlagKind.bit f) =
        decide (f = .zeroInit) := by
      cases f <;> decide
    rw [Flags.has_union, Flags.has_single (Feature.bit_lt _), hbit, decide_eq_false h,
      Bool.or_false]

/-- A heap speaks of zeros if it zeroes. -/
theorem Heap.has_kind_zeroInit (s : Heap) :
    (Allocator.heap s).kind.features.has .zeroInit = s.zeroed := by
  show (if s.zeroed then AllocatorKind.zeroed else .heap).features.has .zeroInit = _
  cases s.zeroed <;> decide

/-- Features of which one is missing from each pair are consistent. -/
theorem Features.isConsistent_of_not {s : Features}
    (h : ¬ (s.has .stacklike = true ∧ s.has .threadsafe = true)) : s.isConsistent = true := by
  unfold isConsistent
  rw [Bool.not_eq_true', ← Bool.not_eq_true]
  intro hc
  have he : Flags.intersection s (Flags.ofList [.stacklike, .threadsafe]) =
      Flags.ofList [.stacklike, .threadsafe] := of_decide_eq_true hc
  have hsub : ∀ f : Feature, (Flags.ofList [Feature.stacklike, .threadsafe]).has f = true →
      s.has f = true := by
    intro f hf
    rw [← he, Flags.has_intersection] at hf
    exact (Bool.and_eq_true_iff.1 hf).1
  exact h ⟨hsub _ (by decide), hsub _ (by decide)⟩

/-! ## Promises of an absence -/

section Absent

variable {ρ : Type} [Resource ρ] {b : Build} {nest : List Restriction} {k : Allocator} {w : World ρ}

/-- A clear that is kept from its allocator leaves a remark. -/
theorem Restriction.remarked_of_noClear (h : noClear ∈ nest) {out : Except Failure Reply}
    {t : Scene Allocator ρ} (hp : perform b nest .clear ⟨k, w⟩ = ending out t) :
    out = .ok .done ∧ Scene.Remarked ⟨k, w⟩ t := by
  rw [perform, clear_of_mem h] at hp
  obtain ⟨rfl, rfl⟩ := ok_eq_ending_iff.1 hp
  exact ⟨rfl, none, .clearSuppressed, rfl⟩

/-- A free that is kept from its allocator leaves a remark. -/
theorem Restriction.remarked_of_noFree (h : noFree ∈ nest) {a : Nat} {l : Layout}
    {out : Except Failure Reply} {t : Scene Allocator ρ}
    (hp : perform b nest (.deallocate a l) ⟨k, w⟩ = ending out t) :
    out = .ok .done ∧ Scene.Remarked ⟨k, w⟩ t := by
  rw [perform, deallocate_of_mem h] at hp
  obtain ⟨rfl, rfl⟩ := ok_eq_ending_iff.1 hp
  exact ⟨rfl, none, .freeSuppressed a, rfl⟩

omit [Resource ρ] in
/-- A call that is a mistake is a fault in a debug build, and leaves a remark in
a release build. -/
theorem Action.fault_or_remarked {κ : Type} {part : κ} {whole : κ → Allocator}
    {x : Action κ ρ Unit} {f : Fault} {label : Option String} {n : Notice}
    (h : x ⟨part, w⟩ = match b with
      | .debug => .error (.fault f) ⟨part, w⟩
      | .release => .ok () ⟨part, w.record (.noted label n)⟩)
    {out : Except Failure Reply} {t : Scene Allocator ρ}
    (hp : ((fun _ => Reply.done) <$> Action.on part whole x) ⟨whole part, w⟩ = ending out t) :
    (∃ f, out = .error (.fault f)) ∨ out = .ok .done ∧ Scene.Remarked ⟨whole part, w⟩ t := by
  obtain ⟨o, hon, rfl⟩ := map_eq_ending_iff.1 hp
  obtain ⟨u, hx, rfl⟩ := on_eq_ending_iff.1 hon
  rw [h] at hx
  cases b with
  | debug =>
    obtain ⟨rfl, -⟩ := error_eq_ending_iff.1 hx
    exact Or.inl ⟨f, rfl⟩
  | release =>
    obtain ⟨rfl, rfl⟩ := ok_eq_ending_iff.1 hx
    exact Or.inr ⟨rfl, label, n, rfl⟩

/-- Without the feature a clear faults or does nothing. -/
theorem Allocator.clear_of_not_has (hf : (Restriction.features k nest).has .clearing = false)
    {out : Except Failure Reply} {t : Scene Allocator ρ}
    (hp : Restriction.perform b nest .clear ⟨k, w⟩ = ending out t) :
    (∃ f, out = .error (.fault f)) ∨ out = .ok .done ∧ Scene.Remarked ⟨k, w⟩ t := by
  by_cases hn : Restriction.noClear ∈ nest
  · exact Or.inr (Restriction.remarked_of_noClear hn hp)
  · rw [Restriction.has_features, decide_eq_false hn, Bool.and_false, Bool.not_false,
      Bool.and_true] at hf
    rw [Restriction.perform, Restriction.clear_of_not_mem hn] at hp
    cases k with
    | heap s => exact Action.fault_or_remarked (Heap.clear_apply b s w) hp
    | stack s => exact absurd (show Stack.features.has .clearing = false from hf) (by decide)
    | arena s => exact absurd (show Arena.features.has .clearing = false from hf) (by decide)

omit [Resource ρ] in
/-- Only an arena is without the feature of resizing and freeing blocks one by
one. -/
theorem Allocator.eq_arena_of_not_has
    (hf : (Restriction.features k nest).has .freeAndRealloc = false) : ∃ s, k = .arena s := by
  rw [Restriction.has_features_of_ne _ _ (by decide)] at hf
  cases k with
  | heap s =>
    rw [s.has_kind (by decide)] at hf
    exact absurd hf (by decide)
  | stack s => exact absurd (show Stack.features.has .freeAndRealloc = false from hf) (by decide)
  | arena s => exact ⟨s, rfl⟩

/-- An arena refuses to resize. -/
theorem Allocator.reallocate_arena (b : Build) (r : Resize) (s : Buffer) (w : World ρ) :
    reallocate b r ⟨.arena s, w⟩ = .error (.refused .unsupported)
      ⟨.arena s, w.record (.noted (some s.label) (.resizeRefused r.address))⟩ :=
  on_of_error (Arena.reallocate_apply r w) _

/-- Without it a resize is refused. -/
theorem Allocator.reallocate_of_not_has
    (hf : (Restriction.features k nest).has .freeAndRealloc = false) (r : Resize) :
    ∃ t, Restriction.perform b nest (.reallocate r) ⟨k, w⟩ = .error (.refused .unsupported) t ∧
      Scene.Remarked ⟨k, w⟩ t := by
  obtain ⟨s, rfl⟩ := Allocator.eq_arena_of_not_has hf
  exact ⟨_, by rw [Restriction.perform, map_apply, reallocate_arena], _, _, rfl⟩

/-- And a free faults or does nothing. -/
theorem Allocator.deallocate_of_not_has
    (hf : (Restriction.features k nest).has .freeAndRealloc = false) {a : Nat} {l : Layout}
    {out : Except Failure Reply} {t : Scene Allocator ρ}
    (hp : Restriction.perform b nest (.deallocate a l) ⟨k, w⟩ = ending out t) :
    (∃ f, out = .error (.fault f)) ∨ out = .ok .done ∧ Scene.Remarked ⟨k, w⟩ t := by
  by_cases hn : Restriction.noFree ∈ nest
  · exact Or.inr (Restriction.remarked_of_noFree hn hp)
  · obtain ⟨s, rfl⟩ := Allocator.eq_arena_of_not_has hf
    rw [Restriction.perform, Restriction.deallocate_of_not_mem hn] at hp
    exact Action.fault_or_remarked (Arena.deallocate_apply b a w) hp

/-- A resize that is granted, by a kind that is no heap, leaves the block where it
is and keeps none beside it. -/
theorem Allocator.resized_of_not_heap (hk : k.isHeap = false) {r : Resize} {y : Reallocation}
    {t : Scene Allocator ρ}
    (hp : Restriction.perform b nest (.reallocate r) ⟨k, w⟩ = .ok (.resized y) t) :
    y.address = r.address ∧ y.kept = false := by
  obtain ⟨y', hp, hy⟩ := map_eq_ok_iff.1 hp
  cases hy
  cases k with
  | heap s => simp at hk
  | stack s =>
    obtain ⟨u, hu, -⟩ := on_eq_ok_iff.1 hp
    exact (Stack.yields_reallocate b r).answered trivial hu
  | arena s =>
    rw [reallocate_arena] at hp
    cases hp

omit [Resource ρ] in
/-- Every heap keeps old blocks, and moves those that it resizes. -/
theorem Allocator.isHeap_eq_false (h : (Restriction.features k nest).has .inPlace = true ∨
    (Restriction.features k nest).has .keepOld = false) : k.isHeap = false := by
  rw [Restriction.has_features_of_ne _ _ (by decide),
    Restriction.has_features_of_ne _ _ (by decide)] at h
  cases k with
  | heap s =>
    rw [s.has_kind (by decide), s.has_kind (by decide)] at h
    exact absurd h (by decide)
  | stack s => rfl
  | arena s => rfl

end Absent

/-! ## Promises of a presence -/

section Present

variable {ρ : Type} [Resource ρ] {b : Build} {w : World ρ} {live : List Holding}
variable {pending : List Registration} {rest : List Block} {r : Resize} {y : Reallocation}

omit [Resource ρ] in
/-- A stack has what it gives up of its latest block free again. -/
theorem Stack.reclaims_of_reallocate {s : Buffer} {u : Scene Buffer ρ}
    (hs : s.Sound header w.memory live pending) {x : Holding} (hx : x ∈ live)
    (hr : r.Describes x.toBlock) (h : reallocate b r ⟨s, w⟩ = .ok y u) (hlt : y.size < r.size) :
    Allocator.Reclaims b (r.size - y.size) (.stack s) (.stack u.allocator) := by
  cases hp : r.plan b with
  | error e =>
    rw [reallocate_of_error w hp] at h
    cases h
  | ok p =>
    obtain ⟨newer, older, rfl⟩ := List.append_of_mem hx
    by_cases hn : newer = []
    · subst hn
      by_cases hroom : p.newSize ≤ headroom s x.address
      · rw [reallocate_top_of_room hs hr hp hroom] at h
        cases h
        obtain ⟨htop, hgap, -⟩ := hs.piled
        have hsize : r.size = x.size := hr.2.1
        have hcur := hs.cursor_le
        have hlt' : granted p (headroom s x.address) < r.size := hlt
        refine ⟨_, hs.bounded.free_eq b, ?_⟩
        have hle : x.address - s.region.base + granted p (headroom s x.address) ≤
            s.region.tail := by omega
        show b.sub s.region.tail (x.address - s.region.base + granted p (headroom s x.address)) = _
        rw [b.sub_of_le hle]
        congr 1
        show _ = s.region.tail - s.region.cursor + (r.size - granted p (headroom s x.address))
        omega
      · rw [reallocate_top_of_no_room hs hr hp hroom] at h
        cases h
    · rw [reallocate_under hs hn hr hp] at h
      cases h

end Present

/-! ## All promises -/

namespace Custody

variable {ρ : Type} [Resource ρ] {b : Build} {nest : List Restriction} {w : World ρ}
variable {kind : AllocatorKind} {others : List Block} {c : Custody}

/-- What a heap says of zeros is so, and no other kind speaks of them. -/
theorem zeroed_of_has {k : Allocator} (h : (Restriction.features k nest).has .zeroInit = true) :
    ∃ s, k = .heap s ∧ s.zeroed = true := by
  rw [Restriction.has_features_of_ne _ _ (by decide)] at h
  cases k with
  | heap s => exact ⟨s, rfl, s.has_kind_zeroInit ▸ h⟩
  | stack s => exact absurd (show Stack.features.has .zeroInit = true from h) (by decide)
  | arena s => exact absurd (show Arena.features.has .zeroInit = true from h) (by decide)

/-- Only a heap lets any block be resized and freed. -/
theorem heap_of_has {k : Allocator} (hst : (Restriction.features k nest).has .stacklike = false)
    (hf : (Restriction.features k nest).has .freeAndRealloc = true) : ∃ s, k = .heap s := by
  rw [Restriction.has_features_of_ne _ _ (by decide)] at hst hf
  cases k with
  | heap s => exact ⟨s, rfl⟩
  | stack s => exact absurd (show Stack.features.has .stacklike = false from hst) (by decide)
  | arena s => exact absurd (show Arena.features.has .freeAndRealloc = true from hf) (by decide)

/-- A heap that zeroes hands out zeros. -/
theorem byteAt_of_block {s : Heap} (hz : s.zeroed = true) {call : Call} {y : Allocation}
    {t : Scene Allocator ρ}
    (h : Restriction.perform b nest call ⟨.heap s, w⟩ = .ok (.block y) t) {i : Nat}
    (hi : i < y.size) : t.world.memory.byteAt (y.address + i) = 0 := by
  obtain ⟨l, hl⟩ : ∃ l, Allocator.allocate b l ⟨.heap s, w⟩ = .ok y t := by
    cases call with
    | allocate l =>
      obtain ⟨y', hy, he⟩ := map_eq_ok_iff.1 h
      cases he
      exact ⟨l, hy⟩
    | allocateBytes size =>
      obtain ⟨y', hy, he⟩ := map_eq_ok_iff.1 h
      cases he
      obtain ⟨l, -, hl⟩ := allocate_of_allocateBytes hy
      exact ⟨l, hl⟩
    | _ =>
      obtain ⟨_, -, he⟩ := map_eq_ok_iff.1 h
      cases he
  obtain ⟨u, hu, rfl⟩ := on_eq_ok_iff.1 hl
  obtain ⟨a, w', hd, rfl, hm⟩ := Heap.drawn_of_allocate hu
  show u.world.memory.byteAt (a + i) = 0
  rw [hm]
  exact World.byteAt_draw (hz ▸ hd) hi

/-- **Features tell the truth** about an allocator that is in order and has handed
out blocks of sizes that blocks can have. -/
theorem InOrder.tells_truth (hin : c.InOrder b kind others w)
    (hformed : c.allocator.isHeap = true → ∀ x ∈ c.blocks, x.Formed) (nest : List Restriction) :
    c.Truthful b nest w := by
  obtain ⟨k, live, pending⟩ := c
  have hheap : ∀ s, k = .heap s → s.Sound b w.memory (live.map Holding.toBlock) pending ∧
      Accounts w.events
        (live.map Holding.toBlock ++ (pending.map Registration.block ++ others)) := by
    rintro s rfl
    exact ⟨hin.sound, accounts_heap hin.accounts⟩
  constructor
  case consistent =>
    refine Features.isConsistent_of_not ?_
    rw [Restriction.has_features_of_ne _ _ (by decide),
      Restriction.has_features_of_ne _ _ (by decide)]
    generalize Allocator.kind _ = kind
    cases kind <;> decide
  case clear =>
    intro hf out t hp
    exact Allocator.clear_of_not_has hf hp
  case resize =>
    intro hf r
    exact Allocator.reallocate_of_not_has hf r
  case free =>
    intro hf a l out t hp
    exact Allocator.deallocate_of_not_has hf hp
  case inPlace =>
    intro hf r y t hp
    exact (Allocator.resized_of_not_heap (Allocator.isHeap_eq_false (Or.inl hf)) hp).1
  case keepOld =>
    intro hf r y t hp
    exact (Allocator.resized_of_not_heap (Allocator.isHeap_eq_false (Or.inr hf)) hp).2
  case shrinkReclaims =>
    rintro - r ⟨x, hx, hr⟩ hcopy y t hp hlt
    obtain ⟨y', hon, he⟩ := map_eq_ok_iff.1 hp
    cases he
    cases k with
    | heap s =>
      obtain ⟨hs, ha⟩ := hheap s rfl
      obtain ⟨u, hu, rfl⟩ := on_eq_ok_iff.1 hon
      exact Heap.usage_of_reallocate hs ha hx hr hcopy hu hlt
    | stack s =>
      obtain ⟨u, hu, rfl⟩ := on_eq_ok_iff.1 hon
      exact Stack.reclaims_of_reallocate hin.sound hx hr hu hlt
    | arena s =>
      rw [Allocator.reallocate_arena] at hon
      cases hon
  case resizeAny =>
    intro hst hf x hx r p hr hp out t hperf hg
    obtain ⟨s, rfl⟩ := heap_of_has hst hf
    obtain ⟨hs, ha⟩ := hheap s rfl
    obtain ⟨h, hh, rfl⟩ := List.mem_map.1 hx
    obtain ⟨o, hon, rfl⟩ := map_eq_ending_iff.1 hperf
    obtain ⟨u, hu, rfl⟩ := on_eq_ending_iff.1 hon
    have hf := hformed (Allocator.isHeap_heap s) _ hx
    rcases Heap.ending_of_reallocate hs ha hh hr hf hp hu hg with
      ⟨y, rfl, hsize⟩ | ⟨rfl, hl⟩
    · exact Or.inl ⟨y, rfl, hsize⟩
    · exact Or.inr ⟨rfl, hl⟩
  case freeAny =>
    intro hst hf hn x hx
    obtain ⟨s, rfl⟩ := heap_of_has hst hf
    obtain ⟨hs, ha⟩ := hheap s rfl
    obtain ⟨h, hh, rfl⟩ := List.mem_map.1 hx
    obtain ⟨l, u, hl, hu, hcalls⟩ := Heap.deallocate_of_mem hs ha hh
    refine ⟨l, ⟨.heap u.allocator, u.world⟩, hl, ?_, hcalls⟩
    rw [Restriction.perform, Restriction.deallocate_of_not_mem hn]
    exact map_eq_ok_iff.2 ⟨(), on_eq_ok_iff.2 ⟨u, hu, rfl⟩, rfl⟩
  case zeroInit =>
    intro hf call y t hp i hi
    obtain ⟨s, rfl, hz⟩ := zeroed_of_has hf
    exact byteAt_of_block hz hp hi
  case zeroResized =>
    rintro hf r p ⟨x, hx, hr⟩ hp y t hperf hg i hi hout
    obtain ⟨s, rfl, hz⟩ := zeroed_of_has hf
    obtain ⟨hs, ha⟩ := hheap s rfl
    obtain ⟨y', hon, he⟩ := map_eq_ok_iff.1 hperf
    cases he
    obtain ⟨u, hu, rfl⟩ := on_eq_ok_iff.1 hon
    exact Heap.byteAt_of_reallocate hs ha hx hr hz hp hu hg hi hout

end Custody

namespace Chronicle

variable {ρ : Type} [Resource ρ] {b : Build} {kind : AllocatorKind} {B : Book ρ}

/-- **Features tell the truth** at every moment of every run of calls on an
allocator, whatever its kind and through whatever nest of restrictions; and they
are the same at all of them. -/
theorem features_truthful (h : Chronicle b Custody.Admits kind B) (nest : List Restriction) :
    (∀ B' : Book ρ, Chronicle b Custody.Admits kind B' →
      Restriction.features B'.custody.allocator nest =
        Restriction.features B.custody.allocator nest) ∧
    B.custody.Truthful b nest B.world := by
  obtain ⟨others, hin⟩ := h.inOrder steady_admits
  refine ⟨fun B' h' => Restriction.features_congr (h'.kind_eq.trans h.kind_eq.symm) nest, ?_⟩
  refine hin.tells_truth (fun hk x hx => ?_) nest
  obtain ⟨y, hy, rfl⟩ := List.mem_map.1 hx
  exact h.formed hk y hy

end Chronicle

/-- A heap with zeros over a small pool that has handed out nothing. -/
def newZeroed : Book Pool :=
  ⟨[], .opened (.heap (.create "zeroed" true)), .start (Pool.ofSize 4096)⟩

/-- Three blocks, of which the second is written, then loses its front and grows
at its back, and the first is freed before the others; a clear is kept from
the heap, and the third block is kept beside the one that is to replace it. -/
def rearranging : List (List Restriction × Deed) :=
  [([], .call (.allocate Estate.sampleLayout)), ([.noClear], .call (.allocateBytes 40)),
    ([], .call (.allocate Layout.entry)), ([], .write 0x100000020 40 fun _ _ => 7),
    ([], .call (.reallocate ((Resize.ofBlock 0x100000020 40 16).edits
      [.shrinkFront 30, .expandBack 6 6]))),
    ([.noFree, .noClear], .call .clear),
    ([], .call (.deallocate 0x100000000 Estate.sampleLayout)),
    ([], .call (.reallocate ((Resize.ofBlock 0x100000048 24 8).edit .keepOldNocopy)))]

/-- All of them are answered, three blocks are live at the end, and the features
tell the truth. -/
theorem features_truthful_rearranging :
    ((newZeroed.turns .debug rearranging).pages.map fun p => p.outcome.isOk) =
      [true, true, true, true, true, true, true, true] ∧
    (newZeroed.turns .debug rearranging).custody.blocks.length = 3 ∧
    (Restriction.features (newZeroed.turns .debug rearranging).custody.allocator
      [.noClear]).has .zeroInit = true ∧
    (newZeroed.turns .debug rearranging).custody.Truthful .debug [.noClear]
      (newZeroed.turns .debug rearranging).world := by
  have hc : Allocator.create .zeroed "zeroed" 0 (.start (Pool.ofSize 4096)) =
      (.ok (.heap (.create "zeroed" true)), .start (Pool.ofSize 4096)) := rfl
  have hmade : Chronicle .debug Custody.Admits .zeroed newZeroed := .made Accounts.nil hc trivial
  have hfair : newZeroed.Fair .debug Custody.Admits rearranging := by decide +kernel
  exact ⟨by decide +kernel, by decide +kernel, by decide +kernel,
    ((hmade.turns hfair).features_truthful [.noClear]).2⟩

end Allocators
