import Allocators.Proofs.Account
import Allocators.Proofs.Interruption
import Allocators.Proofs.Shell.Listing
/-!
# Sessions that end

A session that ends first frees its blocks one by one, if its allocator is a
heap, and then ends the allocator. What it lists has to be live for that, and
the session of a heap has to list all that is (`Session.Kept`): a stack or an
arena gives its region back whatever is listed. Then no free finds fault, and
everything that was ever taken for the allocator has been given back
(`Session.Kept.close`), in either build and whatever order the blocks are
freed in.
-/

namespace Allocators

open Trace

namespace Trace

variable {es es' es'' : Trace}

/-- Between the two histories blocks were given back, and nothing else was asked
of the resource. -/
def HandsBack (es es' : Trace) : Prop :=
  ∃ given, calls es' = given ++ calls es ∧ ∀ e ∈ given, ∃ a l, e = .given a l

/-- Nothing was asked. -/
theorem HandsBack.refl (es : Trace) : HandsBack es es := ⟨[], rfl, nofun⟩

/-- One after the other. -/
theorem HandsBack.trans (h : HandsBack es es') (h' : HandsBack es' es'') : HandsBack es es'' := by
  obtain ⟨given, hc, hg⟩ := h
  obtain ⟨given', hc', hg'⟩ := h'
  refine ⟨given' ++ given, by rw [hc', hc, List.append_assoc], fun e he => ?_⟩
  exact (List.mem_append.1 he).elim (hg' e) (hg e)

/-- The calls of both, the later ones first. -/
theorem HandsBack.since_trans (h : HandsBack es es') (h' : HandsBack es' es'') :
    since es es'' = since es' es'' ++ since es es' := by
  obtain ⟨given, hc, -⟩ := h
  obtain ⟨given', hc', -⟩ := h'
  rw [since_eq hc, since_eq hc']
  exact since_eq (by rw [hc', hc, List.append_assoc])

end Trace

/-! ## Ending an allocator -/

/-- What the end of an allocator asks of the resource is to take blocks back. -/
theorem Custody.given_of_mem_handsBack {c : Custody} {e : Event} (he : e ∈ c.handsBack) :
    ∃ a l, e = .given a l := by
  obtain ⟨k, live, pending⟩ := c
  have hbuffer : ∀ {p : Prop} [Decidable p] {s : Buffer},
      e ∈ (if p then [Event.given s.region.base s.region.layout] else []) →
        ∃ a l, e = .given a l := by
    intro p _ s h
    split at h
    · exact ⟨_, _, List.mem_singleton.1 h⟩
    · cases h
  cases k with
  | heap s =>
    obtain ⟨r, -, rfl⟩ := List.mem_map.1 (List.mem_reverse.1 he)
    exact ⟨_, _, rfl⟩
  | stack s => exact hbuffer he
  | arena s => exact hbuffer he

/-- An allocator without callbacks leaves nothing behind, if it is no heap with
live blocks. -/
theorem Custody.remains_eq_nil {c : Custody} (hp : c.pending = [])
    (hb : c.allocator.isHeap = true → c.blocks = []) : c.remains = [] := by
  obtain ⟨k, live, pending⟩ := c
  obtain rfl : pending = [] := hp
  unfold remains
  cases k with
  | heap s => exact List.append_eq_nil_iff.2 ⟨hb (Allocator.isHeap_heap s), rfl⟩
  | stack s => simp only [List.not_mem_nil, IsEmpty.forall_iff, implies_true, if_true]
  | arena s => simp only [List.not_mem_nil, IsEmpty.forall_iff, implies_true, if_true]

/-- **A heap frees any block that is live**, and no longer answers for it. -/
theorem Custody.deallocate_of_mem {ρ : Type} [Resource ρ] {b : Build} {w : World ρ} {c : Custody}
    {rest : List Block} (hs : c.Sound b w.memory) (ha : Accounts w.events (c.footprint ++ rest))
    (hk : c.allocator.isHeap = true) {a : Nat} {l : Layout} (hm : Block.of a l ∈ c.blocks) :
    ∃ k w', Allocator.deallocate b a l ⟨c.allocator, w⟩ = .ok () ⟨k, w'⟩ ∧
      k.isHeap = true ∧ calls w'.events = .given a l :: calls w.events := by
  have hal : a % l.align = 0 := (hs.placed ha _ hm).aligned
  obtain ⟨k, live, pending⟩ := c
  obtain ⟨s, rfl⟩ := Allocator.exists_heap hk
  have hlisted : b = .debug → s.ledger.find? a = some l := fun hb =>
    (Heap.Sound.listed hs hb a l).2 hm
  have hfree := Heap.deallocate_apply hal hlisted w
  exact ⟨_, _, Action.on_of_ok hfree _, Allocator.isHeap_heap _, rfl⟩

namespace Estate

variable {ρ : Type} [Resource ρ] {b : Build} {w w' w'' : World ρ} {before after : List Tenant}
variable {t t' t'' : Tenant} {left bs bs' : List Block}

/-- Blocks of this heap were freed, and the run goes on with these of its blocks
live. -/
structure Freed (b : Build) (before after : List Tenant) (left : List Block) (t : Tenant)
    (w : World ρ) (bs : List Block) (t' : Tenant) (w' : World ρ) : Prop where
  reachable : Reachable b ⟨w', before ++ t' :: after, left⟩
  heap : t'.allocator.isHeap = true
  live : t'.blocks.Perm bs
  pending : t'.pending = t.pending
  handsBack : HandsBack w.events w'.events
  made : t'.made = since w.events w'.events ++ t.made

/-- Some were freed and then some more. -/
theorem Freed.trans (h : Freed b before after left t w bs t' w')
    (h' : Freed b before after left t' w' bs' t'' w'') :
    Freed b before after left t w bs' t'' w'' where
  reachable := h'.reachable
  heap := h'.heap
  live := h'.live
  pending := h'.pending.trans h.pending
  handsBack := h.handsBack.trans h'.handsBack
  made := by rw [h'.made, h.made, h.handsBack.since_trans h'.handsBack, List.append_assoc]

/-- A live block of a heap is freed, and the run goes on without it. -/
theorem Reachable.deallocate (hr : Reachable b ⟨w, before ++ t :: after, left⟩)
    (hk : t.allocator.isHeap = true) {a : Nat} {l : Layout}
    (hl : t.blocks.Perm (Block.of a l :: bs)) :
    ∃ t' w', Allocator.deallocate b a l ⟨t.allocator, w⟩ = .ok () ⟨t'.allocator, w'⟩ ∧
      Freed b before after left t w bs t' w' := by
  have hs := hr.sound.sound t (by simp)
  obtain ⟨rest, ha⟩ := hr.sound.accounts_tenant (t := t) (by simp)
  have hmem : Block.of a l ∈ t.blocks := hl.mem_iff.2 List.mem_cons_self
  obtain ⟨k, w', hfree, hheap, hcalls⟩ := Custody.deallocate_of_mem hs ha hk hmem
  obtain ⟨x, hx, hxb⟩ := List.mem_map.1 hmem
  have hlaw : t.Allows (.call (.deallocate a l)) := ⟨x, hx, hxb.symm⟩
  have hact : Custody.act b (.call (.deallocate a l)) ⟨t.toCustody, w⟩ =
      .ok .done ⟨t.toCustody.answered k (.deallocate a l) .done, w'⟩ :=
    Custody.act_of_map_ok (g := fun _ => .done) rfl hfree
  have hback : HandsBack w.events w'.events :=
    ⟨[.given a l], hcalls, fun e he => ⟨a, l, List.mem_singleton.1 he⟩⟩
  have hg : Honoured w'.events := by
    rw [← honoured_calls, hcalls]
    exact (honoured_calls w.events).2 ha.honoured
  have hr' := hr.step (.acted rfl hlaw (hact : _ = Action.ending (.ok .done) _) hg)
  refine ⟨_, w', ?_, hr', ?_, ?_, rfl, hback, rfl⟩
  · exact hfree
  · exact hheap
  -- what is erased is the block itself
  · have hdistinct := hs.distinct ha
    obtain ⟨⟨k₀, live, pending⟩, made⟩ := t
    obtain ⟨s, rfl⟩ := Allocator.exists_heap hk
    obtain ⟨newer, older, rfl⟩ := List.append_of_mem hx
    obtain rfl : x.address = a := congrArg Block.address hxb
    show (((newer ++ x :: older).eraseP (·.address = x.address)).map Holding.toBlock).Perm bs
    rw [Holding.eraseP_split (Custody.Distinct.address_ne hdistinct)]
    have hsplit : ((newer ++ x :: older).map Holding.toBlock).Perm
        (x.toBlock :: (newer ++ older).map Holding.toBlock) := List.perm_middle.map _
    rw [← hxb] at hl
    exact (hsplit.symm.trans hl).cons_inv

/-- **All of a heap's blocks are freed** one by one, in any order. -/
theorem Reachable.freeAll (hr : Reachable b ⟨w, before ++ t :: after, left⟩)
    (hk : t.allocator.isHeap = true) {es : List (Nat × Layout)}
    (hl : t.blocks.Perm (es.map fun e => Block.of e.1 e.2)) :
    ∃ t' w', Session.freeAll b es ⟨t.allocator, w⟩ = .ok () ⟨t'.allocator, w'⟩ ∧
      Freed b before after left t w [] t' w' := by
  induction es generalizing t w with
  | nil =>
    have hmade : t.made = since w.events w.events ++ t.made := by
      rw [since_of_calls_eq rfl]
      rfl
    exact ⟨t, w, rfl, hr, hk, hl, rfl, .refl w.events, hmade⟩
  | cons e es ih =>
    obtain ⟨u, v, hfree, hfreed⟩ := hr.deallocate hk hl
    obtain ⟨t', w', hall, hfreed'⟩ := ih hfreed.reachable hfreed.heap hfreed.live
    refine ⟨t', w', ?_, hfreed.trans hfreed'⟩
    rw [Session.freeAll, Action.bind_apply, hfree]
    exact hall

/-- **An allocator ends and leaves nothing behind** if no callback is registered
on it and, if it is a heap, no block of it is live. -/
theorem Reachable.close_quiet (hr : Reachable b ⟨w, before ++ t :: after, left⟩)
    (hp : t.pending = []) (hb : t.allocator.isHeap = true → t.blocks = []) :
    ∃ (k : Allocator) (w' : World ρ), Allocator.close ⟨t.allocator, w⟩ = .ok () ⟨k, w'⟩ ∧
      Reachable b ⟨w', before ++ after, left⟩ ∧ HandsBack w.events w'.events ∧
      Accounts (since w.events w'.events ++ t.made) [] := by
  have hs := hr.sound.sound t (by simp)
  obtain ⟨rest, ha⟩ := hr.sound.accounts_tenant (t := t) (by simp)
  obtain ⟨k, w', hclose, -, hcalls⟩ := Custody.close_handsBack hs ha
  have hout : runOutcome t.due = .ok () := by rw [Custody.due, hp]; rfl
  rw [hout] at hclose
  have hback : HandsBack w.events w'.events :=
    ⟨t.handsBack, hcalls, fun e he => Custody.given_of_mem_handsBack he⟩
  have hnone : t.remains = [] := Custody.remains_eq_nil hp hb
  obtain ⟨k', w₁, hclose', hacc, -⟩ := Custody.close_cases hs ha
  obtain rfl : w₁ = w' := Action.world_eq_of_ending (hclose'.symm.trans hclose)
  have hend : Allocator.close ⟨t.allocator, w⟩ = Action.ending (.ok ()) ⟨k, w₁⟩ := hclose
  have hr' := hr.step (.closed rfl hend hacc.honoured)
  have hown := Custody.accounts_close hs (hr.accounts_made t (by simp)) hend
  rw [hnone] at hr' hown
  exact ⟨k, w₁, hclose, hr', hback, hown⟩

end Estate

/-! ## Ending a session -/

/-- It is heaps whose blocks are freed one by one. -/
theorem Session.freesBlocks_eq (x : Session) : x.freesBlocks = x.allocator.isHeap := by
  obtain ⟨k, blocks⟩ := x
  cases k with
  | heap s =>
    rw [Allocator.isHeap_heap]
    show (s.features.has .freeAndRealloc && !s.features.has .stacklike) = true
    unfold Heap.features
    cases s.zeroed <;> decide
  | stack s =>
    show (Stack.features.has .freeAndRealloc && !Stack.features.has .stacklike) = false
    decide
  | arena s =>
    show (Arena.features.has .freeAndRealloc && !Arena.features.has .stacklike) = false
    decide

/-- The session has this allocator, on which no callback is registered, and lists
live blocks only; if it has to free them, it lists all. -/
structure Session.Kept (x : Session) (c : Custody) : Prop where
  allocator : x.allocator = c.allocator
  pending : c.pending = []
  live : ∀ y ∈ x.blocks.blocks, y ∈ c.blocks
  all : c.allocator.isHeap = true → x.blocks.Lists c.blocks

/-- The order of its blocks does not matter. -/
theorem Session.Kept.reorder {x : Session} {c : Custody} (hx : x.Kept c)
    {entries : List (Nat × Layout)} (hp : x.blocks.entries.Perm entries) :
    Session.Kept ⟨x.allocator, ⟨entries⟩⟩ c := by
  have hblocks : x.blocks.blocks.Perm (⟨entries⟩ : Ledger).blocks := hp.map _
  exact ⟨hx.allocator, hx.pending, fun y hy => hx.live y (hblocks.mem_iff.2 hy),
    fun h => hblocks.symm.trans (hx.all h)⟩

/-- **A session that ends finds no fault** and leaves nothing behind, and the
account of its allocator is settled. -/
theorem Session.Kept.close {ρ : Type} [Resource ρ] {b : Build} {w : World ρ}
    {before after : List Tenant} {t : Tenant} {left : List Block} {x : Session}
    (hx : x.Kept t.toCustody) (hr : Estate.Reachable b ⟨w, before ++ t :: after, left⟩) :
    ∃ w', x.close b w = (none, w') ∧ Estate.Reachable b ⟨w', before ++ after, left⟩ ∧
      HandsBack w.events w'.events ∧ Settled (since w.events w'.events ++ t.made) := by
  obtain ⟨halloc, hpending, -, hall⟩ := hx
  unfold Session.close
  rw [Session.freesBlocks_eq, halloc]
  cases hk : t.allocator.isHeap with
  | true =>
    obtain ⟨t', w', hfree, hfreed⟩ := hr.freeAll hk (hall hk).symm
    obtain ⟨k, w'', hclose, hr'', hback, hown⟩ :=
      hfreed.reachable.close_quiet (hfreed.pending.trans hpending) fun _ => hfreed.live.eq_nil
    refine ⟨w'', ?_, hr'', hfreed.handsBack.trans hback, ?_⟩
    · simp only [if_true, hfree, hclose]
    · rw [hfreed.handsBack.since_trans hback, List.append_assoc, ← hfreed.made]
      exact hown.settled
  | false =>
    obtain ⟨k, w', hclose, hr', hback, hown⟩ :=
      hr.close_quiet hpending fun h => absurd (hk.symm.trans h) Bool.false_ne_true
    refine ⟨w', ?_, hr', hback, hown.settled⟩
    simp only [Bool.false_eq_true, if_false, Action.pure_apply, hclose]

end Allocators
