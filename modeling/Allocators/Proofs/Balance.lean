import Allocators.Proofs.Replay
/-!
# What is taken from the resource is accounted for

After every step of a run the blocks taken from the resource and not
given back are just the ones that some allocator has: a heap its live
blocks and one entry for each registered callback, a stack or an arena
its one region (`Reachable.outstanding_accounted`). No block is given back that is
not outstanding, or with another layout than it was taken with. A heap's
counters are exact, although they are words, and an allocator that ends
gives back all it answers for but the blocks still live, as long as no
callback fails.
-/

namespace Allocators

open Trace

namespace Estate

variable {ρ : Type} [Resource ρ] {b : Build} {E : Estate ρ}

/-- What a heap has of the resource: its live blocks and the entries of the
callbacks registered on it; its counters are the number of those
blocks and of their bytes, and an end in which every callback returns gives
back just the entries. -/
structure HeapBooks (E : Estate ρ) (t : Tenant) (s : Heap) : Prop where
  footprint : t.footprint = t.blocks ++ t.entries
  entry : ∀ x ∈ t.entries, x.size = 24 ∧ x.align = 8
  linked : Linked E.world.memory s.callbacks.head t.pending
  usage : s.usage = ⟨t.blocks.length, Block.total t.blocks⟩
  close : (∀ e ∈ t.pending, e.Returns) → ∃ k w', Allocator.close ⟨t.allocator, E.world⟩ =
    .ok () ⟨k, w'⟩ ∧ Balanced w'.events ∧
      (outstanding E.world.events).Perm (t.entries ++ outstanding w'.events)

/-- What a stack or an arena has of the resource: its region, the one block it
has asked for in all its life. No deed makes another
call, and an end in which every callback returns gives that block back and
makes no other. -/
structure BufferBooks (b : Build) (E : Estate ρ) (t : Tenant) (s : Buffer) : Prop where
  footprint : t.footprint = [s.region.block]
  made : t.made = [.taken s.region.layout (some s.region.base)]
  act : ∀ d out c' w', t.Allows d →
    Custody.act b d ⟨t.toCustody, E.world⟩ = Action.ending out ⟨c', w'⟩ →
      calls w'.events = calls E.world.events ∧ c'.footprint = t.footprint
  close : (∀ e ∈ t.pending, e.Returns) → ∃ k w', Allocator.close ⟨t.allocator, E.world⟩ =
    .ok () ⟨k, w'⟩ ∧
      calls w'.events = .given s.region.base s.region.layout :: calls E.world.events

/-- What several allocators have of the resource that they share. -/
structure Books (b : Build) (E : Estate ρ) : Prop where
  balanced : Balanced E.world.events
  outstanding : (outstanding E.world.events).Perm (E.tenants.flatMap (·.footprint) ++ E.left)
  heap : ∀ t ∈ E.tenants, ∀ s, t.allocator = .heap s → HeapBooks E t s
  buffer : ∀ t ∈ E.tenants, ∀ s, t.allocator = .stack s ∨ t.allocator = .arena s →
    BufferBooks b E t s
  refused : ∀ kind label capacity r w',
    Allocator.create kind label capacity E.world = (.error r, w') →
      Trace.outstanding w'.events = Trace.outstanding E.world.events

/-- Counters that have not wrapped are exact. -/
theorem usage_exact {es : Trace} {live others : List Block}
    (ha : Accounts es (live ++ others)) :
    Usage.of live = ⟨live.length, Block.total live⟩ := by
  have htotal := Block.total_append live others
  have hlen := Block.length_le_total fun x hx => (ha.placed x (List.mem_append_left _ hx)).size_pos
  -- blocks that are apart fit in the address space, so neither counter has wrapped
  have hlt := ha.total_lt
  rw [Usage.of, Nat.mod_eq_of_lt (by omega), Nat.mod_eq_of_lt (by omega)]

/-- A heap has what it should. -/
theorem Sound.heapBooks (h : E.Sound b) {t : Tenant} (ht : t ∈ E.tenants) {s : Heap}
    (hs : t.allocator = .heap s) : HeapBooks E t s := by
  obtain ⟨rest, ha⟩ := h.accounts_tenant ht
  have hsound := h.sound t ht
  obtain ⟨⟨k, live, pending⟩, made⟩ := t
  cases hs
  have hheap : s.Sound b E.world.memory (live.map Holding.toBlock) pending := hsound
  refine ⟨rfl, ?_, hheap.linked, ?_, fun hret => ?_⟩
  · intro x hx
    obtain ⟨e, -, rfl⟩ := List.mem_map.1 hx
    exact ⟨rfl, rfl⟩
  · have hacc : Accounts E.world.events (live.map Holding.toBlock ++ (pending.map _ ++ rest)) :=
      List.append_assoc _ _ _ ▸ ha
    exact hheap.used.trans (usage_exact hacc)
  · obtain ⟨k, w', hcl, hacc, -⟩ := Custody.close_cases hsound ha
    rw [runResult_of_returns hret] at hcl
    refine ⟨k, w', hcl, hacc.balanced, ?_⟩
    -- with every entry given back, the live blocks are what remains
    have hrem : Custody.remains ⟨.heap s, live, pending⟩ = live.map Holding.toBlock := by
      show live.map Holding.toBlock ++ (unreturned pending).map Registration.block = _
      rw [unreturned_of_returns hret, List.map_nil, List.append_nil]
    rw [hrem] at hacc
    refine ha.perm.trans ((List.Perm.trans ?_) (hacc.perm.symm.append_left _))
    show (live.map Holding.toBlock ++ pending.map Registration.block ++ rest).Perm _
    rw [← List.append_assoc]
    exact List.perm_append_comm.append_right rest

/-- So does a stack or an arena. -/
theorem Sound.bufferBooks (h : E.Sound b) {t : Tenant} (ht : t ∈ E.tenants) {s : Buffer}
    (hs : t.allocator = .stack s ∨ t.allocator = .arena s) : BufferBooks b E t s := by
  obtain ⟨rest, ha⟩ := h.accounts_tenant ht
  have hsound := h.sound t ht
  have hkind : t.allocator.isHeap = false := by
    rcases hs with hs | hs <;> rw [hs] <;> rfl
  have hfoot : t.footprint = [s.region.block] := by
    unfold Custody.footprint
    rcases hs with hs | hs <;> rw [hs] <;> rfl
  refine ⟨hfoot, ?_, fun d out c' w' hd hact => ?_, fun hret => ?_⟩
  · obtain ⟨a, l, hm, hf⟩ := h.made t ht hkind
    rw [hfoot] at hf
    obtain ⟨rfl, rfl⟩ := Block.of_inj (List.cons.inj hf).1
    exact hm
  · exact ((Custody.ends_act_buffer hkind hsound ha hd).elim hact).quiet hkind
  · have hn := runResult_of_returns hret
    obtain ⟨⟨k, live, pending⟩, made⟩ := t
    rcases hs with rfl | rfl
    · obtain ⟨w', hcl, -, hc⟩ := Buffer.close_of_ok (w := E.world) (Buffer.Sound.bounded hsound) hn
      exact ⟨_, _, Action.on_of_ok hcl _, congrArg (Event.given _ _ :: ·) hc⟩
    · obtain ⟨w', hcl, -, hc⟩ := Buffer.close_of_ok (w := E.world) (Buffer.Sound.bounded hsound) hn
      exact ⟨_, _, Action.on_of_ok hcl _, congrArg (Event.given _ _ :: ·) hc⟩

/-- **Whatever has been taken from the resource and not given back is accounted
for**, after every step of every run of several allocators over one resource. -/
theorem Reachable.outstanding_accounted (h : Reachable b E) : Books b E where
  balanced := h.sound.accounts.balanced
  outstanding := h.sound.accounts.perm
  heap := fun _ ht _ hs => h.sound.heapBooks ht hs
  buffer := fun _ ht _ hs => h.sound.bufferBooks ht hs
  refused := by
    intro kind label capacity r w' hc
    rcases Allocator.create_cases kind label capacity E.world with
      ⟨zeroed, h'⟩ | ⟨r', w₁, h', -, he⟩ | ⟨wrap, a, l, w₁, -, h', -⟩
    · cases h'.symm.trans hc
    · cases h'.symm.trans hc
      rcases he with he | ⟨l, he⟩ <;> rw [he]
      rfl
    · cases h'.symm.trans hc

/-- The books of the sample: a heap with a block and an entry, and a stack
with its region. -/
theorem outstanding_accounted_sample : (outstanding (sample .debug).world.events).length = 3 ∧
    (sample .debug).tenants.length = 2 ∧ Books .debug (sample .debug) :=
  ⟨rfl, rfl, (reachable_sample .debug).outstanding_accounted⟩

end Estate

end Allocators
