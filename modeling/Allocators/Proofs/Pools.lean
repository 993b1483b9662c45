import Allocators.Proofs.Ordinary
import Allocators.Resource.Pool
/-!
# Pools keep their part

A pool never uses a place twice, so whatever it is asked for, each block it
hands out is apart from all the others, and in the lower half of the address
space if the pool is. What it is asked for does not matter, so it keeps its
part in every history (`Pool.closed_sound`): with a pool one need not
suppose it.
-/

namespace Allocators

open Trace

namespace Pool

/-- The pool lies in the lower half of the address space, and not at its very
start. -/
structure Seated (p : Pool) : Prop where
  base_pos : 0 < p.base
  lower : 2 * (p.base + p.size) ≤ Word.size

instance (p : Pool) : Decidable p.Seated :=
  decidable_of_iff (0 < p.base ∧ 2 * (p.base + p.size) ≤ Word.size)
    ⟨fun h => ⟨h.1, h.2⟩, fun h => ⟨h.base_pos, h.lower⟩⟩

/-- A pool in a world is in order: the history is ordinary, and whatever is
outstanding lies below the pool's cursor. -/
structure Sound (w : World Pool) : Prop where
  seated : w.resource.Seated
  ordinary : Ordinary w.events
  below : ∀ x ∈ outstanding w.events, x.address + x.size ≤ w.resource.base + w.resource.cursor

/-- A pool that nothing has been asked for is in order. -/
theorem Seated.sound_start {p : Pool} (h : p.Seated) : Sound (World.start p) :=
  ⟨h, ⟨trivial, nofun⟩, nofun⟩

/-- A pool stays where it is. -/
theorem take_stays (p : Pool) (l : Layout) :
    (p.take l).2.base = p.base ∧ (p.take l).2.size = p.size := by
  unfold take
  split
  · exact ⟨rfl, rfl⟩
  · split <;> exact ⟨rfl, rfl⟩

/-- A request that it declines leaves its cursor where it is. -/
theorem take_eq_none {p p' : Pool} {l : Layout} (h : p.take l = (none, p')) :
    p'.cursor = p.cursor := by
  unfold take at h
  split at h
  · cases h
    rfl
  · split at h
    · cases h
    · cases h
      rfl

/-- A pool's block could be handed out. -/
theorem Sound.grantable {w : World Pool} (h : Sound w) {l : Layout} {g : Grant} {p : Pool}
    (ht : w.resource.take l = (some g, p)) :
    Grantable (Block.of g.address l) (outstanding w.events) := by
  obtain ⟨hlow, hend, hal, -⟩ := take_eq_some ht
  have hpos := h.seated.base_pos
  have hlower := h.seated.lower
  have hsize := l.size_pos
  have hword : Word.size = 2 * (Word.maxDistance + 1) := rfl
  refine ⟨?_, hal, ?_, fun y hy => Or.inr ?_⟩
  · show 0 < g.address
    omega
  · show g.address + l.size < Word.size
    omega
  · show y.address + y.size ≤ g.address
    have hbelow := h.below y hy
    omega

/-- **A pool in order stays in order**, whatever it is asked for. -/
theorem closed_sound : World.Closed Sound where
  noted _ _ h := ⟨h.seated, h.ordinary.of_calls ⟨[], rfl, nofun⟩, h.below⟩
  write _ h := ⟨h.seated, h.ordinary, h.below⟩
  take {w} l h := by
    obtain ⟨hbase, hsize⟩ := take_stays w.resource l
    have hseated : (w.resource.take l).2.Seated := by
      refine ⟨?_, ?_⟩
      · rw [hbase]
        exact h.seated.base_pos
      · rw [hbase, hsize]
        exact h.seated.lower
    have htake : Resource.take w.resource l = w.resource.take l := rfl
    unfold World.take
    rw [htake]
    cases ht : w.resource.take l with
    | mk out p =>
      rw [ht] at hbase hsize hseated
      cases out with
      | none =>
        refine ⟨hseated, ⟨h.ordinary.honoured, ?_⟩, fun x hx => ?_⟩
        · rintro e (_ | ⟨_, he⟩)
          · trivial
          · exact h.ordinary.lower e he
        · rw [hbase, take_eq_none ht]
          exact h.below x hx
      | some g =>
        obtain ⟨hlow, hend, -, hcursor⟩ := take_eq_some ht
        have hlower := h.seated.lower
        refine ⟨hseated, ⟨⟨h.grantable ht, h.ordinary.honoured⟩, ?_⟩, fun x hx => ?_⟩
        · rintro e (_ | ⟨_, he⟩)
          · show 2 * (g.address + l.size) ≤ Word.size
            omega
          · exact h.ordinary.lower e he
        · show x.address + x.size ≤ p.base + p.cursor
          rcases List.mem_cons.1 hx with rfl | hx
          · exact hcursor.ge
          · have hbelow := h.below x hx
            omega
  give a l h :=
    ⟨h.seated, h.ordinary.of_calls ⟨[.given a l], rfl, fun e he => ⟨a, l, List.mem_singleton.1 he⟩⟩,
      fun x hx => h.below x (List.mem_of_mem_erase hx)⟩

/-- A callback that runs leaves it in order too. -/
theorem keptByRuns_sound : World.KeptByRuns Sound := fun _ _ h =>
  ⟨h.seated, h.ordinary.of_calls ⟨[], rfl, nofun⟩, h.below⟩

end Pool

end Allocators
