import Allocators.Proofs.Replay
/-!
# A live block belongs to its holder

Between two steps of a run the bytes of a live block change only by its
holder's leave: by a write into it, or by a resize of it that is granted
(`Reachable.touched_of_byte_ne`). No header, entry or zero that an
allocator writes, no copy it makes, nothing done with another block or
another allocator, and no call that fails reaches into it.
-/

namespace Allocators

open Trace

namespace Estate

variable {ρ : Type} [Resource ρ] {b : Build} {E E' : Estate ρ} {mv : Move}

omit [Resource ρ] in
/-- What keeps everything that is held keeps the blocks in callers' hands. -/
theorem Sound.keeps_blocks (h : E.Sound b) {m : Memory}
    (hk : ∀ y ∈ E.held, E.world.memory.Keeps m y) : ∀ x ∈ E.blocks, E.world.memory.Keeps m x := by
  intro x hx
  rcases List.mem_append.1 hx with hx | hx
  · obtain ⟨t, ht, hx⟩ := List.mem_flatMap.1 hx
    obtain ⟨y, hy, hxy⟩ := h.inside ht hx
    exact (hk y (List.mem_append_left _ (List.mem_flatMap.2 ⟨t, ht, hy⟩))).of_inside hxy
  · exact hk x (List.mem_append_right _ hx)

omit [Resource ρ] in
/-- What keeps everything beside an allocator's own keeps the blocks of the
others, and those left behind. -/
theorem Sound.keeps_others (h : E.Sound b) {before after : List Tenant} {t : Tenant}
    (hE : E.tenants = before ++ t :: after) {m : Memory}
    (hk : ∀ y ∈ beside before after E.left, E.world.memory.Keeps m y) :
    ∀ x ∈ (before ++ after).flatMap (·.blocks) ++ E.left, E.world.memory.Keeps m x := by
  intro x hx
  rcases List.mem_append.1 hx with hx | hx
  · obtain ⟨u, hu, hx⟩ := List.mem_flatMap.1 hx
    obtain ⟨y, hy, hxy⟩ := h.inside (hE ▸ mem_split.2 (Or.inr hu)) hx
    exact (hk y (mem_beside hu y hy)).of_inside hxy
  · exact hk x (List.mem_append_right _ hx)

omit [Resource ρ] in
/-- The live blocks of one allocator put first. -/
theorem mem_blocks {before after : List Tenant} {t : Tenant} {left : List Block} {x : Block}
    (hx : x ∈ (before ++ t :: after).flatMap (·.blocks) ++ left) :
    x ∈ t.blocks ∨ x ∈ (before ++ after).flatMap (·.blocks) ++ left := by
  simp only [List.flatMap_append, List.flatMap_cons, List.mem_append] at hx ⊢
  tauto

/-- **A step changes a live block by its holder's leave only.** -/
theorem Sound.keeps_or_touched (h : E.Sound b) (hst : Step b E mv E') {x : Block}
    (hx : x ∈ E.blocks) (hx' : x ∈ E'.blocks) :
    E.world.memory.Keeps E'.world.memory x ∨
      ∃ t d out, mv = .acted t d out ∧ t ∈ E.tenants ∧ x ∈ t.blocks ∧ d.Touches out x := by
  cases hst with
  | opened hc hg =>
    obtain ⟨-, -, hk⟩ := Custody.create_ok hc hg h.accounts b
    exact Or.inl (h.keeps_blocks hk x hx)
  | declined hc hg =>
    obtain ⟨-, hm⟩ := Custody.create_error hc h.accounts
    exact Or.inl (hm ▸ .refl E.world.memory x)
  | @acted before after t d out c' w' hE hd hact hg =>
    have hmem : t ∈ E.tenants := hE ▸ mem_split.2 (Or.inl rfl)
    have hu := h.upkeep hE hd hact hg
    have hothers := h.keeps_others hE hu.keeps_rest
    rw [blocks, hE] at hx
    -- only a block of the same tenant, before and after, is in reach of the deed
    rcases mem_blocks hx with hxt | hxo
    · rcases mem_blocks hx' with hxt' | hxo
      · by_cases htouch : d.Touches out x
        · exact Or.inr ⟨t, d, out, rfl, hmem, hxt, htouch⟩
        · obtain ⟨y, hy, rfl⟩ := List.mem_map.1 hxt
          exact Or.inl (hu.keeps_live y hy hxt' htouch)
      · exact Or.inl (hothers x hxo)
    · exact Or.inl (hothers x hxo)
  | @closed before after t out k w' hE hcl hg =>
    obtain ⟨-, hk⟩ := h.dropped hE hcl
    have hothers := h.keeps_others hE fun y hy => hk y (List.mem_append_right _ hy)
    -- what is in someone's hands afterwards is either left behind or belongs to others
    rcases List.mem_append.1 hx' with hxo | hxl
    · exact Or.inl (hothers x (List.mem_append_left _ hxo))
    · rcases List.mem_append.1 hxl with hxr | hxl
      · exact Or.inl (hk x (List.mem_append_left _ hxr))
      · exact Or.inl (hothers x (List.mem_append_right _ hxl))

/-- **A byte of a live block changes by its holder's leave only**: if it is
another after a step, the step was a write into that block or a resize of
it that was granted. -/
theorem Reachable.touched_of_byte_ne (h : Reachable b E) (hst : Step b E mv E') {x : Block}
    (hx : x ∈ E.blocks) (hx' : x ∈ E'.blocks) {a : Nat} (ha : x.Covers a)
    (hne : E'.world.memory.byteAt a ≠ E.world.memory.byteAt a) :
    ∃ t d out, mv = .acted t d out ∧ t ∈ E.tenants ∧ x ∈ t.blocks ∧ d.Touches out x := by
  rcases h.sound.keeps_or_touched hst hx hx' with hk | htouch
  · exact absurd (hk a ha) hne
  · exact htouch

/-- The sample after its holder has written into the lower block of the
stack, and what that step was. -/
def rewritten : Move × Estate Pool :=
  (obey .debug (sample .debug) (.act 1 (.write 0x100000010 24 fun _ x => x + 1))).getD
    (.opened, start)

/-- It is a step. -/
theorem step_rewritten : Step .debug (sample .debug) rewritten.1 rewritten.2 :=
  have h : obey .debug (sample .debug) (.act 1 (.write 0x100000010 24 fun _ x => x + 1)) =
      some (rewritten.1, rewritten.2) := rfl
  step_of_obey h

/-- The first byte of that block is another one then. -/
theorem touched_of_byte_ne_sample : ∃ x a, x ∈ (sample .debug).blocks ∧ x ∈ rewritten.2.blocks ∧
    x.Covers a ∧ rewritten.2.world.memory.byteAt a ≠ (sample .debug).world.memory.byteAt a ∧
    ∃ t d out, rewritten.1 = .acted t d out ∧ t ∈ (sample .debug).tenants ∧ x ∈ t.blocks ∧
      d.Touches out x :=
  have hx : ⟨0x100000010, 24, 16⟩ ∈ (sample .debug).blocks := by decide +kernel
  have hx' : ⟨0x100000010, 24, 16⟩ ∈ rewritten.2.blocks := by decide +kernel
  have ha : (⟨0x100000010, 24, 16⟩ : Block).Covers 0x100000010 := by decide
  have hne : rewritten.2.world.memory.byteAt 0x100000010 ≠
      (sample .debug).world.memory.byteAt 0x100000010 := by decide +kernel
  ⟨_, _, hx, hx', ha, hne,
    (reachable_sample .debug).touched_of_byte_ne step_rewritten hx hx' ha hne⟩

end Estate

end Allocators
