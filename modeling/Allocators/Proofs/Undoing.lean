import Allocators.Proofs.Granted
/-!
# Growing and shrinking back

A block that has grown is shrunk at either side by what it has got there. The
second request is always a plan: what it leaves is the size that the first one
found, and that was a size within the limits. A stack then has room for it, and
is as it was before the first, its cursor and all, with the block where it was
and as long. A heap needs another block for it; if it gets one, it holds the
same bytes, and as much is in use as before. Main statement:
`Chronicle.shrinking_undoes_growth`.
-/

namespace Allocators

open Trace

/-! ## The two plans -/

namespace Reshape

/-- A request to grow, at either side or at both, by what it says or more at the
back, with the bytes copied. -/
structure Grows (q : Reshape) : Prop where
  copies : q.flags.has .keepOldNocopy = false
  front : q.flags.has .shrinkFront = false
  back : q.flags.has .shrinkBack = false

/-- A request to shrink by `f` bytes in front and by `g` at the back. -/
structure Shrinks (q : Reshape) (f g : Nat) : Prop where
  copies : q.flags.has .keepOldNocopy = false
  front : q.amount .shrinkFront q.front = f
  back : q.amount .shrinkBack q.back = g
  one_way : q.flags.has .expandFront = false ∧ q.flags.has .expandBack = false
  modest : q.front.preferred = 0 ∧ q.back.preferred = 0

variable {b : Build} {q : Reshape} {x : Block} {p : Plan} {f g : Nat}

/-- What grows survives as a whole. -/
theorem Grows.planned (hq : q.Grows) (hp : (q.about x).plan b = .ok p) :
    p.source = 0 ∧ p.target = q.amount .expandFront q.front ∧ p.kept = x.size := by
  have h := Resize.planned hp
  have hsource : p.source = 0 := h.source.trans (if_neg (by simp [about, hq.front]))
  refine ⟨hsource, h.target, ?_⟩
  rw [h.kept, hsource, if_neg (by simp [about, hq.back])]
  rfl

/-- A side that does not grow and prefers nothing loses what it is to lose. -/
theorem side_of_shrinks {flags : ResizeFlags} {shrink expand : ResizeFlag} {a : Amounts}
    (he : flags.has expand = false) (ha : a.preferred = 0) :
    Resize.side b flags shrink expand a =
      .ok ⟨if flags.has shrink then a.required else 0, 0, 0⟩ := by
  unfold Resize.side
  cases flags.has shrink <;> simp only [he]
  · rfl
  · rw [b.require_of _ ha]
    rfl

/-- **A block can be shrunk to any size within its limit**, and so to one that it
had before it grew. -/
theorem Shrinks.plan (hq : q.Shrinks f g) (ha : x.align.isPowerOfTwo) {n : Nat} (hn : 0 < n)
    (hle : n ≤ maxSize x.align) (hx : x.size = f + n + g) :
    (q.about x).plan b = .ok ⟨f, 0, 0, 0, n, n, false⟩ := by
  have hfront : Resize.side b q.flags .shrinkFront .expandFront q.front = .ok ⟨f, 0, 0⟩ := by
    rw [side_of_shrinks hq.one_way.1 hq.modest.1, ← hq.front]
    rfl
  have hback : Resize.side b q.flags .shrinkBack .expandBack q.back = .ok ⟨g, 0, 0⟩ := by
    rw [side_of_shrinks hq.one_way.2 hq.modest.2, ← hq.back]
    rfl
  have hkept : x.size - (f + g) = n := by omega
  refine Resize.plan_eq_ok_iff.2 ⟨ha, _, _, hfront, hback, Resize.join_eq_ok_iff.2 ?_⟩
  refine ⟨show f + g < x.size by omega, ?_, ?_⟩
  · show x.size - (f + g) + 0 + 0 ≤ maxSize x.align
    omega
  · show _ = (⟨f, 0, 0, 0, x.size - (f + g), x.size - (f + g), _⟩ : Plan)
    rw [hkept]
    exact congrArg _ hq.copies.symm

end Reshape

/-- What one plan has carried to where another fetches it has come back. -/
theorem Plan.Carried.back {p p' : Plan} {a a' a'' : Nat} {m m' m'' : Memory}
    (h : p.Carried a a' m m') (h' : p'.Carried a' a'' m' m'') (hs : p.source = 0)
    (ht : p'.target = 0) (hst : p'.source = p.target) (hk : p'.kept = p.kept) :
    m''.read a'' p.kept = m.read a p.kept := by
  have h₁ := h.survivors
  have h₂ := h'.survivors
  rw [hs, Nat.add_zero] at h₁
  rw [ht, hst, hk, Nat.add_zero] at h₂
  exact h₂.trans h₁

/-! ## Back again -/

namespace Custody

variable {ρ : Type} [Resource ρ] {b : Build} {kind : AllocatorKind} {q q' : Reshape}
variable {c c' : Custody} {w w' : World ρ} {x z : Block} {others : List Block}

/-- What it comes to that a block `x`, which has become `z`, is shrunk back. -/
structure Regains (b : Build) (c : Custody) (w : World ρ) (x : Block) (q' : Reshape) (c' : Custody)
    (w' : World ρ) (z : Block) : Prop where
  /-- A stack grants it, and then all is as it was: the stack, its blocks and the bytes
  of this one. To free the block comes to the same, before and after. -/
  stack : ∀ s, c.allocator = .stack s → ∃ w'' h older, c'.Resizes b q' w' z c w'' x ∧
    w''.memory.read x.address x.size = w.memory.read x.address x.size ∧
    c.live = h :: older ∧ h.toBlock = x ∧
    ∀ l, l.size = x.size → ∀ v ∈ [w, w''], ∃ v',
      act b (.call (.deallocate x.address l)) ⟨c, v⟩ =
        .ok .done ⟨⟨.stack (s.withCursor h.mark), older, c.pending⟩, v'⟩
  /-- A heap grants it where the resource grants a block of the size that `x` had. Then
  there are the same bytes, as many blocks and as much in use as before. -/
  heap : ∀ s, c.allocator = .heap s → ∃ new : Layout, new.size = x.size ∧ new.align = x.align ∧
    ∀ a, w'.Grants new a → ∃ c'' w'' s'', c'.Resizes b q' w' z c'' w'' (Block.of a new) ∧
      w''.memory.read a new.size = w.memory.read x.address x.size ∧
      c''.blocks.Perm (Block.of a new :: c.blocks.erase x) ∧
      c''.allocator = .heap s'' ∧ s''.usage = s.usage

omit [Resource ρ] in
/-- What is in use of a heap is told by its blocks. -/
theorem InOrder.usage (hin : c.InOrder b kind others w) {s : Heap} (hk : c.allocator = .heap s) :
    s.usage = Usage.of c.blocks := by
  obtain ⟨k, live, pending⟩ := c
  cases hk
  exact hin.sound.used

omit [Resource ρ] in
/-- A stack's latest block ends at the cursor. -/
theorem InOrder.withCursor_end (hin : c.InOrder b kind others w) {s : Buffer}
    (hk : c.allocator = .stack s) {h : Holding} {older : List Holding} (hl : c.live = h :: older) :
    s.withCursor (h.address - s.region.base + h.size) = s := by
  obtain ⟨k, live, pending⟩ := c
  cases hk
  cases hl
  have hsound : s.Sound Stack.header w.memory (h :: older) pending := hin.sound
  obtain ⟨htop, hgap, -⟩ := hsound.piled
  have hcursor : h.address - s.region.base + h.size = s.region.cursor := by omega
  rw [hcursor]
  rfl

/-- To free the latest block sets the cursor back to its mark. -/
theorem InOrder.frees_top (hin : c.InOrder b kind others w) {s : Buffer}
    (hk : c.allocator = .stack s) {h : Holding} {older : List Holding} (hl : c.live = h :: older)
    {l : Layout} (hs : l.size = h.size) : ∃ w',
    act b (.call (.deallocate h.address l)) ⟨c, w⟩ =
      .ok .done ⟨⟨.stack (s.withCursor h.mark), older, c.pending⟩, w'⟩ := by
  obtain ⟨k, live, pending⟩ := c
  cases hk
  cases hl
  have hsound : s.Sound Stack.header w.memory ([] ++ h :: older) pending := hin.sound
  obtain ⟨w', hact, -⟩ := (lifo_of_sound hsound).free rfl l hs
  exact ⟨w', hact⟩

section Regained

variable {p : Plan} (hin : c.InOrder b kind others w) (hx : x ∈ c.blocks)
  (hg : Granted b kind q c w x p c' w' z) (hsource : p.source = 0) (hkept : p.kept = x.size)
  (hq' : q'.flags.has .keepOldNocopy = false)
  (hp' : (q'.about z).plan b = .ok ⟨p.target, 0, 0, 0, x.size, x.size, false⟩)

include hg hsource hkept hq' hp'

/-- Whatever the allocator, the bytes are back where the block starts. -/
theorem Granted.back {c'' : Custody} {w'' : World ρ} {y : Block}
    (h' : c'.Resizes b q' w' z c'' w'' y) :
    (∃ others'', c''.InOrder b kind others'' w'') ∧
      w''.memory.read y.address x.size = w.memory.read x.address x.size := by
  obtain ⟨others', hin'⟩ := hg.inOrder
  obtain ⟨p', hg'⟩ := hin'.granted hg.resizable.mem hq' h'
  cases hp'.symm.trans hg'.planned
  exact ⟨hg'.inOrder, hkept ▸ hg.carried.back hg'.carried hsource rfl rfl hkept.symm⟩

include hin

/-- A stack has the room, and is as it was. -/
theorem Granted.regains_stack {s : Buffer} (hk : c.allocator = .stack s) : ∃ w'' h older,
    c'.Resizes b q' w' z c w'' x ∧
    w''.memory.read x.address x.size = w.memory.read x.address x.size ∧
    c.live = h :: older ∧ h.toBlock = x ∧
    ∀ l, l.size = x.size → ∀ v ∈ [w, w''], ∃ v',
      act b (.call (.deallocate x.address l)) ⟨c, v⟩ =
        .ok .done ⟨⟨.stack (s.withCursor h.mark), older, c.pending⟩, v'⟩ := by
  obtain ⟨hsize, -⟩ := Resize.plan_sizes hg.planned
  obtain ⟨h₀, older, hlive, rfl, hafter, hfits, -, rfl⟩ := hg.stack s hk
  have hroom : h₀.size ≤ s.region.tail - (h₀.address - s.region.base) :=
    Nat.le_trans (show h₀.size ≤ p.newSize by omega) hfits
  have hstack := hin.withCursor_end hk hlive
  obtain ⟨others', hin'⟩ := hg.inOrder
  obtain ⟨k, live, pending⟩ := c
  obtain ⟨za, zs, zal⟩ := z
  cases hk
  cases hlive
  cases hafter
  obtain ⟨w'', h'⟩ := hin'.resizes_top rfl rfl hp' rfl hroom
  -- the cursor is where it was, and so the stack is as it was
  have hre : Resizes b q' ⟨.stack (s.withCursor (h₀.address - s.region.base + zs)),
      { h₀ with size := zs } :: older, pending⟩ w' ⟨h₀.address, zs, h₀.align⟩
      ⟨.stack (s.withCursor (h₀.address - s.region.base + h₀.size)), h₀ :: older, pending⟩ w''
      h₀.toBlock := h'
  rw [hstack] at hre
  obtain ⟨⟨others'', hin''⟩, hbytes⟩ := hg.back hsource hkept hq' hp' hre
  refine ⟨w'', h₀, older, hre, hbytes, rfl, rfl, fun l hl v hv => ?_⟩
  rcases List.mem_pair.1 hv with rfl | rfl
  · exact hin.frees_top rfl rfl hl
  · exact hin''.frees_top rfl rfl hl

include hx

/-- A heap needs another block, and has as much in use then. -/
theorem Granted.regains_heap {s : Heap} (hk : c.allocator = .heap s) (hal : z.align = x.align) :
    ∃ new : Layout, new.size = x.size ∧ new.align = x.align ∧
      ∀ a, w'.Grants new a → ∃ c'' w'' s'', c'.Resizes b q' w' z c'' w'' (Block.of a new) ∧
        w''.memory.read a new.size = w.memory.read x.address x.size ∧
        c''.blocks.Perm (Block.of a new :: c.blocks.erase x) ∧
        c''.allocator = .heap s'' ∧ s''.usage = s.usage := by
  obtain ⟨hzs, old, new, hnew, hm⟩ := hg.heap s hk
  obtain ⟨s', hk', -⟩ := exists_heap_of_kind (hg.kind.trans (congrArg _ hk))
  obtain ⟨others', hin'⟩ := hg.inOrder
  have hformed : z.Formed := by
    refine Or.inl ?_
    rw [hzs, hal]
    exact (Resize.plan_sizes hg.planned).2.2.2
  obtain ⟨new', hns, hna, hgrants⟩ := hin'.resizes_live hk' hg.resizable.mem hformed hq' hp'
  refine ⟨new', hns, hna.trans hal, fun a ha => ?_⟩
  obtain ⟨c'', w'', h'⟩ := hgrants a ha
  obtain ⟨p', hg'⟩ := hin'.granted hg.resizable.mem hq' h'
  obtain ⟨⟨others'', hin''⟩, hbytes⟩ := hg.back hsource hkept hq' hp' h'
  obtain ⟨-, old', new'', hnew', hm'⟩ := hg'.heap s' hk'
  obtain ⟨s'', hk'', -⟩ := exists_heap_of_kind (hg'.kind.trans (congrArg _ hk'))
  -- one block has taken the place of another, twice
  have hrest : (c'.blocks.erase z).Perm (c.blocks.erase x) := by
    have hz := (hnew ▸ hm.replaced).erase z
    rwa [List.erase_cons_head] at hz
  have hblocks : c''.blocks.Perm (Block.of a new' :: c.blocks.erase x) :=
    (hnew' ▸ hm'.replaced).trans (hrest.cons _)
  refine ⟨c'', w'', s'', h', ?_, hblocks, hk'', ?_⟩
  · rw [hns]
    exact hbytes
  · rw [hin''.usage hk'', hin.usage hk, Usage.of_perm hblocks,
      Usage.of_perm (List.perm_cons_erase hx), ← Usage.add_of, ← Usage.add_of]
    exact congrArg _ hns

end Regained

/-- What has grown can be shrunk back. -/
theorem InOrder.regains (hin : c.InOrder b kind others w) (hx : x ∈ c.blocks) (hq : q.Grows)
    (h : c.Resizes b q w x c' w' z) :
    q.amount .expandFront q.front + x.size ≤ z.size ∧
      ∀ q', q'.Shrinks (q.amount .expandFront q.front)
          (z.size - x.size - q.amount .expandFront q.front) →
        Regains b c w x q' c' w' z := by
  obtain ⟨p, hg⟩ := hin.granted hx hq.copies h
  obtain ⟨hsource, htarget, hkept⟩ := hq.planned hg.planned
  obtain ⟨hsize, hpos, -, hfit⟩ := Resize.plan_sizes hg.planned
  have hle := hg.size
  rw [← htarget]
  refine ⟨by omega, fun q' hq' => ?_⟩
  -- what is left is the size from before, which is no larger than what was planned
  have halign : z.align.isPowerOfTwo := h.align ▸ (Resize.planned hg.planned).align
  have hlimit : x.size ≤ maxSize z.align := by
    rw [h.align]
    exact Nat.le_trans (by omega) hfit
  have hp' : (q'.about z).plan b = .ok ⟨p.target, 0, 0, 0, x.size, x.size, false⟩ :=
    hq'.plan halign (hkept ▸ hpos) hlimit (by omega)
  exact ⟨fun s hk => hg.regains_stack hin hsource hkept hq'.copies hp' hk,
    fun s hk => hg.regains_heap hin hx hsource hkept hq'.copies hp' hk h.align⟩

end Custody

/-- **Shrinking undoes growth**, at every moment of every run of calls on an
allocator. A live block was given bytes at either side; to take those in front and
as many at the back as it has got is granted by a stack, and by a heap that gets
another block. -/
theorem Chronicle.shrinking_undoes_growth {ρ : Type} [Resource ρ] {b : Build} {kind : AllocatorKind}
    {B : Book ρ} (h : Chronicle b Custody.Allows kind B) {x z : Block} (hx : x ∈ B.custody.blocks)
    {q : Reshape} (hq : q.Grows) {c : Custody} {w : World ρ}
    (hr : B.custody.Resizes b q B.world x c w z) :
    q.amount .expandFront q.front + x.size ≤ z.size ∧
      ∀ q', q'.Shrinks (q.amount .expandFront q.front)
          (z.size - x.size - q.amount .expandFront q.front) →
        B.custody.Regains b B.world x q' c w z := by
  obtain ⟨others, hin⟩ := h.inOrder Custody.steady_allows
  exact hin.regains hx hq hr

/-- Four bytes are to be added in front, and at the back at least two and as many as
there can be. -/
def swelling : Reshape :=
  ⟨⟨4, 4⟩, ⟨2, 0xffffffffffffffff⟩, .ofList [.expandFront, .expandBack, .tryDefragment]⟩

/-- The four bytes are taken again, and 28 at the back. -/
def receding : Reshape := ⟨⟨4, 0⟩, ⟨28, 0⟩, .ofList [.shrinkFront, .shrinkBack]⟩

/-- The 24 bytes below the entry of a callback get all of the room, and then no more
than they had. -/
theorem shrinking_undoes_growth_crowded : ∃ c w,
    (newStack.turns .debug crowded).custody.Resizes .debug swelling
      (newStack.turns .debug crowded).world (Block.of 0x100000010 Estate.sampleLayout) c w
      ⟨0x100000010, 56, 16⟩ ∧
    (newStack.turns .debug crowded).custody.Regains .debug (newStack.turns .debug crowded).world
      (Block.of 0x100000010 Estate.sampleLayout) receding c w ⟨0x100000010, 56, 16⟩ := by
  have hfair : newStack.Fair .debug Custody.Allows crowded := by decide +kernel
  have h := (chronicle_newStack .debug Custody.Allows).turns hfair
  have hr := Book.resizes_resized (b := .debug) (newStack.turns .debug crowded) swelling
    (Block.of 0x100000010 Estate.sampleLayout) ⟨0x100000010, 56, 16⟩ (some 0x100000014) (by rfl) rfl
    (by decide +kernel)
  have hq : swelling.Grows := ⟨by decide, by decide, by decide⟩
  have hq' : receding.Shrinks 4 28 := ⟨by decide, by decide, by decide, by decide, by decide⟩
  exact ⟨_, _, hr, (h.shrinking_undoes_growth (by decide +kernel) hq hr).2 receding hq'⟩

end Allocators
