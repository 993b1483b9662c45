import Allocators.Stack
import Allocators.Proofs.Buffer.Calls
/-!
# What the calls of a stack come to

On a stack that is in order the block on top is the latest one, although
the stack only looks at where a block ends: `topOffset?_top` finds the
latest block and `topOffset?_under` no other. A resize and a free then do
what they should to the latest block, and nothing to any other:
`reallocate_of_room`, `reallocate_under`, `deallocate_top` and
`deallocate_under`. Each call is a shift of the buffer.
-/

namespace Allocators

variable {ρ : Type}

/-- A block's alignment divides the one a stack places it at, which is a
word's at least. -/
theorem Layout.align_dvd_max (l : Layout) : l.align ∣ max l.align Word.bytes := by
  obtain ⟨k, hk⟩ := l.align_pow
  rcases Nat.le_total Word.bytes l.align with h | h
  · rw [Nat.max_eq_left h]
  · rw [Nat.max_eq_right h, hk]
    have hw : Word.bytes = 2 ^ 3 := rfl
    rw [hk, hw, Nat.pow_le_pow_iff_right (by omega)] at h
    exact hw ▸ Nat.pow_dvd_pow 2 h

namespace Stack

open Buffer

variable {b : Build} {s : Buffer} {w : World ρ} {x : Holding} {live newer older : List Holding}
variable {pending : List Registration}

/-! ## The block on top -/

/-- A live block is looked at by where it ends. -/
theorem topOffset?_of_mem (hs : Sound header w.memory s live pending) (hx : x ∈ live) (b : Build) :
    topOffset? b s x.address x.size =
      .ok (if x.address - s.region.base + x.size = s.region.cursor then
        some (x.address - s.region.base) else none) := by
  have hb := hs.piled.bounds hx
  have hc := hs.cursor_le
  have ht := hs.tail_le
  have he := hs.end_lt
  have hh : header = 8 := rfl
  unfold topOffset?
  rw [Region.offsetOf?_of_le (by omega) (by omega)]
  simp only [if_neg (show ¬ x.address - s.region.base < header by omega), bind, Except.bind, pure,
    Except.pure, b.add_of_lt (show x.address - s.region.base + x.size < Word.size by omega)]

/-- The latest block is found on top. -/
theorem topOffset?_top (hs : Sound header w.memory s (x :: older) pending) (b : Build) :
    topOffset? b s x.address x.size = .ok (some (x.address - s.region.base)) := by
  obtain ⟨htop, hgap, _⟩ := hs.piled
  rw [topOffset?_of_mem hs List.mem_cons_self b, if_pos (by omega)]

/-- A block under another is not found on top. -/
theorem topOffset?_under (hs : Sound header w.memory s (newer ++ x :: older) pending)
    (hn : newer ≠ []) (b : Build) : topOffset? b s x.address x.size = .ok none := by
  -- the header of the next block lies between its end and the cursor
  have hlt := hs.piled.end_lt hn (by decide)
  have hmem : x ∈ newer ++ x :: older := List.mem_append_right _ List.mem_cons_self
  have hb := hs.piled.bounds hmem
  rw [topOffset?_of_mem hs hmem b, if_neg (by omega)]

/-! ## Allocating -/

/-- Without room nothing is put on top. -/
theorem allocate_of_none (l : Layout) (w : World ρ)
    (h : s.region.bump b l.size (max l.align Word.bytes) header = .ok none) :
    allocate b l ⟨s, w⟩ =
      .error (.refused .outOfMemory) ⟨s, w.record (.noted (some s.label) (.noRoom l.size))⟩ := by
  simp only [allocate, Action.bind_apply, Action.self_apply, h, Action.ofExcept_ok,
    Action.note_apply, Action.refuse_apply]

/-- With room the block is put on top, with its header in front of it. -/
theorem allocate_of_some (l : Layout) (w : World ρ) {p : Placement} {region : Region}
    (h : s.region.bump b l.size (max l.align Word.bytes) header = .ok (some (p, region)))
    (hp : header ≤ p.offset) :
    allocate b l ⟨s, w⟩ = .ok ⟨region.addressOf p.offset, l.size⟩
      ⟨{ s with region := region },
        (w.write fun m => m.writeWord (region.addressOf (p.offset - header)) p.previous).record
          (.noted (some s.label) (.pushed l.size (region.addressOf p.offset)))⟩ := by
  simp only [allocate, Action.bind_apply, Action.self_apply, h, Action.ofExcept_ok,
    Build.sub_of_le b hp, Action.note_apply, Action.write_apply, Action.become_apply,
    Action.pure_apply]

/-- **A block is put on top or declined.** -/
theorem allocate_cases (hs : Sound header w.memory s live pending) (b : Build) (l : Layout) :
    (∃ w', allocate b l ⟨s, w⟩ = .error (.refused .outOfMemory) ⟨s, w'⟩ ∧
      Step header w s live pending none w' s live pending) ∨
    ∃ a s' w', allocate b l ⟨s, w⟩ = .ok ⟨a, l.size⟩ ⟨s', w'⟩ ∧
      Step header w s live pending none w' s' (⟨⟨a, l.size, l.align⟩, s.region.cursor⟩ :: live)
        pending := by
  have hpos : 0 < max l.align Word.bytes := by
    have := l.align_pos
    omega
  rcases s.region.bump_cases b l.size hpos header with h | ⟨offset, h, hlo, hal, hhi⟩
  · exact Or.inl ⟨_, allocate_of_none l w h, .stay, rfl⟩
  · have hoff : header ≤ offset := by omega
    refine Or.inr ⟨_, _, _, allocate_of_some l w h hoff, ?_, rfl⟩
    -- the header lies between the cursor from before and the block
    have hslot : s.region.base + (offset - header) = s.region.base + offset - header := by omega
    have hm := w.memory.changedIn_writeWord (s.region.base + offset - header) s.region.cursor
    have hc := hs.cursor_le
    have ht := hs.tail_le
    have he := hs.end_lt
    have hh : header = 8 := rfl
    have hb : Word.bytes = 8 := rfl
    show Shift header w.memory s live pending none
      (w.memory.writeWord (s.region.base + (offset - header)) s.region.cursor) _ _ _
    rw [hslot]
    refine .push rfl ?_ ?_ hhi ?_ l.size_pos (hm.mono ?_ ?_) fun _ => ?_
    · show s.region.base + s.region.cursor + header ≤ s.region.base + offset
      omega
    · show s.region.base + offset + l.size = s.region.base + (offset + l.size)
      omega
    · exact Nat.mod_eq_zero_of_dvd (l.align_dvd_max.trans (Nat.dvd_of_mod_eq_zero hal))
    · omega
    · show s.region.base + offset - header + Word.bytes ≤ s.region.base + offset
      omega
    · exact Memory.word_writeWord _ _ (by omega)

/-! ## Resizing -/

/-- The size the block on top is granted, where it may end `room` bytes
from its start. -/
def granted (p : Plan) (room : Nat) : Nat := p.newSize + min p.spareBack (room - p.newSize)

/-- What a plan does to the bytes of the block at `a`. -/
def moved (p : Plan) (a : Nat) (m : Memory) : Memory :=
  if p.nocopy = false ∧ p.source ≠ p.target then
    m.copy (a + p.source) (a + p.target) p.kept
  else
    m

/-- The block on top is resized where it is, if there is room. -/
theorem reallocate_of_room {r : Resize} (w : World ρ) {plan : Plan} {offset : Nat}
    (hp : r.plan b = .ok plan) (ha : r.address % r.align = 0)
    (ht : topOffset? b s r.address r.size = .ok (some offset)) (ho : offset ≤ s.region.tail)
    (hw : s.region.tail < Word.size) (hn : plan.newSize ≤ s.region.tail - offset) :
    reallocate b r ⟨s, w⟩ =
      .ok ⟨r.address, granted plan (s.region.tail - offset), plan.oldStart r.address, false⟩
        ⟨{ s with region :=
            { s.region with cursor := offset + granted plan (s.region.tail - offset) } },
          (w.write (moved plan r.address)).record (.noted (some s.label)
            (.resized r.size r.address (granted plan (s.region.tail - offset))))⟩ := by
  have hs : offset + granted plan (s.region.tail - offset) ≤ s.region.tail := by
    unfold granted
    omega
  -- the copy is made or left out, and that is one change of memory
  have hm : ∀ t : Scene Buffer ρ, (if plan.nocopy = false ∧ plan.source ≠ plan.target then
      Action.write (fun m => m.copy (r.address + plan.source) (r.address + plan.target) plan.kept) t
      else .ok () t) = .ok () ⟨t.allocator, t.world.write (moved plan r.address)⟩ := by
    intro t
    unfold moved
    split <;> simp_all [World.write]
  simp only [reallocate, Action.bind_apply, Action.self_apply, hp, Action.ofExcept_ok,
    Build.require_of _ _ ha, ht, Action.ofOption_some, Build.sub_of_le b ho, Action.demand_apply,
    Action.when_apply, if_pos hn, Build.sub_of_le b hn, hm]
  unfold granted at hs ⊢
  have hsize : plan.newSize + min plan.spareBack (s.region.tail - offset - plan.newSize) <
      Word.size := by omega
  simp only [Build.add_of_lt b hsize, Build.add_of_lt b (Nat.lt_of_le_of_lt hs hw),
    Action.ofExcept_ok, Region.setCursor_of_le b hs, Action.become_apply, Action.note_apply,
    Action.pure_apply]

/-- The block on top is left as it is, if there is no room. -/
theorem reallocate_of_no_room {r : Resize} (w : World ρ) {plan : Plan} {offset : Nat}
    (hp : r.plan b = .ok plan) (ha : r.address % r.align = 0)
    (ht : topOffset? b s r.address r.size = .ok (some offset)) (ho : offset ≤ s.region.tail)
    (hn : ¬ plan.newSize ≤ s.region.tail - offset) :
    reallocate b r ⟨s, w⟩ = .error (.refused .outOfMemory) ⟨s, w⟩ := by
  simp only [reallocate, Action.bind_apply, Action.self_apply, hp, Action.ofExcept_ok,
    Build.require_of _ _ ha, ht, Action.ofOption_some, Build.sub_of_le b ho, Action.demand_apply,
    if_neg hn]

/-- A request that is no plan changes nothing. -/
theorem reallocate_of_error {r : Resize} (w : World ρ) {e : Failure} (hp : r.plan b = .error e) :
    reallocate b r ⟨s, w⟩ = .error e ⟨s, w⟩ := by
  simp only [reallocate, Action.bind_apply, hp, Action.ofExcept_error]

/-- A block that is not on top is not resized. -/
theorem reallocate_of_none {r : Resize} (w : World ρ) {plan : Plan} (hp : r.plan b = .ok plan)
    (ha : r.address % r.align = 0) (ht : topOffset? b s r.address r.size = .ok none) :
    reallocate b r ⟨s, w⟩ = .error (.refused .notStackTop) ⟨s, w⟩ := by
  simp only [reallocate, Action.bind_apply, Action.self_apply, hp, Action.ofExcept_ok,
    Build.require_of _ _ ha, ht, Action.ofOption_none]

/-- Nor is one whose end is no word. -/
theorem reallocate_of_top_error {r : Resize} (w : World ρ) {plan : Plan} {e : Failure}
    (hp : r.plan b = .ok plan) (ha : r.address % r.align = 0)
    (ht : topOffset? b s r.address r.size = .error e) :
    reallocate b r ⟨s, w⟩ = .error e ⟨s, w⟩ := by
  simp only [reallocate, Action.bind_apply, Action.self_apply, hp, Action.ofExcept_ok,
    Build.require_of _ _ ha, ht, Action.ofExcept_error]

/-- Nor, in a debug build, one that does not start at a multiple of its
alignment. -/
theorem reallocate_of_misaligned {r : Resize} (w : World ρ) {plan : Plan}
    (hp : r.plan .debug = .ok plan) (ha : ¬ r.address % r.align = 0) :
    reallocate .debug r ⟨s, w⟩ =
      .error (.fault (.misaligned s.label r.address r.align)) ⟨s, w⟩ := by
  simp only [reallocate, Action.bind_apply, Action.self_apply, hp, Action.ofExcept_ok,
    Build.require, if_neg ha, Action.ofExcept_error]

/-- **A block under another is not resized.** -/
theorem reallocate_under (hs : Sound header w.memory s (newer ++ x :: older) pending)
    (hn : newer ≠ []) {r : Resize} (hx : r.Describes x.toBlock) {plan : Plan}
    (hp : r.plan b = .ok plan) :
    reallocate b r ⟨s, w⟩ = .error (.refused .notStackTop) ⟨s, w⟩ := by
  obtain ⟨ha, hsz, hal⟩ := hx
  have hmod : r.address % r.align = 0 := by
    rw [ha, hal]
    exact (hs.shaped x (by simp)).1
  have ht : topOffset? b s r.address r.size = .ok none := by
    rw [ha, hsz]
    exact topOffset?_under hs hn b
  exact reallocate_of_none w hp hmod ht

/-- What a plan does to the bytes of a block stays within the new block. -/
theorem changedIn_moved {r : Resize} {plan : Plan} (hp : r.plan b = .ok plan) (m : Memory)
    (a room : Nat) : m.ChangedIn (moved plan a m) a (a + granted plan room) := by
  obtain ⟨hsize, -, -, -⟩ := Resize.plan_sizes hp
  unfold moved granted
  split
  · exact (m.changedIn_copy _ _ _).mono (by omega) (by omega)
  · exact Memory.ChangedIn.refl _ _ _

/-- How long a block at `a` may become. -/
def headroom (s : Buffer) (a : Nat) : Nat := s.region.tail - (a - s.region.base)

/-- A request about the latest block finds it on top, and aligned. -/
theorem found_top (hs : Sound header w.memory s (x :: older) pending) {r : Resize}
    (hx : r.Describes x.toBlock) (b : Build) : r.address % r.align = 0 ∧
      topOffset? b s r.address r.size = .ok (some (x.address - s.region.base)) := by
  obtain ⟨ha, hsz, hal⟩ := hx
  rw [ha, hsz, hal]
  exact ⟨(hs.shaped x List.mem_cons_self).1, topOffset?_top hs b⟩

/-- The latest block is resized, if there is room. -/
theorem reallocate_top_of_room (hs : Sound header w.memory s (x :: older) pending) {r : Resize}
    (hx : r.Describes x.toBlock) {plan : Plan} (hp : r.plan b = .ok plan)
    (hn : plan.newSize ≤ headroom s x.address) :
    reallocate b r ⟨s, w⟩ =
      .ok ⟨x.address, granted plan (headroom s x.address), plan.oldStart x.address, false⟩
        ⟨{ s with region :=
            { s.region with
              cursor := x.address - s.region.base + granted plan (headroom s x.address) } },
          (w.write (moved plan x.address)).record (.noted (some s.label)
            (.resized x.size x.address (granted plan (headroom s x.address))))⟩ := by
  obtain ⟨hmod, ht⟩ := found_top hs hx b
  obtain ⟨ha, hsz, -⟩ := hx
  have hb := hs.piled.bounds (x := x) List.mem_cons_self
  have hc := hs.cursor_le
  have htl := hs.tail_le
  have he := hs.end_lt
  have h := reallocate_of_room w hp hmod ht (by omega) (by omega) hn
  rw [ha, hsz] at h
  exact h

/-- It is left as it is, if there is none. -/
theorem reallocate_top_of_no_room (hs : Sound header w.memory s (x :: older) pending) {r : Resize}
    (hx : r.Describes x.toBlock) {plan : Plan} (hp : r.plan b = .ok plan)
    (hn : ¬ plan.newSize ≤ headroom s x.address) :
    reallocate b r ⟨s, w⟩ = .error (.refused .outOfMemory) ⟨s, w⟩ := by
  obtain ⟨hmod, ht⟩ := found_top hs hx b
  have hb := hs.piled.bounds (x := x) List.mem_cons_self
  have hc := hs.cursor_le
  exact reallocate_of_no_room w hp hmod ht (by omega) hn

/-- **The latest block is resized or the request is declined** for a reason
of its own. -/
theorem reallocate_top (hs : Sound header w.memory s (x :: older) pending) {r : Resize}
    (hx : r.Describes x.toBlock) {plan : Plan} (hp : r.plan b = .ok plan) :
    reallocate b r ⟨s, w⟩ = .error (.refused .outOfMemory) ⟨s, w⟩ ∨
    ∃ size start s' w', reallocate b r ⟨s, w⟩ = .ok ⟨x.address, size, start, false⟩ ⟨s', w'⟩ ∧
      Step header w s (x :: older) pending (some x) w' s' ({ x with size := size } :: older)
        pending := by
  have hb := hs.piled.bounds (x := x) List.mem_cons_self
  have hc := hs.cursor_le
  obtain ⟨hsize, hkept, -, -⟩ := Resize.plan_sizes hp
  -- neither build can find the size too large or the cursor past the tail here
  by_cases hroom : plan.newSize ≤ headroom s x.address
  · have heq := reallocate_top_of_room hs hx hp hroom
    have hch := changedIn_moved hp w.memory x.address (headroom s x.address)
    have hg : plan.newSize ≤ granted plan (headroom s x.address) ∧
        granted plan (headroom s x.address) ≤ s.region.tail - (x.address - s.region.base) := by
      unfold granted
      unfold headroom at hroom ⊢
      omega
    generalize granted plan (headroom s x.address) = size at heq hch hg
    exact Or.inr ⟨size, _, _, _, heq, .resize rfl (by omega) (by omega) (by omega) hch, rfl⟩
  · exact Or.inl (reallocate_top_of_no_room hs hx hp hroom)

/-! ## Freeing -/

/-- A block that is not on top is not freed: a debug build finds fault, a
release build goes on as if it had not been asked. -/
theorem deallocate_of_none (b : Build) (s : Buffer) (a : Nat) (l : Layout) (w : World ρ) :
    topOffset? b s a l.size = .ok none → deallocate b a l ⟨s, w⟩ =
      match b with
      | .debug => .error (.fault (.notTop s.label a)) ⟨s, w⟩
      | .release => .ok () ⟨s, w.record (.noted (some s.label) (.freeBelowTop a))⟩ := by
  intro ht
  simp only [deallocate, Action.bind_apply, Action.self_apply, ht, Action.ofExcept_ok]
  cases b with
  | debug => rfl
  | release => rfl

/-- One whose end is no word is not freed. -/
theorem deallocate_of_top_error {a : Nat} {l : Layout} (w : World ρ) {e : Failure}
    (ht : topOffset? b s a l.size = .error e) : deallocate b a l ⟨s, w⟩ = .error e ⟨s, w⟩ := by
  simp only [deallocate, Action.bind_apply, Action.self_apply, ht, Action.ofExcept_error]

/-- The block on top is freed if the cursor can be set to what its header
holds. -/
theorem deallocate_of_some {a : Nat} {l : Layout} (w : World ρ) {offset : Nat} {region : Region}
    (ht : topOffset? b s a l.size = .ok (some offset)) (ho : header ≤ offset)
    (hc : s.region.setCursor b (w.memory.word (s.region.addressOf (offset - header))) =
      .ok region) :
    deallocate b a l ⟨s, w⟩ = .ok ()
      ⟨{ s with region := region }, w.record (.noted (some s.label) (.popped l.size a))⟩ := by
  simp only [deallocate, Action.bind_apply, Action.self_apply, ht, Action.ofExcept_ok,
    Option.isSome_some, Build.require_of b _ trivial, Build.sub_of_le b ho, Action.memory_apply,
    hc, Action.become_apply, Action.note_apply]

/-- It is left as it is if the cursor cannot. -/
theorem deallocate_of_mark_error {a : Nat} {l : Layout} (w : World ρ) {offset : Nat} {e : Failure}
    (ht : topOffset? b s a l.size = .ok (some offset)) (ho : header ≤ offset)
    (hc : s.region.setCursor b (w.memory.word (s.region.addressOf (offset - header))) =
      .error e) :
    deallocate b a l ⟨s, w⟩ = .error e ⟨s, w⟩ := by
  simp only [deallocate, Action.bind_apply, Action.self_apply, ht, Action.ofExcept_ok,
    Option.isSome_some, Build.require_of b _ trivial, Build.sub_of_le b ho, Action.memory_apply,
    hc, Action.ofExcept_error]

/-- **The latest block is freed**: the cursor is set back to where it stood
just before the block was allocated. -/
theorem deallocate_top (hs : Sound header w.memory s (x :: older) pending) (b : Build)
    {l : Layout} (hl : l.size = x.size) :
    deallocate b x.address l ⟨s, w⟩ =
      .ok () ⟨{ s with region := { s.region with cursor := x.mark } },
        w.record (.noted (some s.label) (.popped l.size x.address))⟩ := by
  have hb := hs.piled.bounds (x := x) List.mem_cons_self
  have hsave := hs.saved rfl x List.mem_cons_self
  have hc := hs.cursor_le
  -- the word in front of the block is the mark that was saved there
  have ha : s.region.addressOf (x.address - s.region.base - header) = x.address - header := by
    unfold Region.addressOf
    omega
  refine deallocate_of_some w (hl ▸ topOffset?_top hs b) (by omega) ?_
  rw [ha, hsave]
  exact Region.setCursor_of_le b (by omega)

/-- **A block under another is not freed**: a debug build finds fault, a
release build goes on as if it had not been asked. -/
theorem deallocate_under (hs : Sound header w.memory s (newer ++ x :: older) pending)
    (hn : newer ≠ []) (b : Build) {l : Layout} (hl : l.size = x.size) :
    deallocate b x.address l ⟨s, w⟩ =
      match b with
      | .debug => .error (.fault (.notTop s.label x.address)) ⟨s, w⟩
      | .release => .ok () ⟨s, w.record (.noted (some s.label) (.freeBelowTop x.address))⟩ :=
  deallocate_of_none b s x.address l w (hl ▸ topOffset?_under hs hn b)

end Stack

end Allocators
