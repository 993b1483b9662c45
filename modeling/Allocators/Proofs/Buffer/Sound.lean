import Allocators.Buffer
import Allocators.Proofs.Custody
/-!
# Buffers in order — the invariant of a region with its blocks and entries

In a buffer the live blocks are piled from the region's start, each above
the cursor from before it with room for its header, and the entries are
shelved from the region's end. `Buffer.Sound` is the invariant: pile,
shelf and chain, and on a stack the header of each live block still holds
the cursor from before it. What of it does not depend on the blocks that
callers hold, the order of both ends with shelf and chain, is
`Buffer.Bounded`. `Buffer.Shift` lists everything one deed can do
to a buffer, with the memory it may change; each keeps the invariant
(`Sound.shift`), stays within the region (`Shift.keeps`) and changes no
byte of a live block that it is not about (`Sound.keeps_of_shift`).
-/

namespace Allocators

/-! ## The pile -/

/-- The blocks are piled from `base` up to the cursor, the latest on top,
each at least `header` bytes above the cursor from before it. -/
def Piled (header base : Nat) : Nat → List Holding → Prop
  | cursor, [] => cursor = 0
  | cursor, x :: xs => x.address + x.size = base + cursor ∧
      base + x.mark + header ≤ x.address ∧ Piled header base x.mark xs

namespace Piled

variable {header base cursor : Nat} {x : Holding} {xs ys : List Holding}

/-- A block of the pile lies between its mark and the cursor. -/
theorem bounds (h : Piled header base cursor xs) (hx : x ∈ xs) :
    base + x.mark + header ≤ x.address ∧ x.address + x.size ≤ base + cursor := by
  induction xs generalizing cursor with
  | nil => cases hx
  | cons y ys ih =>
    obtain ⟨htop, hgap, hrest⟩ := h
    rcases List.mem_cons.1 hx with rfl | hx
    · exact ⟨hgap, htop.le⟩
    · have := ih hrest hx
      omega

/-- The blocks under a block of the pile are piled up to its mark. -/
theorem rest (h : Piled header base cursor (ys ++ x :: xs)) : Piled header base x.mark xs := by
  induction ys generalizing cursor with
  | nil => exact h.2.2
  | cons y ys ih => exact ih h.2.2

/-- A block under another ends below the header of that one. -/
theorem end_le (h : Piled header base cursor (ys ++ x :: xs)) {y : Holding} (hy : y ∈ ys) :
    x.address + x.size + header ≤ y.address := by
  obtain ⟨as, bs, rfl⟩ := List.append_of_mem hy
  rw [List.append_assoc, List.cons_append] at h
  have hx : x ∈ bs ++ x :: xs := List.mem_append_right _ List.mem_cons_self
  have h1 := h.rest.bounds hx
  have h2 := h.bounds (x := y) (by simp)
  omega

/-- Of two blocks of the pile one is under the header of the other. -/
theorem eq_or_end_le (h : Piled header base cursor xs) (hx : x ∈ xs) {y : Holding}
    (hy : y ∈ xs) : x = y ∨ x.address + x.size + header ≤ y.address ∨
      y.address + y.size + header ≤ x.address := by
  obtain ⟨as, bs, rfl⟩ := List.append_of_mem hx
  rcases List.mem_append.1 hy with hy | hy
  · exact Or.inr (Or.inl (h.end_le hy))
  · rcases List.mem_cons.1 hy with rfl | hy
    · exact Or.inl rfl
    · have := h.rest.bounds hy
      have := h.bounds (x := x) (by simp)
      exact Or.inr (Or.inr (by omega))

/-- The cursor stands above every block but the latest. -/
theorem end_lt (h : Piled header base cursor (ys ++ x :: xs)) (hy : ys ≠ [])
    (hh : 0 < header) : x.address + x.size < base + cursor := by
  obtain ⟨y, ys, rfl⟩ := List.exists_cons_of_ne_nil hy
  have h1 := h.end_le (y := y) List.mem_cons_self
  have h2 := h.bounds (x := y) (by simp)
  omega

end Piled

/-! ## The shelf -/

/-- The entries are shelved between two addresses, the latest lowest. -/
def Shelved (lo hi : Nat) : List Registration → Prop
  | [] => lo ≤ hi
  | e :: es => lo ≤ e.address ∧ Shelved (e.address + 24) hi es

namespace Shelved

variable {lo lo' hi : Nat} {e : Registration} {es : List Registration}

/-- A shelf has room. -/
theorem le (h : Shelved lo hi es) : lo ≤ hi := by
  induction es generalizing lo with
  | nil => exact h
  | cons e es ih =>
    have := ih h.2
    have := h.1
    omega

/-- The shelf may start lower. -/
theorem mono (h : Shelved lo hi es) (hl : lo' ≤ lo) : Shelved lo' hi es := by
  cases es with
  | nil => exact Nat.le_trans hl h
  | cons e es => exact ⟨Nat.le_trans hl h.1, h.2⟩

/-- An entry of the shelf lies on it. -/
theorem bounds (h : Shelved lo hi es) (he : e ∈ es) : lo ≤ e.address ∧ e.address + 24 ≤ hi := by
  induction es generalizing lo with
  | nil => cases he
  | cons d es ih =>
    rcases List.mem_cons.1 he with rfl | he
    · exact ⟨h.1, h.2.le⟩
    · have := ih h.2 he
      have := h.1
      omega

/-- Entries of a shelf are apart. -/
theorem pairwise (h : Shelved lo hi es) : (es.map Registration.block).Pairwise Block.Apart := by
  induction es generalizing lo with
  | nil => exact List.Pairwise.nil
  | cons e es ih =>
    rw [List.map_cons, List.pairwise_cons]
    refine ⟨fun y hy => ?_, ih h.2⟩
    obtain ⟨d, hd, rfl⟩ := List.mem_map.1 hy
    exact Or.inl (h.2.bounds hd).1

end Shelved

/-! ## The invariant -/

/-- The block of a region. -/
def Region.block (r : Region) : Block := Block.of r.base r.layout

/-- A buffer is in order: the region lies in the address space, blocks are
piled up to the cursor and entries shelved from the tail, headers hold the
marks of their blocks, and the callbacks form the chain that was
registered. `header` is the length of a header, zero where there is none. -/
structure Buffer.Sound (header : Nat) (m : Memory) (s : Buffer) (live : List Holding)
    (pending : List Registration) : Prop where
  base_pos : 0 < s.region.base
  end_lt : s.region.base + s.region.capacity < Word.size
  cursor_le : s.region.cursor ≤ s.region.tail
  piled : Piled header s.region.base s.region.cursor live
  saved : header = Word.bytes → ∀ x ∈ live, m.word (x.address - header) = x.mark
  shaped : ∀ x ∈ live, x.Aligned ∧ 0 < x.size
  shelved : Shelved (s.region.base + s.region.tail) (s.region.base + s.region.capacity) pending
  linked : Linked m s.callbacks.head pending
  counted : s.callbacks.count = pending.length

/-- What is left of that if nothing is asked of the blocks: the cursor stands
before the tail, and above the tail the entries are the chain that was
registered. -/
structure Buffer.Bounded (m : Memory) (s : Buffer) (pending : List Registration) : Prop where
  base_pos : 0 < s.region.base
  end_lt : s.region.base + s.region.capacity < Word.size
  cursor_le : s.region.cursor ≤ s.region.tail
  shelved : Shelved (s.region.base + s.region.tail) (s.region.base + s.region.capacity) pending
  linked : Linked m s.callbacks.head pending
  counted : s.callbacks.count = pending.length

namespace Buffer

variable {header : Nat} {m m' : Memory} {s s' : Buffer} {live live' : List Holding}
variable {pending pending' : List Registration} {t : Option Holding}

namespace Bounded

variable {lo hi : Nat}

/-- The tail is within the region. -/
theorem tail_le (h : Bounded m s pending) : s.region.tail ≤ s.region.capacity := by
  have := h.shelved.le
  omega

/-- The link of an entry is the address of an entry, if it is any. -/
theorem head_lt (h : Bounded m s pending) : ∀ a ∈ s.callbacks.head, 0 < a ∧ a < Word.size := by
  intro a ha
  rw [h.linked.head_eq, Option.mem_def, Option.map_eq_some_iff] at ha
  obtain ⟨e, he, rfl⟩ := ha
  have hb := h.shelved.bounds (List.mem_of_head? he)
  have := h.base_pos
  have := h.end_lt
  omega

/-- A change below the tail leaves the chain as it is. -/
theorem linked_of_changedIn (h : Bounded m s pending) (hm : m.ChangedIn m' lo hi)
    (hhi : hi ≤ s.region.base + s.region.tail) : Linked m' s.callbacks.head pending := by
  refine h.linked.congr fun e he => hm e.block (Or.inr ?_)
  exact Nat.le_trans hhi (h.shelved.bounds he).1

/-- A buffer stays within its bounds while its region is kept. -/
theorem congr (h : Bounded m s pending) (hk : m.Keeps m' s.region.block) :
    Bounded m' s pending where
  __ := h
  linked := by
    refine h.linked.congr fun e he => hk.of_inside ?_
    have := h.shelved.bounds he
    exact ⟨by show s.region.base ≤ e.address; omega, this.2⟩

/-- The cursor is moved, and something is written below the tail. -/
theorem setCursor (h : Bounded m s pending) {cursor : Nat} (hcur : cursor ≤ s.region.tail)
    (hm : m.ChangedIn m' lo hi) (hhi : hi ≤ s.region.base + s.region.tail) :
    Bounded m' { s with region := { s.region with cursor := cursor } } pending where
  base_pos := h.base_pos
  end_lt := h.end_lt
  cursor_le := hcur
  shelved := h.shelved
  linked := h.linked_of_changedIn hm hhi
  counted := h.counted

/-- An entry is carved from the tail. -/
theorem carve (h : Bounded m s pending) {e : Registration}
    (hlo : s.region.base + s.region.cursor ≤ e.address)
    (hhi : e.address + 24 ≤ s.region.base + s.region.tail)
    (hm : m.ChangedIn m' e.address (e.address + 24))
    (hread : CallbackEntry.read m' e.address = ⟨e.data, e.handler, s.callbacks.head⟩) :
    Bounded m'
      { s with
        region := { s.region with tail := e.address - s.region.base }
        callbacks := s.callbacks.push e.address }
      (e :: pending) where
  base_pos := h.base_pos
  end_lt := h.end_lt
  cursor_le := by
    show s.region.cursor ≤ e.address - s.region.base
    omega
  shelved := by
    refine ⟨?_, h.shelved.mono hhi⟩
    show s.region.base + (e.address - s.region.base) ≤ e.address
    omega
  linked := ⟨rfl, s.callbacks.head, hread, h.linked_of_changedIn hm hhi⟩
  counted := by
    show s.callbacks.count + 1 = pending.length + 1
    rw [h.counted]

/-- The callbacks are let go of. -/
theorem detach (h : Bounded m s pending) : Bounded m { s with callbacks := Callbacks.empty } [] :=
  { h with
    shelved := Nat.add_le_add_left h.tail_le _
    linked := rfl
    counted := rfl }

/-- Everything is let go of. -/
theorem reset (h : Bounded m s pending) :
    Bounded m { s with region := s.region.reset, callbacks := Callbacks.empty } [] where
  base_pos := h.base_pos
  end_lt := h.end_lt
  cursor_le := Nat.zero_le _
  shelved := Nat.le_refl _
  linked := rfl
  counted := rfl

end Bounded

namespace Sound

/-- A buffer in order is within its bounds. -/
theorem bounded (h : Sound header m s live pending) : Bounded m s pending where
  base_pos := h.base_pos
  end_lt := h.end_lt
  cursor_le := h.cursor_le
  shelved := h.shelved
  linked := h.linked
  counted := h.counted

/-- The tail is within the region. -/
theorem tail_le (h : Sound header m s live pending) : s.region.tail ≤ s.region.capacity :=
  h.bounded.tail_le

/-- A new buffer is in order. -/
theorem fresh {label : String} {base : Nat} {l : Layout} (m : Memory) (hb : 0 < base)
    (hl : base + l.size < Word.size) :
    Sound header m ⟨label, Region.fresh base l, Callbacks.empty⟩ [] [] where
  base_pos := hb
  end_lt := hl
  cursor_le := Nat.zero_le _
  piled := rfl
  saved := fun _ _ hx => nomatch hx
  shaped := fun _ hx => nomatch hx
  shelved := Nat.le_refl _
  linked := rfl
  counted := rfl

/-- A buffer stays in order while its region is kept. -/
theorem congr (h : Sound header m s live pending) (hk : m.Keeps m' s.region.block) :
    Sound header m' s live pending where
  __ := h
  saved hh x hx := by
    have hb := h.piled.bounds hx
    have := h.tail_le
    have := h.cursor_le
    rw [← h.saved hh x hx]
    refine hk.word_eq ?_ ?_
    · show s.region.base ≤ x.address - header
      omega
    · show x.address - header + Word.bytes ≤ s.region.base + s.region.capacity
      omega
  linked := (h.bounded.congr hk).linked

end Sound

/-! ## What a deed can do -/

/-- Everything one deed can do to a buffer, its blocks and its entries.
First the block that the deed is about by its holder's leave, if there is
one, then the memory, the buffer, the blocks and the entries after it. -/
inductive Shift (header : Nat) (m : Memory) (s : Buffer) (live : List Holding)
    (pending : List Registration) :
    Option Holding → Memory → Buffer → List Holding → List Registration → Prop
  /-- Nothing happens. -/
  | stay : Shift header m s live pending none m s live pending
  /-- A block is put on top, with its header. -/
  | push {x : Holding} {cursor : Nat} {m' : Memory} : x.mark = s.region.cursor →
      s.region.base + s.region.cursor + header ≤ x.address →
      x.address + x.size = s.region.base + cursor → cursor ≤ s.region.tail →
      x.Aligned → 0 < x.size →
      m.ChangedIn m' (s.region.base + s.region.cursor) x.address →
      (header = Word.bytes → m'.word (x.address - header) = x.mark) →
      Shift header m s live pending none m' { s with region := { s.region with cursor := cursor } }
        (x :: live) pending
  /-- The top block gets another size and other bytes. -/
  | resize {x : Holding} {xs : List Holding} {size cursor : Nat} {m' : Memory} : live = x :: xs →
      0 < size → x.address + size = s.region.base + cursor → cursor ≤ s.region.tail →
      m.ChangedIn m' x.address (x.address + size) →
      Shift header m s live pending (some x) m'
        { s with region := { s.region with cursor := cursor } }
        ({ x with size := size } :: xs) pending
  /-- The top block goes. -/
  | pop {x : Holding} {xs : List Holding} : live = x :: xs →
      Shift header m s live pending none m
        { s with region := { s.region with cursor := x.mark } } xs pending
  /-- An entry is carved from the tail. -/
  | carve {e : Registration} {m' : Memory} : s.region.base + s.region.cursor ≤ e.address →
      e.address + 24 ≤ s.region.base + s.region.tail →
      m.ChangedIn m' e.address (e.address + 24) →
      CallbackEntry.read m' e.address = ⟨e.data, e.handler, s.callbacks.head⟩ →
      Shift header m s live pending none m'
        { s with
          region := { s.region with tail := e.address - s.region.base }
          callbacks := s.callbacks.push e.address }
        live (e :: pending)
  /-- The callbacks are let go of, the blocks stay. -/
  | detach : Shift header m s live pending none m { s with callbacks := Callbacks.empty } live []
  /-- Everything is let go of. -/
  | reset : Shift header m s live pending none m
      { s with region := s.region.reset, callbacks := Callbacks.empty } [] []
  /-- A holder writes into a block. -/
  | write {x : Holding} {m' : Memory} : x ∈ live →
      m.ChangedIn m' x.address (x.address + x.size) →
      Shift header m s live pending (some x) m' s live pending

/-- The region stays where it is. -/
theorem Shift.block_eq (h : Shift header m s live pending t m' s' live' pending') :
    s'.region.block = s.region.block := by
  cases h <;> rfl

/-- **A deed stays within the region.** -/
theorem Shift.keeps (h : Shift header m s live pending t m' s' live' pending')
    (hs : Sound header m s live pending) {x : Block} (hx : s.region.block.Apart x) :
    m.Keeps m' x := by
  have hx' : s.region.base + s.region.capacity ≤ x.address ∨
      x.address + x.size ≤ s.region.base := hx
  have ht := hs.tail_le
  cases h with
  | stay | pop | detach | reset => exact Memory.Keeps.refl m x
  | push _ _ hend hcur _ _ hm => exact hm x (by omega)
  | resize hl _ hend hcur hm =>
    have hb := hs.piled.bounds (hl ▸ List.mem_cons_self)
    exact hm x (by omega)
  | carve hlo hhi hm => exact hm x (by omega)
  | write hy hm =>
    have hb := hs.piled.bounds hy
    have := hs.cursor_le
    exact hm x (by omega)

/-- **A deed changes no byte of another block** that stays live. -/
theorem Sound.keeps_of_shift (hs : Sound header m s live pending)
    (h : Shift header m s live pending t m' s' live' pending') {x : Holding} (hx : x ∈ live)
    (ht : ∀ y ∈ t, x ≠ y) : m.Keeps m' x.toBlock := by
  have hb := hs.piled.bounds hx
  have hc := hs.cursor_le
  cases h with
  | stay | pop | detach | reset => exact Memory.Keeps.refl m _
  | push _ _ _ _ _ _ hm => exact hm _ (Or.inl hb.2)
  | @resize y ys _ _ _ hl _ _ _ hm =>
    subst hl
    rcases List.mem_cons.1 hx with rfl | hx
    · exact absurd rfl (ht _ rfl)
    · -- the block is under the one that is resized
      have := Piled.bounds hs.piled.2.2 hx
      have := hs.piled.2.1
      exact hm _ (Or.inl (by omega))
  | carve hlo _ hm => exact hm _ (Or.inl (by omega))
  | @write y _ hy hm =>
    rcases hs.piled.eq_or_end_le hx hy with he | hxy
    · exact absurd he (ht _ rfl)
    · exact hm _ (by omega)

/-! ## The invariant is kept -/

namespace Sound

variable {x : Holding} {xs : List Holding} {lo hi : Nat}

/-- A mark is read back as long as its header is kept. -/
theorem saved_of_keeps (hs : Sound header m s live pending) (hh : header = Word.bytes)
    (hx : x ∈ live) (hk : m.Keeps m' ⟨x.address - header, Word.bytes, Word.bytes⟩) :
    m'.word (x.address - header) = x.mark := by
  rw [← hs.saved hh x hx]
  exact hk.word_eq le_rfl le_rfl

/-- A change above the cursor leaves the headers as they are. -/
theorem saved_of_changedIn (hs : Sound header m s live pending) (hm : m.ChangedIn m' lo hi)
    (hlo : s.region.base + s.region.cursor ≤ lo) (hh : header = Word.bytes) :
    ∀ x ∈ live, m'.word (x.address - header) = x.mark := by
  intro x hx
  have hb := hs.piled.bounds hx
  refine hs.saved_of_keeps hh hx (hm _ (Or.inl ?_))
  show x.address - header + Word.bytes ≤ lo
  omega

/-- A block is put on top. -/
theorem push (hs : Sound header m s live pending) {cursor : Nat} (hmark : x.mark = s.region.cursor)
    (hgap : s.region.base + s.region.cursor + header ≤ x.address)
    (hend : x.address + x.size = s.region.base + cursor) (hcur : cursor ≤ s.region.tail)
    (hal : x.Aligned) (hpos : 0 < x.size)
    (hm : m.ChangedIn m' (s.region.base + s.region.cursor) x.address)
    (hword : header = Word.bytes → m'.word (x.address - header) = x.mark) :
    Sound header m' { s with region := { s.region with cursor := cursor } } (x :: live)
      pending where
  base_pos := hs.base_pos
  end_lt := hs.end_lt
  cursor_le := hcur
  piled := ⟨hend, by rw [hmark]; exact hgap, by rw [hmark]; exact hs.piled⟩
  saved := by
    intro hh y hy
    rcases List.mem_cons.1 hy with rfl | hy
    · exact hword hh
    · exact hs.saved_of_changedIn hm le_rfl hh y hy
  shaped := by
    intro y hy
    rcases List.mem_cons.1 hy with rfl | hy
    · exact ⟨hal, hpos⟩
    · exact hs.shaped y hy
  shelved := hs.shelved
  linked := hs.bounded.linked_of_changedIn hm (by omega)
  counted := hs.counted

/-- The block on top gets another size. -/
theorem resize (hs : Sound header m s (x :: xs) pending) {size cursor : Nat} (hpos : 0 < size)
    (hend : x.address + size = s.region.base + cursor) (hcur : cursor ≤ s.region.tail)
    (hm : m.ChangedIn m' x.address (x.address + size)) :
    Sound header m' { s with region := { s.region with cursor := cursor } }
      ({ x with size := size } :: xs) pending where
  base_pos := hs.base_pos
  end_lt := hs.end_lt
  cursor_le := hcur
  piled := ⟨hend, hs.piled.2.1, hs.piled.2.2⟩
  saved := by
    -- every header lies below the block: its own, and those of the blocks under it
    have hkeep : header = Word.bytes → ∀ y ∈ x :: xs, m'.word (y.address - header) = y.mark := by
      intro hh y hy
      have hgap := hs.piled.2.1
      have hle : y.mark + s.region.base + header ≤ y.address ∧ y.address ≤ x.address := by
        rcases List.mem_cons.1 hy with rfl | hy
        · omega
        · have := Piled.bounds hs.piled.2.2 hy
          omega
      refine hs.saved_of_keeps hh hy (hm _ (Or.inl ?_))
      show y.address - header + Word.bytes ≤ x.address
      omega
    intro hh y hy
    rcases List.mem_cons.1 hy with rfl | hy
    · exact hkeep hh x List.mem_cons_self
    · exact hkeep hh y (List.mem_cons_of_mem _ hy)
  shaped := by
    intro y hy
    rcases List.mem_cons.1 hy with rfl | hy
    · exact ⟨(hs.shaped x List.mem_cons_self).1, hpos⟩
    · exact hs.shaped y (List.mem_cons_of_mem _ hy)
  shelved := hs.shelved
  linked := hs.bounded.linked_of_changedIn hm (by omega)
  counted := hs.counted

/-- The block on top goes. -/
theorem pop (hs : Sound header m s (x :: xs) pending) :
    Sound header m { s with region := { s.region with cursor := x.mark } } xs pending where
  base_pos := hs.base_pos
  end_lt := hs.end_lt
  cursor_le := by
    have hb := hs.piled.bounds (x := x) List.mem_cons_self
    have hc := hs.cursor_le
    show x.mark ≤ s.region.tail
    omega
  piled := hs.piled.2.2
  saved := fun hh y hy => hs.saved hh y (List.mem_cons_of_mem _ hy)
  shaped := fun y hy => hs.shaped y (List.mem_cons_of_mem _ hy)
  shelved := hs.shelved
  linked := hs.linked
  counted := hs.counted

/-- An entry is carved from the tail. -/
theorem carve (hs : Sound header m s live pending) {e : Registration}
    (hlo : s.region.base + s.region.cursor ≤ e.address)
    (hhi : e.address + 24 ≤ s.region.base + s.region.tail)
    (hm : m.ChangedIn m' e.address (e.address + 24))
    (hread : CallbackEntry.read m' e.address = ⟨e.data, e.handler, s.callbacks.head⟩) :
    Sound header m'
      { s with
        region := { s.region with tail := e.address - s.region.base }
        callbacks := s.callbacks.push e.address }
      live (e :: pending) :=
  { hs.bounded.carve hlo hhi hm hread with
    piled := hs.piled
    saved := hs.saved_of_changedIn hm hlo
    shaped := hs.shaped }

/-- The callbacks are let go of. -/
theorem detach (hs : Sound header m s live pending) :
    Sound header m { s with callbacks := Callbacks.empty } live [] :=
  { hs.bounded.detach with
    piled := hs.piled
    saved := hs.saved
    shaped := hs.shaped }

/-- A holder writes into a block. -/
theorem write (hs : Sound header m s live pending) (hx : x ∈ live)
    (hm : m.ChangedIn m' x.address (x.address + x.size)) : Sound header m' s live pending := by
  have hb := hs.piled.bounds hx
  have hc := hs.cursor_le
  refine { hs with saved := ?_, linked := hs.bounded.linked_of_changedIn hm (by omega) }
  intro hh y hy
  have hby := hs.piled.bounds hy
  refine hs.saved_of_keeps hh hy (hm _ ?_)
  show y.address - header + Word.bytes ≤ x.address ∨ x.address + x.size ≤ y.address - header
  rcases hs.piled.eq_or_end_le hx hy with rfl | hxy
  · omega
  · omega

/-- **Every deed leaves the buffer in order.** -/
theorem shift (hs : Sound header m s live pending)
    (h : Shift header m s live pending t m' s' live' pending') :
    Sound header m' s' live' pending' := by
  cases h with
  | stay => exact hs
  | push hmark hgap hend hcur hal hpos hm hword =>
    exact hs.push hmark hgap hend hcur hal hpos hm hword
  | resize hl hpos hend hcur hm =>
    subst hl
    exact hs.resize hpos hend hcur hm
  | pop hl =>
    subst hl
    exact hs.pop
  | carve hlo hhi hm hread => exact hs.carve hlo hhi hm hread
  | detach => exact hs.detach
  | reset => exact .fresh m hs.base_pos hs.end_lt
  | write hx hm => exact hs.write hx hm

end Sound

end Buffer

end Allocators
