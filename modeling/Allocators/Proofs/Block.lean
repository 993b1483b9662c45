import Allocators.Layout
import Allocators.Memory
import Mathlib.Order.Interval.Finset.Nat
/-!
# Blocks of memory

A block is a stretch of memory with the alignment it was asked for. Two
blocks are apart if no byte belongs to both, and `Memory.Keeps` says that
a change of memory leaves a block's bytes alone. `total_le_of_apart` is
the one counting fact: blocks that are apart and lie within a stretch are
together no longer than the stretch.
-/

namespace Allocators

/-- A stretch of memory with its alignment, as its owner knows it. -/
structure Block where
  address : Nat
  size : Nat
  align : Nat
deriving DecidableEq, Repr

namespace Block

/-- The block a layout takes up at an address. -/
def of (a : Nat) (l : Layout) : Block := ⟨a, l.size, l.align⟩

/-- Whether the byte at an address belongs to the block. -/
def Covers (x : Block) (a : Nat) : Prop := Memory.Within x.address x.size a

/-- No byte belongs to both blocks. -/
def Apart (x y : Block) : Prop :=
  x.address + x.size ≤ y.address ∨ y.address + y.size ≤ x.address

/-- Every byte of the first block belongs to the second. -/
def Inside (x y : Block) : Prop :=
  y.address ≤ x.address ∧ x.address + x.size ≤ y.address + y.size

/-- The block starts at a multiple of its alignment. -/
def Aligned (x : Block) : Prop := x.address % x.align = 0

/-- The bytes of all the blocks. -/
def total : List Block → Nat
  | [] => 0
  | x :: xs => x.size + total xs

instance (x : Block) (a : Nat) : Decidable (x.Covers a) := inferInstanceAs (Decidable (_ ∧ _))
instance (x y : Block) : Decidable (x.Apart y) := inferInstanceAs (Decidable (_ ∨ _))
instance (x y : Block) : Decidable (x.Inside y) := inferInstanceAs (Decidable (_ ∧ _))
instance (x : Block) : Decidable x.Aligned := inferInstanceAs (Decidable (_ = _))

/-- An address and a layout are told by the block they make. -/
theorem of_inj {a a' : Nat} {l l' : Layout} (h : of a l = of a' l') : a = a' ∧ l = l' := by
  simp only [of, Block.mk.injEq] at h
  exact ⟨h.1, Layout.eq_of_fields h.2.1 h.2.2⟩

/-- Being apart goes both ways. -/
theorem Apart.symm {x y : Block} (h : x.Apart y) : y.Apart x := Or.symm h

/-- A byte of one block is no byte of a block apart from it. -/
theorem Apart.not_covers {x y : Block} (h : x.Apart y) {a : Nat} (hx : x.Covers a) :
    ¬ y.Covers a := by
  rintro ⟨hy, hy'⟩
  obtain ⟨hx, hx'⟩ := hx
  unfold Apart at h
  omega

/-- Blocks of which one is not empty and that start at the same place are
not apart. -/
theorem Apart.address_ne {x y : Block} (h : x.Apart y) (hx : 0 < x.size) (hy : 0 < y.size) :
    x.address ≠ y.address := by
  unfold Apart at h
  omega

/-! ## Counting -/

/-- One block more. -/
@[simp] theorem total_cons (x : Block) (xs : List Block) : total (x :: xs) = x.size + total xs :=
  rfl

/-- The bytes of two lists of blocks. -/
theorem total_append (xs ys : List Block) : total (xs ++ ys) = total xs + total ys := by
  induction xs with
  | nil => exact (Nat.zero_add _).symm
  | cons x xs ih => rw [List.cons_append, total_cons, total_cons, ih, Nat.add_assoc]

/-- The order of the blocks does not matter. -/
theorem total_of_perm {xs ys : List Block} (h : xs.Perm ys) : total xs = total ys := by
  induction h with
  | nil => rfl
  | cons x _ ih => rw [total_cons, total_cons, ih]
  | swap x y xs => rw [total_cons, total_cons, total_cons, total_cons, Nat.add_left_comm]
  | trans _ _ ih ih' => rw [ih, ih']

/-- The addresses of all the blocks, as a set. -/
def extent (xs : List Block) : Finset Nat :=
  xs.foldr (fun x s => Finset.Ico x.address (x.address + x.size) ∪ s) ∅

/-- An address belongs to the extent when it belongs to one of the blocks. -/
theorem mem_extent {xs : List Block} {a : Nat} : a ∈ extent xs ↔ ∃ x ∈ xs, x.Covers a := by
  induction xs with
  | nil => simp [extent]
  | cons x xs ih =>
    have hc : extent (x :: xs) = Finset.Ico x.address (x.address + x.size) ∪ extent xs := rfl
    rw [hc, Finset.mem_union, ih, Finset.mem_Ico]
    simp [Covers, Memory.Within]

/-- The extent of blocks that are apart has as many addresses as the blocks
have bytes. -/
theorem card_extent {xs : List Block} (h : xs.Pairwise Apart) : (extent xs).card = total xs := by
  induction xs with
  | nil => rfl
  | cons x xs ih =>
    rw [List.pairwise_cons] at h
    have hc : extent (x :: xs) = Finset.Ico x.address (x.address + x.size) ∪ extent xs := rfl
    have hd : Disjoint (Finset.Ico x.address (x.address + x.size)) (extent xs) := by
      rw [Finset.disjoint_left]
      intro a ha hm
      obtain ⟨y, hy, hya⟩ := mem_extent.1 hm
      exact (h.1 y hy).not_covers (Finset.mem_Ico.1 ha) hya
    rw [hc, Finset.card_union_of_disjoint hd, ih h.2, Nat.card_Ico, Nat.add_sub_cancel_left,
      total_cons]

/-- **Blocks that are apart fit.** Together they are no longer than a
stretch they all lie in. -/
theorem total_le_of_apart {xs : List Block} (h : xs.Pairwise Apart) (lo hi : Nat)
    (hin : ∀ x ∈ xs, lo ≤ x.address ∧ x.address + x.size ≤ hi) : total xs ≤ hi - lo := by
  -- both sides count addresses
  rw [← card_extent h, ← Nat.card_Ico]
  refine Finset.card_le_card fun a ha => ?_
  obtain ⟨x, hx, hxa⟩ := mem_extent.1 ha
  have := hin x hx
  exact Finset.mem_Ico.2 ⟨by have := hxa.1; omega, by have := hxa.2; omega⟩

/-- There are no more blocks than bytes in them, if none is empty. -/
theorem length_le_total {xs : List Block} (h : ∀ x ∈ xs, 0 < x.size) : xs.length ≤ total xs := by
  induction xs with
  | nil => exact Nat.le_refl _
  | cons x xs ih =>
    have hx := h x List.mem_cons_self
    have := ih fun y hy => h y (List.mem_cons_of_mem _ hy)
    rw [List.length_cons, total_cons]
    omega

end Block

/-! ## What a change of memory leaves alone -/

/-- The bytes of a block are the same before and after. -/
def Memory.Keeps (m m' : Memory) (x : Block) : Prop := ∀ a, x.Covers a → m'.byteAt a = m.byteAt a

namespace Memory.Keeps

variable {m m' m'' : Memory} {x y : Block}

/-- No change keeps every block. -/
theorem refl (m : Memory) (x : Block) : m.Keeps m x := fun _ _ => rfl

/-- Two changes that keep a block keep it together. -/
theorem trans (h : m.Keeps m' x) (h' : m'.Keeps m'' x) : m.Keeps m'' x := fun a ha =>
  (h' a ha).trans (h a ha)

/-- What keeps a block keeps its parts. -/
theorem of_inside (h : m.Keeps m' y) (hx : x.Inside y) : m.Keeps m' x := fun a ha => by
  obtain ⟨h1, h2⟩ := hx
  have := ha.1
  have := ha.2
  exact h a ⟨by omega, by omega⟩

/-- A word inside a block that is kept is the same word. -/
theorem word_eq (h : m.Keeps m' x) {a : Nat} (ha : x.address ≤ a)
    (ha' : a + Word.bytes ≤ x.address + x.size) : m'.word a = m.word a := by
  refine Memory.number_congr fun i hi => h i ⟨?_, ?_⟩
  · have := hi.1; omega
  · have := hi.2; omega

end Memory.Keeps

/-- A change within a stretch: it keeps every block apart from that. -/
def Memory.ChangedIn (m m' : Memory) (lo hi : Nat) : Prop :=
  ∀ x : Block, x.address + x.size ≤ lo ∨ hi ≤ x.address → m.Keeps m' x

/-- An update changes its stretch. -/
theorem Memory.changedIn_update (m : Memory) (start len : Nat) (f : Nat → UInt8 → UInt8) :
    m.ChangedIn (m.update start len f) start (start + len) := by
  rintro x hx a ⟨ha, ha'⟩
  rw [Memory.byteAt_update, if_neg]
  rintro ⟨hs, hs'⟩
  omega

/-- A word changes its own bytes. -/
theorem Memory.changedIn_writeWord (m : Memory) (a n : Nat) :
    m.ChangedIn (m.writeWord a n) a (a + Word.bytes) :=
  m.changedIn_update a Word.bytes _

/-- A copy changes its target. -/
theorem Memory.changedIn_copy (m : Memory) (source target len : Nat) :
    m.ChangedIn (m.copy source target len) target (target + len) := by
  rintro x hx a ⟨ha, ha'⟩
  rw [Memory.byteAt_copy, if_neg]
  rintro ⟨hs, hs'⟩
  omega

namespace Memory.ChangedIn

variable {m m' m'' : Memory} {lo hi lo' hi' : Nat}

/-- No change is within any stretch. -/
theorem refl (m : Memory) (lo hi : Nat) : m.ChangedIn m lo hi := fun x _ => Memory.Keeps.refl m x

/-- A change within a stretch is within a larger one. -/
theorem mono (h : m.ChangedIn m' lo hi) (hl : lo' ≤ lo) (hh : hi ≤ hi') :
    m.ChangedIn m' lo' hi' := fun x hx => h x (by omega)

/-- Two changes within a stretch are together within it. -/
theorem trans (h : m.ChangedIn m' lo hi) (h' : m'.ChangedIn m'' lo hi) : m.ChangedIn m'' lo hi :=
  fun x hx => (h x hx).trans (h' x hx)

/-- A byte that has changed lies there. -/
theorem within_of_ne (h : m.ChangedIn m' lo hi) {a : Nat} (hne : m'.byteAt a ≠ m.byteAt a) :
    lo ≤ a ∧ a < hi := by
  by_contra hout
  refine hne (h ⟨a, 1, 1⟩ ?_ a ⟨le_rfl, Nat.lt_succ_self a⟩)
  show a + 1 ≤ lo ∨ hi ≤ a
  omega

end Memory.ChangedIn

end Allocators
