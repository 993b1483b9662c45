import Allocators.Heap
import Allocators.Proofs.Chain
/-!
# Heaps in order — the ledger, the counters and the chain

A heap is in order beside the blocks that are live and the callbacks that
are registered when its ledger lists just those blocks (in a debug build),
its counters count them, and its callbacks are the chain that was
registered (`Heap.Sound`). The counters are words, so they are stated as
remainders here. A block is entered and struck out without leaving that
order: `Sound.entered` and `Sound.struck`.
-/

namespace Allocators

/-- Adding to a counter that has wrapped. -/
theorem Word.add_mod (x y : Nat) : Word.add (x % size) y = (x + y) % size :=
  Nat.mod_add_mod x size y

/-- Taking from a counter that has wrapped what was added to it. -/
theorem Word.sub_mod (x y : Nat) : Word.sub ((x + y) % size) x = y % size := by
  -- the difference is taken modulo the size, as if nothing had wrapped
  have hx := Nat.mod_add_div x size
  have hlt : x % size < size := Nat.mod_lt _ (by decide)
  unfold Word.sub
  rw [Nat.mod_add_mod, ← Nat.add_mul_mod_self_left y size (x / size + 1)]
  congr 1
  rw [Nat.mul_add]
  omega

/-- Live blocks and their bytes, as the counters show them. -/
def Usage.of (live : List Block) : Usage :=
  ⟨live.length % Word.size, Block.total live % Word.size⟩

namespace Usage

/-- Counting one block more. -/
theorem add_of (x : Block) (live : List Block) : (of live).add x.size = of (x :: live) := by
  simp only [add, of, Word.add_mod, Block.total_cons, List.length_cons, Nat.add_comm x.size]

/-- Counting one block less. -/
theorem remove_of (x : Block) (live : List Block) : (of (x :: live)).remove x.size = of live := by
  simp only [remove, of, Block.total_cons, List.length_cons, Nat.add_comm live.length 1,
    Word.sub_mod]

/-- The order of the blocks does not matter. -/
theorem of_perm {live live' : List Block} (h : live.Perm live') : of live = of live' := by
  rw [of, of, h.length_eq, Block.total_of_perm h]

end Usage

namespace Heap

variable {b : Build} {s : Heap} {m m' : Memory} {live live' : List Block}
variable {pending : List Registration} {l : Layout} {a : Nat}

/-- A heap is in order beside these live blocks and registrations. -/
structure Sound (b : Build) (m : Memory) (s : Heap) (live : List Block)
    (pending : List Registration) : Prop where
  listed : b = .debug → ∀ a l, s.ledger.find? a = some l ↔ Block.of a l ∈ live
  used : s.usage = Usage.of live
  linked : Linked m s.callbacks.head pending
  counted : s.callbacks.count = pending.length

/-- A new heap is in order. -/
theorem Sound.fresh (b : Build) (m : Memory) (label : String) (zeroed : Bool) :
    Sound b m (create label zeroed) [] [] where
  listed := fun _ _ _ => ⟨nofun, nofun⟩
  used := rfl
  linked := rfl
  counted := rfl

/-- The order of the live blocks does not matter. -/
theorem Sound.reorder (hs : Sound b m s live pending) (hp : live.Perm live') :
    Sound b m s live' pending :=
  { hs with
    listed := fun hb a l => (hs.listed hb a l).trans hp.mem_iff
    used := hs.used.trans (Usage.of_perm hp) }

/-- A heap stays in order while its entries are kept. -/
theorem Sound.congr (hs : Sound b m s live pending) (hk : ∀ e ∈ pending, m.Keeps m' e.block) :
    Sound b m' s live pending :=
  { hs with linked := hs.linked.congr hk }

/-! ## Entering and striking out -/

/-- The heap after a block has been entered and counted. -/
def entered (b : Build) (s : Heap) (a : Nat) (l : Layout) : Heap :=
  { s with
    ledger :=
      match b with
      | .debug => s.ledger.insert a l
      | .release => s.ledger
    usage := s.usage.add l.size }

/-- The heap after a block has been struck out and counted off. -/
def struck (b : Build) (s : Heap) (a : Nat) (l : Layout) : Heap :=
  { s with
    ledger :=
      match b with
      | .debug => s.ledger.erase a
      | .release => s.ledger
    usage := s.usage.remove l.size }

/-- A block apart from the live blocks is not one of them, whatever its
layout. -/
theorem not_mem_of_apart (h : ∀ y ∈ live, (Block.of a l).Apart y) (l' : Layout) :
    Block.of a l' ∉ live := by
  intro hm
  exact (h _ hm).address_ne l.size_pos l'.size_pos rfl

/-- **A block is entered** beside blocks it is apart from. -/
theorem Sound.entered (hs : Sound b m s live pending) (h : ∀ y ∈ live, (Block.of a l).Apart y) :
    Sound b m (s.entered b a l) (Block.of a l :: live) pending where
  listed := by
    rintro rfl x l'
    show (s.ledger.insert a l).find? x = some l' ↔ _
    rw [Ledger.find?_insert, List.mem_cons]
    by_cases hx : x = a
    · subst hx
      rw [if_pos rfl]
      constructor
      · rintro ⟨⟩
        exact Or.inl rfl
      · rintro (he | hm)
        · rw [(Block.of_inj he).2]
        · exact absurd hm (not_mem_of_apart h l')
    · rw [if_neg hx, hs.listed rfl]
      exact ⟨Or.inr, fun hm => hm.resolve_left fun he => hx (Block.of_inj he).1⟩
  used := by
    show s.usage.add l.size = _
    rw [hs.used]
    exact Usage.add_of (Block.of a l) live
  linked := hs.linked
  counted := hs.counted

/-- **A block is struck out**, and the others stay listed. -/
theorem Sound.struck (hs : Sound b m s (Block.of a l :: live) pending)
    (h : ∀ y ∈ live, (Block.of a l).Apart y) : Sound b m (s.struck b a l) live pending where
  listed := by
    rintro rfl x l'
    show (s.ledger.erase a).find? x = some l' ↔ _
    rw [Ledger.find?_erase]
    by_cases hx : x = a
    · subst hx
      rw [if_pos rfl]
      exact ⟨nofun, fun hm => absurd hm (not_mem_of_apart h l')⟩
    · rw [if_neg hx, hs.listed rfl, List.mem_cons]
      exact ⟨fun hm => hm.resolve_left fun he => hx (Block.of_inj he).1, Or.inr⟩
  used := by
    show s.usage.remove l.size = _
    rw [hs.used]
    exact Usage.remove_of (Block.of a l) live
  linked := hs.linked
  counted := hs.counted

/-- A live block is found as before when another has been entered. -/
theorem find?_entered {x : Nat} {l' : Layout} (hn : b = .debug → s.ledger.find? a = none)
    (hf : b = .debug → s.ledger.find? x = some l') :
    b = .debug → (s.entered b a l).ledger.find? x = some l' := by
  rintro rfl
  show (s.ledger.insert a l).find? x = some l'
  rw [Ledger.find?_insert, if_neg, hf rfl]
  rintro rfl
  cases (hn rfl).symm.trans (hf rfl)

end Heap

end Allocators
