import Allocators.Layout
import Allocators.Failure
/-!
# Ledgers — which blocks are live

A ledger lists live blocks by address, each with its layout. It is kept in
debug builds, to find blocks that are given back twice, that never were,
or that come back with another layout. `find?_insert` and `find?_erase`
say what the two changes do to a look-up.
-/

namespace Allocators

/-- Live blocks by address, the latest first. -/
structure Ledger where
  entries : List (Nat × Layout)

namespace Ledger

/-- No live block. -/
def empty : Ledger := ⟨[]⟩

/-- The layout of the live block at an address. -/
def find? (t : Ledger) (a : Nat) : Option Layout := (t.entries.find? fun e => e.1 = a).map (·.2)

/-- The ledger without the block at an address. -/
def erase (t : Ledger) (a : Nat) : Ledger := ⟨t.entries.filter fun e => e.1 ≠ a⟩

/-- The ledger with this block, in place of any other at its address. -/
def insert (t : Ledger) (a : Nat) (l : Layout) : Ledger := ⟨(a, l) :: (t.erase a).entries⟩

/-- Finds fault with a block that is not live with this layout. -/
def check (t : Ledger) (a : Nat) (l : Layout) : Except Failure Unit :=
  match t.find? a with
  | none => .error (.fault (.notLive a))
  | some live => if live = l then .ok () else .error (.fault (.otherLayout a live l))

/-- After an insertion the block is found, and any other as before. -/
theorem find?_insert (t : Ledger) (a x : Nat) (l : Layout) :
    (t.insert a l).find? x = if x = a then some l else t.find? x := by
  by_cases h : x = a
  · simp [find?, insert, h]
  · have hf : ∀ es : List (Nat × Layout),
        (es.filter fun e => e.1 ≠ a).find? (fun e => e.1 = x) = es.find? fun e => e.1 = x := by
      intro es
      induction es with
      | nil => rfl
      | cons e es ih =>
        by_cases h1 : e.1 = a
        · have h2 : ¬ e.1 = x := fun hx => h (hx ▸ h1)
          have h3 : ¬ a = x := fun hx => h hx.symm
          simp [h1, h3] at ih ⊢
          exact ih
        · by_cases h2 : e.1 = x
          · simp [h2, h]
          · simp [h1, h2] at ih ⊢
            exact ih
    have h3 : ¬ a = x := fun hx => h hx.symm
    have := hf t.entries
    simp only [find?, insert, erase, h, if_false]
    rw [List.find?_cons_of_neg (by simp [h3]), this]

/-- After an erasure the block is not found, and any other as before. -/
theorem find?_erase (t : Ledger) (a x : Nat) :
    (t.erase a).find? x = if x = a then none else t.find? x := by
  by_cases h : x = a
  · simp [find?, erase, h]
  · have hi := find?_insert t a x Layout.entry
    rw [if_neg h] at hi ⊢
    rw [← hi]
    have h3 : ¬ a = x := fun hx => h hx.symm
    simp [find?, insert, h3]

/-- **A block passes when it is live with this very layout.** -/
theorem check_eq_ok_iff {t : Ledger} {a : Nat} {l : Layout} :
    t.check a l = .ok () ↔ t.find? a = some l := by
  unfold check
  split
  · next h => simp [h]
  · next live h => split <;> simp_all

end Ledger

end Allocators
