import Allocators.Proofs.Closure
import Allocators.Proofs.Faultless
import Allocators.Proofs.Separation
/-!
# Ordinary histories, and the places of live blocks

Programs have their memory in the lower half of the address space. A
history is ordinary if the resource kept its part and every block it handed
out lies there (`Trace.Ordinary`). Then a live block is never larger than a
layout of its alignment may be, also where a stack let it grow into all the
room it had (`Custody.Sound.exists_layout`): it starts at a multiple of its
alignment above zero and ends in the lower half. In any history live blocks
of one allocator have places of their own (`Custody.Sound.placed`,
`Custody.Sound.distinct`).
-/

namespace Allocators

open Trace

/-- No block is handed out, or one in the lower half of the address space. -/
def Event.Lower : Event → Prop
  | .taken l (some a) => 2 * (a + l.size) ≤ Word.size
  | _ => True

instance (e : Event) : Decidable e.Lower :=
  match e with
  | .taken l (some a) => inferInstanceAs (Decidable (2 * (a + l.size) ≤ Word.size))
  | .taken _ none => .isTrue trivial
  | .given _ _ => .isTrue trivial
  | .ran _ => .isTrue trivial
  | .noted _ _ => .isTrue trivial

namespace Trace

/-- The resource kept its part, with memory from the lower half of the address
space. -/
structure Ordinary (es : Trace) : Prop where
  honoured : Honoured es
  lower : ∀ e ∈ es, e.Lower

instance (es : Trace) : Decidable (Ordinary es) :=
  decidable_of_iff (Honoured es ∧ ∀ e ∈ es, e.Lower)
    ⟨fun h => ⟨h.1, h.2⟩, fun h => ⟨h.honoured, h.lower⟩⟩

variable {es es' new : Trace}

/-- A resource that keeps its part has kept it before. -/
theorem Honoured.of_append (h : Honoured (new ++ es)) : Honoured es := by
  induction new with
  | nil => exact h
  | cons e new ih =>
    rcases e with ⟨l, _ | a⟩ | ⟨a, l⟩ | _ | _
    · exact ih h
    · exact ih h.2
    · exact ih h
    · exact ih h
    · exact ih h

/-- **What was before an ordinary history is ordinary.** -/
theorem Ordinary.of_suffix (h : Ordinary es') (hs : es <:+ es') : Ordinary es := by
  obtain ⟨new, rfl⟩ := hs
  exact ⟨h.honoured.of_append, fun e he => h.lower e (List.mem_append_right _ he)⟩

/-- To give blocks back is ordinary, whatever else is noticed meanwhile. -/
theorem Ordinary.of_calls (h : Ordinary es)
    (hc : ∃ given, calls es' = given ++ calls es ∧ ∀ e ∈ given, ∃ a l, e = .given a l) :
    Ordinary es' := by
  obtain ⟨given, hc, hg⟩ := hc
  have hgiven : ∀ {es : Trace}, Honoured es → Honoured (given ++ es) := by
    intro es hes
    clear hc
    induction given with
    | nil => exact hes
    | cons e given ih =>
      obtain ⟨a, l, rfl⟩ := hg e List.mem_cons_self
      exact ih fun e he => hg e (List.mem_cons_of_mem _ he)
  refine ⟨(honoured_calls es').1 ?_, fun e he => ?_⟩
  · rw [hc]
    exact hgiven ((honoured_calls es).2 h.honoured)
  · -- an event that is no call has no block to hand out
    by_cases hcall : e.isCall = true
    · have hmem : e ∈ calls es' := List.mem_filter.2 ⟨he, hcall⟩
      rw [hc] at hmem
      rcases List.mem_append.1 hmem with hmem | hmem
      · obtain ⟨a, l, rfl⟩ := hg e hmem
        trivial
      · exact h.lower e (List.mem_of_mem_filter hmem)
    · cases e with
      | taken l a => exact absurd rfl hcall
      | given a l => trivial
      | ran data => trivial
      | noted label n => trivial

/-- Outstanding blocks lie in the lower half. -/
theorem Ordinary.outstanding_le (h : Ordinary es) :
    ∀ x ∈ outstanding es, 2 * (x.address + x.size) ≤ Word.size := by
  obtain ⟨-, hl⟩ := h
  induction es with
  | nil => exact nofun
  | cons e es ih =>
    have hrest := ih fun e he => hl e (List.mem_cons_of_mem _ he)
    rcases e with ⟨l, _ | a⟩ | ⟨a, l⟩ | _ | _
    · exact hrest
    · intro x hx
      rcases List.mem_cons.1 hx with rfl | hx
      · exact hl _ List.mem_cons_self
      · exact hrest x hx
    · exact fun x hx => hrest x (List.mem_of_mem_erase hx)
    · exact hrest
    · exact hrest

end Trace

/-! ## Live blocks -/

/-- A block in the lower half that has its place can be described by a layout. -/
theorem Trace.Placed.exists_layout {x : Block} (h : Placed x) (hp : x.align.isPowerOfTwo)
    (hl : 2 * (x.address + x.size) ≤ Word.size) :
    ∃ l, Layout.ofSizeAlign? x.size x.align = some l ∧ Block.of x.address l = x := by
  -- its address is a multiple of its alignment and not zero, so it is no less
  have hle : x.align ≤ x.address := Nat.le_of_dvd h.pos (Nat.dvd_of_mod_eq_zero h.aligned)
  have haddr := h.pos
  have hpos := h.size_pos
  have hsize : Word.size = 2 * (Word.maxDistance + 1) := rfl
  have hfits : x.size ≤ maxSize x.align := by
    unfold maxSize
    omega
  refine ⟨_, dif_pos ⟨hp, hpos, hfits⟩, rfl⟩

namespace Custody

/-- The blocks that are live start at addresses of their own. -/
def Distinct (c : Custody) : Prop := (c.blocks.map Block.address).Nodup

/-- One of them starts elsewhere than the others. -/
theorem Distinct.address_ne {k : Allocator} {as bs : List Holding} {x : Holding}
    {pending : List Registration} (h : Distinct ⟨k, as ++ x :: bs, pending⟩) :
    ∀ y ∈ as ++ bs, y.address ≠ x.address := by
  intro y hy heq
  have hp : ((as ++ x :: bs).map Holding.toBlock).map Block.address |>.Perm
      (x.address :: ((as ++ bs).map Holding.toBlock).map Block.address) :=
    (List.perm_middle.map Holding.toBlock).map Block.address
  have hn := (List.nodup_cons.1 (hp.nodup_iff.1 h)).1
  exact hn (List.mem_map.2 ⟨y.toBlock, List.mem_map_of_mem hy, heq⟩)

/-- The latest starts elsewhere than the others. -/
theorem Distinct.address_ne_head {k : Allocator} {bs : List Holding} {x : Holding}
    {pending : List Registration} (h : Distinct ⟨k, x :: bs, pending⟩) :
    ∀ y ∈ bs, y.address ≠ x.address := by
  have hsplit : Distinct ⟨k, [] ++ x :: bs, pending⟩ := h
  exact hsplit.address_ne

/-- The live blocks start at addresses of their own, and layouts describe
them. -/
structure Tidy (c : Custody) : Prop where
  distinct : c.Distinct
  describable : ∀ x ∈ c.blocks, x.align.isPowerOfTwo →
    ∃ l, Layout.ofSizeAlign? x.size x.align = some l ∧ Block.of x.address l = x

namespace Sound

variable {ρ : Type} {b : Build} {c : Custody} {w : World ρ} {rest : List Block}

variable (hs : c.Sound b w.memory) (ha : Accounts w.events (c.footprint ++ rest))

include hs ha

/-- Every live block has its place. -/
theorem placed : ∀ x ∈ c.blocks, Placed x := by
  have hbuffer : ∀ {header : Nat} {s : Buffer} {live : List Holding} {pending : List Registration},
      s.Sound header w.memory live pending → ∀ x ∈ live.map Holding.toBlock, Placed x := by
    intro header s live pending hs x hx
    obtain ⟨y, hy, rfl⟩ := List.mem_map.1 hx
    have hb := hs.piled.bounds hy
    have hpos := hs.base_pos
    have hend := hs.end_lt
    have hc := hs.cursor_le
    have ht := hs.tail_le
    have hshape := hs.shaped y hy
    have hlo : 0 < y.address := by omega
    have hhi : y.address + y.size < Word.size := by omega
    exact ⟨hlo, hshape.1, hhi, hshape.2⟩
  obtain ⟨k, live, pending⟩ := c
  cases k with
  | heap s =>
    exact fun x hx => ha.placed x (List.mem_append_left _ (List.mem_append_left _ hx))
  | stack s => exact hbuffer hs
  | arena s => exact hbuffer hs

/-- Live blocks are apart. -/
theorem pairwise : c.blocks.Pairwise Block.Apart := by
  obtain ⟨k, live, pending⟩ := c
  cases k with
  | heap s => exact (List.pairwise_append.1 (List.pairwise_append.1 ha.pairwise).1).1
  | stack s => exact Buffer.Sound.pairwise_live hs
  | arena s => exact Buffer.Sound.pairwise_live hs

/-- **No two live blocks start at one address.** -/
theorem distinct : c.Distinct := by
  have hplaced := placed hs ha
  rw [Distinct, List.Nodup, List.pairwise_map]
  refine (pairwise hs ha).imp_of_mem fun {x y} hx hy hxy => ?_
  exact hxy.address_ne (hplaced x hx).size_pos (hplaced y hy).size_pos

/-- **A live block can be described by a layout**, in an ordinary history. -/
theorem exists_layout (ho : Ordinary w.events) {x : Block} (hx : x ∈ c.blocks)
    (hp : x.align.isPowerOfTwo) :
    ∃ l, Layout.ofSizeAlign? x.size x.align = some l ∧ Block.of x.address l = x := by
  refine (placed hs ha x hx).exists_layout hp ?_
  obtain ⟨h, hh, rfl⟩ := List.mem_map.1 hx
  obtain ⟨y, hy, -, hend⟩ := hs.inside hh
  have hout : y ∈ outstanding w.events := ha.perm.mem_iff.2 (List.mem_append_left _ hy)
  have hle := ho.outstanding_le y hout
  omega

end Sound

end Custody

/-- **Live blocks are tidy** wherever a run within the agreement leads to, if its
history is ordinary. -/
theorem Estate.Reachable.tidy {ρ : Type} [Resource ρ] {b : Build} {E : Estate ρ}
    (h : Reachable b E) (ho : Ordinary E.world.events) {t : Tenant} (ht : t ∈ E.tenants) :
    t.Tidy := by
  have hs := h.sound.sound t ht
  obtain ⟨rest, ha⟩ := h.sound.accounts_tenant ht
  exact ⟨hs.distinct ha, fun x hx hp => hs.exists_layout ha ho hx hp⟩

end Allocators
