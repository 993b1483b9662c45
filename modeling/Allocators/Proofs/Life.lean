import Allocators.Proofs.Buffer.Deeds
import Allocators.Proofs.Heap.Deeds
/-!
# Creating, calling and dropping an allocator

An allocator is created, has calls made on it, and ends. At each of these
the accounts with the resource stay straight and everyone else's memory
is left alone: `Allocator.create_cases`, `Custody.ends_act` and
`Custody.close_cases`, for allocators of every kind.
-/

namespace Allocators

open Trace

variable {ρ : Type} [Resource ρ] {b : Build} {w : World ρ} {held rest : List Block}

/-! ## Being made -/

/-- A region is taken from the resource in one request, or not at all. -/
theorem Buffer.create_cases (label : String) (capacity : Nat) (w : World ρ) :
    (∃ r w', create label capacity w = (.error r, w') ∧ w'.memory = w.memory ∧
      (w'.events = w.events ∨ ∃ l, w'.events = .taken l none :: w.events)) ∨
    ∃ a l w', create label capacity w = (.ok ⟨label, Region.fresh a l, Callbacks.empty⟩, w') ∧
      l.size = capacity ∧ w.memory.ChangedIn w'.memory a (a + l.size) ∧
      w'.events = .taken l (some a) :: w.events := by
  unfold create Region.create
  by_cases h0 : capacity = 0
  · exact Or.inl ⟨.zeroSize, w, by rw [if_pos h0], rfl, Or.inl rfl⟩
  · rw [if_neg h0]
    cases hl : Layout.ofSizeAlign? capacity defaultAlign with
    | none => exact Or.inl ⟨.outOfMemory, w, rfl, rfl, Or.inl rfl⟩
    | some l =>
      obtain ⟨hsize, -, -⟩ := Layout.ofSizeAlign?_eq_some_iff.1 hl
      rcases w.take_cases l with ⟨w', h, hm, he⟩ | ⟨a, w', h, hm, he⟩
      · exact Or.inl ⟨.outOfMemory, w', by simp only [h], hm, Or.inr ⟨l, he⟩⟩
      · exact Or.inr ⟨a, l, w', by simp only [h], hsize, hm, he⟩

/-- A region that the resource has granted makes a buffer in order. -/
theorem Buffer.Sound.granted {header : Nat} {a : Nat} {l : Layout} (m : Memory) (label : String)
    {es : Trace} (hg : Honoured (.taken l (some a) :: es)) :
    Sound header m ⟨label, Region.fresh a l, Callbacks.empty⟩ [] [] :=
  .fresh m hg.1.pos hg.1.lt_size

/-- **An allocator is made in one of three ways**: a heap asks the resource
for nothing, and the other kinds for one block, which they may not get. -/
theorem Allocator.create_cases (kind : AllocatorKind) (label : String) (capacity : Nat)
    (w : World ρ) :
    (∃ zeroed, create kind label capacity w = (.ok (.heap (Heap.create label zeroed)), w)) ∨
    (∃ r w', create kind label capacity w = (.error r, w') ∧ w'.memory = w.memory ∧
      (w'.events = w.events ∨ ∃ l, w'.events = .taken l none :: w.events)) ∨
    ∃ wrap a l w', (wrap = stack ∨ wrap = arena) ∧
      create kind label capacity w =
        (.ok (wrap ⟨label, Region.fresh a l, Callbacks.empty⟩), w') ∧
      l.size = capacity ∧ w.memory.ChangedIn w'.memory a (a + l.size) ∧
      w'.events = .taken l (some a) :: w.events := by
  cases kind with
  | heap => exact Or.inl ⟨false, rfl⟩
  | zeroed => exact Or.inl ⟨true, rfl⟩
  | stack =>
    rcases Buffer.create_cases label capacity w with ⟨r, w', h, hm⟩ | ⟨a, l, w', h, hm⟩
    · exact Or.inr (Or.inl ⟨r, w', by simp only [create, h], hm⟩)
    · exact Or.inr (Or.inr ⟨stack, a, l, w', Or.inl rfl, by simp only [create, h], hm⟩)
  | arena =>
    rcases Buffer.create_cases label capacity w with ⟨r, w', h, hm⟩ | ⟨a, l, w', h, hm⟩
    · exact Or.inr (Or.inl ⟨r, w', by simp only [create, h], hm⟩)
    · exact Or.inr (Or.inr ⟨arena, a, l, w', Or.inr rfl, by simp only [create, h], hm⟩)

namespace Custody

variable {kind : AllocatorKind} {label : String} {capacity : Nat} {w' : World ρ}

/-- **An allocator is made in order**, and takes nothing that is held. -/
theorem create_ok {k : Allocator} (hc : Allocator.create kind label capacity w = (.ok k, w'))
    (hg : Honoured w'.events) (ha : Accounts w.events held) (b : Build) :
    (opened k).Sound b w'.memory ∧ Accounts w'.events ((opened k).footprint ++ held) ∧
      ∀ x ∈ held, w.memory.Keeps w'.memory x := by
  rcases Allocator.create_cases kind label capacity w with
    ⟨zeroed, h⟩ | ⟨r, w₁, h, -⟩ | ⟨wrap, a, l, w₁, hw, h, -, hm, he⟩
  · cases h.symm.trans hc
    exact ⟨.fresh b w.memory label zeroed, ha, fun x _ => .refl w.memory x⟩
  · cases h.symm.trans hc
  · cases h.symm.trans hc
    rw [he] at hg ⊢
    refine ⟨?_, ?_, ha.keeps_of_taken hg hm⟩
    · rcases hw with rfl | rfl <;> exact .granted w'.memory label hg
    · rcases hw with rfl | rfl <;> exact ha.taken hg

/-- A buffer is made with one call on the resource, for its region. -/
theorem create_region {k : Allocator} (hc : Allocator.create kind label capacity w = (.ok k, w'))
    (hk : k.isHeap = false) :
    ∃ a l, w'.events = .taken l (some a) :: w.events ∧ (opened k).footprint = [Block.of a l] := by
  rcases Allocator.create_cases kind label capacity w with
    ⟨zeroed, h⟩ | ⟨r, w₁, h, -⟩ | ⟨wrap, a, l, w₁, hw, h, -, -, he⟩
  · cases h.symm.trans hc
    simp at hk
  · cases h.symm.trans hc
  · cases h.symm.trans hc
    refine ⟨a, l, he, ?_⟩
    rcases hw with rfl | rfl <;> rfl

/-- An allocator that is not made takes nothing. -/
theorem create_error {r : Refusal}
    (hc : Allocator.create kind label capacity w = (.error r, w'))
    (ha : Accounts w.events held) : Accounts w'.events held ∧ w'.memory = w.memory := by
  rcases Allocator.create_cases kind label capacity w with
    ⟨zeroed, h⟩ | ⟨r, w₁, h, hm, he⟩ | ⟨wrap, a, l, w₁, -, h, -⟩
  · cases h.symm.trans hc
  · cases h.symm.trans hc
    rcases he with he | ⟨l, he⟩
    · exact ⟨he ▸ ha, hm⟩
    · exact ⟨he ▸ ha.declined l, hm⟩
  · cases h.symm.trans hc

/-! ## Being used -/

omit [Resource ρ] in
/-- A deed on a buffer leaves it in order. -/
theorem sound_of_did {header : Nat} {wrap : Buffer → Allocator} {s : Buffer} {d : Deed}
    {live : List Holding} {pending : List Registration} {out : Except Failure Reply} {c' : Custody}
    (hk : wrap = .stack ∧ header = Stack.header ∨ wrap = .arena ∧ header = 0)
    (hs : s.Sound header w.memory live pending)
    (h : Buffer.Did header wrap d w s live pending out c' w') : c'.Sound b w'.memory := by
  obtain ⟨t, s', hc, hst, -⟩ := h
  have hsound := hs.shift hst.shift
  unfold Custody.Sound
  rcases hk with ⟨rfl, rfl⟩ | ⟨rfl, rfl⟩ <;> rw [hc] <;> exact hsound

omit [Resource ρ] in
/-- What else it leaves behind. -/
theorem upkeep_of_did {header : Nat} {wrap : Buffer → Allocator} {s : Buffer} {d : Deed}
    {live : List Holding} {pending : List Registration} {out : Except Failure Reply} {c' : Custody}
    (hk : wrap = .stack ∧ header = Stack.header ∨ wrap = .arena ∧ header = 0)
    (hs : s.Sound header w.memory live pending)
    (ha : Accounts w.events (s.region.block :: rest))
    (h : Buffer.Did header wrap d w s live pending out c' w') :
    Upkeep b rest d out ⟨wrap s, live, pending⟩ w c' w' := by
  have hsound : c'.Sound b w'.memory := sound_of_did hk hs h
  obtain ⟨t, s', hc, hst, ht⟩ := h
  have hfoot : c'.footprint = [s.region.block] ∧ footprint ⟨wrap s, live, pending⟩ =
      [s.region.block] ∧ c'.allocator.isHeap = (wrap s).isHeap := by
    rw [← hst.shift.block_eq]
    unfold footprint
    rcases hk with ⟨rfl, -⟩ | ⟨rfl, -⟩ <;> rw [hc] <;>
      exact ⟨rfl, congrArg (fun x => [x]) hst.shift.block_eq.symm, rfl⟩
  refine ⟨hsound, ?_, fun x hx => hst.shift.keeps hs (ha.apart_head x hx), fun x hx _ hn => ?_,
    hfoot.2.2, fun _ => ⟨hst.calls, hfoot.1.trans hfoot.2.1.symm⟩⟩
  · rw [hfoot.1]
    exact ha.congr hst.calls
  · refine hs.keeps_of_shift hst.shift hx fun y hy => ?_
    rintro rfl
    exact hn (ht x hy)

/-- Every deed on a stack or an arena leaves all in order, whatever the
resource does. -/
theorem ends_act_buffer {c : Custody} (hk : c.allocator.isHeap = false)
    (hs : c.Sound b w.memory) (ha : Accounts w.events (c.footprint ++ rest)) {d : Deed}
    (hd : c.Allows d) : Ends b d c w fun out c' w' => Upkeep b rest d out c w c' w' := by
  obtain ⟨k, live, pending⟩ := c
  cases k with
  | heap s => simp at hk
  | stack s =>
    obtain ⟨out, c', w', h, hdid⟩ := Stack.ends_act hs b hd
    exact ⟨out, c', w', h, upkeep_of_did (Or.inl ⟨rfl, rfl⟩) hs ha hdid⟩
  | arena s =>
    obtain ⟨out, c', w', h, hdid⟩ := Arena.ends_act hs b hd
    exact ⟨out, c', w', h, upkeep_of_did (Or.inr ⟨rfl, rfl⟩) hs ha hdid⟩

/-- **Every deed leaves all in order**, for allocators of every kind. -/
theorem ends_act {c : Custody} (hs : c.Sound b w.memory)
    (ha : Accounts w.events (c.footprint ++ rest)) {d : Deed} (hd : c.Allows d) :
    Ends b d c w fun out c' w' => Honoured w'.events → Upkeep b rest d out c w c' w' := by
  cases hk : c.allocator.isHeap with
  | false =>
    obtain ⟨out, c', w', h, hu⟩ := ends_act_buffer hk hs ha hd
    exact ⟨out, c', w', h, fun _ => hu⟩
  | true =>
    obtain ⟨k, live, pending⟩ := c
    obtain ⟨s, rfl⟩ := Allocator.exists_heap hk
    exact Heap.ends_act hs ha hd

/-! ## Ending -/

/-- Walking along a chain and giving back the entries of callbacks that
return leaves the accounts straight. -/
theorem accounts_walked {es : List Registration}
    (ha : Accounts w.events (es.map Registration.block ++ held)) :
    Accounts (w.walked (fun a w => w.give a Layout.entry) es).events
        ((unreturned es).map Registration.block ++ held) ∧
      ∀ x ∈ (unreturned es).map Registration.block ++ held,
        w.memory.Keeps (w.walked (fun a w => w.give a Layout.entry) es).memory x := by
  -- on the chain, for any world: each entry is given back before the next callback runs
  induction es generalizing w with
  | nil => exact ⟨ha, fun x _ => .refl w.memory x⟩
  | cons e es ih =>
    have happ := ha.apart_head
    rw [World.walked, unreturned]
    cases e.handler with
    | returns =>
      have hran : Accounts (.ran e.data :: w.events)
          (e.block :: (es.map Registration.block ++ held)) := ha.congr rfl
      have hgiven : Accounts ((w.record (.ran e.data)).give e.address Layout.entry).events
          (es.map Registration.block ++ held) := hran.given
      obtain ⟨hacc, hk⟩ := ih hgiven
      refine ⟨hacc, fun x hx => ?_⟩
      have hmem : x ∈ es.map Registration.block ++ held := by
        rcases List.mem_append.1 hx with hx | hx
        · obtain ⟨d, hd, rfl⟩ := List.mem_map.1 hx
          exact List.mem_append_left _ (List.mem_map_of_mem ((unreturned_sublist es).subset hd))
        · exact List.mem_append_right _ hx
      exact (World.changedIn_give _ _ _ x (happ x hmem).symm).trans (hk x hx)
    | fails =>
      exact ⟨ha.congr rfl, fun x _ => .refl w.memory x⟩

/-- A buffer gives its region back unless a callback fails. -/
theorem close_buffer {header : Nat} {s : Buffer} {live : List Holding} {pending : List Registration}
    (hs : s.Sound header w.memory live pending) (ha : Accounts w.events (s.region.block :: rest)) :
    ∃ s' w', Buffer.close ⟨s, w⟩ = Action.ending ((runResult pending).map fun _ => ()) ⟨s', w'⟩ ∧
      Accounts w'.events ((if ∀ e ∈ pending, e.Returns then [] else [s.region.block]) ++ rest) ∧
      ∀ x ∈ (if ∀ e ∈ pending, e.Returns then [] else [s.region.block]) ++ rest,
        w.memory.Keeps w'.memory x := by
  by_cases hall : ∀ e ∈ pending, e.Returns
  · have hn := runResult_of_returns hall
    obtain ⟨w', h, hm, hc⟩ := Buffer.close_of_ok hs.bounded hn
    simp only [if_pos hall, List.nil_append]
    refine ⟨_, _, by rw [h, hn]; rfl, (ha.congr hc).given, fun x hx => ?_⟩
    rw [← hm]
    exact w'.changedIn_give _ _ x (ha.apart_head x hx).symm
  · obtain ⟨e, hn⟩ := runResult_of_not_returns hall
    have h := Buffer.close_of_error hs.bounded hn
    simp only [if_neg hall]
    refine ⟨_, _, by rw [h, hn]; rfl, ha.congr (w.calls_ran pending), fun x _ => ?_⟩
    rw [w.memory_ran pending]
    exact .refl w.memory x

/-- **An allocator that ends gives back what it answers for**, up to what
its holders still hold and what a callback that fails keeps from it. -/
theorem close_cases {c : Custody} (hs : c.Sound b w.memory)
    (ha : Accounts w.events (c.footprint ++ rest)) :
    ∃ k w', Allocator.close ⟨c.allocator, w⟩ =
        Action.ending ((runResult c.pending).map fun _ => ()) ⟨k, w'⟩ ∧
      Accounts w'.events (c.remains ++ rest) ∧
      ∀ x ∈ c.remains ++ rest, w.memory.Keeps w'.memory x := by
  obtain ⟨k, live, pending⟩ := c
  cases k with
  | heap s =>
    -- the entries are walked along, the live blocks are beside them
    have hmid : ∀ ps : List Block, (live.map Holding.toBlock ++ ps ++ rest).Perm
        (ps ++ (live.map Holding.toBlock ++ rest)) := fun ps => by
      rw [← List.append_assoc]
      exact List.perm_append_comm.append_right rest
    have hacc := ha.reorder (hmid (pending.map Registration.block))
    have h := Heap.close_apply hs (List.pairwise_append.1 hacc.pairwise).1
    obtain ⟨hwalk, hk⟩ := accounts_walked hacc
    refine ⟨_, _, Action.on_of_ending h _,
      (hwalk.congr (World.calls_farewell _ _ _)).reorder (hmid _).symm, fun x hx => ?_⟩
    rw [World.memory_farewell]
    exact hk x ((hmid _).mem_iff.1 hx)
  | stack s =>
    obtain ⟨s', w', h, hacc, hk⟩ := close_buffer hs ha
    exact ⟨_, w', Action.on_of_ending h _, hacc, hk⟩
  | arena s =>
    obtain ⟨s', w', h, hacc, hk⟩ := close_buffer hs ha
    exact ⟨_, w', Action.on_of_ending h _, hacc, hk⟩

end Custody

end Allocators
