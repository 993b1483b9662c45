import Allocators.Proofs.Heap.Calls
import Allocators.Proofs.Upkeep
/-!
# What a deed comes to on a heap

Each deed on a heap is left behind in order, whether it is answered or
fails, as long as the resource keeps its part (`Heap.ends_act`). Every
block it asks the resource for is apart from all that are outstanding, so
what it writes into a new block misses them; every block it gives back is
one that it answers for, with the layout it was taken with.
-/

namespace Allocators

open Trace

variable {ρ : Type} [Resource ρ]

open Custody

namespace Heap

variable {b : Build} {s : Heap} {w w' : World ρ} {live : List Holding}
variable {pending : List Registration} {rest : List Block} {l : Layout} {a : Nat}

/-- What happens to a heap when the deed is done: it stays a heap, and all
is left behind as it should be if the resource keeps its part. -/
def Upheld (b : Build) (rest : List Block) (d : Deed) (w : World ρ) (s : Heap)
    (live : List Holding) (pending : List Registration) (out : Except Failure Reply) (c' : Custody)
    (w' : World ρ) : Prop :=
  Honoured w'.events → Upkeep b rest d out ⟨.heap s, live, pending⟩ w c' w'

/-- A heap is none of the allocators that ask nothing of the resource. -/
theorem not_quiet {p : Prop} (h : (Allocator.heap s).isHeap = false) : p :=
  absurd (h.symm.trans (Allocator.isHeap_heap s)) Bool.false_ne_true

variable (hs : s.Sound b w.memory (live.map Holding.toBlock) pending)
variable (ha : Accounts w.events
  (live.map Holding.toBlock ++ pending.map Registration.block ++ rest))

include hs ha

/-! ## New blocks -/

omit [Resource ρ] in
/-- A heap is in order with a block more that the resource has granted. -/
theorem sound_granted {m : Memory} (hg : Honoured (.taken l (some a) :: w.events))
    (hm : w.memory.ChangedIn m a (a + l.size)) :
    (s.entered b a l).Sound b m (Block.of a l :: live.map Holding.toBlock) pending := by
  have hk := ha.keeps_of_taken hg hm
  refine (hs.congr fun e he => hk _ ?_).entered fun y hy => ha.apart hg y ?_
  · exact List.mem_append_left _ (List.mem_append_right _ (List.mem_map_of_mem he))
  · exact List.mem_append_left _ (List.mem_append_left _ hy)

omit [Resource ρ] in
/-- A block that the resource has granted leaves all in order. -/
theorem upkeep_granted {d : Deed} {out : Except Failure Reply} (x : Holding)
    (hx : x.toBlock = Block.of a l) (hm : w.memory.ChangedIn w'.memory a (a + l.size))
    (he : calls w'.events = calls (.taken l (some a) :: w.events)) (hg : Honoured w'.events) :
    Upkeep b rest d out ⟨.heap s, live, pending⟩ w ⟨.heap (s.entered b a l), x :: live, pending⟩
      w' := by
  rw [honoured_congr he] at hg
  have hk := ha.keeps_of_taken hg hm
  refine ⟨?_, ?_, fun y hy => hk y (List.mem_append_right _ hy), fun y hy _ _ => ?_, rfl, not_quiet⟩
  · show (s.entered b a l).Sound b w'.memory (x.toBlock :: live.map Holding.toBlock) pending
    exact hx ▸ sound_granted hs ha hg hm
  · show Accounts w'.events (x.toBlock :: _)
    exact hx ▸ (ha.taken hg).congr he
  · exact hk _ (List.mem_append_left _ (List.mem_append_left _ (List.mem_map_of_mem hy)))

/-- An allocation leaves all in order. -/
theorem ends_allocate (l : Layout) : Ends b (.call (.allocate l)) ⟨.heap s, live, pending⟩ w
    (Upheld b rest (.call (.allocate l)) w s live pending) := by
  rcases allocate_cases hs ((List.append_assoc _ _ _) ▸ ha) l with
    ⟨w', h, hm, he⟩ | ⟨a, w', h, -, hm, he⟩ | ⟨e, s', w', h, hn⟩
  · exact .of_error rfl h rfl fun _ => .same hs hm ((ha.declined l).congr he)
  · exact .of_ok rfl h rfl fun hg => upkeep_granted hs ha _ rfl hm he hg
  · exact .of_error rfl h rfl fun hg => absurd hg hn

/-- A registration leaves all in order. -/
theorem ends_register (b' : Build) {data : Nat} (hd : data < Word.size) (h : Handler) :
    Ends b' (.call (.register data h)) ⟨.heap s, live, pending⟩ w
      (Upheld b rest (.call (.register data h)) w s live pending) := by
  rcases register_cases s w data h with ⟨w', hr, hm, he⟩ | ⟨a, m, w', hr, hm, hm', he⟩
  · refine .of_error rfl hr rfl fun _ => ?_
    exact .same hs hm (he ▸ ha.declined Layout.entry)
  · refine .of_ok rfl hr rfl fun hg => ?_
    rw [he] at hg
    -- the entry is written into the block that was granted for it
    have hch : w.memory.ChangedIn w'.memory a (a + Layout.entry.size) :=
      hm' ▸ hm.trans (CallbackEntry.changedIn_write _ _ _)
    have hk := ha.keeps_of_taken hg hch
    have hhead : ∀ x ∈ s.callbacks.head, 0 < x ∧ x < Word.size := by
      intro x hx
      rw [hs.linked.head_eq, Option.mem_def, Option.map_eq_some_iff] at hx
      obtain ⟨e, he, rfl⟩ := hx
      have hp := ha.placed e.block (List.mem_append_left _ (List.mem_append_right _
        (List.mem_map_of_mem (List.mem_of_head? he))))
      exact ⟨hp.pos, Nat.lt_of_le_of_lt (Nat.le_add_right _ _) hp.lt_size⟩
    have hread : CallbackEntry.read w'.memory a = ⟨data, h, s.callbacks.head⟩ :=
      hm' ▸ CallbackEntry.read_write m a hd hhead
    have hkp : ∀ e ∈ pending, w.memory.Keeps w'.memory e.block := fun e he =>
      hk _ (List.mem_append_left _ (List.mem_append_right _ (List.mem_map_of_mem he)))
    refine ⟨⟨hs.listed, hs.used, ⟨rfl, _, hread, hs.linked.congr hkp⟩, ?_⟩, ?_, ?_, ?_, rfl,
      not_quiet⟩
    · show s.callbacks.count + 1 = pending.length + 1
      rw [hs.counted]
    · rw [he]
      exact (ha.taken hg).reorder (List.perm_middle.symm.append_right rest)
    · exact fun x hx => hk x (List.mem_append_right _ hx)
    · exact fun x hx _ _ => hk _ (List.mem_append_left _ (List.mem_append_left _
        (List.mem_map_of_mem hx)))

omit hs ha

/-! ## One block out of the live ones -/

variable {as bs : List Holding} {x : Holding}

/-- One of the live blocks put first. -/
theorem perm_split (as bs : List Holding) (x : Holding) (others : List Block) :
    ((as ++ x :: bs).map Holding.toBlock ++ others).Perm
      (x.toBlock :: ((as ++ bs).map Holding.toBlock ++ others)) := by
  rw [List.map_append, List.map_cons, List.map_append]
  exact List.perm_middle.append_right others

omit [Resource ρ] in
/-- A live block put first, for a heap. -/
theorem sound_split {m : Memory} (hs : s.Sound b m ((as ++ x :: bs).map Holding.toBlock) pending) :
    s.Sound b m (x.toBlock :: (as ++ bs).map Holding.toBlock) pending := by
  refine hs.reorder ?_
  rw [List.map_append, List.map_cons, List.map_append]
  exact List.perm_middle

/-- A live block starts elsewhere than the others. -/
theorem address_ne {es : Trace} {others : List Block}
    (ha : Accounts es ((as ++ x :: bs).map Holding.toBlock ++ others)) :
    ∀ y ∈ as ++ bs, y.address ≠ x.address := by
  intro y hy
  have hx := ha.reorder (perm_split as bs x others)
  have hm : y.toBlock ∈ (as ++ bs).map Holding.toBlock ++ others :=
    List.mem_append_left _ (List.mem_map_of_mem hy)
  have hxp := (hx.placed x.toBlock List.mem_cons_self).size_pos
  have hyp := (hx.placed y.toBlock (List.mem_cons_of_mem _ hm)).size_pos
  exact ((hx.apart_head y.toBlock hm).address_ne hxp hyp).symm

/-! ## Old blocks -/

/-- A free leaves all in order. -/
theorem ends_deallocate (hs : s.Sound b w.memory ((as ++ x :: bs).map Holding.toBlock) pending)
    (ha : Accounts w.events
      ((as ++ x :: bs).map Holding.toBlock ++ (pending.map Registration.block ++ rest)))
    (hl : Block.of a l = x.toBlock) :
    Ends b (.call (.deallocate a l)) ⟨.heap s, as ++ x :: bs, pending⟩ w
      (Upheld b rest (.call (.deallocate a l)) w s (as ++ x :: bs) pending) := by
  have hx := ha.reorder (perm_split as bs x _)
  have hf : b = .debug → s.ledger.find? a = some l := fun hb =>
    (hs.listed hb a l).2 (hl ▸ List.mem_map_of_mem (by simp))
  have haddr : a = x.address := congrArg Block.address hl
  have hc : ∀ k, Custody.answered ⟨.heap s, as ++ x :: bs, pending⟩ k (.deallocate a l) .done =
      ⟨k, as ++ bs, pending⟩ := by
    intro k
    simp only [Custody.answered, Allocator.freed, haddr,
      Holding.eraseP_split (address_ne ha)]
  rw [← hl] at hx
  have hal : a % l.align = 0 := (hx.placed _ List.mem_cons_self).aligned
  -- what the block is apart from is kept when it is given back
  have hk : ∀ y ∈ (as ++ bs).map Holding.toBlock ++ (pending.map Registration.block ++ rest),
      w.memory.Keeps (w.give a l).memory y := fun y hy =>
    w.changedIn_give a l y (hx.apart_head y hy).symm
  refine .of_ok rfl (deallocate_apply hal hf w) (hc _) fun _ => ⟨?_, ?_, ?_, ?_, rfl, not_quiet⟩
  · have hs' := sound_split hs
    rw [← hl] at hs'
    refine (hs'.struck fun y hy => ?_).congr fun e he => hk _ ?_
    · exact hx.apart_head y (List.mem_append_left _ hy)
    · exact List.mem_append_right _ (List.mem_append_left _ (List.mem_map_of_mem he))
  · have hg := hx.given
    rw [← List.append_assoc] at hg
    exact hg.congr rfl
  · exact fun y hy => hk y (List.mem_append_right _ (List.mem_append_right _ hy))
  · exact fun y _ hy _ => hk _ (List.mem_append_left _ hy)

omit [Resource ρ] in
/-- A move leaves all in order: the new block is granted, the bytes that
survive are copied into it, and the old block is given back. -/
theorem upkeep_moved {d : Deed} {out : Except Failure Reply} {old new : Layout}
    (hs : s.Sound b w.memory ((as ++ x :: bs).map Holding.toBlock) pending)
    (ha : Accounts w.events
      ((as ++ x :: bs).map Holding.toBlock ++ (pending.map Registration.block ++ rest)))
    (hold : Block.of x.address old = x.toBlock) (hal : new.align = x.align) {m : Memory}
    (hm : w.memory.ChangedIn m a (a + new.size))
    (hg : Honoured (.taken new (some a) :: w.events)) {w' : World ρ}
    (hm' : m.ChangedIn w'.memory x.address (x.address + old.size))
    (he : calls w'.events = calls (.given x.address old :: .taken new (some a) :: w.events)) :
    Upkeep b rest d out ⟨.heap s, as ++ x :: bs, pending⟩ w
      ⟨.heap ((s.entered b a new).struck b x.address old),
        as ++ { x with address := a, size := new.size } :: bs, pending⟩ w' := by
  have hnew : ({ x with address := a, size := new.size } : Holding).toBlock = Block.of a new := by
    rw [Block.of, hal]
  have hx := ha.reorder (perm_split as bs x _)
  have hxy := hx.apart_head
  have hk := hx.keeps_of_taken hg hm
  have hgrant := (ha.taken hg).reorder
    (((perm_split as bs x (pending.map Registration.block ++ rest)).cons _).trans (.swap _ _ _))
  rw [← hold] at hgrant
  -- the other blocks miss the new block as well as the old one
  have hkeep : ∀ y ∈ (as ++ bs).map Holding.toBlock ++ (pending.map Registration.block ++ rest),
      w.memory.Keeps w'.memory y := fun y hy =>
    (hk y (List.mem_cons_of_mem _ hy)).trans
      (hm' y (hgrant.apart_head y (List.mem_cons_of_mem _ hy)).symm)
  have hsnew : (s.entered b a new).Sound b w.memory
      (Block.of a new :: x.toBlock :: (as ++ bs).map Holding.toBlock) pending := by
    refine (sound_split hs).entered fun y hy => hx.apart hg y ?_
    rcases List.mem_cons.1 hy with rfl | hy
    · exact List.mem_cons_self
    · exact List.mem_cons_of_mem _ (List.mem_append_left _ hy)
  refine ⟨?_, ?_, ?_, ?_, rfl, not_quiet⟩
  · have hs' := hsnew.reorder (.swap x.toBlock (Block.of a new) _)
    rw [← hold] at hs'
    have hst := hs'.struck fun y hy => hgrant.apart_head y <| by
      rcases List.mem_cons.1 hy with rfl | hy
      · exact List.mem_cons_self
      · exact List.mem_cons_of_mem _ (List.mem_append_left _ hy)
    refine (hst.reorder ?_).congr fun e he => hkeep _ ?_
    · rw [← hnew, List.map_append, List.map_append, List.map_cons]
      exact List.perm_middle.symm
    · exact List.mem_append_right _ (List.mem_append_left _ (List.mem_map_of_mem he))
  · have hgiven := hgrant.given
    rw [← hnew] at hgiven
    have hacc := hgiven.reorder (perm_split as bs { x with address := a, size := new.size } _).symm
    rw [← List.append_assoc] at hacc
    exact hacc.congr he
  · exact fun y hy => hkeep y (List.mem_append_right _ (List.mem_append_right _ hy))
  · intro y hy hy' _
    have hmem := List.mem_append_left (pending.map Registration.block ++ rest) hy'
    rw [(perm_split as bs { x with address := a, size := new.size } _).mem_iff, hnew] at hmem
    rcases List.mem_cons.1 hmem with hya | hya
    · -- the new block is none of those that were live before
      have happ := ha.apart hg y.toBlock (List.mem_append_left _ (List.mem_map_of_mem hy))
      rw [hya] at happ
      exact absurd rfl (happ.address_ne new.size_pos new.size_pos)
    · exact hkeep _ hya

omit [Resource ρ] in
/-- A request about a live block finds it aligned, and in the ledger. -/
theorem found_live (hs : s.Sound b w.memory (live.map Holding.toBlock) pending)
    (ha : Accounts w.events (live.map Holding.toBlock ++ rest)) (hx : x ∈ live) {r : Resize}
    (hr : r.Describes x.toBlock) {old : Layout}
    (ho : Layout.ofSizeAlign? r.size r.align = some old) :
    Block.of x.address old = x.toBlock ∧ r.address % r.align = 0 ∧
      (b = .debug → s.ledger.find? r.address = some old) := by
  obtain ⟨haddr, hsize, halign⟩ := hr
  obtain ⟨hos, hoa, -⟩ := Layout.ofSizeAlign?_eq_some_iff.1 ho
  have hold : Block.of x.address old = x.toBlock := by
    rw [Block.of, hos, hoa, hsize, halign]
  have hmem : x.toBlock ∈ live.map Holding.toBlock := List.mem_map_of_mem hx
  refine ⟨hold, ?_, fun hb => ?_⟩
  · rw [haddr, halign]
    exact (ha.placed x.toBlock (List.mem_append_left _ hmem)).aligned
  · rw [haddr]
    rw [← hold] at hmem
    exact (hs.listed hb _ _).2 hmem

/-- A resize that copies moves the block: the holder finds it in the place of
the old one, which is given back. -/
theorem act_moved (hs : s.Sound b w.memory ((as ++ x :: bs).map Holding.toBlock) pending)
    (ha : Accounts w.events
      ((as ++ x :: bs).map Holding.toBlock ++ (pending.map Registration.block ++ rest)))
    {r : Resize} (hr : r.Describes x.toBlock) {plan : Plan} (hp : r.plan b = .ok plan)
    (hc : plan.nocopy = false) {old new : Layout}
    (ho : Layout.ofSizeAlign? r.size r.align = some old)
    (hn : Layout.ofSizeAlign? plan.newSize r.align = some new)
    (h : allocate b new ⟨s, w⟩ = .ok ⟨a, new.size⟩ ⟨s.entered b a new, w'⟩)
    (hfresh : b = .debug → s.ledger.find? a = none) :
    act b (.call (.reallocate r)) ⟨⟨.heap s, as ++ x :: bs, pending⟩, w⟩ =
      .ok (.resized ⟨a, new.size, plan.oldStart a, false⟩)
        ⟨⟨.heap ((s.entered b a new).struck b x.address old),
          as ++ { x with address := a, size := new.size } :: bs, pending⟩,
        ((w'.write fun m => m.copy (x.address + plan.source) (a + plan.target) plan.kept).give
          x.address old).record
            (.noted (some s.label) (.moved old.size x.address new.size a false))⟩ := by
  obtain ⟨hold, hm, hf⟩ := found_live hs ha (by simp) hr ho
  have haddr : r.address = x.address := hr.1
  -- the old block is found in the ledger beside the new one
  have hl := find?_entered (l := new) hfresh hf
  have hcopy := reallocate_of_copy hp ho hm hf hn h hc hl
  rw [act_of_ok rfl hcopy]
  simp only [answered, Custody.resized, Bool.false_eq_true, if_false, haddr,
    Holding.map_split (fun y => { y with address := a, size := new.size }) (address_ne ha)]

/-- A resize leaves all in order, whether the old block is kept or not. -/
theorem ends_reallocate (hs : s.Sound b w.memory ((as ++ x :: bs).map Holding.toBlock) pending)
    (ha : Accounts w.events
      ((as ++ x :: bs).map Holding.toBlock ++ (pending.map Registration.block ++ rest)))
    {r : Resize} (hr : r.Describes x.toBlock) :
    Ends b (.call (.reallocate r)) ⟨.heap s, as ++ x :: bs, pending⟩ w
      (Upheld b rest (.call (.reallocate r)) w s (as ++ x :: bs) pending) := by
  have ha' := ha
  rw [← List.append_assoc] at ha'
  have hstay : ∀ e, reallocate b r ⟨s, w⟩ = .error e ⟨s, w⟩ →
      Ends b (.call (.reallocate r)) ⟨.heap s, as ++ x :: bs, pending⟩ w
        (Upheld b rest (.call (.reallocate r)) w s (as ++ x :: bs) pending) := fun e h =>
    .of_error rfl h rfl fun _ => .same hs rfl ha'
  cases hp : r.plan b with
  | error e => exact hstay e (reallocate_of_error w hp)
  | ok plan =>
  cases ho : Layout.ofSizeAlign? r.size r.align with
  | none => exact hstay _ (reallocate_of_no_old w hp ho)
  | some old =>
  obtain ⟨hold, hm, hf⟩ := found_live hs ha (by simp) hr ho
  cases hn : Layout.ofSizeAlign? plan.newSize r.align with
  | none => exact hstay _ (reallocate_of_no_new hp ho hm hf w hn)
  | some new =>
  obtain ⟨hns, hna, -⟩ := Layout.ofSizeAlign?_eq_some_iff.1 hn
  rcases allocate_cases hs ha new with
    ⟨w', h, hmem, he⟩ | ⟨a, w', h, hfresh, hmem, he⟩ | ⟨e, s', w', h, hbreach⟩
  · refine .of_error rfl (reallocate_of_declined hp ho hm hf hn h) rfl fun _ => ?_
    exact .same hs hmem ((ha'.declined new).congr he)
  · cases hc : plan.nocopy with
    | true =>
      refine .of_ok rfl (reallocate_of_nocopy hp ho hm hf hn h hc) rfl fun hg => ?_
      exact upkeep_granted hs ha' ⟨⟨a, new.size, r.align⟩, 0⟩ (by rw [Block.of, hna]) hmem he hg
    | false =>
      refine ⟨.ok _, _, _, act_moved hs ha hr hp hc ho hn h hfresh, fun hg => ?_⟩
      obtain ⟨hsz, -, -, -⟩ := Resize.plan_sizes hp
      have hcopy := w'.memory.changedIn_copy (x.address + plan.source) (a + plan.target) plan.kept
      refine upkeep_moved hs ha hold (hna.trans hr.2.2) (hmem.trans (hcopy.mono ?_ ?_)) ?_
        (World.changedIn_give _ x.address old) ?_
      · omega
      · omega
      · exact (honoured_congr he).1 hg
      · show Event.given x.address old :: calls w'.events = _
        rw [he]
        rfl
  · exact .of_error rfl (reallocate_of_declined hp ho hm hf hn h) rfl fun hg => absurd hg hbreach

/-! ## Any deed -/

/-- A write into a live block leaves all in order. -/
theorem ends_write (hs : s.Sound b w.memory ((as ++ x :: bs).map Holding.toBlock) pending)
    (ha : Accounts w.events
      ((as ++ x :: bs).map Holding.toBlock ++ (pending.map Registration.block ++ rest)))
    {start len : Nat} (f : Nat → UInt8 → UInt8)
    (h : x.address ≤ start ∧ start + len ≤ x.address + x.size) :
    Ends b (.write start len f) ⟨.heap s, as ++ x :: bs, pending⟩ w
      (Upheld b rest (.write start len f) w s (as ++ x :: bs) pending) := by
  refine ⟨.ok .done, _, w.write fun m => m.update start len f, rfl, fun _ => ?_⟩
  have hx := ha.reorder (perm_split as bs x _)
  have hch : w.memory.ChangedIn (w.memory.update start len f) x.address (x.address + x.size) :=
    (w.memory.changedIn_update start len f).mono h.1 h.2
  have hk : ∀ y ∈ (as ++ bs).map Holding.toBlock ++ (pending.map Registration.block ++ rest),
      w.memory.Keeps (w.memory.update start len f) y := fun y hy => hch y (hx.apart_head y hy).symm
  refine ⟨hs.congr fun e he => hk _ ?_, ?_, ?_, ?_, rfl, not_quiet⟩
  · exact List.mem_append_right _ (List.mem_append_left _ (List.mem_map_of_mem he))
  · rw [← List.append_assoc] at ha
    exact ha
  · exact fun y hy => hk y (List.mem_append_right _ (List.mem_append_right _ hy))
  · intro y hy _ hnt
    have hmem := List.mem_append_left (pending.map Registration.block ++ rest)
      (List.mem_map_of_mem (f := Holding.toBlock) hy)
    rw [(perm_split as bs x _).mem_iff] at hmem
    rcases List.mem_cons.1 hmem with hya | hya
    · exact absurd h (hya ▸ hnt)
    · exact hk _ hya

/-- **Every deed on a heap leaves all in order.** -/
theorem ends_act (hs : s.Sound b w.memory (live.map Holding.toBlock) pending)
    (ha : Accounts w.events
      (live.map Holding.toBlock ++ pending.map Registration.block ++ rest)) {d : Deed}
    (hd : Custody.Allows ⟨.heap s, live, pending⟩ d) :
    Ends b d ⟨.heap s, live, pending⟩ w (Upheld b rest d w s live pending) := by
  have ha' := ha
  rw [List.append_assoc] at ha'
  rcases d with call | ⟨start, len, f⟩
  · cases call with
    | allocate l => exact ends_allocate hs ha l
    | allocateBytes size =>
      refine .allocateBytes (fun l => ?_) (fun _ => .same hs rfl ha) size
      obtain ⟨out, c', w', h, hu⟩ := ends_allocate hs ha l
      refine ⟨out, c', w', h, fun hg => ?_⟩
      have hup := hu hg
      exact { hup with keeps_live := fun y hy hy' _ => hup.keeps_live y hy hy' id }
    | reallocate r =>
      obtain ⟨x, hx, hr⟩ := hd
      obtain ⟨as, bs, rfl⟩ := List.append_of_mem hx
      exact ends_reallocate hs ha' hr
    | deallocate a l =>
      obtain ⟨x, hx, hl⟩ := hd
      obtain ⟨as, bs, rfl⟩ := List.append_of_mem hx
      exact ends_deallocate hs ha' hl
    | clear =>
      have h := clear_apply b s w
      cases b with
      | debug =>
        exact .of_error (g := fun _ => .done) rfl h (failed_clear_heap s live pending _) fun _ =>
          .same hs rfl ha
      | release =>
        have hr : Accounts (.noted (some s.label) .clearIgnored :: w.events) _ := ha.congr rfl
        exact .of_ok (g := fun _ => .done) rfl h (answered_clear_heap s live pending _ _) fun _ =>
          .same hs rfl hr
    | register data h => exact ends_register hs ha b hd h
  · obtain ⟨x, hx, hr⟩ := hd
    obtain ⟨as, bs, rfl⟩ := List.append_of_mem hx
    exact ends_write hs ha' f hr

end Heap

end Allocators
