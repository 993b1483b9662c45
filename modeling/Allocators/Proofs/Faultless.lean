import Allocators.Proofs.Operation
import Allocators.Proofs.Replay
/-!
# Calls within the agreement meet no fault

A debug build looks at what its callers promise and at every sum and
difference it forms, and each look can find a fault. Callers who keep to
the agreement never meet one. `Custody.Lawful` says which calls they may
make, with layouts, sizes and amounts of any magnitude; from every
reachable estate such a call is answered or declined, or the resource has
broken its part (`Reachable.faultless_of_lawful`). The end of an allocator
whose callbacks return, its text and its space meet none either.
-/

namespace Allocators

open Trace

/-! ## Requests that do not contradict themselves -/

namespace Resize

variable {r : Resize} {b : Build}

/-- A side that only shrinks prefers nothing. -/
def Sensible (r : Resize) : Prop :=
  (r.flags.has .shrinkFront = true → r.flags.has .expandFront = false → r.front.preferred = 0) ∧
    (r.flags.has .shrinkBack = true → r.flags.has .expandBack = false → r.back.preferred = 0)

instance (r : Resize) : Decidable r.Sensible := inferInstanceAs (Decidable (_ ∧ _))

/-- What becomes of a side is no fault then. -/
theorem side_ne_fault {flags : ResizeFlags} {shrink expand : ResizeFlag} {a : Amounts}
    (h : flags.has shrink = true → flags.has expand = false → a.preferred = 0) (b : Build)
    (f : Fault) : side b flags shrink expand a ≠ .error (.fault f) := by
  unfold side
  cases hs : flags.has shrink with
  | true =>
    cases he : flags.has expand with
    | true => exact nofun
    | false =>
      rw [b.require_of _ (h hs he)]
      exact nofun
  | false =>
    cases flags.has expand with
    | true =>
      simp only
      split <;> exact nofun
    | false => exact nofun

/-- Putting the two sides together is none. -/
theorem join_ne_fault (r : Resize) (front back : SideChange) (f : Fault) :
    r.join front back ≠ .error (.fault f) := by
  unfold join
  simp only
  split
  · exact nofun
  · split <;> exact nofun

/-- **A sensible request has a plan or is declined**, whatever its amounts. -/
theorem Sensible.plan_ne_fault (h : r.Sensible) (b : Build) (f : Fault) :
    r.plan b ≠ .error (.fault f) := by
  unfold plan
  split
  · cases hf : side b r.flags .shrinkFront .expandFront r.front with
    | error e =>
      rintro ⟨⟩
      exact side_ne_fault h.1 b f hf
    | ok front =>
      cases hb : side b r.flags .shrinkBack .expandBack r.back with
      | error e =>
        rintro ⟨⟩
        exact side_ne_fault h.2 b f hb
      | ok back => exact r.join_ne_fault front back f
  · exact nofun

/-- So it is one or the other. -/
theorem Sensible.plan_cases (h : r.Sensible) (b : Build) :
    (∃ e, r.plan b = .error (.refused e)) ∨ ∃ p, r.plan b = .ok p := by
  rcases hp : r.plan b with (e | f) | p
  · exact Or.inl ⟨e, rfl⟩
  · exact absurd hp (h.plan_ne_fault b f)
  · exact Or.inr ⟨p, rfl⟩

end Resize

/-! ## Lawful calls -/

namespace Custody

/-- The calls that callers may make. Blocks are described as what they are. A
heap frees any live block, a stack the latest, an arena none; all but heaps
are cleared, if their callbacks return. -/
def Lawful (c : Custody) : Call → Prop
  | .allocate _ => True
  | .allocateBytes _ => True
  | .reallocate r => (∃ x ∈ c.live, r.Describes x.toBlock) ∧ r.Sensible
  | .deallocate a l =>
    match c.allocator with
    | .heap _ => ∃ x ∈ c.live, Block.of a l = x.toBlock
    | .stack _ => ∃ x ∈ c.live.head?, Block.of a l = x.toBlock
    | .arena _ => False
  | .clear => c.allocator.isHeap = false ∧ ∀ e ∈ c.pending, e.Returns
  | .register data _ => data < Word.size

instance (c : Custody) (call : Call) : Decidable (c.Lawful call) :=
  match call with
  | .allocate _ => .isTrue trivial
  | .allocateBytes _ => .isTrue trivial
  | .reallocate r =>
    inferInstanceAs (Decidable ((∃ x ∈ c.live, r.Describes x.toBlock) ∧ r.Sensible))
  | .deallocate a l =>
    match h : c.allocator with
    | .heap _ => decidable_of_iff (∃ x ∈ c.live, Block.of a l = x.toBlock) (by simp [Lawful, h])
    | .stack _ =>
      decidable_of_iff (∃ x ∈ c.live.head?, Block.of a l = x.toBlock) (by simp [Lawful, h])
    | .arena _ => .isFalse (by simp [Lawful, h])
  | .clear => inferInstanceAs (Decidable (c.allocator.isHeap = false ∧ ∀ e ∈ c.pending, e.Returns))
  | .register data _ => inferInstanceAs (Decidable (data < Word.size))

variable {ρ : Type} [Resource ρ] {b : Build} {d : Deed} {c : Custody} {w : World ρ}

omit [Resource ρ] in
/-- They are within the agreement. -/
theorem Lawful.allows {call : Call} (h : c.Lawful call) : c.Allows (.call call) := by
  cases call with
  | allocate l => trivial
  | allocateBytes size => trivial
  | reallocate r => exact h.1
  | deallocate a l =>
    obtain ⟨k, live, pending⟩ := c
    cases k with
    | heap s => exact h
    | stack s =>
      obtain ⟨x, hx, hl⟩ := h
      exact ⟨x, List.mem_of_head? hx, hl⟩
    | arena s => exact h.elim
  | clear => trivial
  | register data f => exact h

/-- The deed ends with an answer or is declined, if the resource keeps its
part. -/
def Faultless (b : Build) (d : Deed) (c : Custody) (w : World ρ) : Prop :=
  Ends b d c w fun out _ w' => Honoured w'.events → ∀ f, out ≠ .error (.fault f)

section Calls

variable {κ α : Type} {part k : κ} {whole : κ → Allocator} {action : Action κ ρ α} {call : Call}
variable {g : α → Reply} {live : List Holding} {pending : List Registration} {w' : World ρ}

/-- A call that is answered meets no fault. -/
theorem Faultless.of_ok {a : α} (hp : Restriction.perform b [] call ⟨whole part, w⟩ =
      (g <$> Action.on part whole action) ⟨whole part, w⟩)
    (h : action ⟨part, w⟩ = .ok a ⟨k, w'⟩) :
    Faultless b (.call call) ⟨whole part, live, pending⟩ w :=
  Ends.of_ok hp h rfl fun _ _ => nofun

/-- Nor does a call that is declined. -/
theorem Faultless.of_refused {r : Refusal} (hp : Restriction.perform b [] call ⟨whole part, w⟩ =
      (g <$> Action.on part whole action) ⟨whole part, w⟩)
    (h : action ⟨part, w⟩ = .error (.refused r) ⟨k, w'⟩) :
    Faultless b (.call call) ⟨whole part, live, pending⟩ w :=
  Ends.of_error hp h rfl fun _ _ => nofun

end Calls

end Custody

/-! ## Stacks and arenas -/

open Custody

namespace Buffer

variable {ρ : Type} [Resource ρ] {header : Nat} {wrap : Buffer → Allocator} {s : Buffer}
variable {w : World ρ} {live : List Holding} {pending : List Registration}

/-- A clear whose callbacks return. -/
theorem faultless_clear (hs : Sound header w.memory s live pending) (b : Build)
    (hr : ∀ e ∈ pending, e.Returns) (hk : wrap = .stack ∨ wrap = .arena) :
    Faultless b (.call .clear) ⟨wrap s, live, pending⟩ w := by
  have h := clear_of_ok hs.bounded (runResult_of_returns hr)
  rcases hk with rfl | rfl <;> exact .of_ok (g := fun _ => .done) rfl h

/-- A registration. -/
theorem faultless_register (hs : Sound header w.memory s live pending) (b : Build) {data : Nat}
    (hd : data < Word.size) (f : Handler) (hk : wrap = .stack ∨ wrap = .arena) :
    Faultless b (.call (.register data f)) ⟨wrap s, live, pending⟩ w := by
  rcases register_cases hs b hd f with h | ⟨a, s', w', h, -⟩
  · rcases hk with rfl | rfl <;> exact .of_refused (g := fun _ => .done) rfl h
  · rcases hk with rfl | rfl <;> exact .of_ok (g := fun _ => .done) rfl h

end Buffer

namespace Stack

open Buffer

variable {ρ : Type} [Resource ρ] {b : Build} {s : Buffer} {w : World ρ} {live : List Holding}
variable {pending : List Registration}

/-- A resize of a live block. -/
theorem faultless_reallocate (hs : Sound header w.memory s live pending) (b : Build) {r : Resize}
    {x : Holding} (hx : x ∈ live) (hr : r.Describes x.toBlock) (hr' : r.Sensible) :
    Faultless b (.call (.reallocate r)) ⟨.stack s, live, pending⟩ w := by
  rcases hr'.plan_cases b with ⟨e, hp⟩ | ⟨plan, hp⟩
  · exact .of_refused (g := .resized) rfl (reallocate_of_error w hp)
  · obtain ⟨newer, older, rfl⟩ := List.append_of_mem hx
    by_cases hn : newer = []
    · subst hn
      rcases reallocate_top hs hr hp with h | ⟨size, start, s', w', h, -⟩
      · exact .of_refused (g := .resized) rfl h
      · exact .of_ok (g := .resized) rfl h
    · exact .of_refused (g := .resized) rfl (reallocate_under hs hn hr hp)

/-- **No lawful call on a stack meets a fault.** -/
theorem faultless (hs : Sound header w.memory s live pending) (b : Build) {call : Call}
    (hc : Lawful ⟨.stack s, live, pending⟩ call) :
    Faultless b (.call call) ⟨.stack s, live, pending⟩ w := by
  have halloc : ∀ l, Faultless b (.call (.allocate l)) ⟨.stack s, live, pending⟩ w := by
    intro l
    rcases allocate_cases hs b l with ⟨w', h, -⟩ | ⟨a, s', w', h, -⟩
    · exact .of_refused (g := .block) rfl h
    · exact .of_ok (g := .block) rfl h
  cases call with
  | allocate l => exact halloc l
  | allocateBytes size => exact .allocateBytes halloc (fun _ _ => nofun) size
  | reallocate r =>
    obtain ⟨⟨x, hx, hr⟩, hr'⟩ := hc
    exact faultless_reallocate hs b hx hr hr'
  | deallocate a l =>
    obtain ⟨x, hx, hl⟩ := hc
    obtain ⟨older, rfl⟩ := List.head?_eq_some_iff.1 hx
    obtain rfl : a = x.address := congrArg Block.address hl
    exact .of_ok (g := fun _ => .done) rfl (deallocate_top hs b (congrArg Block.size hl))
  | clear => exact faultless_clear hs b hc.2 (Or.inl rfl)
  | register data f => exact faultless_register hs b hc f (Or.inl rfl)

end Stack

namespace Arena

open Buffer

variable {ρ : Type} [Resource ρ] {b : Build} {s : Buffer} {w : World ρ} {live : List Holding}
variable {pending : List Registration}

/-- **No lawful call on an arena meets a fault.** -/
theorem faultless (hs : Sound 0 w.memory s live pending) (b : Build) {call : Call}
    (hc : Lawful ⟨.arena s, live, pending⟩ call) :
    Faultless b (.call call) ⟨.arena s, live, pending⟩ w := by
  have halloc : ∀ l, Faultless b (.call (.allocate l)) ⟨.arena s, live, pending⟩ w := by
    intro l
    rcases allocate_cases b s w live pending l with h | ⟨a, s', w', h, -⟩
    · exact .of_refused (g := .block) rfl h
    · exact .of_ok (g := .block) rfl h
  cases call with
  | allocate l => exact halloc l
  | allocateBytes size => exact .allocateBytes halloc (fun _ _ => nofun) size
  | reallocate r => exact .of_refused (g := .resized) rfl (reallocate_apply r w)
  | deallocate a l => exact hc.elim
  | clear => exact faultless_clear hs b hc.2 (Or.inr rfl)
  | register data f => exact faultless_register hs b hc f (Or.inr rfl)

end Arena

/-! ## Heaps -/

namespace Heap

variable {ρ : Type} [Resource ρ] {b : Build} {s : Heap} {w : World ρ} {live : List Holding}
variable {pending : List Registration} {rest : List Block}

variable (hs : s.Sound b w.memory (live.map Holding.toBlock) pending)
variable (ha : Accounts w.events (live.map Holding.toBlock ++ rest))

include hs ha

/-- A resize of a live block meets a fault only if the resource hands out a
block that is still live. -/
theorem faultless_reallocate {r : Resize} {x : Holding} (hx : x ∈ live)
    (hr : r.Describes x.toBlock) (hr' : r.Sensible) :
    Faultless b (.call (.reallocate r)) ⟨.heap s, live, pending⟩ w := by
  rcases hr'.plan_cases b with ⟨e, hp⟩ | ⟨plan, hp⟩
  · exact .of_refused (g := .resized) rfl (reallocate_of_error w hp)
  cases ho : Layout.ofSizeAlign? r.size r.align with
  | none => exact .of_refused (g := .resized) rfl (reallocate_of_no_old w hp ho)
  | some old =>
  obtain ⟨-, hm, hf⟩ := found_live hs ha hx hr ho
  cases hn : Layout.ofSizeAlign? plan.newSize r.align with
  | none => exact .of_refused (g := .resized) rfl (reallocate_of_no_new hp ho hm hf w hn)
  | some new =>
  rcases allocate_cases hs ha new with
    ⟨w', h, -⟩ | ⟨a, w', h, hfresh, -⟩ | ⟨e, s', w', h, hbreach⟩
  · exact .of_refused (g := .resized) rfl (reallocate_of_declined hp ho hm hf hn h)
  · cases hc : plan.nocopy with
    | true => exact .of_ok (g := .resized) rfl (reallocate_of_nocopy hp ho hm hf hn h hc)
    | false =>
      have hl := find?_entered (l := new) hfresh hf
      exact .of_ok (g := .resized) rfl (reallocate_of_copy hp ho hm hf hn h hc hl)
  · exact .of_error rfl (reallocate_of_declined hp ho hm hf hn h) rfl fun hg => absurd hg hbreach

/-- **No lawful call on a heap meets a fault**, if the resource keeps its
part. -/
theorem faultless {call : Call} (hc : Lawful ⟨.heap s, live, pending⟩ call) :
    Faultless b (.call call) ⟨.heap s, live, pending⟩ w := by
  have halloc : ∀ l, Faultless b (.call (.allocate l)) ⟨.heap s, live, pending⟩ w := by
    intro l
    rcases allocate_cases hs ha l with ⟨w', h, -⟩ | ⟨a, w', h, -⟩ | ⟨e, s', w', h, hbreach⟩
    · exact .of_refused (g := .block) rfl h
    · exact .of_ok (g := .block) rfl h
    · exact .of_error rfl h rfl fun hg => absurd hg hbreach
  cases call with
  | allocate l => exact halloc l
  | allocateBytes size => exact .allocateBytes halloc (fun _ _ => nofun) size
  | reallocate r =>
    obtain ⟨⟨x, hx, hr⟩, hr'⟩ := hc
    exact faultless_reallocate hs ha hx hr hr'
  | deallocate a l =>
    obtain ⟨x, hx, hl⟩ := hc
    have hmem : Block.of a l ∈ live.map Holding.toBlock := hl ▸ List.mem_map_of_mem hx
    have hm : a % l.align = 0 := (ha.placed _ (List.mem_append_left _ hmem)).aligned
    have hf : b = .debug → s.ledger.find? a = some l := fun hb => (hs.listed hb a l).2 hmem
    exact .of_ok (g := fun _ => .done) rfl (deallocate_apply hm hf w)
  | clear => exact not_quiet hc.1
  | register data f =>
    rcases register_cases s w data f with ⟨w', h, -⟩ | ⟨a, m, w', h, -⟩
    · exact .of_refused (g := fun _ => .done) rfl h
    · exact .of_ok (g := fun _ => .done) rfl h

end Heap

/-! ## Regions and their callbacks -/

namespace Buffer

variable {header : Nat} {m : Memory} {s : Buffer} {live : List Holding}
variable {pending : List Registration}

/-- A region tells how much of it is taken. -/
theorem Bounded.used_eq (hs : s.Bounded m pending) (b : Build) :
    s.region.used b = .ok (s.region.cursor + (s.region.capacity - s.region.tail)) := by
  have hc := hs.cursor_le
  have ht := hs.tail_le
  have he := hs.end_lt
  simp only [Region.used, b.sub_of_le ht, bind, Except.bind]
  exact b.add_of_lt (by omega)

/-- And how much is left. -/
theorem Bounded.free_eq (hs : s.Bounded m pending) (b : Build) :
    s.region.free b = .ok (s.region.tail - s.region.cursor) :=
  b.sub_of_le hs.cursor_le

/-- Its callbacks are no more than the bytes it has. -/
theorem Sound.length_lt (hs : s.Sound header m live pending) : pending.length < Word.size := by
  have hlen : (pending.map Registration.block).length ≤
      Block.total (pending.map Registration.block) := by
    refine Block.length_le_total fun x hx => ?_
    obtain ⟨e, -, rfl⟩ := List.mem_map.1 hx
    exact Layout.entry.size_pos
  have htotal := Block.total_le_of_apart hs.shelved.pairwise (s.region.base + s.region.tail)
    (s.region.base + s.region.capacity) fun x hx => by
      obtain ⟨e, he, rfl⟩ := List.mem_map.1 hx
      exact hs.shelved.bounds he
  have hend := hs.end_lt
  rw [List.length_map] at hlen
  omega

end Buffer

/-! ## Any allocator -/

namespace Custody

variable {ρ : Type} [Resource ρ] {b : Build} {c : Custody} {w : World ρ} {rest : List Block}

/-- What callers who keep to the agreement do not meet: a fault. -/
structure NoFault (b : Build) (c : Custody) (w : World ρ) : Prop where
  /-- A lawful call is answered or declined, or the resource has broken its
  part. -/
  calls : ∀ call, c.Lawful call → ∀ f s,
    act b (.call call) ⟨c, w⟩ = .error (.fault f) s → ¬ Honoured s.world.events
  /-- The allocator ends, if its callbacks return. -/
  ended : (∀ e ∈ c.pending, e.Returns) →
    ∃ k w', Allocator.close ⟨c.allocator, w⟩ = .ok () ⟨k, w'⟩
  /-- The callbacks that run then are no more than a word can count. -/
  counted : c.pending.length < Word.size
  /-- The allocator tells its text. -/
  text : ∃ t, c.allocator.text b w.memory = .ok t
  /-- It tells how much is taken, and how much is left. -/
  space : ∃ n, c.allocator.space b = .ok n

variable (hs : c.Sound b w.memory) (ha : Accounts w.events (c.footprint ++ rest))

include hs ha

/-- Every lawful call on an allocator that is in order. -/
theorem faultless {call : Call} (hc : c.Lawful call) : Faultless b (.call call) c w := by
  obtain ⟨k, live, pending⟩ := c
  cases k with
  | heap s => exact Heap.faultless hs ((List.append_assoc _ _ _) ▸ ha) hc
  | stack s => exact Stack.faultless hs b hc
  | arena s => exact Arena.faultless hs b hc

omit [Resource ρ] in
/-- The callbacks registered on it can be counted. -/
theorem length_pending_lt : c.pending.length < Word.size := by
  obtain ⟨k, live, pending⟩ := c
  cases k with
  | heap s =>
    -- their entries are outstanding, so they are fewer than the addresses
    have hlen := Block.length_le_total fun x hx => (ha.placed x hx).size_pos
    have hlt := ha.total_lt
    have hle : pending.length ≤ (footprint ⟨.heap s, live, pending⟩ ++ rest).length := by
      simp only [footprint, entries, List.length_append, List.length_map]
      omega
    show pending.length < Word.size
    omega
  | stack s => exact Buffer.Sound.length_lt hs
  | arena s => exact Buffer.Sound.length_lt hs

omit ha [Resource ρ] in
/-- Its text is told. -/
theorem text_ok : ∃ t, c.allocator.text b w.memory = .ok t := by
  obtain ⟨k, live, pending⟩ := c
  cases k with
  | heap s => exact ⟨_, rfl⟩
  | stack s =>
    have hf := (Buffer.Sound.bounded hs).free_eq b
    exact ⟨_, by simp only [Allocator.text, Stack.text, hf]; rfl⟩
  | arena s =>
    have hu := (Buffer.Sound.bounded hs).used_eq b
    exact ⟨_, by simp only [Allocator.text, Arena.text, hu]; rfl⟩

omit ha [Resource ρ] in
/-- Its space is told. -/
theorem space_ok : ∃ n, c.allocator.space b = .ok n := by
  have hregion : ∀ {header : Nat} {s : Buffer} {live : List Holding} {pending : List Registration},
      s.Sound header w.memory live pending →
        ∃ n : Nat × Nat, (do return (← s.region.used b, ← s.region.free b)) = Except.ok n := by
    intro header s live pending hs
    rw [hs.bounded.used_eq b, hs.bounded.free_eq b]
    exact ⟨_, rfl⟩
  obtain ⟨k, live, pending⟩ := c
  cases k with
  | heap s => exact ⟨_, rfl⟩
  | stack s => exact hregion hs
  | arena s => exact hregion hs

/-- **An allocator that is in order meets no fault.** -/
theorem noFault : c.NoFault b w where
  calls := by
    intro call hc f s h hg
    have hend : act b (.call call) ⟨c, w⟩ =
        Action.ending (.error (.fault f)) ⟨s.allocator, s.world⟩ := h
    exact (faultless hs ha hc).elim hend hg f rfl
  ended := by
    intro hr
    obtain ⟨k, w', h, -⟩ := close_cases hs ha
    rw [runResult_of_returns hr] at h
    exact ⟨k, w', h⟩
  counted := length_pending_lt hs ha
  text := text_ok hs
  space := space_ok hs

end Custody

/-! ## Every run -/

namespace Estate

variable {ρ : Type} [Resource ρ] {b : Build} {E : Estate ρ}

/-- Where the invariant holds no allocator meets a fault. -/
theorem Sound.noFault (h : E.Sound b) {t : Tenant} (ht : t ∈ E.tenants) : t.NoFault b E.world := by
  obtain ⟨rest, ha⟩ := h.accounts_tenant ht
  exact Custody.noFault (h.sound t ht) ha

/-- **Callers who keep to the agreement meet no fault**, in any state that a run
of several allocators within the agreement leads to, on any of them, if the
resource keeps its part. -/
theorem Reachable.faultless_of_lawful (h : Reachable b E) {t : Tenant} (ht : t ∈ E.tenants) :
    t.NoFault b E.world := h.sound.noFault ht

/-- **A lawful call is answered or declined, and the run goes on** with what that
leaves, if the resource has kept its part. -/
theorem Reachable.goes_on {α : Type} {x : Action Allocator ρ α} {g : α → Reply} {call : Call}
    {w : World ρ} {before after : List Tenant} {t : Tenant} {left : List Block}
    (h : Reachable b ⟨w, before ++ t :: after, left⟩) (hc : t.Lawful call)
    (hp : Restriction.perform b [] call = g <$> x)
    (hg : Honoured (Action.ended (x ⟨t.allocator, w⟩)).2.world.events) :
    ∃ (t' : Tenant) (w' : World ρ), Reachable b ⟨w', before ++ t' :: after, left⟩ ∧
      (Action.ended (Custody.act b (.call call) ⟨t.toCustody, w⟩)).2 = ⟨t'.toCustody, w'⟩ ∧
      ((∃ a, x ⟨t.allocator, w⟩ = .ok a ⟨t'.allocator, w'⟩ ∧
        t'.toCustody = t.answered t'.allocator call (g a)) ∨
      ∃ r, x ⟨t.allocator, w⟩ = .error (.refused r) ⟨t'.allocator, w'⟩ ∧
        t'.toCustody = t.failed t'.allocator call) := by
  have hnofault := h.sound.noFault (t := t) (by simp)
  have hstep : ∀ {out : Except Failure Reply} {c' : Custody} {w' : World ρ},
      Custody.act b (.call call) ⟨t.toCustody, w⟩ = Action.ending out ⟨c', w'⟩ →
        Honoured w'.events →
          Reachable b ⟨w', before ++ t.after c' w.events w'.events :: after, left⟩ :=
    fun hact hw => h.step (.acted rfl hc.allows hact hw)
  cases hx : x ⟨t.allocator, w⟩ with
  | ok a s =>
    have hact := Custody.act_of_map_ok (c := t.toCustody) hp hx
    have hend : Custody.act b (.call call) ⟨t.toCustody, w⟩ =
        Action.ending (.ok (g a)) ⟨t.answered s.allocator call (g a), s.world⟩ := hact
    rw [hx] at hg
    refine ⟨_, s.world, hstep hend hg, by rw [hact]; rfl, Or.inl ⟨a, ?_⟩⟩
    simp [Tenant.after]
  | error e s =>
    have hact := Custody.act_of_map_error (c := t.toCustody) hp hx
    rw [hx] at hg
    cases e with
    | refused r =>
      have hend : Custody.act b (.call call) ⟨t.toCustody, w⟩ =
          Action.ending (.error (.refused r)) ⟨t.failed s.allocator call, s.world⟩ := hact
      refine ⟨_, s.world, hstep hend hg, by rw [hact]; rfl, Or.inr ⟨r, ?_⟩⟩
      simp [Tenant.after]
    | fault f => exact absurd hg (hnofault.calls call hc f _ hact)

/-- A request to let the block on top of the sample's stack grow as far as a
word can say, and to drop bytes in front. -/
def sampleResize : Resize :=
  (Resize.ofBlock 0x100000030 40 16).edits
    [.shrinkFront 8, .expandBack 0 0xffffffffffffffff]

/-- It is lawful in the sample, and so is one that asks for more than any
block has; no fault follows. -/
theorem noFault_sample : ∃ t ∈ (sample .debug).tenants,
    t.Lawful (.reallocate sampleResize) ∧
    t.Lawful (.reallocate (sampleResize.edit (.requiredBack 0xffffffffffffffff))) ∧
    t.NoFault .debug (sample .debug).world :=
  have ht := List.getElem_mem (l := (sample .debug).tenants) (n := 1) (by decide)
  ⟨_, ht, by decide +kernel, by decide +kernel, (reachable_sample .debug).faultless_of_lawful ht⟩

end Estate

end Allocators
