import Allocators.Proofs.Shorthands
import Allocators.Proofs.Shell.Roll
/-!
# Commands that call an allocator

A command that calls an allocator does so about a block that its session
lists, and such a block is live, so the call is lawful, whatever numbers and
switches the command gives: a resize that it describes never contradicts
itself (`Changes.sensible_edits`). The call is answered or declined then, and
the session lists what is live after it (`InOrder.carried_call`). The one
call that need not be lawful is a free, which an arena never and a stack not
always can do; it ends in a fault (`InOrder.fault_of_misfrees`).
-/

namespace Allocators

open Trace

/-! ## Resize requests -/

/-- The changes of a command are shorthands. -/
theorem Changes.shorthand_of_mem_edits {c : Changes} {e : Edit} (he : e ∈ c.edits) :
    e.Shorthand := by
  unfold edits at he
  simp only [List.mem_append, Option.mem_toList, Option.map_eq_some_iff] at he
  rcases he with ((((⟨n, -, rfl⟩ | ⟨n, -, rfl⟩) | ⟨n, -, rfl⟩) | ⟨n, -, rfl⟩) | he) | he
  · trivial
  · trivial
  · trivial
  · trivial
  · split at he
    · rw [List.mem_singleton.1 he]
      trivial
    · cases he
  · split at he
    · rw [List.mem_singleton.1 he]
      trivial
    · cases he

/-- **A resize that a command describes is sensible**, whatever its numbers and
switches. -/
theorem Changes.sensible_edits (c : Changes) (a size align : Nat) :
    ((Resize.ofBlock a size align).edits c.edits).Sensible :=
  ((Resize.modest_ofBlock a size align).edits fun _ he =>
    Changes.shorthand_of_mem_edits he).sensible

/-! ## Calls -/

namespace Custody

variable {c : Custody} {k : Allocator} {call : Call} {x : Reply}

/-- Without a registration no callback is registered. -/
theorem pending_answered (h : c.pending = []) (hc : ∀ data f, call ≠ .register data f) :
    (c.answered k call x).pending = [] := by
  unfold answered
  split
  · exact h
  · exact h
  · exact h
  · exact h
  · split
    · exact h
    · rfl
  · exact absurd rfl (hc _ _)
  · exact h

/-- A call that fails registers none. -/
theorem pending_failed (h : c.pending = []) : (c.failed k call).pending = [] := by
  unfold failed
  split
  · show (if _ then c.pending else []) = []
    rw [h, ite_self]
  · exact h

/-- The allocator cannot free this live block: an arena frees none, a stack only
the latest. -/
def Bars (c : Custody) (x : Block) : Prop :=
  match c.allocator with
  | .heap _ => False
  | .stack _ => ∀ y ∈ c.live.head?, y.toBlock ≠ x
  | .arena _ => True

/-- A live block may be freed, or the allocator cannot free it. -/
theorem lawful_or_bars {a : Nat} {l : Layout} (h : Block.of a l ∈ c.blocks) :
    c.Lawful (.deallocate a l) ∨ c.Bars (Block.of a l) := by
  obtain ⟨k, live, pending⟩ := c
  obtain ⟨x, hx, hb⟩ := List.mem_map.1 h
  cases k with
  | heap s => exact Or.inl ⟨x, hx, hb.symm⟩
  | stack s =>
    by_cases htop : ∃ y ∈ live.head?, Block.of a l = y.toBlock
    · exact Or.inl htop
    · exact Or.inr fun y hy heq => htop ⟨y, hy, heq.symm⟩
  | arena s => exact Or.inr trivial

/-- **A debug build finds fault with such a free.** -/
theorem fault_of_bars {ρ : Type} [Resource ρ] {w : World ρ} {a : Nat} {l : Layout}
    (hs : c.Sound .debug w.memory) (h : Block.of a l ∈ c.blocks) (hb : c.Bars (Block.of a l)) :
    ∃ f t, Allocator.deallocate .debug a l ⟨c.allocator, w⟩ = .error (.fault f) t := by
  obtain ⟨k, live, pending⟩ := c
  cases k with
  | heap s => exact hb.elim
  | stack s =>
    obtain ⟨x, hx, hxb⟩ := List.mem_map.1 h
    obtain rfl : x.address = a := congrArg Block.address hxb
    obtain ⟨newer, older, rfl⟩ := List.append_of_mem hx
    have hn : newer ≠ [] := by
      rintro rfl
      exact hb x rfl hxb
    have hsize : l.size = x.size := (congrArg Block.size hxb).symm
    exact ⟨_, _, Action.on_of_error (Stack.deallocate_under hs hn .debug hsize) _⟩
  | arena s => exact ⟨_, _, Action.on_of_error (Arena.deallocate_apply .debug a w) _⟩

end Custody

/-- An allocator that can be cleared is no heap. -/
theorem Allocator.isHeap_of_clearing {k : Allocator} (h : k.features.has .clearing = true) :
    k.isHeap = false := by
  cases k with
  | heap s => exact absurd h s.not_has_clearing
  | stack s => rfl
  | arena s => rfl

namespace Shell

variable {ρ : Type}

/-- The command is to free a block that its session lists and its allocator
cannot free. -/
def Misfrees (s : Shell ρ) (roll : Roll) (cmd : Command) : Prop :=
  ∃ name base x l c, cmd = .free name base ∧ s.session? name = some x ∧
    x.blocks.find? base = some l ∧ roll name = some c ∧ c.Bars (Block.of base l)

/-- The command was carried out, and the shell is in order after it. -/
structure Carried [Resource ρ] (r : ShellStep × Shell ρ) (roll : Roll) : Prop where
  done : ∃ out, r.1 = .printed out .done
  inOrder : r.2.InOrder roll

section Calls

variable {s : Shell ρ} {roll : Roll} {name : String} {x : Session}

/-- A text leaves the shell as it is. -/
theorem carried_printing [Resource ρ] (h : s.InOrder roll) (out : String) :
    Carried (s.printing out) roll := ⟨⟨out, rfl⟩, h⟩

/-- A call on a session changes the world as the call does. -/
theorem world_call {α : Type} (s : Shell ρ) (name : String) (x : Session)
    (action : Action Allocator ρ α) (blocks : α → Ledger) (out : α → String) :
    (s.call name x action blocks out).2.world =
      (Action.ended (action ⟨x.allocator, s.world⟩)).2.world := by
  unfold call
  cases action ⟨x.allocator, s.world⟩ with
  | ok a t => rfl
  | error e t => cases e <;> rfl

section Outcomes

variable {α : Type} {action : Action Allocator ρ α} {t : Scene Allocator ρ} {blocks : α → Ledger}
variable {out : α → String}

/-- A call that is answered. -/
theorem call_of_ok {a : α} (h : action ⟨x.allocator, s.world⟩ = .ok a t) :
    s.call name x action blocks out =
      (s.setSession name ⟨t.allocator, blocks a⟩ t.world).printing (out a) := by
  simp only [call, h]

/-- One that is declined. -/
theorem call_of_refused {r : Refusal} (h : action ⟨x.allocator, s.world⟩ = .error (.refused r) t) :
    s.call name x action blocks out =
      (s.setSession name ⟨t.allocator, x.blocks⟩ t.world).printing (explain r) := by
  simp only [call, h]

/-- One that finds fault. -/
theorem call_of_fault {f : Fault} (h : action ⟨x.allocator, s.world⟩ = .error (.fault f) t) :
    s.call name x action blocks out =
      (.printed "" (.fault f), s.setSession name ⟨t.allocator, x.blocks⟩ t.world) := by
  simp only [call, h]

end Outcomes

variable [Resource ρ]

/-- **A lawful call on a session is carried out** if the session lists what is
live after an answer, and has what it had after a refusal. -/
theorem InOrder.carried_call (h : s.InOrder roll) (hx : s.session? name = some x) {α : Type}
    {action : Action Allocator ρ α} {g : α → Reply} {call : Call} {left : Ledger}
    {blocks : α → Ledger} {out : α → String}
    (hp : Restriction.perform .debug [] call = g <$> action)
    (hc : ∀ data f, call ≠ .register data f)
    (hlaw : ∀ c, roll name = some c → x.Booked c → c.Tidy → c.Lawful call)
    (hok : ∀ c k a, roll name = some c → x.Booked c → c.Tidy →
      (c.answered k call (g a)).Tidy → (blocks a).Lists (c.answered k call (g a)).blocks)
    (hno : ∀ r t, action ⟨x.allocator, s.world⟩ = .error (.refused r) t → left = x.blocks)
    (ho : Ordinary (s.call name { x with blocks := left } action blocks out).2.world.events) :
    Carried (s.call name { x with blocks := left } action blocks out)
      (roll.called .debug s.world (some (name, call))) := by
  obtain ⟨as, bs, w, before, after, t, rfl, hothers, hr, hroll, hbook⟩ := h.focus hx
  have htidy : t.Tidy := hr.tidy h.ordinary (by simp)
  rw [world_call] at ho
  have hworld : (Action.ended (action ⟨t.allocator, w⟩)).2.world =
      (Action.ended (action ⟨x.allocator, w⟩)).2.world := by rw [hbook.allocator]
  obtain ⟨t', w', hr', hact, hcases⟩ :=
    hr.goes_on (hlaw _ hroll hbook htidy) hp (hworld ▸ ho.honoured)
  have hset : ∀ y, setSession ⟨as ++ (name, x) :: bs, w⟩ name y w' = ⟨as ++ (name, y) :: bs, w'⟩ :=
    fun y => setSession_split hothers.apart y w'
  rw [Roll.called, hroll, Option.map_some, hact]
  rw [← hbook.allocator] at hcases
  rcases hcases with ⟨a, hax, ht'⟩ | ⟨r, hax, ht'⟩
  · rw [hax] at ho
    have htidy' : t'.Tidy := hr'.tidy ho (by simp)
    have hlists := hok _ t'.allocator a hroll hbook htidy (ht' ▸ htidy')
    rw [call_of_ok (x := ⟨x.allocator, left⟩) hax, hset]
    refine ⟨⟨_, rfl⟩, hothers.put ho hr' ⟨rfl, ?_, ht' ▸ hlists⟩⟩
    rw [ht']
    exact Custody.pending_answered hbook.pending hc
  · rw [hax] at ho
    obtain rfl := hno r _ hax
    rw [call_of_refused (x := ⟨x.allocator, x.blocks⟩) hax, hset]
    refine ⟨⟨_, rfl⟩, hothers.put ho hr' ⟨rfl, ?_, ?_⟩⟩
    · rw [ht']
      exact Custody.pending_failed hbook.pending
    · have hblocks : t'.blocks = t.blocks := by
        rw [ht', Custody.blocks, Custody.live_failed]
        rfl
      show x.blocks.Lists t'.blocks
      rw [hblocks]
      exact hbook.lists

end Calls

/-! ## Commands that call -/

section Commands

variable [Resource ρ] {s : Shell ρ} {roll : Roll}

/-- A command about a session is carried out if it is with the session there is;
without one there is no call. -/
theorem InOrder.carried_onSession (h : s.InOrder roll) {name : String}
    {f : Session → ShellStep × Shell ρ} {request : Option (String × Call)}
    (hnone : s.session? name = none → request = none)
    (hsome : ∀ x, s.session? name = some x → Ordinary (f x).2.world.events →
      Carried (f x) (roll.called .debug s.world request))
    (ho : Ordinary (s.onSession name f).2.world.events) :
    Carried (s.onSession name f) (roll.called .debug s.world request) := by
  unfold onSession at ho ⊢
  cases hx : s.session? name with
  | none =>
    rw [hnone hx]
    exact carried_printing h _
  | some x =>
    rw [hx] at ho
    exact hsome x hx ho

/-- A block is taken, or not. -/
theorem InOrder.carried_alloc (h : s.InOrder roll) (name : String) (size align : Nat)
    (ho : Ordinary (s.alloc .debug name size align).2.world.events) :
    Carried (s.alloc .debug name size align)
      (s.rollAfter .debug roll (.alloc name size align)) := by
  refine h.carried_onSession (fun hx => by simp only [request?, hx]; rfl) (fun x hx ho => ?_) ho
  cases hl : Layout.ofSizeAlign? size align with
  | none =>
    have hreq : s.request? (.alloc name size align) = none := by
      simp only [request?, hx, hl]; rfl
    simp only [hreq]
    exact carried_printing h _
  | some l =>
    have hreq : s.request? (.alloc name size align) = some (name, .allocate l) := by
      simp only [request?, hx, hl]; rfl
    have hal : l.align = align := (Layout.ofSizeAlign?_eq_some_iff.1 hl).2.1
    simp only [hl] at ho
    simp only [hreq]
    refine h.carried_call hx (g := .block) rfl (fun _ _ => nofun) (fun _ _ _ _ => trivial)
      (fun c k a _ hbook _ htidy' => ?_) (fun _ _ _ => rfl) ho
    obtain ⟨l', hl', hb⟩ := htidy'.describable ⟨a.address, a.size, l.align⟩ List.mem_cons_self
      l.align_pow
    have hsome : Layout.ofSizeAlign? a.size align = some l' := hal ▸ hl'
    rw [hsome, Option.getD_some]
    exact Custody.lists_allocated hbook.lists htidy'.distinct hb

/-- A block is resized, or not. -/
theorem InOrder.carried_realloc (h : s.InOrder roll) (name : String) (base : Nat)
    (changes : Changes) (ho : Ordinary (s.realloc .debug name base changes).2.world.events) :
    Carried (s.realloc .debug name base changes)
      (s.rollAfter .debug roll (.realloc name base changes)) := by
  refine h.carried_onSession (fun hx => by simp only [request?, hx]; rfl) (fun x hx ho => ?_) ho
  cases hl : x.blocks.find? base with
  | none =>
    have hreq : s.request? (.realloc name base changes) = none := by
      simp only [request?, hx, Option.bind_eq_bind, Option.bind_some, hl]; rfl
    simp only [hreq]
    exact carried_printing h _
  | some l =>
    let r := (Resize.ofBlock base l.size l.align).edits changes.edits
    have hreq : s.request? (.realloc name base changes) = some (name, .reallocate r) := by
      simp only [request?, hx, Option.bind_eq_bind, Option.bind_some, hl]; rfl
    simp only [hl] at ho
    simp only [hreq]
    -- the request is about the live block that the session has listed
    obtain ⟨haddr, hsize, halign⟩ :=
      Resize.edits_block (Resize.ofBlock base l.size l.align) changes.edits
    have hlive : ∀ c, x.Booked c → c.Tidy → ∃ y ∈ c.live, r.Describes y.toBlock := by
      intro c hbook htidy
      have hm := (hbook.lists.find?_eq_some_iff htidy.distinct).1 hl
      obtain ⟨y, hy, hyb⟩ := List.mem_map.1 hm
      refine ⟨y, hy, ?_⟩
      rw [hyb]
      exact ⟨haddr, hsize, halign⟩
    refine h.carried_call hx (g := .resized) rfl (fun _ _ => nofun)
      (fun c _ hbook htidy => ⟨hlive c hbook htidy, changes.sensible_edits _ _ _⟩)
      (fun c k a _ hbook htidy htidy' => ?_) (fun _ _ _ => rfl) ho
    obtain ⟨y, hy, hdesc⟩ := hlive c hbook htidy
    have hnew : ⟨a.address, a.size, r.align⟩ ∈
        (c.answered k (.reallocate r) (.resized a)).blocks :=
      Custody.mem_blocks_resized hy hdesc
    obtain ⟨l', hl', -⟩ := htidy'.describable _ hnew (halign ▸ l.align_pow)
    have hlists := Custody.lists_resized hbook.lists htidy.distinct hy hdesc htidy'.distinct hl'
    rw [haddr, halign] at hlists
    exact hlists

/-- A block is freed, if the allocator can free it. -/
theorem InOrder.carried_free (h : s.InOrder roll) (name : String) (base : Nat)
    (hm : ¬ s.Misfrees roll (.free name base))
    (ho : Ordinary (s.free .debug name base).2.world.events) :
    Carried (s.free .debug name base) (s.rollAfter .debug roll (.free name base)) := by
  refine h.carried_onSession (fun hx => by simp only [request?, hx]; rfl) (fun x hx ho => ?_) ho
  cases hl : x.blocks.find? base with
  | none =>
    have hreq : s.request? (.free name base) = none := by
      simp only [request?, hx, Option.bind_eq_bind, Option.bind_some, hl]; rfl
    simp only [hreq]
    exact carried_printing h _
  | some l =>
    have hreq : s.request? (.free name base) = some (name, .deallocate base l) := by
      simp only [request?, hx, Option.bind_eq_bind, Option.bind_some, hl]; rfl
    simp only [hl] at ho
    simp only [hreq]
    have hlaw : ∀ c, roll name = some c → x.Booked c → c.Tidy →
        c.Lawful (.deallocate base l) := by
      intro c hc hbook htidy
      have hlisted := (hbook.lists.find?_eq_some_iff htidy.distinct).1 hl
      exact (Custody.lawful_or_bars hlisted).resolve_right fun hbar =>
        hm ⟨name, base, x, l, c, rfl, hx, hl, hc, hbar⟩
    exact h.carried_call hx (g := fun _ => .done) rfl (fun _ _ => nofun) hlaw
      (fun c k _ hc hbook htidy _ => Custody.lists_freed hbook.lists htidy.distinct
        (hlaw c hc hbook htidy))
      (fun r t hr => absurd hr (Allocator.commits_deallocate _ _ _).not_declined) ho

/-- A free that the allocator cannot do ends the command. -/
theorem InOrder.fault_of_misfrees (h : s.InOrder roll) {cmd : Command} (hm : s.Misfrees roll cmd) :
    ∃ f, (s.execute .debug cmd).1 = .printed "" (.fault f) := by
  obtain ⟨name, base, x, l, c, rfl, hx, hl, hc, hbar⟩ := hm
  obtain ⟨as, bs, w, before, after, t, rfl, -, hr, hroll, hbook⟩ := h.focus hx
  obtain rfl : t.toCustody = c := Option.some.inj (hroll.symm.trans hc)
  have htidy : t.Tidy := hr.tidy h.ordinary (by simp)
  have hsound : t.Sound .debug w.memory := hr.sound.sound t (by simp)
  have hlisted := (hbook.lists.find?_eq_some_iff htidy.distinct).1 hl
  obtain ⟨f, u, hfault⟩ := Custody.fault_of_bars hsound hlisted hbar
  refine ⟨f, ?_⟩
  rw [← hbook.allocator] at hfault
  simp only [execute, free, onSession, hx, hl]
  rw [call_of_fault (x := ⟨x.allocator, x.blocks.erase base⟩) hfault]

/-- An allocator is cleared, if it can be. -/
theorem InOrder.carried_clear (h : s.InOrder roll) (name : String)
    (ho : Ordinary (s.clear .debug name).2.world.events) :
    Carried (s.clear .debug name) (s.rollAfter .debug roll (.clear name)) := by
  refine h.carried_onSession (fun hx => by simp only [request?, hx]; rfl) (fun x hx ho => ?_) ho
  by_cases hf : x.allocator.features.has .clearing = true
  · have hreq : s.request? (.clear name) = some (name, .clear) := by
      simp only [request?, hx, Option.bind_eq_bind, Option.bind_some, if_pos hf]
    have hkind := Allocator.isHeap_of_clearing hf
    simp only [if_pos hf] at ho
    simp only [hreq, if_pos hf]
    refine h.carried_call hx (g := fun _ => .done) rfl (fun _ _ => nofun)
      (fun c _ hbook _ => ⟨hbook.allocator ▸ hkind, ?_⟩) (fun c k a _ hbook _ _ => ?_)
      (fun _ _ _ => rfl) ho
    · rw [hbook.pending]
      exact nofun
    · rw [hbook.allocator] at hkind
      simp only [Custody.answered, hkind]
      exact Ledger.lists_empty
  · have hreq : s.request? (.clear name) = none := by
      simp only [request?, hx, Option.bind_eq_bind, Option.bind_some, if_neg hf]
    simp only [hreq, if_neg hf]
    exact carried_printing h _

end Commands

end Shell

end Allocators
