import Allocators.Proofs.Shell.Requests
import Allocators.Proofs.Table
/-!
# Commands that find fault

In a solvent shell a command finds fault only if it frees a block. Every other call is
lawful, every allocator tells its text, and every session can be closed. A block that a
heap's session lists can be freed too; so the fault is that of a debug build with a block
of an arena, or with one of a stack that is not the latest. It is found before anything is
done: allocator and world are as they were (`Shell.Solvent.fault_cases`).
-/

namespace Allocators

open Trace

variable {ρ : Type} [Resource ρ] {b : Build}

/-- A free that finds fault is one in a debug build, and has done nothing. -/
theorem Custody.deallocate_fault {c : Custody} {w : World ρ} (hs : c.Sound b w.memory)
    (hk : c.allocator.isHeap = false) {a : Nat} {l : Layout} (hm : Block.of a l ∈ c.blocks)
    {f : Fault} {t : Scene Allocator ρ}
    (hd : Allocator.deallocate b a l ⟨c.allocator, w⟩ = .error (.fault f) t) :
    b = .debug ∧ t = ⟨c.allocator, w⟩ := by
  obtain ⟨k, live, pending⟩ := c
  cases k with
  | heap s => simp at hk
  | stack s =>
    obtain ⟨u, hu, rfl⟩ := Action.on_eq_error_iff.1 hd
    obtain ⟨x, hx, hxb⟩ := List.mem_map.1 hm
    obtain rfl : x.address = a := congrArg Block.address hxb
    have hsize : l.size = x.size := (congrArg Block.size hxb).symm
    obtain ⟨newer, older, rfl⟩ := List.append_of_mem hx
    by_cases hn : newer = []
    · subst hn
      rw [Stack.deallocate_top hs b hsize] at hu
      cases hu
    · rw [Stack.deallocate_under hs hn b hsize] at hu
      cases b <;> cases hu
      exact ⟨rfl, rfl⟩
  | arena s =>
    obtain ⟨u, hu, rfl⟩ := Action.on_eq_error_iff.1 hd
    rw [Arena.deallocate_apply] at hu
    cases b <;> cases hu
    exact ⟨rfl, rfl⟩

namespace Shell

variable {s s' : Shell ρ} {tabs : Tabs} {cmd : Command} {name out : String} {f : Fault}

/-- **A call that finds fault is a free**, in a debug build, and has done nothing. -/
theorem Solvent.free_of_fault (h : s.Solvent b tabs) {call : Call} {x : Session}
    {t : Scene Allocator ρ} (hx : s.session? name = some x) (hasks : x.Asks name cmd call)
    (hg : Honoured t.world.events)
    (hcall : Restriction.perform b [] call ⟨x.allocator, s.world⟩ = .error (.fault f) t) :
    b = .debug ∧ (∃ base l, cmd = .free name base ∧ call = .deallocate base l) ∧
      t = ⟨x.allocator, s.world⟩ := by
  obtain ⟨before, p, after, hl, hp, rfl, rfl⟩ := h.focus hx
  have hkept := hl.kept p (by simp)
  have hsound := hl.reachable.sound.sound p.tenant (by simp)
  by_cases hfree : ∃ base, cmd = .free p.name base
  · obtain ⟨base, rfl⟩ := hfree
    cases hasks with
    | @free _ l hlisted =>
      have hd := Action.map_eq_error_iff.1 hcall
      rw [hkept.allocator] at hd ⊢
      have hstands : p.session.Stands b s.world p.tenant.toCustody :=
        ⟨hkept, hsound, hl.reachable.sound.accounts_tenant (by simp)⟩
      have hm := hkept.mem_of_find? hlisted
      obtain ⟨hb, ht⟩ :=
        Custody.deallocate_fault hsound (hstands.isHeap_of_deallocate hm hd) hm hd
      exact ⟨hb, ⟨base, l, rfl, rfl⟩, ht⟩
  · have hlaw := hasks.lawful hkept fun base heq => hfree ⟨base, heq⟩
    rw [hkept.allocator] at hcall
    have hact : Custody.act b (.call call) ⟨p.tenant.toCustody, s.world⟩ =
        .error (.fault f) ⟨p.tenant.failed t.allocator call, t.world⟩ := by
      simp only [Custody.act, hcall]
    exact absurd hg ((hl.reachable.sound.noFault (by simp)).calls call hlaw f _ hact)

/-- To make a session finds no fault, be it made or not. -/
theorem create_done (s : Shell ρ) (name : String) (kind : KindChoice) (capacity : Nat)
    (zeroed : Bool) : ∃ out, (s.create name kind capacity zeroed).1 = .printed out .done := by
  unfold Shell.create
  cases s.session? name with
  | some x => exact ⟨_, rfl⟩
  | none =>
    rcases Allocator.create (kind.toKind zeroed) name capacity s.world with ⟨r | k, w⟩
    · exact ⟨_, rfl⟩
    · exact ⟨_, rfl⟩

/-- To end one finds none either. -/
theorem Solvent.delete_done (h : s.Solvent b tabs) (name : String) :
    ∃ out, (s.delete b name).1 = .printed out .done := by
  unfold Shell.delete Shell.onSession
  cases hx : s.session? name with
  | none => exact ⟨_, rfl⟩
  | some x =>
    obtain ⟨before, p, after, hl, -, rfl, rfl⟩ := h.focus hx
    obtain ⟨w', hclose, -⟩ := hl.close
    simp only [hclose]
    exact ⟨_, rfl⟩

/-- A command that makes no call finds none, also if it makes or ends a session. -/
theorem Solvent.done_of_no_request (h : s.Solvent b tabs) (hr : s.request? cmd = none) :
    ∃ out, (s.execute b cmd).1 = .printed out .done := by
  cases cmd with
  | create name kind capacity zeroed => exact s.create_done name kind capacity zeroed
  | delete name => exact h.delete_done name
  | alloc | realloc | free | clear | features | print | exit =>
    obtain ⟨out, hprints⟩ := h.prints hr (fun _ _ _ _ => nofun) fun _ => nofun
    exact ⟨out, hprints ▸ rfl⟩

/-- **A command that finds fault is a free**, in a debug build. It has struck the block out
of its session's list, and has done nothing else. -/
theorem Solvent.fault_cases (h : s.Solvent b tabs)
    (hexec : s.execute b cmd = (.printed out (.fault f), s')) (hg : Honoured s'.world.events) :
    b = .debug ∧ ∃ name base x, cmd = .free name base ∧ s.session? name = some x ∧
      s' = s.setSession name ⟨x.allocator, x.blocks.erase base⟩ s.world := by
  cases hr : s.request? cmd with
  | some q =>
    obtain ⟨name, call⟩ := q
    obtain ⟨x, hx, hasks⟩ := exists_asks hr
    have hcomes := comes_execute (b := b) hx hasks
    rw [hexec] at hcomes
    generalize hres : Restriction.perform b [] call ⟨x.allocator, s.world⟩ = res at hcomes
    cases hcomes with
    | faulted f t =>
      obtain ⟨hb, ⟨base, l, rfl, rfl⟩, rfl⟩ := h.free_of_fault hx hasks hg hres
      exact ⟨hb, name, base, x, rfl, hx, rfl⟩
  | none =>
    obtain ⟨out', hdone⟩ := h.done_of_no_request hr
    rw [hexec] at hdone
    cases hdone

end Shell

end Allocators
