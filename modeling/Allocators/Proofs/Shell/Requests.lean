import Allocators.Proofs.Refusals
import Allocators.Proofs.Shell.Solvency
/-!
# What commands come to

A command makes the one call that `Shell.request?` tells, or none. The commands that make
one are those of `Session.Asks`; the call is within the agreement (`Session.Asks.allows`),
and all but the frees are lawful. When it has come out, the session is put back, with the
allocator as the call has left it (`Shell.comes_execute`); the session lists other blocks
then only if the call was answered, but that a block to be freed is struck out before.
Without a call a text is printed and that is all, unless a session is made or ended
(`Shell.Solvent.prints`).
-/

namespace Allocators

variable {ρ : Type}

/-- The blocks that the session lists while it makes a call: one that is to be freed
has been struck out. -/
def Session.blocksDuring (x : Session) : Call → Ledger
  | .deallocate a _ => x.blocks.erase a
  | _ => x.blocks

/-- The commands that make a call on the session of this name, each with the call that it
makes. -/
inductive Session.Asks (x : Session) (name : String) : Command → Call → Prop
  | alloc {size align : Nat} {l : Layout} : Layout.ofSizeAlign? size align = some l →
      Asks x name (.alloc name size align) (.allocate l)
  | realloc {base : Nat} {l : Layout} (changes : Changes) : x.blocks.find? base = some l →
      Asks x name (.realloc name base changes)
        (.reallocate ((Resize.ofBlock base l.size l.align).edits changes.edits))
  | free {base : Nat} {l : Layout} : x.blocks.find? base = some l →
      Asks x name (.free name base) (.deallocate base l)
  | clear : x.allocator.features.has .clearing = true → Asks x name (.clear name) .clear

section Asks

variable {x : Session} {name : String} {cmd : Command} {call : Call}

/-- A command is about the session that makes its call. -/
theorem Session.Asks.subject? (ha : x.Asks name cmd call) : cmd.subject? = some name := by
  cases ha <;> rfl

/-- **The calls are within the agreement**: a block that is resized or freed is one that
the session lists, and so it is live. -/
theorem Session.Asks.allows {c : Custody} (ha : x.Asks name cmd call) (hk : x.Kept c) :
    c.Allows (.call call) := by
  cases ha with
  | alloc | clear => trivial
  | @realloc base l changes hl =>
    obtain ⟨y, hy, hyb⟩ := List.mem_map.1 (hk.mem_of_find? hl)
    exact ⟨y, hy, hyb ▸ Resize.edits_block (Resize.ofBlock base l.size l.align) changes.edits⟩
  | free hl =>
    obtain ⟨y, hy, hyb⟩ := List.mem_map.1 (hk.mem_of_find? hl)
    exact ⟨y, hy, hyb.symm⟩

/-- **All but those that free a block are lawful**, whatever the numbers and switches of
the command are. -/
theorem Session.Asks.lawful {c : Custody} (ha : x.Asks name cmd call) (hk : x.Kept c)
    (hf : ∀ base, cmd ≠ .free name base) : c.Lawful call := by
  have hallows := ha.allows hk
  cases ha with
  | alloc => trivial
  | @realloc base l changes => exact ⟨hallows, changes.sensible_edits base l.size l.align⟩
  | @free base => exact absurd rfl (hf base)
  | clear hclear =>
    refine ⟨hk.allocator ▸ Allocator.isHeap_of_clearing hclear, ?_⟩
    rw [hk.pending]
    exact nofun

end Asks

namespace Shell

/-- What becomes of a command about a name's session when its call has come out so. -/
inductive Comes (s : Shell ρ) (name : String) (left : Ledger) :
    EStateM.Result Failure (Scene Allocator ρ) Reply → ShellStep × Shell ρ → Prop
  | answered (reply : Reply) (t : Scene Allocator ρ) (blocks : Ledger) (out : String) :
      Comes s name left (.ok reply t)
        (.printed out .done, s.setSession name ⟨t.allocator, blocks⟩ t.world)
  | declined (r : Refusal) (t : Scene Allocator ρ) :
      Comes s name left (.error (.refused r) t)
        (.printed (explain r) .done, s.setSession name ⟨t.allocator, left⟩ t.world)
  | faulted (f : Fault) (t : Scene Allocator ρ) :
      Comes s name left (.error (.fault f) t)
        (.printed "" (.fault f), s.setSession name ⟨t.allocator, left⟩ t.world)

/-- Whichever way it came out, the session is put back with the allocator as it is
now. -/
theorem Comes.shell {s : Shell ρ} {name : String} {left : Ledger}
    {res : EStateM.Result Failure (Scene Allocator ρ) Reply} {r : ShellStep × Shell ρ}
    (h : s.Comes name left res r) : ∃ blocks, r.2 =
      s.setSession name ⟨(Action.ended res).2.allocator, blocks⟩ (Action.ended res).2.world := by
  cases h with
  | answered reply t blocks out => exact ⟨blocks, rfl⟩
  | declined r t => exact ⟨left, rfl⟩
  | faulted f t => exact ⟨left, rfl⟩

/-- A call that was declined is explained. -/
theorem Comes.of_declined {s : Shell ρ} {name : String} {left : Ledger} {r : Refusal}
    {t : Scene Allocator ρ} {res : ShellStep × Shell ρ}
    (h : s.Comes name left (.error (.refused r) t) res) :
    res = (.printed (explain r) .done, s.setSession name ⟨t.allocator, left⟩ t.world) := by
  cases h
  rfl

variable [Resource ρ] {b : Build} {s : Shell ρ} {name : String} {x : Session} {cmd : Command}
variable {call : Call}

/-- A call on a session is such a command, if the call is the allocator's. -/
theorem comes_call {α : Type} {action : Action Allocator ρ α} {g : α → Reply} {left : Ledger}
    {blocks : α → Ledger} {out : α → String} (hp : Restriction.perform b [] call = g <$> action) :
    s.Comes name left (Restriction.perform b [] call ⟨x.allocator, s.world⟩)
      (s.call name ⟨x.allocator, left⟩ action blocks out) := by
  rw [hp, Action.map_apply]
  unfold Shell.call
  cases action ⟨x.allocator, s.world⟩ with
  | ok a t => exact .answered (g a) t (blocks a) (out a)
  | error e t =>
    cases e with
    | refused r => exact .declined r t
    | fault f => exact .faulted f t

omit [Resource ρ] in
/-- **A command with a request asks its session**, which is there. -/
theorem exists_asks (hr : s.request? cmd = some (name, call)) :
    ∃ x, s.session? name = some x ∧ x.Asks name cmd call := by
  unfold request? at hr
  cases cmd with
  | alloc n size align =>
    obtain ⟨x, hx, hr⟩ := Option.bind_eq_some_iff.1 hr
    obtain ⟨l, hl, hr⟩ := Option.bind_eq_some_iff.1 hr
    cases hr
    exact ⟨x, hx, .alloc hl⟩
  | realloc n base changes =>
    obtain ⟨x, hx, hr⟩ := Option.bind_eq_some_iff.1 hr
    obtain ⟨l, hl, hr⟩ := Option.bind_eq_some_iff.1 hr
    cases hr
    exact ⟨x, hx, .realloc changes hl⟩
  | free n base =>
    obtain ⟨x, hx, hr⟩ := Option.bind_eq_some_iff.1 hr
    obtain ⟨l, hl, hr⟩ := Option.bind_eq_some_iff.1 hr
    cases hr
    exact ⟨x, hx, .free hl⟩
  | clear n =>
    obtain ⟨x, hx, hr⟩ := Option.bind_eq_some_iff.1 hr
    split at hr
    · next hf =>
      cases hr
      exact ⟨x, hx, .clear hf⟩
    · cases hr
  | create | delete | features | print | exit => cases hr

omit [Resource ρ] in
/-- And it is the session of that name. -/
theorem asks_of_request (hx : s.session? name = some x)
    (hr : s.request? cmd = some (name, call)) : x.Asks name cmd call := by
  obtain ⟨x', hx', hasks⟩ := exists_asks hr
  obtain rfl : x' = x := Option.some.inj (hx'.symm.trans hx)
  exact hasks

/-- **A command makes its call**, and goes on as that has come out. -/
theorem comes_execute (hx : s.session? name = some x) (ha : x.Asks name cmd call) :
    s.Comes name (x.blocksDuring call) (Restriction.perform b [] call ⟨x.allocator, s.world⟩)
      (s.execute b cmd) := by
  cases ha with
  | alloc hl =>
    simp only [execute, alloc, onSession, hx, hl]
    exact comes_call (g := .block) rfl
  | realloc changes hl =>
    simp only [execute, realloc, onSession, hx, hl]
    exact comes_call (g := .resized) rfl
  | free hl =>
    simp only [execute, free, onSession, hx, hl]
    exact comes_call (g := fun _ => .done) rfl
  | clear hf =>
    simp only [execute, clear, onSession, hx, if_pos hf]
    exact comes_call (g := fun _ => .done) rfl

omit [Resource ρ] in
/-- Without the session nothing is done with it. -/
theorem onSession_of_none (hx : s.session? name = none) (f : Session → ShellStep × Shell ρ) :
    s.onSession name f = s.printing (noSession name) := by
  simp only [onSession, hx]

omit [Resource ρ] in
/-- A command about a session only prints if it only prints with the session there is. -/
theorem onSession_prints {f : Session → ShellStep × Shell ρ}
    (hf : ∀ x, s.session? name = some x → ∃ out, f x = s.printing out) :
    ∃ out, s.onSession name f = s.printing out := by
  cases hx : s.session? name with
  | none => exact ⟨_, onSession_of_none hx f⟩
  | some x =>
    simp only [onSession, hx]
    exact hf x hx

/-- Every session of a solvent shell has an allocator that tells its text. -/
theorem Solvent.allocatorText_ok {tabs : Tabs} (h : s.Solvent b tabs) {e : String × Session}
    (he : e ∈ s.sessions) : ∃ t, allocatorText b s.world e.2.allocator = .ok t := by
  obtain ⟨ls, hl, hp⟩ := h
  obtain ⟨p, hmem, rfl⟩ := List.mem_map.1 (hp.mem_iff.2 he)
  obtain ⟨t, ht⟩ := (hl.estate.sound.noFault (List.mem_map_of_mem hmem)).text
  refine ⟨t ++ "\n", ?_⟩
  show allocatorText b s.world p.session.allocator = _
  rw [(hl.kept p hmem).allocator]
  simp only [allocatorText, ht]
  rfl

/-- **A command that makes no call only prints**, in a solvent shell, unless it makes or
ends a session. -/
theorem Solvent.prints {tabs : Tabs} (h : s.Solvent b tabs) (hr : s.request? cmd = none)
    (hc : ∀ n kind capacity zeroed, cmd ≠ .create n kind capacity zeroed)
    (hd : ∀ n, cmd ≠ .delete n) : ∃ out, s.execute b cmd = s.printing out := by
  cases cmd with
  | create n kind capacity zeroed => exact absurd rfl (hc n kind capacity zeroed)
  | delete n => exact absurd rfl (hd n)
  | alloc n size align =>
    refine onSession_prints fun x hx => ?_
    cases hl : Layout.ofSizeAlign? size align with
    | none => exact ⟨_, rfl⟩
    | some l => simp [request?, hx, hl] at hr
  | realloc n base changes =>
    refine onSession_prints fun x hx => ?_
    cases hl : x.blocks.find? base with
    | none => exact ⟨_, rfl⟩
    | some l => simp [request?, hx, hl] at hr
  | free n base =>
    refine onSession_prints fun x hx => ?_
    cases hl : x.blocks.find? base with
    | none => exact ⟨_, rfl⟩
    | some l => simp [request?, hx, hl] at hr
  | clear n =>
    refine onSession_prints fun x hx => ?_
    split
    · next hf => simp [request?, hx, hf] at hr
    · exact ⟨_, rfl⟩
  | features n => exact onSession_prints fun x hx => ⟨_, rfl⟩
  | print n => exact execute_print (fun _ he => h.allocatorText_ok he) n
  | exit => exact ⟨_, rfl⟩

end Shell

end Allocators
