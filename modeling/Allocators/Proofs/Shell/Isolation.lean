import Allocators.Proofs.Shell.Faults
import Allocators.Proofs.Shell.Leaks
/-!
# Commands stay in their session

All sessions draw on one resource, and their blocks lie in one memory. What a
session has as its own (`Session.grounds`) is apart from what the others have, as the
resource hands out no byte twice. So a command about one session leaves every other
undisturbed, with the allocator, the blocks and the bytes that it had, whatever the
command comes to (`Shell.Solvent.undisturbed_execute`). And a command that fails
(`Shell.Fails`) leaves all of them so, its own session included.
-/

namespace Allocators

open Trace

/-! ## What is a session's own -/

/-- The blocks whose bytes are the session's: those that it lists, and the whole region
of a stack or an arena. -/
def Session.grounds (x : Session) : List Block :=
  x.blocks.blocks ++
    match x.allocator with
    | .heap _ => []
    | .stack s => [Block.of s.region.base s.region.layout]
    | .arena s => [Block.of s.region.base s.region.layout]

/-- They lie in what the allocator answers for. -/
theorem Session.Kept.inside {b : Build} {m : Memory} {x : Session} {c : Custody}
    (hx : x.Kept c) (hs : c.Sound b m) {y : Block} (hy : y ∈ x.grounds) :
    ∃ z ∈ c.footprint, y.Inside z := by
  rcases List.mem_append.1 hy with hy | hy
  · obtain ⟨u, hu, rfl⟩ := List.mem_map.1 (hx.live y hy)
    exact hs.inside hu
  · rw [hx.allocator] at hy
    obtain ⟨k, live, pending⟩ := c
    cases k with
    | heap s => cases hy
    | stack s => exact ⟨y, hy, le_rfl, le_rfl⟩
    | arena s => exact ⟨y, hy, le_rfl, le_rfl⟩

/-- The name of a session that there has to be for the command. -/
def Command.host? : Command → Option String
  | .create _ _ _ _ => none
  | cmd => cmd.subject?

/-- The block that the command is about, by the name of its session and its address. -/
def Command.block? : Command → Option (String × Nat)
  | .realloc name base _ => some (name, base)
  | .free name base => some (name, base)
  | _ => none

/-- An allocator that is not made has at most asked the resource in vain. -/
theorem Allocator.declined_of_create {ρ : Type} [Resource ρ] {kind : AllocatorKind}
    {label : String} {capacity : Nat} {r : Refusal} {w w' : World ρ}
    (h : create kind label capacity w = (.error r, w')) : w.Declined w' := by
  rcases create_cases kind label capacity w with
    ⟨zeroed, hc⟩ | ⟨r', w₁, hc, hm, he⟩ | ⟨wrap, a, l, w₁, -, hc, -⟩
  · cases hc.symm.trans h
  · cases hc.symm.trans h
    rcases he with he | ⟨l, he⟩
    · exact ⟨hm, [], he, nofun⟩
    · refine ⟨hm, [.taken l none], he, fun e hmem => ?_⟩
      rw [List.mem_singleton.1 hmem]
      trivial
  · cases hc.symm.trans h

/-! ## What is beside one of several allocators -/

namespace Estate

variable {ρ : Type} [Resource ρ] {b : Build} {w w' : World ρ} {before after : List Tenant}
variable {t : Tenant} {left : List Block}

/-- **A deed keeps what is beside its allocator.** -/
theorem Reachable.keeps_act (hr : Reachable b ⟨w, before ++ t :: after, left⟩) {d : Deed}
    (hd : t.Allows d) {out : Except Failure Reply} {c' : Custody}
    (hact : Custody.act b d ⟨t.toCustody, w⟩ = Action.ending out ⟨c', w'⟩)
    (hg : Honoured w'.events) : ∀ y ∈ beside before after left, w.memory.Keeps w'.memory y :=
  (hr.sound.upkeep rfl hd hact hg).keeps_rest

/-- A call is a deed. -/
theorem Reachable.keeps_call (hr : Reachable b ⟨w, before ++ t :: after, left⟩) {call : Call}
    (hd : t.Allows (.call call))
    (hg : Honoured
      (Action.ended (Restriction.perform b [] call ⟨t.allocator, w⟩)).2.world.events) :
    ∀ y ∈ beside before after left, w.memory.Keeps
      (Action.ended (Restriction.perform b [] call ⟨t.allocator, w⟩)).2.world.memory y := by
  cases hc : Restriction.perform b [] call ⟨t.allocator, w⟩ with
  | ok reply u =>
    have hact : Custody.act b (.call call) ⟨t.toCustody, w⟩ =
        Action.ending (.ok reply) ⟨t.answered u.allocator call reply, u.world⟩ := by
      simp only [Custody.act, hc, Action.ending]
    rw [hc] at hg
    exact hr.keeps_act hd hact hg
  | error e u =>
    have hact : Custody.act b (.call call) ⟨t.toCustody, w⟩ =
        Action.ending (.error e) ⟨t.failed u.allocator call, u.world⟩ := by
      simp only [Custody.act, hc, Action.ending]
    rw [hc] at hg
    exact hr.keeps_act hd hact hg

/-- To drop an allocator keeps what is beside it. -/
theorem Reachable.keeps_close (hr : Reachable b ⟨w, before ++ t :: after, left⟩)
    {k : Allocator} (hc : Allocator.close ⟨t.allocator, w⟩ = .ok () ⟨k, w'⟩) :
    ∀ y ∈ beside before after left, w.memory.Keeps w'.memory y := by
  have hend : Allocator.close ⟨t.allocator, w⟩ = Action.ending (.ok ()) ⟨k, w'⟩ := hc
  exact fun y hy => (hr.sound.dropped rfl hend).2 y (List.mem_append_right _ hy)

/-- And so does freeing a heap's blocks one by one. -/
theorem Reachable.keeps_freeAll (hr : Reachable b ⟨w, before ++ t :: after, left⟩)
    (hk : t.allocator.isHeap = true) {es : List (Nat × Layout)}
    (hl : t.blocks.Perm (es.map fun e => Block.of e.1 e.2)) {k : Allocator}
    (hf : Session.freeAll b es ⟨t.allocator, w⟩ = .ok () ⟨k, w'⟩) :
    ∀ y ∈ beside before after left, w.memory.Keeps w'.memory y := by
  induction es generalizing t w with
  | nil =>
    cases hf
    exact fun y _ => .refl _ y
  | cons e es ih =>
    obtain ⟨u, v, hfree, hfreed⟩ := hr.deallocate hk hl
    rw [Session.freeAll, Action.bind_apply, hfree] at hf
    -- the first of them, as a deed within the agreement
    obtain ⟨x, hx, hxb⟩ := List.mem_map.1 (hl.mem_iff.2 List.mem_cons_self)
    have hlaw : t.Allows (.call (.deallocate e.1 e.2)) := ⟨x, hx, hxb.symm⟩
    have hact : Custody.act b (.call (.deallocate e.1 e.2)) ⟨t.toCustody, w⟩ =
        Action.ending (.ok .done) ⟨t.answered u.allocator (.deallocate e.1 e.2) .done, v⟩ :=
      Custody.act_of_map_ok (g := fun _ => .done) rfl hfree
    have hfirst := hr.keeps_act hlaw hact hfreed.reachable.sound.accounts.honoured
    have hrest := ih hfreed.reachable hfreed.heap hfreed.live hf
    exact fun y hy => (hfirst y hy).trans (hrest y hy)

end Estate

/-- **The end of a session keeps what is beside its allocator.** -/
theorem Session.Kept.keeps_close {ρ : Type} [Resource ρ] {b : Build} {w w' : World ρ}
    {before after : List Tenant} {t : Tenant} {left : List Block} {x : Session}
    (hx : x.Kept t.toCustody) (hr : Estate.Reachable b ⟨w, before ++ t :: after, left⟩)
    (hc : x.close b w = (none, w')) :
    ∀ y ∈ Estate.beside before after left, w.memory.Keeps w'.memory y := by
  obtain ⟨halloc, hpending, -, hall⟩ := hx
  unfold Session.close at hc
  rw [Session.freesBlocks_eq, halloc] at hc
  cases hk : t.allocator.isHeap with
  | true =>
    obtain ⟨u, v, hfree, hfreed⟩ := hr.freeAll hk (hall hk).symm
    obtain ⟨k, w'', hclose, -⟩ := hfreed.reachable.close_quiet (hfreed.pending.trans hpending)
      fun _ => hfreed.live.eq_nil
    simp only [hk, if_true, hfree, hclose] at hc
    obtain rfl : w'' = w' := congrArg Prod.snd hc
    have hfirst := hr.keeps_freeAll hk (hall hk).symm hfree
    have hlast := hfreed.reachable.keeps_close hclose
    exact fun y hy => (hfirst y hy).trans (hlast y hy)
  | false =>
    obtain ⟨k, w'', hclose, -⟩ := hr.close_quiet hpending fun h =>
      absurd (hk.symm.trans h) Bool.false_ne_true
    simp only [hk, Bool.false_eq_true, if_false, Action.pure_apply, hclose] at hc
    obtain rfl : w'' = w' := congrArg Prod.snd hc
    exact hr.keeps_close hclose

namespace Shell

variable {ρ : Type}

/-! ## The sessions of other names -/

section Names

variable {s : Shell ρ} {name n : String} {x : Session} {w : World ρ}

/-- To put a session back does nothing to those of other names. -/
theorem session?_setSession_of_ne (hne : n ≠ name) :
    (s.setSession name x w).session? n = s.session? n := by
  have hfst : (fun e : String × Session => decide (e.1 = n)) ∘
      (fun e => if e.1 = name then (name, x) else e) = fun e => decide (e.1 = n) := by
    funext e
    by_cases he : e.1 = name <;> simp [he]
  unfold session? setSession
  rw [List.find?_map, hfst]
  cases hf : s.sessions.find? fun e => decide (e.1 = n) with
  | none => rfl
  | some e =>
    have hn : e.1 = n := by simpa using List.find?_some hf
    have he : e.1 ≠ name := hn ▸ hne
    simp [he]

/-- Nor does a new session. -/
theorem session?_addSession_of_ne (hne : n ≠ name) :
    (s.addSession name x w).session? n = s.session? n := by
  unfold session? addSession
  simp [List.find?_append, hne.symm]

/-- Nor does the end of one. -/
theorem session?_removeSession_of_ne (hne : n ≠ name) :
    (s.removeSession name w).session? n = s.session? n := by
  unfold session? removeSession
  rw [List.find?_filter]
  congr 2
  funext e
  by_cases he : e.1 = n <;> simp [he, hne]

/-- To put back what is there changes no session, if names are not used twice. -/
theorem setSession_eq_self (hnodup : (s.sessions.map Prod.fst).Nodup)
    (hx : s.session? name = some x) (w : World ρ) :
    s.setSession name x w = ⟨s.sessions, w⟩ := by
  unfold setSession
  congr 1
  refine (List.map_congr_left fun e he => ?_).trans (List.map_id _)
  split
  · next hname =>
    exact List.inj_on_of_nodup_map hnodup (mem_of_session? hx) he hname.symm
  · rfl

/-- To put it back with other blocks changes no allocator. -/
theorem allocators_setSession (hnodup : (s.sessions.map Prod.fst).Nodup)
    (hx : s.session? name = some x) (blocks : Ledger) (w : World ρ) :
    (s.setSession name ⟨x.allocator, blocks⟩ w).sessions.map (fun e => (e.1, e.2.allocator)) =
      s.sessions.map fun e => (e.1, e.2.allocator) := by
  unfold setSession
  rw [List.map_map]
  refine List.map_congr_left fun e he => ?_
  by_cases hname : e.1 = name
  · obtain rfl : (name, x) = e :=
      List.inj_on_of_nodup_map hnodup (mem_of_session? hx) he hname.symm
    simp
  · simp [hname]

end Names

/-! ## Undisturbed sessions -/

/-- What there is under this name in the one shell is there in the other, with the same
allocator, blocks and bytes. -/
structure Undisturbed (s s' : Shell ρ) (name : String) : Prop where
  session : s'.session? name = s.session? name
  keeps : ∀ x, s.session? name = some x → ∀ y ∈ x.grounds, s.world.memory.Keeps s'.world.memory y

/-- Nothing has happened. -/
theorem Undisturbed.refl (s : Shell ρ) (name : String) : s.Undisturbed s name :=
  ⟨rfl, fun _ _ y _ => .refl s.world.memory y⟩

variable [Resource ρ] {b : Build} {s s' : Shell ρ} {tabs : Tabs} {ls before after : List Lodger}
variable {p : Lodger} {n name : String} {x : Session} {m : Memory} {w' : World ρ} {cmd : Command}

/-- What keeps all that the allocator of a session has keeps all that is the
session's. -/
theorem Lodged.keeps_grounds (hl : Lodged b s.world tabs ls)
    (hp : (ls.map Lodger.entry).Perm s.sessions)
    (hk : ∀ q ∈ ls, q.name = n → ∀ y ∈ q.tenant.footprint, s.world.memory.Keeps m y) :
    ∀ x, s.session? n = some x → ∀ y ∈ x.grounds, s.world.memory.Keeps m y := by
  intro x hx y hy
  obtain ⟨q, hq, heq⟩ := List.mem_map.1 (hp.mem_iff.2 (mem_of_session? hx))
  obtain ⟨rfl, rfl⟩ := Prod.mk.inj heq
  have hsound := hl.estate.sound.sound q.tenant (List.mem_map_of_mem hq)
  obtain ⟨z, hz, hyz⟩ := (hl.kept q hq).inside hsound hy
  exact (hk q hq rfl z hz).of_inside hyz

/-- **Beside one session those of other names are kept.** -/
theorem Lodged.keeps_others (hl : Lodged b s.world tabs (before ++ p :: after))
    (hp : ((before ++ p :: after).map Lodger.entry).Perm s.sessions) (hne : n ≠ p.name)
    (hk : ∀ y ∈ Estate.beside (before.map Lodger.tenant) (after.map Lodger.tenant) [],
      s.world.memory.Keeps m y) :
    ∀ x, s.session? n = some x → ∀ y ∈ x.grounds, s.world.memory.Keeps m y := by
  refine hl.keeps_grounds hp fun q hq hname y hy => hk y (Estate.mem_beside ?_ y hy)
  have hother : q ∈ before ++ after := by
    rcases List.mem_cons.1 (List.perm_middle.mem_iff.1 hq) with rfl | hq
    · exact absurd hname.symm hne
    · exact hq
  rw [← List.map_append]
  exact List.mem_map_of_mem hother

/-- **A command with a call leaves the sessions of other names undisturbed.** -/
theorem Solvent.undisturbed_call (h : s.Solvent b tabs) {call : Call}
    (hx : s.session? name = some x) (hasks : x.Asks name cmd call) (hne : n ≠ name)
    (hg : Honoured (s.execute b cmd).2.world.events) : s.Undisturbed (s.execute b cmd).2 n := by
  obtain ⟨blocks, hshell⟩ := (comes_execute (b := b) hx hasks).shell
  rw [hshell] at hg ⊢
  refine ⟨session?_setSession_of_ne hne, ?_⟩
  obtain ⟨before, p, after, hl, hp, rfl, rfl⟩ := h.focus hx
  have hkept := hl.kept p (by simp)
  have hallows := hasks.allows hkept
  rw [hkept.allocator] at hg ⊢
  exact hl.keeps_others hp hne (hl.reachable.keeps_call hallows hg)

/-- So does the end of a session. -/
theorem Solvent.undisturbed_delete (h : s.Solvent b tabs) (hne : n ≠ name) :
    s.Undisturbed (s.delete b name).2 n := by
  unfold Shell.delete Shell.onSession
  cases hx : s.session? name with
  | none => exact .refl s n
  | some x =>
    obtain ⟨before, p, after, hl, hp, rfl, rfl⟩ := h.focus hx
    obtain ⟨w', hclose, -⟩ := hl.close
    simp only [hclose]
    refine ⟨session?_removeSession_of_ne hne, hl.keeps_others hp hne ?_⟩
    exact (hl.kept p (by simp)).keeps_close hl.reachable hclose

/-- And so does a new one, be it made or not. -/
theorem Solvent.undisturbed_create (h : s.Solvent b tabs) (kind : KindChoice) (capacity : Nat)
    (zeroed : Bool) (hne : n ≠ name)
    (hg : Honoured (s.create name kind capacity zeroed).2.world.events) :
    s.Undisturbed (s.create name kind capacity zeroed).2 n := by
  unfold Shell.create at hg ⊢
  cases hx : s.session? name with
  | some x => exact .refl s n
  | none =>
    simp only [hx] at hg
    obtain ⟨ls, hl, hp⟩ := h
    have hacc := hl.estate.sound.accounts
    rcases hc : Allocator.create (kind.toKind zeroed) name capacity s.world with ⟨r | k, w⟩
    · obtain ⟨-, hm⟩ := Custody.create_error hc hacc
      refine ⟨rfl, fun x _ y _ => ?_⟩
      show s.world.memory.Keeps w.memory y
      exact hm ▸ .refl s.world.memory y
    · simp only [hc] at hg ⊢
      obtain ⟨-, -, hk⟩ := Custody.create_ok hc hg hacc b
      refine ⟨session?_addSession_of_ne hne, hl.keeps_grounds hp fun q hq _ y hy => hk y ?_⟩
      exact List.mem_append_left _ (List.mem_flatMap.2 ⟨_, List.mem_map_of_mem hq, hy⟩)

/-- **A command leaves the sessions of other names undisturbed**, whatever it comes
to. -/
theorem Solvent.undisturbed_execute (h : s.Solvent b tabs) (cmd : Command)
    (hne : cmd.subject? ≠ some n) (hg : Honoured (s.execute b cmd).2.world.events) :
    s.Undisturbed (s.execute b cmd).2 n := by
  cases hr : s.request? cmd with
  | some q =>
    obtain ⟨name, call⟩ := q
    obtain ⟨x, hx, hasks⟩ := exists_asks hr
    exact h.undisturbed_call hx hasks (fun heq => hne (heq ▸ hasks.subject?)) hg
  | none =>
    cases cmd with
    | create name kind capacity zeroed =>
      exact h.undisturbed_create kind capacity zeroed (fun heq => hne (heq ▸ rfl)) hg
    | delete name => exact h.undisturbed_delete fun heq => hne (heq ▸ rfl)
    | alloc | realloc | free | clear | features | print | exit =>
      obtain ⟨out, hexec⟩ := h.prints hr (fun _ _ _ _ => nofun) fun _ => nofun
      exact hexec ▸ .refl s n

/-! ## Commands that fail -/

/-- The command fails, and says so with this text. A fault is no failure in this sense:
it ends the shell, and nothing is left to go on with. -/
inductive Fails (b : Build) (s : Shell ρ) : Command → String → Prop
  /-- It is about a session that there is not. -/
  | unnamed {cmd : Command} {name : String} : cmd.host? = some name →
      s.session? name = none → Fails b s cmd (noSession name)
  /-- It is about a block that its session does not list. -/
  | unlisted {cmd : Command} {name : String} {base : Nat} {x : Session} :
      cmd.block? = some (name, base) → s.session? name = some x →
      x.blocks.find? base = none → Fails b s cmd (noBlock base)
  /-- It is to make a session under a name that has one. -/
  | taken {name : String} {kind : KindChoice} {capacity : Nat} {zeroed : Bool} {x : Session} :
      s.session? name = some x → Fails b s (.create name kind capacity zeroed)
        ("There is already an allocator named " ++ Quoted.text name ++ "\n")
  /-- It asks for a block that no layout describes. -/
  | shapeless {name : String} {size align : Nat} {x : Session} : s.session? name = some x →
      Layout.ofSizeAlign? size align = none → Fails b s (.alloc name size align)
        "The size must be non-zero and the alignment must be a power of two!\n"
  /-- It is to clear an allocator that cannot be cleared. -/
  | unable {name : String} {x : Session} : s.session? name = some x →
      ¬ x.allocator.features.has .clearing = true →
      Fails b s (.clear name) (Quoted.text name ++ " cannot be cleared!\n")
  /-- Its call is declined. -/
  | declined {cmd : Command} {name : String} {x : Session} {call : Call} {r : Refusal}
      {t : Scene Allocator ρ} : s.session? name = some x → s.request? cmd = some (name, call) →
      Restriction.perform b [] call ⟨x.allocator, s.world⟩ = .error (.refused r) t →
      Fails b s cmd (explain r)
  /-- The allocator for its session is not made. -/
  | unmade {name : String} {kind : KindChoice} {capacity : Nat} {zeroed : Bool} {r : Refusal}
      {w : World ρ} : s.session? name = none →
      Allocator.create (kind.toKind zeroed) name capacity s.world = (.error r, w) →
      Fails b s (.create name kind capacity zeroed) (explain r)

/-- An exit does not fail. -/
theorem Fails.ne_exit {out : String} (hf : s.Fails b cmd out) : cmd ≠ .exit := by
  rintro rfl
  cases hf with
  | unnamed hc => cases hc
  | unlisted hc => cases hc
  | declined hx hr => cases hr

/-- The names in a solvent shell are not used twice. -/
theorem Solvent.named (h : s.Solvent b tabs) : (s.sessions.map Prod.fst).Nodup := by
  obtain ⟨ls, hl, hp⟩ := h
  have hnames : (ls.map Lodger.name).Perm (s.sessions.map Prod.fst) := by
    have hfst := hp.map Prod.fst
    rw [List.map_map] at hfst
    exact hfst
  exact hnames.nodup_iff.1 hl.named

/-- Without the session that it needs a command says so, and that is all. -/
theorem execute_of_unnamed (hc : cmd.host? = some name) (hx : s.session? name = none) :
    s.execute b cmd = s.printing (noSession name) := by
  cases cmd with
  | create | exit => cases hc
  | print n =>
    cases hc
    exact onSession_of_none hx _
  | delete | alloc | realloc | free | clear | features =>
    cases hc
    exact onSession_of_none hx _

/-- And so does one without its block. -/
theorem execute_of_unlisted {base : Nat} (hc : cmd.block? = some (name, base))
    (hx : s.session? name = some x) (hl : x.blocks.find? base = none) :
    s.execute b cmd = s.printing (noBlock base) := by
  cases cmd with
  | realloc n base changes =>
    cases hc
    simp only [execute, realloc, onSession, hx, hl]
  | free n base =>
    cases hc
    simp only [execute, free, onSession, hx, hl]
  | create | delete | alloc | clear | features | print | exit => cases hc

/-- **A call that is declined is explained**, and puts its session back as it was. No free
is declined, so the session lists what it listed before. -/
theorem Solvent.execute_of_declined (h : s.Solvent b tabs) {call : Call} {r : Refusal}
    {t : Scene Allocator ρ} (hx : s.session? name = some x) (hasks : x.Asks name cmd call)
    (hcall : Restriction.perform b [] call ⟨x.allocator, s.world⟩ = .error (.refused r) t) :
    s.execute b cmd = (.printed (explain r) .done, ⟨s.sessions, t.world⟩) := by
  have hleft : x.blocksDuring call = x.blocks := by
    cases call with
    | deallocate a l =>
      have hfree := Action.map_eq_error_iff.1 hcall
      exact absurd hfree (Allocator.commits_deallocate b a l).not_declined
    | _ => rfl
  have hput : s.setSession name ⟨t.allocator, x.blocks⟩ t.world = ⟨s.sessions, t.world⟩ := by
    rw [(Restriction.untouched_of_declined hcall).allocator]
    exact setSession_eq_self h.named hx t.world
  have hcomes := comes_execute (b := b) hx hasks
  rw [hcall, hleft] at hcomes
  rw [hcomes.of_declined, hput]

/-- **A command that fails leaves every session as it is**, and every byte. At most it
has asked the resource in vain. -/
theorem Solvent.execute_of_fails (h : s.Solvent b tabs) {out : String} (hf : s.Fails b cmd out) :
    ∃ w', s.execute b cmd = (.printed out .done, ⟨s.sessions, w'⟩) ∧ s.world.Declined w' := by
  have hidle : ∀ out, s.execute b cmd = s.printing out →
      ∃ w', s.execute b cmd = (.printed out .done, ⟨s.sessions, w'⟩) ∧ s.world.Declined w' :=
    fun out hexec => ⟨s.world, hexec, World.lapse_declined.refl s.world⟩
  cases hf with
  | unnamed hc hx => exact hidle _ (execute_of_unnamed hc hx)
  | unlisted hc hx hl => exact hidle _ (execute_of_unlisted hc hx hl)
  | taken hx => exact hidle _ (by simp only [Shell.execute, Shell.create, hx])
  | shapeless hx hl =>
    exact hidle _ (by simp only [Shell.execute, Shell.alloc, Shell.onSession, hx, hl])
  | unable hx hc =>
    exact hidle _ (by simp only [Shell.execute, Shell.clear, Shell.onSession, hx, if_neg hc])
  | declined hx hr hcall =>
    exact ⟨_, h.execute_of_declined hx (asks_of_request hx hr) hcall,
      (Restriction.untouched_of_declined hcall).world⟩
  | unmade hx hc =>
    exact ⟨_, by simp only [Shell.execute, Shell.create, hx, hc]; rfl,
      Allocator.declined_of_create hc⟩

/-! ## Lines -/

/-- What a line can do to the sessions. -/
structure Confined (b : Build) (s : Shell ρ) (text : String) : Prop where
  /-- If it is rejected, nothing has happened. -/
  rejected : ∀ e, Command.ofLine text = .error e → s.line b text = .more (.rejected e) s
  /-- If its command fails, it is answered by a text, and the sessions are the same, with
  their allocators and blocks. So is every byte, and nothing was taken from the resource or
  given back. -/
  failed : ∀ cmd out, Command.ofLine text = .ok cmd → s.Fails b cmd out →
    ∃ w', s.line b text = .more (.printed out .done) ⟨s.sessions, w'⟩ ∧ s.world.Declined w'
  /-- If a fault ends it, which is no failure, there is no prompt after it. It was to free a
  block, in a debug build, and no allocator has changed and nothing in the world. -/
  faulted : ∀ step s', s.line b text = .over step true s' →
    b = .debug ∧ (∃ name base, Command.ofLine text = .ok (.free name base)) ∧
      s'.world = s.world ∧ s'.sessions.map (fun e => (e.1, e.2.allocator)) =
        s.sessions.map fun e => (e.1, e.2.allocator)
  /-- Whatever it comes to, the sessions of the names that it is not about are
  undisturbed. -/
  others : ∀ n, (∀ cmd, Command.ofLine text = .ok cmd → cmd.subject? ≠ some n) →
    s.Undisturbed (s.line b text).shell n

/-- **Every line of a solvent shell is confined.** -/
theorem Solvent.confined_line (h : s.Solvent b tabs) (text : String)
    (hg : Honoured (s.line b text).shell.world.events) : s.Confined b text where
  rejected e hc := by simp only [Shell.line, hc]
  failed cmd out hc hf := by
    obtain ⟨w', hexec, hw⟩ := h.execute_of_fails hf
    refine ⟨w', ?_, hw⟩
    rw [line_of_ok hc hf.ne_exit, hexec]
    rfl
  faulted step s' hline := by
    rcases s.line_cases b text with ⟨r, -, hl⟩ | ⟨-, hl⟩ |
      ⟨cmd, hc, ⟨out, f, u, hexec, hl⟩ | ⟨step', u, -, -, hl⟩⟩ <;> cases hl.symm.trans hline
    rw [hline] at hg
    obtain ⟨hb, name, base, x, rfl, hx, rfl⟩ := h.fault_cases hexec hg
    exact ⟨hb, ⟨name, base, hc⟩, rfl, allocators_setSession h.named hx _ _⟩
  others n hn := by
    cases hc : Command.ofLine text with
    | error e =>
      have hline : s.line b text = .more (.rejected e) s := by simp only [Shell.line, hc]
      exact hline ▸ .refl s n
    | ok cmd =>
      rw [shell_line hc] at hg ⊢
      exact h.undisturbed_execute cmd (hn cmd hc) hg

/-- **A line is confined to the session that it names**, and a command that fails
changes nothing: at every prompt, in either build and whatever the lines before were, if
the resource keeps its part. -/
theorem Course.line_confined_to_session {r : ρ} {lines : List String}
    (h : Course b r lines false s tabs) (text : String)
    (hg : Honoured (s.line b text).shell.world.events) : s.Confined b text := by
  exact (h.solvent (honoured_of_line hg)).confined_line text hg

/-- Each name with the number of blocks that its session lists. -/
def listed (s : Shell ρ) : List (String × Nat) :=
  s.sessions.map fun e => (e.1, e.2.blocks.entries.length)

/-- The sample's stack has no room for a block of two million bytes, and has room for one of
eight. Both lines are confined, as any other is: the first changes nothing, the second the
stack alone. -/
theorem line_confined_to_session_sampleLines : ∃ (s : Shell Pool) (tabs : Tabs),
    Course .debug (Pool.ofSize 0x100000) sampleLines false s tabs ∧
      s.listed = [("h", 2), ("s", 1), ("a", 0)] ∧
      (s.line .debug "alloc --allocator s --size 8").shell.listed =
        [("h", 2), ("s", 2), ("a", 0)] ∧
      s.Fails .debug (.alloc "s" 0x200000 16) (explain .outOfMemory) ∧
      ∀ text, s.Confined .debug text := by
  have hp : (Pool.ofSize 0x100000).Seated := by decide +kernel
  have hprompt : ((start (Pool.ofSize 0x100000)).track .debug .empty sampleLines).map (fun q =>
        (q.1.listed, (q.1.line .debug "alloc --allocator s --size 8").shell.listed,
          (q.1.session? "s").bind fun x =>
            (q.1.request? (.alloc "s" 0x200000 16)).map fun e =>
              match Restriction.perform .debug [] e.2 ⟨x.allocator, q.1.world⟩ with
              | .error (.refused r) _ => (e.1, some r)
              | _ => (e.1, none))) =
      some ([("h", 2), ("s", 1), ("a", 0)], [("h", 2), ("s", 2), ("a", 0)],
        some ("s", some .outOfMemory)) := by decide +kernel
  obtain ⟨⟨s, roll⟩, ht, hs⟩ := Option.map_eq_some_iff.1 hprompt
  simp only [Prod.mk.injEq] at hs
  obtain ⟨hnow, hnext, hcall⟩ := hs
  obtain ⟨x, hx, hcall⟩ := Option.bind_eq_some_iff.1 hcall
  obtain ⟨⟨name, call⟩, hr, hcall⟩ := Option.map_eq_some_iff.1 hcall
  obtain ⟨tabs, hcourse⟩ := Course.start.track ht
  have hfails : s.Fails .debug (.alloc "s" 0x200000 16) (explain .outOfMemory) := by
    split at hcall
    · next r u hdeclined =>
      cases hcall
      exact .declined hx hr hdeclined
    · cases hcall
  refine ⟨s, tabs, hcourse, hnow, hnext, hfails, fun text => ?_⟩
  exact hcourse.line_confined_to_session text (hp.ordinary_course (hcourse.line text)).honoured

end Shell

end Allocators
