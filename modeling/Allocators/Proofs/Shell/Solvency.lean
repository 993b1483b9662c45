import Allocators.Proofs.Shell.Keeping
import Allocators.Proofs.Shell.Record
import Allocators.Proofs.Shell.Sessions
/-!
# What each session has taken has been given back

The calls on the resource that a shell makes for a session are noted under its
name, on its tab (`Shell.charge`). A shell is solvent (`Shell.Solvent`) if its
sessions list live blocks, their allocators are in a state that calls within the
agreement lead to, the tab of each session is what was called for its allocator,
and under a name without a session everything taken has been given back. Every
command leaves a solvent shell solvent, also one that a fault ends
(`Shell.Solvent.execute`), and the sessions of a solvent shell can all be closed,
with nothing left to give back (`Shell.Solvent.closes`).
-/

namespace Allocators

open Trace

/-- For each name the calls on the resource that were made for its session,
latest first: what was taken for it and what was given back. -/
abbrev Tabs := String → Trace

/-- The name that a command is about. -/
def Command.subject? : Command → Option String
  | .create name _ _ _ => some name
  | .delete name => some name
  | .alloc name _ _ => some name
  | .realloc name _ _ => some name
  | .free name _ => some name
  | .clear name => some name
  | .features name => some name
  | .print name => name
  | .exit => none

/-- A session under its name, with its allocator and the live blocks of that
as one of those over the shell's resource. -/
structure Lodger where
  name : String
  session : Session
  tenant : Tenant

/-- As the shell has it. -/
def Lodger.entry (p : Lodger) : String × Session := (p.name, p.session)

namespace Shell

variable {ρ : Type}

/-- The tabs after a command that led to this shell: what it called goes on the tab
of the name that it was about, and that tab is a new one if there was no session. -/
def charge (s : Shell ρ) (tabs : Tabs) (cmd : Command) (s' : Shell ρ) : Tabs :=
  match cmd.subject? with
  | none => tabs
  | some name =>
    let made := since s.world.events s'.world.events
    Function.update tabs name <|
      match s.session? name with
      | none => made
      | some _ => made ++ tabs name

section Sessions

variable {s : Shell ρ} {name : String} {x : Session} {as bs : List (String × Session)}

/-- One session is replaced, whatever their order. -/
theorem perm_setSession (hne : ∀ e ∈ as ++ bs, e.1 ≠ name)
    (hp : (as ++ (name, x) :: bs).Perm s.sessions) (y : Session) (w' : World ρ) :
    (as ++ (name, y) :: bs).Perm (s.setSession name y w').sessions := by
  have hset := setSession_split (x := x) (w := s.world) hne y w'
  have hmap : (setSession ⟨as ++ (name, x) :: bs, s.world⟩ name y w').sessions.Perm
      (s.setSession name y w').sessions := hp.map _
  rw [hset] at hmap
  exact hmap

/-- Or left out. -/
theorem perm_removeSession (hne : ∀ e ∈ as ++ bs, e.1 ≠ name)
    (hp : (as ++ (name, x) :: bs).Perm s.sessions) (w' : World ρ) :
    (as ++ bs).Perm (s.removeSession name w').sessions := by
  have hdrop := removeSession_split (x := x) (w := s.world) hne w'
  have hfilter : (removeSession ⟨as ++ (name, x) :: bs, s.world⟩ name w').sessions.Perm
      (s.removeSession name w').sessions := hp.filter _
  rw [hdrop] at hfilter
  exact hfilter

end Sessions

/-! ## Sessions with their tabs -/

variable [Resource ρ] {b : Build}

/-- These sessions list live blocks, their allocators are in a state that calls
within the agreement lead to, the tab of each is what was called for it, and on the
other tabs everything taken has been given back. -/
structure Lodged (b : Build) (w : World ρ) (tabs : Tabs) (ls : List Lodger) : Prop where
  named : (ls.map Lodger.name).Nodup
  estate : Estate.Reachable b ⟨w, ls.map Lodger.tenant, []⟩
  kept : ∀ p ∈ ls, p.session.Kept p.tenant.toCustody
  made : ∀ p ∈ ls, tabs p.name = p.tenant.made
  gone : ∀ name, name ∉ ls.map Lodger.name → Settled (tabs name)

/-- The shell's sessions are such, in any order, so that everything taken for a
session that has ended has been given back. -/
def Solvent (b : Build) (s : Shell ρ) (tabs : Tabs) : Prop :=
  ∃ ls, Lodged b s.world tabs ls ∧ (ls.map Lodger.entry).Perm s.sessions

namespace Lodged

variable {w w' : World ρ} {tabs : Tabs} {ls before after : List Lodger} {p : Lodger}
variable {name : String} {x : Session} {t : Tenant} {es : Trace}

/-- One name put first. -/
theorem perm_name (before after : List Lodger) (p : Lodger) :
    ((before ++ p :: after).map Lodger.name).Perm
      (p.name :: (before ++ after).map Lodger.name) := List.perm_middle.map _

/-- The others have other names. -/
theorem others (h : Lodged b w tabs (before ++ p :: after)) :
    ∀ q ∈ before ++ after, q ∈ before ++ p :: after ∧ q.name ≠ p.name := by
  have hnot := (List.nodup_cons.1 ((perm_name before after p).nodup_iff.1 h.named)).1
  intro q hq
  refine ⟨List.perm_middle.mem_iff.2 (List.mem_cons_of_mem _ hq), fun heq => ?_⟩
  exact hnot (heq ▸ List.mem_map_of_mem hq)

/-- The allocators, with that of one session among the others. -/
theorem reachable (h : Lodged b w tabs (before ++ p :: after)) : Estate.Reachable b
    ⟨w, before.map Lodger.tenant ++ p.tenant :: after.map Lodger.tenant, []⟩ := by
  have hestate := h.estate
  rw [List.map_append, List.map_cons] at hestate
  exact hestate

/-- **A session closes**, and then everything on its tab has been given back. -/
theorem close (h : Lodged b w tabs (before ++ p :: after)) :
    ∃ w', p.session.close b w = (none, w') ∧
      Estate.Reachable b ⟨w', before.map Lodger.tenant ++ after.map Lodger.tenant, []⟩ ∧
      Settled (since w.events w'.events ++ tabs p.name) := by
  have hmem : p ∈ before ++ p :: after := by simp
  obtain ⟨w', hclose, hr, -, hsettled⟩ := (h.kept p hmem).close h.reachable
  rw [← h.made p hmem] at hsettled
  exact ⟨w', hclose, hr, hsettled⟩

/-- **A session goes on**, with its blocks and its allocator as they are now. -/
theorem put (h : Lodged b w tabs (before ++ p :: after)) (hx : x.Kept t.toCustody)
    (hr : Estate.Reachable b
      ⟨w', before.map Lodger.tenant ++ t :: after.map Lodger.tenant, []⟩) :
    Lodged b w' (Function.update tabs p.name t.made) (before ++ ⟨p.name, x, t⟩ :: after) := by
  have hnames : (before ++ ⟨p.name, x, t⟩ :: after).map Lodger.name =
      (before ++ p :: after).map Lodger.name := by
    simp only [List.map_append, List.map_cons]
  refine ⟨hnames ▸ h.named, ?_, fun q hq => ?_, fun q hq => ?_, fun n hn => ?_⟩
  · rw [List.map_append, List.map_cons]
    exact hr
  · rcases List.mem_cons.1 (List.perm_middle.mem_iff.1 hq) with rfl | hq
    · exact hx
    · exact h.kept q (h.others q hq).1
  · rcases List.mem_cons.1 (List.perm_middle.mem_iff.1 hq) with rfl | hq
    · exact Function.update_self ..
    · obtain ⟨hmem, hne⟩ := h.others q hq
      rw [Function.update_of_ne hne]
      exact h.made q hmem
  · rw [hnames] at hn
    have hne : n ≠ p.name := fun heq => hn (heq ▸ List.mem_map_of_mem (by simp))
    rw [Function.update_of_ne hne]
    exact h.gone n hn

/-- **A session is left out**, with everything on its tab given back. -/
theorem drop (h : Lodged b w tabs (before ++ p :: after)) (he : Settled es)
    (hr : Estate.Reachable b ⟨w', before.map Lodger.tenant ++ after.map Lodger.tenant, []⟩) :
    Lodged b w' (Function.update tabs p.name es) (before ++ after) := by
  have hsplit := perm_name before after p
  refine ⟨(List.nodup_cons.1 (hsplit.nodup_iff.1 h.named)).2, ?_,
    fun q hq => h.kept q (h.others q hq).1, fun q hq => ?_, fun n hn => ?_⟩
  · rw [List.map_append]
    exact hr
  · obtain ⟨hmem, hne⟩ := h.others q hq
    rw [Function.update_of_ne hne]
    exact h.made q hmem
  · by_cases hne : n = p.name
    · rw [hne, Function.update_self]
      exact he
    · rw [Function.update_of_ne hne]
      have hnot : n ∉ p.name :: (before ++ after).map Lodger.name := fun hm =>
        (List.mem_cons.1 hm).elim hne hn
      exact h.gone n fun hm => hnot (hsplit.mem_iff.1 hm)

/-- **A session is made**, and its tab is a new one. -/
theorem add (h : Lodged b w tabs ls) (hn : name ∉ ls.map Lodger.name) (hx : x.Kept t.toCustody)
    (hr : Estate.Reachable b ⟨w', t :: ls.map Lodger.tenant, []⟩) :
    Lodged b w' (Function.update tabs name t.made) (⟨name, x, t⟩ :: ls) := by
  refine ⟨List.nodup_cons.2 ⟨hn, h.named⟩, hr, fun q hq => ?_, fun q hq => ?_, fun n hnot => ?_⟩
  · rcases List.mem_cons.1 hq with rfl | hq
    · exact hx
    · exact h.kept q hq
  · rcases List.mem_cons.1 hq with rfl | hq
    · exact Function.update_self ..
    · have hne : q.name ≠ name := fun heq => hn (heq ▸ List.mem_map_of_mem hq)
      rw [Function.update_of_ne hne]
      exact h.made q hq
  · obtain ⟨hne, hnot⟩ := not_or.1 fun hor => hnot (List.mem_cons.2 hor)
    rw [Function.update_of_ne hne]
    exact h.gone n hnot

/-- No session could be made, and everything on the tab has been given back. -/
theorem settle (h : Lodged b w tabs ls) (hn : name ∉ ls.map Lodger.name) (he : Settled es)
    (hr : Estate.Reachable b ⟨w', ls.map Lodger.tenant, []⟩) :
    Lodged b w' (Function.update tabs name es) ls := by
  refine ⟨h.named, hr, h.kept, fun q hq => ?_, fun n hnot => ?_⟩
  · have hne : q.name ≠ name := fun heq => hn (heq ▸ List.mem_map_of_mem hq)
    rw [Function.update_of_ne hne]
    exact h.made q hq
  · by_cases hne : n = name
    · rw [hne, Function.update_self]
      exact he
    · rw [Function.update_of_ne hne]
      exact h.gone n hnot

end Lodged

namespace Solvent

variable {s s' : Shell ρ} {tabs : Tabs} {name : String} {x y : Session} {w' : World ρ}
variable {ls before after : List Lodger} {p : Lodger}

omit [Resource ρ] in
/-- A name has no session if it is none of theirs. -/
theorem not_mem_of_session? (hp : (ls.map Lodger.entry).Perm s.sessions)
    (hx : s.session? name = none) : name ∉ ls.map Lodger.name := by
  intro hm
  obtain ⟨p, hmem, rfl⟩ := List.mem_map.1 hm
  have he : p.entry ∈ s.sessions := hp.mem_iff.1 (List.mem_map_of_mem hmem)
  exact session?_eq_none_iff.1 hx p.entry he rfl

/-- **The session of a name is one of them.** -/
theorem focus (h : s.Solvent b tabs) (hx : s.session? name = some x) :
    ∃ before p after, Lodged b s.world tabs (before ++ p :: after) ∧
      ((before ++ p :: after).map Lodger.entry).Perm s.sessions ∧ p.name = name ∧
      p.session = x := by
  obtain ⟨ls, hl, hp⟩ := h
  obtain ⟨p, hmem, heq⟩ := List.mem_map.1 (hp.mem_iff.2 (mem_of_session? hx))
  obtain ⟨before, after, rfl⟩ := List.append_of_mem hmem
  obtain ⟨rfl, rfl⟩ := Prod.mk.inj heq
  exact ⟨before, p, after, hl, hp, rfl, rfl⟩

/-- The others in the shell have other names. -/
theorem apart (hl : Lodged b s.world tabs (before ++ p :: after)) :
    ∀ e ∈ before.map Lodger.entry ++ after.map Lodger.entry, e.1 ≠ p.name := by
  intro e he
  rw [← List.map_append] at he
  obtain ⟨q, hq, rfl⟩ := List.mem_map.1 he
  exact (hl.others q hq).2

/-- **The session is put back.** -/
theorem set (hl : Lodged b s.world tabs (before ++ p :: after))
    (hp : ((before ++ p :: after).map Lodger.entry).Perm s.sessions) {t : Tenant}
    (hy : y.Kept t.toCustody)
    (hr : Estate.Reachable b
      ⟨w', before.map Lodger.tenant ++ t :: after.map Lodger.tenant, []⟩) :
    (s.setSession p.name y w').Solvent b (Function.update tabs p.name t.made) := by
  refine ⟨_, hl.put hy hr, ?_⟩
  rw [List.map_append, List.map_cons] at hp ⊢
  exact perm_setSession (apart hl) hp y w'

/-- **The session is left out.** -/
theorem remove (hl : Lodged b s.world tabs (before ++ p :: after))
    (hp : ((before ++ p :: after).map Lodger.entry).Perm s.sessions) {es : Trace}
    (he : Settled es)
    (hr : Estate.Reachable b ⟨w', before.map Lodger.tenant ++ after.map Lodger.tenant, []⟩) :
    (s.removeSession p.name w').Solvent b (Function.update tabs p.name es) := by
  refine ⟨_, hl.drop he hr, ?_⟩
  rw [List.map_append, List.map_cons] at hp
  rw [List.map_append]
  exact perm_removeSession (apart hl) hp w'

end Solvent

/-! ## Tabs -/

section Tabs

variable {s s' : Shell ρ} {tabs : Tabs} {name : String} {x : Session} {cmd : Command}

omit [Resource ρ] in
/-- The tab of a name without a session is a new one. -/
theorem charge_of_none (hc : cmd.subject? = some name) (hx : s.session? name = none) :
    s.charge tabs cmd s' = Function.update tabs name (since s.world.events s'.world.events) := by
  simp only [charge, hc, hx]

omit [Resource ρ] in
/-- What is called for a session goes on the tab. -/
theorem charge_of_some (hc : cmd.subject? = some name) (hx : s.session? name = some x) :
    s.charge tabs cmd s' =
      Function.update tabs name (since s.world.events s'.world.events ++ tabs name) := by
  simp only [charge, hc, hx]

/-- A command that leaves the shell as it is leaves it solvent. -/
theorem Solvent.idle (h : s.Solvent b tabs) (cmd : Command) :
    s.Solvent b (s.charge tabs cmd s) := by
  have hsince : since s.world.events s.world.events = [] := since_of_calls_eq rfl
  cases hc : cmd.subject? with
  | none =>
    simp only [charge, hc]
    exact h
  | some name =>
    cases hx : s.session? name with
    | none =>
      obtain ⟨ls, hl, hp⟩ := h
      rw [charge_of_none hc hx, hsince]
      exact ⟨ls, hl.settle (Solvent.not_mem_of_session? hp hx) Accounts.nil.settled hl.estate, hp⟩
    | some x =>
      rw [charge_of_some hc hx, hsince, List.nil_append, Function.update_eq_self]
      exact h

end Tabs

/-! ## Commands -/

section Commands

variable {s : Shell ρ} {tabs : Tabs} {name : String} {x : Session} {cmd : Command}

omit [Resource ρ] in
/-- **A call on a session** is answered or fails, and the session is as that leaves
it. -/
theorem call_cases {α : Type} (s : Shell ρ) (name : String) (x : Session)
    (action : Action Allocator ρ α) (blocks : α → Ledger) (out : α → String) :
    (∃ a u, action ⟨x.allocator, s.world⟩ = .ok a u ∧ (s.call name x action blocks out).2 =
      s.setSession name ⟨u.allocator, blocks a⟩ u.world) ∨
    ∃ e u, action ⟨x.allocator, s.world⟩ = .error e u ∧ (s.call name x action blocks out).2 =
      s.setSession name ⟨u.allocator, x.blocks⟩ u.world := by
  cases h : action ⟨x.allocator, s.world⟩ with
  | ok a u => exact Or.inl ⟨a, u, rfl, by rw [call_of_ok h]; rfl⟩
  | error e u =>
    cases e with
    | refused r => exact Or.inr ⟨_, u, rfl, by rw [call_of_refused h]; rfl⟩
    | fault f => exact Or.inr ⟨_, u, rfl, by rw [call_of_fault h]⟩

/-- A command about a session leaves the shell solvent if it does where there is
the session; without one nothing happens. -/
theorem Solvent.onSession (h : s.Solvent b tabs) {f : Session → ShellStep × Shell ρ}
    (hsome : ∀ x, s.session? name = some x → Honoured (f x).2.world.events →
      (f x).2.Solvent b (s.charge tabs cmd (f x).2))
    (hg : Honoured (s.onSession name f).2.world.events) :
    (s.onSession name f).2.Solvent b (s.charge tabs cmd (s.onSession name f).2) := by
  unfold Shell.onSession at hg ⊢
  cases hx : s.session? name with
  | none => exact h.idle cmd
  | some x =>
    rw [hx] at hg
    exact hsome x hx hg

/-- **A call leaves the shell solvent**, whether it is answered or fails, if it is
about live blocks and leaves its session kept. -/
theorem Solvent.call (h : s.Solvent b tabs) (hx : s.session? name = some x)
    (hc : cmd.subject? = some name) (call : Call) {α : Type} {action : Action Allocator ρ α}
    {g : α → Reply} {left : Ledger} {blocks : α → Ledger} {out : α → String}
    (hp : Restriction.perform b [] call = g <$> action)
    (hlaw : ∀ c, x.Kept c → c.Allows (.call call))
    (hok : ∀ c k a u, x.Stands b s.world c → action ⟨c.allocator, s.world⟩ = .ok a ⟨k, u⟩ →
      k.isHeap = c.allocator.isHeap → (c.answered k call (g a)).Distinct →
        Session.Kept ⟨k, blocks a⟩ (c.answered k call (g a)))
    (hno : ∀ c k e u, x.Stands b s.world c → action ⟨c.allocator, s.world⟩ = .error e ⟨k, u⟩ →
      k.isHeap = c.allocator.isHeap → Session.Kept ⟨k, left⟩ (c.failed k call))
    (hg : Honoured (s.call name { x with blocks := left } action blocks out).2.world.events) :
    (s.call name { x with blocks := left } action blocks out).2.Solvent b
      (s.charge tabs cmd (s.call name { x with blocks := left } action blocks out).2) := by
  rw [charge_of_some hc hx]
  obtain ⟨before, p, after, hl, hperm, rfl, rfl⟩ := h.focus hx
  have hestate := hl.reachable
  have hkept := hl.kept p (by simp)
  have hs := hestate.sound.sound p.tenant (by simp)
  have hrest := hestate.sound.accounts_tenant (t := p.tenant) (by simp)
  have hstands : p.session.Stands b s.world p.tenant.toCustody := ⟨hkept, hs, hrest⟩
  obtain ⟨rest, ha⟩ := hrest
  -- the deed that the call is, with what it leaves of the session
  obtain ⟨reply, c', w', y, hact, hcall, hy⟩ : ∃ reply c' w' y,
      Custody.act b (.call call) ⟨p.tenant.toCustody, s.world⟩ = Action.ending reply ⟨c', w'⟩ ∧
      (s.call p.name { p.session with blocks := left } action blocks out).2 =
        s.setSession p.name y w' ∧
      (c'.allocator.isHeap = p.tenant.allocator.isHeap → c'.Distinct → y.Kept c') := by
    rcases s.call_cases p.name { p.session with blocks := left } action blocks out with
      ⟨a, u, hdone, hcall⟩ | ⟨e, u, hdone, hcall⟩ <;> rw [hkept.allocator] at hdone
    · refine ⟨.ok (g a), _, u.world, _, Custody.act_of_map_ok hp hdone, hcall, fun hk hd => ?_⟩
      rw [Custody.allocator_answered] at hk
      exact hok _ _ a _ hstands hdone hk hd
    · refine ⟨.error e, _, u.world, _, Custody.act_of_map_error hp hdone, hcall, fun hk _ => ?_⟩
      rw [Custody.allocator_failed] at hk
      exact hno _ _ e _ hstands hdone hk
  rw [hcall] at hg ⊢
  have hlawful := hlaw p.tenant.toCustody hkept
  have hu := (Custody.ends_act hs ha hlawful).elim hact hg
  have hr' := hestate.step (.acted rfl hlawful hact hg)
  have hset := Solvent.set hl hperm (hy hu.kind (hu.sound.distinct hu.accounts)) hr'
  rw [hl.made p (by simp)]
  exact hset

/-- A block is taken, or not. -/
theorem Solvent.alloc (h : s.Solvent b tabs) (name : String) (size align : Nat)
    (hg : Honoured (s.alloc b name size align).2.world.events) :
    (s.alloc b name size align).2.Solvent b
      (s.charge tabs (.alloc name size align) (s.alloc b name size align).2) := by
  refine h.onSession (fun x hx hg => ?_) hg
  cases hl : Layout.ofSizeAlign? size align with
  | none => exact h.idle _
  | some l =>
    simp only [hl] at hg
    refine h.call hx rfl (.allocate l) (g := .block) rfl (fun _ _ => trivial)
      (fun c k a u hst hok hk hd => ?_) (fun c k e u hst _ hk => hst.kept.failed hk _) hg
    obtain ⟨hsize, halign, -⟩ := Layout.ofSizeAlign?_eq_some_iff.1 hl
    have hsame : a.size = l.size := Allocator.size_of_allocate hok
    have hentry : (Layout.ofSizeAlign? a.size align).getD l = l := by
      rw [hsame, hsize, hl]
      rfl
    rw [hentry]
    refine hst.kept.allocated hk hd ?_
    rw [hsame]
    rfl

/-- A block is resized, or not. -/
theorem Solvent.realloc (h : s.Solvent b tabs) (name : String) (base : Nat) (changes : Changes)
    (hg : Honoured (s.realloc b name base changes).2.world.events) :
    (s.realloc b name base changes).2.Solvent b
      (s.charge tabs (.realloc name base changes) (s.realloc b name base changes).2) := by
  refine h.onSession (fun x hx hg => ?_) hg
  cases hl : x.blocks.find? base with
  | none => exact h.idle _
  | some l =>
    let r := (Resize.ofBlock base l.size l.align).edits changes.edits
    simp only [hl] at hg
    -- the request is about the live block that the session has listed
    obtain ⟨haddr, hsize, halign⟩ :=
      Resize.edits_block (Resize.ofBlock base l.size l.align) changes.edits
    have hlive : ∀ c, x.Kept c → ∃ y ∈ c.live, r.Describes y.toBlock := by
      intro c hkept
      obtain ⟨y, hy, hyb⟩ := List.mem_map.1 (hkept.mem_of_find? hl)
      refine ⟨y, hy, ?_⟩
      rw [hyb]
      exact ⟨haddr, hsize, halign⟩
    refine h.call hx rfl (.reallocate r) (g := .resized) rfl hlive
      (fun c k a u hst hok hk hd => ?_) (fun c k e u hst _ hk => hst.kept.failed hk _) hg
    obtain ⟨y, hy, hdesc⟩ := hlive c hst.kept
    obtain ⟨rest, ha⟩ := hst.accounts
    have hnew := hst.kept.resized hk hst.distinct hy hdesc hd fun hheap =>
      Custody.exists_layout_of_reallocate hst.sound ha hheap hy hdesc hok
    rw [haddr, halign] at hnew
    exact hnew

/-- A block is freed, or left where it is, or a fault is found with that. -/
theorem Solvent.free (h : s.Solvent b tabs) (name : String) (base : Nat)
    (hg : Honoured (s.free b name base).2.world.events) :
    (s.free b name base).2.Solvent b
      (s.charge tabs (.free name base) (s.free b name base).2) := by
  refine h.onSession (fun x hx hg => ?_) hg
  cases hl : x.blocks.find? base with
  | none => exact h.idle _
  | some l =>
    simp only [hl] at hg
    have hlaw : ∀ c, x.Kept c → c.Allows (.call (.deallocate base l)) := by
      intro c hkept
      obtain ⟨y, hy, hyb⟩ := List.mem_map.1 (hkept.mem_of_find? hl)
      exact ⟨y, hy, hyb.symm⟩
    refine h.call hx rfl (.deallocate base l) (g := fun _ => .done) rfl hlaw
      (fun c k a u hst _ hk _ => hst.kept.freed hk hst.distinct (hst.kept.mem_of_find? hl))
      (fun c k e u hst hno hk => ?_) hg
    -- the block has been struck out, which a heap would have to know
    have hbuffer := hst.isHeap_of_deallocate (hst.kept.mem_of_find? hl) hno
    exact (hst.kept.erase hbuffer base).failed hk _

/-- An allocator is cleared, if it can be. -/
theorem Solvent.clear (h : s.Solvent b tabs) (name : String)
    (hg : Honoured (s.clear b name).2.world.events) :
    (s.clear b name).2.Solvent b (s.charge tabs (.clear name) (s.clear b name).2) := by
  refine h.onSession (fun x hx hg => ?_) hg
  by_cases hf : x.allocator.features.has .clearing = true
  · simp only [if_pos hf] at hg ⊢
    refine h.call hx rfl .clear (g := fun _ => .done) rfl (fun _ _ => trivial)
      (fun c k a u hst _ hk _ => hst.kept.cleared hk ?_)
      (fun c k e u hst _ hk => hst.kept.failed hk _) hg
    rw [← hst.kept.allocator]
    exact Allocator.isHeap_of_clearing hf
  · simp only [if_neg hf]
    exact h.idle _

/-- A session is made, or not. -/
theorem Solvent.create (h : s.Solvent b tabs) (name : String) (kind : KindChoice)
    (capacity : Nat) (zeroed : Bool)
    (hg : Honoured (s.create name kind capacity zeroed).2.world.events) :
    (s.create name kind capacity zeroed).2.Solvent b
      (s.charge tabs (.create name kind capacity zeroed)
        (s.create name kind capacity zeroed).2) := by
  unfold Shell.create at hg ⊢
  cases hx : s.session? name with
  | some x => exact h.idle _
  | none =>
    simp only [hx] at hg
    obtain ⟨ls, hl, hp⟩ := h
    have hnot := Solvent.not_mem_of_session? hp hx
    rw [charge_of_none rfl hx]
    rcases hc : Allocator.create (kind.toKind zeroed) name capacity s.world with ⟨r | k, w⟩
    · simp only [hc] at hg ⊢
      -- what was asked for in vain is on a tab that nobody owes
      have hr' := hl.estate.step (.declined hc hg)
      refine ⟨ls, hl.settle hnot (Accounts.settled ?_) hr', hp⟩
      exact Custody.accounts_declined hc
    · simp only [hc] at hg ⊢
      have hr' := hl.estate.step (.opened hc hg)
      have hkept : Session.Kept ⟨k, .empty⟩ (.opened k) :=
        ⟨rfl, rfl, fun _ => nofun, fun _ => Ledger.lists_empty⟩
      refine ⟨_, hl.add hnot hkept hr', ?_⟩
      exact (hp.cons _).trans (List.perm_append_singleton _ _).symm

/-- A session is ended, and everything on its tab has been given back. -/
theorem Solvent.delete (h : s.Solvent b tabs) (name : String)
    (hg : Honoured (s.delete b name).2.world.events) :
    (s.delete b name).2.Solvent b (s.charge tabs (.delete name) (s.delete b name).2) := by
  refine h.onSession (fun x hx _ => ?_) hg
  rw [charge_of_some rfl hx]
  obtain ⟨before, p, after, hl, hperm, rfl, rfl⟩ := h.focus hx
  obtain ⟨w', hclose, hr', hsettled⟩ := hl.close
  simp only [hclose]
  exact Solvent.remove hl hperm hsettled hr'

/-- **Every command leaves a solvent shell solvent**, whatever it comes to. -/
theorem Solvent.execute (h : s.Solvent b tabs) (cmd : Command)
    (hg : Honoured (s.execute b cmd).2.world.events) :
    (s.execute b cmd).2.Solvent b (s.charge tabs cmd (s.execute b cmd).2) := by
  have htext : ∀ cmd out, (s.printingText out).2.Solvent b
      (s.charge tabs cmd (s.printingText out).2) := by
    intro cmd out
    unfold printingText
    split <;> exact h.idle cmd
  cases cmd with
  | create name kind capacity zeroed => exact h.create name kind capacity zeroed hg
  | delete name => exact h.delete name hg
  | alloc name size align => exact h.alloc name size align hg
  | realloc name base changes => exact h.realloc name base changes hg
  | free name base => exact h.free name base hg
  | clear name => exact h.clear name hg
  | features name => exact h.onSession (fun x hx _ => h.idle _) hg
  | print name =>
    cases name with
    | none =>
      show (s.printAll b).2.Solvent b (s.charge tabs (.print none) (s.printAll b).2)
      unfold printAll
      split
      · exact h.idle _
      · exact htext _ _
    | some name => exact h.onSession (fun x hx _ => htext _ _) hg
  | exit => exact h.idle .exit

end Commands

/-! ## Closing -/

/-- **The sessions of a solvent shell can all be closed.** No fault is found, and
everything the resource has handed out has been given back then. -/
theorem Solvent.closes {s : Shell ρ} {tabs : Tabs} (h : s.Solvent b tabs) :
    (∀ f ∈ findings b s.world s.sessions, f = none) ∧
      Settled (closeAll b s.world s.sessions).events := by
  obtain ⟨sessions, w⟩ := s
  induction sessions generalizing w tabs with
  | nil =>
    obtain ⟨ls, hl, hp⟩ := h
    obtain rfl : ls = [] := List.map_eq_nil_iff.1 hp.eq_nil
    exact ⟨nofun, hl.estate.sound.accounts.settled⟩
  | cons e es ih =>
    obtain ⟨ls, hl, hp⟩ := h
    obtain ⟨p, hmem, rfl⟩ := List.mem_map.1 (hp.mem_iff.2 List.mem_cons_self)
    obtain ⟨before, after, rfl⟩ := List.append_of_mem hmem
    obtain ⟨w', hclose, hr', hsettled⟩ := hl.close
    have hrest : ((before ++ after).map Lodger.entry).Perm es :=
      ((List.perm_middle.map Lodger.entry).symm.trans hp).cons_inv
    obtain ⟨hnone, hsettles⟩ := ih w' ⟨_, hl.drop hsettled hr', hrest⟩
    have hworld : (p.entry.2.close b w).2 = w' := congrArg Prod.snd hclose
    refine ⟨fun f hf => ?_, ?_⟩
    · rcases List.mem_cons.1 hf with rfl | hf
      · exact congrArg Prod.fst hclose
      · rw [hworld] at hf
        exact hnone f hf
    · show Settled (closeAll b (p.entry.2.close b w).2 es).events
      rw [hworld]
      exact hsettles

end Shell

end Allocators
