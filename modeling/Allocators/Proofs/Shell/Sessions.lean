import Allocators.Proofs.Shell.Commands
import Allocators.Proofs.Shell.Endings
/-!
# Sessions that come and go

A session that lists its live blocks ends without a fault and leaves nothing
behind (`Session.Booked.close`). When all sessions have ended, in any order,
whatever the resource has handed out has been given back
(`Shell.InOrder.settles`).
-/

namespace Allocators

open Trace

/-! ## Ending a session -/

/-- A session that lists the live blocks is kept. -/
theorem Session.Booked.kept {x : Session} {c : Custody} (hx : x.Booked c) : x.Kept c where
  allocator := hx.allocator
  pending := hx.pending
  live _ hy := hx.lists.mem_iff.1 hy
  all _ := hx.lists

/-- **A session that lists the live blocks ends without a fault** and leaves
nothing behind. -/
theorem Session.Booked.close {ρ : Type} [Resource ρ] {w : World ρ} {before after : List Tenant}
    {t : Tenant} {x : Session} (hx : x.Booked t.toCustody)
    (hr : Estate.Reachable .debug ⟨w, before ++ t :: after, []⟩) (ho : Ordinary w.events) :
    ∃ w', x.close .debug w = (none, w') ∧ Estate.Reachable .debug ⟨w', before ++ after, []⟩ ∧
      Ordinary w'.events := by
  obtain ⟨w', hclose, hr', hback, -⟩ := hx.kept.close hr
  exact ⟨w', hclose, hr', ho.of_calls hback⟩

namespace Shell

variable {ρ : Type}

/-- What is found while sessions are closed one after another. -/
def findings [Resource ρ] (b : Build) (w : World ρ) : List (String × Session) → List (Option Fault)
  | [] => []
  | e :: rest => (e.2.close b w).1 :: findings b (e.2.close b w).2 rest

variable [Resource ρ] {s : Shell ρ} {roll : Roll} {name : String}

/-- **The sessions of a shell in order can all be closed.** No fault is found, and
whatever the resource has handed out has been given back then. -/
theorem InOrder.settles (h : s.InOrder roll) :
    (∀ f ∈ findings .debug s.world s.sessions, f = none) ∧
      outstanding (closeAll .debug s.world s.sessions).events = [] := by
  obtain ⟨sessions, w⟩ := s
  induction sessions generalizing w roll with
  | nil =>
    obtain ⟨tenants, hr, hp⟩ := h.estate
    obtain rfl : tenants = [] := List.map_eq_nil_iff.1 hp.eq_nil
    exact ⟨nofun, (hr.sound.accounts.perm).eq_nil⟩
  | cons e es ih =>
    obtain ⟨name, x⟩ := e
    have hfirst : InOrder ⟨[] ++ (name, x) :: es, w⟩ roll := h
    obtain ⟨before, after, t, hothers, hr, -, hbook⟩ := hfirst.focus_split
    obtain ⟨w', hclose, hr', ho'⟩ := hbook.close hr h.ordinary
    obtain ⟨hnone, hout⟩ := ih w' (hothers.drop ho' hr')
    have hworld : (x.close .debug w).2 = w' := by rw [hclose]
    refine ⟨fun f hf => ?_, ?_⟩
    · rcases List.mem_cons.1 hf with rfl | hf
      · rw [hclose]
      · rw [hworld] at hf
        exact hnone f hf
    · show outstanding (closeAll .debug (x.close .debug w).2 es).events = []
      rw [hworld]
      exact hout

/-! ## Commands that make and end sessions -/

/-- A session is made, or not. -/
theorem InOrder.carried_create (h : s.InOrder roll) (name : String) (kind : KindChoice)
    (capacity : Nat) (zeroed : Bool)
    (ho : Ordinary (s.create name kind capacity zeroed).2.world.events) :
    Carried (s.create name kind capacity zeroed)
      (s.rollAfter .debug roll (.create name kind capacity zeroed)) := by
  simp only [rollAfter]
  unfold create at ho ⊢
  cases hx : s.session? name with
  | some x => exact carried_printing h _
  | none =>
    rw [hx] at ho
    obtain ⟨tenants, hothers, hr⟩ := h.others hx
    cases hc : Allocator.create (kind.toKind zeroed) name capacity s.world with
    | mk out w =>
      rw [hc] at ho
      cases out with
      | error r =>
        have hr' := hr.step (.declined hc ho.honoured)
        have hdrop := hothers.drop ho hr'
        rw [List.append_nil] at hdrop
        exact ⟨⟨_, rfl⟩, hdrop⟩
      | ok k =>
        have hr' := hr.step (.opened hc ho.honoured)
        have hbook : Session.Booked ⟨k, .empty⟩ (.opened k) := ⟨rfl, rfl, Ledger.lists_empty⟩
        exact ⟨⟨_, rfl⟩, hothers.put ho hr' hbook⟩

/-- A session is ended. -/
theorem InOrder.carried_delete (h : s.InOrder roll) (name : String) :
    Carried (s.delete .debug name) (s.rollAfter .debug roll (.delete name)) := by
  simp only [rollAfter]
  unfold delete onSession
  cases hx : s.session? name with
  | none =>
    rw [Roll.set_eq_self (h.roll_eq_none hx)]
    exact carried_printing h _
  | some x =>
    obtain ⟨as, bs, w, before, after, t, rfl, hothers, hr, -, hbook⟩ := h.focus hx
    obtain ⟨w', hclose, hr', ho'⟩ := hbook.close hr h.ordinary
    simp only [hclose, removeSession_split hothers.apart]
    exact ⟨⟨_, rfl⟩, hothers.drop ho' hr'⟩

/-! ## Commands that print -/

omit [Resource ρ] in
/-- What is told of each of them can be told of all. -/
theorem exists_mapM_ok {α β : Type} {f : α → Except Failure β} {as : List α}
    (h : ∀ a ∈ as, ∃ b, f a = .ok b) : ∃ bs, as.mapM f = .ok bs := by
  induction as with
  | nil => exact ⟨[], rfl⟩
  | cons a as ih =>
    obtain ⟨b, hb⟩ := h a List.mem_cons_self
    obtain ⟨bs, hbs⟩ := ih fun a' ha' => h a' (List.mem_cons_of_mem _ ha')
    refine ⟨b :: bs, ?_⟩
    rw [List.mapM_cons, hb, hbs]
    rfl

/-- **If every allocator tells its text, so does a command that prints**, of one session
or of all. -/
theorem execute_print {b : Build}
    (h : ∀ e ∈ s.sessions, ∃ t, allocatorText b s.world e.2.allocator = .ok t)
    (name : Option String) : ∃ out, s.execute b (.print name) = s.printing out := by
  cases name with
  | none =>
    show ∃ out, s.printAll b = s.printing out
    unfold printAll
    split
    · exact ⟨_, rfl⟩
    · obtain ⟨ts, hts⟩ := exists_mapM_ok h
      simp only [hts]
      exact ⟨_, rfl⟩
  | some name =>
    show ∃ out, s.printOne b name = s.printing out
    unfold printOne onSession
    cases hx : s.session? name with
    | none => exact ⟨_, rfl⟩
    | some x =>
      obtain ⟨t, ht⟩ := h _ (mem_of_session? hx)
      simp only [ht]
      exact ⟨_, rfl⟩

/-- The allocator of a session tells its text. -/
theorem InOrder.text_ok (h : s.InOrder roll) {e : String × Session} (he : e ∈ s.sessions) :
    ∃ t, e.2.allocator.text .debug s.world.memory = .ok t := by
  obtain ⟨as, bs, hs⟩ := List.append_of_mem he
  obtain ⟨sessions, w⟩ := s
  obtain rfl : sessions = as ++ e :: bs := hs
  obtain ⟨before, after, t, -, hr, -, hbook⟩ := h.focus_split
  rw [hbook.allocator]
  exact (hr.sound.noFault (t := t) (by simp)).text

/-- On lines of its own too. -/
theorem InOrder.allocatorText_ok (h : s.InOrder roll) {e : String × Session}
    (he : e ∈ s.sessions) : ∃ t, allocatorText .debug s.world e.2.allocator = .ok t := by
  obtain ⟨t, ht⟩ := h.text_ok he
  exact ⟨t ++ "\n", by simp only [allocatorText, ht]; rfl⟩

/-- What one session's allocator and blocks are, or what all sessions' allocators are, is
told. -/
theorem InOrder.carried_print (h : s.InOrder roll) (name : Option String) :
    Carried (s.execute .debug (.print name)) roll := by
  obtain ⟨out, hprint⟩ := execute_print (fun _ he => h.allocatorText_ok he) name
  exact hprint ▸ carried_printing h out

end Shell

end Allocators
