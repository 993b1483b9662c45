import Allocators.Proofs.Closure
import Allocators.Proofs.Estate
/-!
# An allocator's own account

One resource may serve many allocators. The calls that were made for one of
them are a history of their own, and a straight one: what is outstanding in it
is what the allocator answers for, and nothing was given back in it that had
not been taken in it (`Estate.Reachable.accounts_made`). For what an allocator
does depends on the resource and the memory, and not on what has happened
(`World.coupling_beside`), so every deed would have left its account straight
in a world in which nothing else had ever happened.
-/

namespace Allocators

open Trace

/-- The block that was handed out, if one was. -/
def Event.taken? : Event → Option Block
  | .taken l (some a) => some (Block.of a l)
  | _ => none

/-- The block that was given back, if one was. -/
def Event.given? : Event → Option Block
  | .given a l => some (Block.of a l)
  | _ => none

namespace Trace

variable {es es' es'' own new : Trace} {x : Block} {others fewer : List Block}

/-! ## Settled histories -/

/-- Everything that was taken has been given back, once and with the layout
that it was taken with. -/
structure Settled (es : Trace) : Prop where
  /-- What was given back was outstanding, with that layout. -/
  balanced : Balanced es
  /-- Nothing is outstanding any more. -/
  returned : outstanding es = []
  /-- Every block was given back as often as it was taken. -/
  matched : (es.filterMap Event.taken?).Perm (es.filterMap Event.given?)

/-- What was taken is still outstanding or was given back. -/
theorem Balanced.perm_taken (h : Balanced es) :
    (es.filterMap Event.taken?).Perm (outstanding es ++ es.filterMap Event.given?) := by
  induction es with
  | nil => exact .nil
  | cons e es ih =>
    rcases e with ⟨l, _ | a⟩ | ⟨a, l⟩ | _ | _
    · exact ih h
    · exact (ih h).cons _
    · -- the block moves from the ones to the others
      have hout := List.perm_cons_erase h.1
      exact (ih h.2).trans ((hout.append_right _).trans List.perm_middle.symm)
    · exact ih h
    · exact ih h

/-- Where nothing is held any more, everything has been given back. -/
theorem Accounts.settled (h : Accounts es []) : Settled es := by
  have hout : outstanding es = [] := h.perm.eq_nil
  have hp := h.balanced.perm_taken
  rw [hout] at hp
  exact ⟨h.balanced, hout, hp⟩

/-! ## A history beside another -/

/-- The calls that were added. -/
theorem since_eq (h : calls es' = new ++ calls es) : since es es' = new := by
  rw [since, h, List.length_append, Nat.add_sub_cancel, List.take_left]

/-- They are those among the events that were added. -/
theorem since_append (new es : Trace) : since es (new ++ es) = calls new :=
  since_eq (List.filter_append ..)

/-- To pick the calls out twice is to pick them out once. -/
theorem calls_calls_append (new es : Trace) : calls (calls new ++ es) = calls (new ++ es) := by
  simp only [calls, List.filter_append, List.filter_filter, Bool.and_self]

/-- What can be handed out beside some blocks can be beside fewer. -/
theorem Grantable.of_subset (h : Grantable x others) (hs : fewer ⊆ others) : Grantable x fewer :=
  ⟨h.pos, h.aligned, h.lt_size, fun y hy => h.apart y (hs hy)⟩

/-- If less is outstanding in one history than in another, less is when the same
has happened after both. -/
theorem subperm_outstanding (h : (outstanding own).Subperm (outstanding es)) (new : Trace) :
    (outstanding (new ++ own)).Subperm (outstanding (new ++ es)) := by
  induction new with
  | nil => exact h
  | cons e new ih =>
    rcases e with ⟨l, _ | a⟩ | ⟨a, l⟩ | _ | _
    · exact ih
    · exact (List.subperm_cons _).2 ih
    · exact ih.erase _
    · exact ih
    · exact ih

/-- A resource that keeps its part keeps it towards those who hold less. -/
theorem Honoured.of_subperm (h : Honoured (new ++ es)) (ho : Honoured own)
    (hs : (outstanding own).Subperm (outstanding es)) : Honoured (new ++ own) := by
  induction new with
  | nil => exact ho
  | cons e new ih =>
    rcases e with ⟨l, _ | a⟩ | ⟨a, l⟩ | _ | _
    · exact ih h
    · exact ⟨h.1.of_subset (subperm_outstanding hs new).subset, ih h.2⟩
    · exact ih h
    · exact ih h
    · exact ih h

end Trace

/-! ## A world of its own -/

variable {ρ : Type}

/-- The same resource and memory, after two histories that have gone on alike. -/
structure World.Beside (es own : Trace) (w w' : World ρ) : Prop where
  resource : w'.resource = w.resource
  memory : w'.memory = w.memory
  events : ∃ new, w.events = new ++ es ∧ w'.events = new ++ own

/-- The world as it is, after another history. -/
def World.recast (w : World ρ) (own : Trace) : World ρ := { w with events := own }

namespace World

variable {es own : Trace} {w w' : World ρ}

/-- Nothing else is different. -/
theorem beside_recast (w : World ρ) (own : Trace) : w.Beside w.events own (w.recast own) :=
  ⟨rfl, rfl, [], rfl, rfl⟩

/-- One event more on both sides. -/
theorem Beside.record (h : w.Beside es own w') (e : Event) :
    (w.record e).Beside es own (w'.record e) := by
  obtain ⟨new, he, ho⟩ := h.events
  exact ⟨h.resource, h.memory, e :: new, congrArg (e :: ·) he, congrArg (e :: ·) ho⟩

/-- **What has happened makes no difference to calls.** -/
theorem coupling_beside [Resource ρ] (es own : Trace) :
    Coupling (Beside es own : World ρ → World ρ → Prop) where
  memory h := h.memory
  noted label n h := h.record (.noted label n)
  write f h := ⟨h.resource, congrArg f h.memory, h.events⟩
  take {w w'} l h := by
    obtain ⟨new, he, ho⟩ := h.events
    unfold take
    rw [h.resource]
    rcases Resource.take w.resource l with ⟨_ | g, r⟩
    · exact ⟨rfl, rfl, h.memory, _ :: new, congrArg (_ :: ·) he, congrArg (_ :: ·) ho⟩
    · have hm : w'.memory.update g.address l.size g.contents =
          w.memory.update g.address l.size g.contents := by rw [h.memory]
      exact ⟨rfl, rfl, hm, _ :: new, congrArg (_ :: ·) he, congrArg (_ :: ·) ho⟩
  give {w w'} a l h := by
    obtain ⟨new, he, ho⟩ := h.events
    unfold give
    rw [h.resource, h.memory]
    exact ⟨rfl, rfl, _ :: new, congrArg (_ :: ·) he, congrArg (_ :: ·) ho⟩

/-- Nor to callbacks. -/
theorem runs_beside (es own : Trace) : Runs (Beside es own : World ρ → World ρ → Prop) :=
  fun _ _ data h => h.record (.ran data)

end World

/-- Calls that are in step end alike. -/
theorem Action.InStep.ending {κ α : Type} {F : κ → κ} {T : World ρ → World ρ → Prop}
    {x y : Action κ ρ α} (h : InStep F T (fun _ => False) x y) {k k' : κ} {w w' v : World ρ}
    {out : Except Failure α} (hT : T w v) (hx : x ⟨k, w⟩ = Action.ending out ⟨k', w'⟩) :
    ∃ v', y ⟨F k, v⟩ = Action.ending out ⟨F k', v'⟩ ∧ T w' v' := by
  have halike := h.alike k w v hT
  rw [hx] at halike
  cases out with
  | ok a => exact halike
  | error e => exact halike.resolve_left id

namespace Custody

variable [Resource ρ] {b : Build} {c c' : Custody} {w w' v : World ρ} {d : Deed}
variable {es own : Trace} {rest : List Block}

/-- A deed ends alike whatever has happened. -/
theorem act_beside (h : w.Beside es own v) {out : Except Failure Reply}
    (hact : act b d ⟨c, w⟩ = Action.ending out ⟨c', w'⟩) :
    ∃ v', act b d ⟨c, v⟩ = Action.ending out ⟨c', v'⟩ ∧ w'.Beside es own v' := by
  have hT : World.Coupling (World.Beside es own : World ρ → World ρ → Prop) :=
    World.coupling_beside es own
  cases d with
  | write start len f =>
    cases out <;> cases hact
    exact ⟨_, rfl, hT.write (fun m => m.update start len f) h⟩
  | call call =>
    have hstep := Restriction.inStep_perform hT (.same b) [] call fun _ => World.runs_beside es own
    obtain ⟨o, ⟨k, u⟩, hp⟩ :
        ∃ o t, Restriction.perform b [] call ⟨c.allocator, w⟩ = Action.ending o t :=
      ⟨_, _, (Action.ending_ended _).symm⟩
    obtain ⟨v', hv, hb⟩ := hstep.ending h hp
    rw [Allocator.withLedger_id, Allocator.withLedger_id] at hv
    simp only [act, hp, hv] at hact ⊢
    cases o <;> cases out <;> cases hact <;> exact ⟨v', rfl, hb⟩

/-- And so does an end. -/
theorem close_beside (h : w.Beside es own v) {out : Except Failure Unit} {k k' : Allocator}
    (hcl : Allocator.close ⟨k, w⟩ = Action.ending out ⟨k', w'⟩) :
    ∃ v', Allocator.close ⟨k, v⟩ = Action.ending out ⟨k', v'⟩ ∧ w'.Beside es own v' := by
  have hstep : Action.InStep (Allocator.withLedger id) (World.Beside es own) (fun _ => False)
      (Allocator.close : Action Allocator ρ Unit) Allocator.close :=
    Allocator.inStep_close (World.coupling_beside es own) (World.runs_beside es own)
  obtain ⟨v', hv, hb⟩ := hstep.ending h hcl
  rw [Allocator.withLedger_id, Allocator.withLedger_id] at hv
  exact ⟨v', hv, hb⟩

/-! ## The account of one allocator -/

omit [Resource ρ] in
/-- Where only the calls made for it have happened, nothing is held beside it. -/
theorem accounts_recast (w : World ρ) (ho : Accounts own c.footprint) :
    Accounts (w.recast own).events (c.footprint ++ []) := by
  rw [List.append_nil]
  exact ho

omit [Resource ρ] in
/-- What is outstanding of the calls made for it is so of all calls. -/
theorem subperm_own (ha : Accounts w.events (c.footprint ++ rest)) (ho : Accounts own c.footprint) :
    (outstanding own).Subperm (outstanding w.events) :=
  ho.perm.subperm_right.2 (ha.perm.subperm_left.2 (List.sublist_append_left _ rest).subperm)

/-- An allocator that has been made has a straight account. -/
theorem accounts_opened {kind : AllocatorKind} {label : String} {capacity : Nat} {k : Allocator}
    (hc : Allocator.create kind label capacity w = (.ok k, w')) (hg : Honoured w'.events) :
    Accounts (since w.events w'.events) (opened k).footprint := by
  rcases Allocator.create_cases kind label capacity w with
    ⟨zeroed, h⟩ | ⟨r, w₁, h, -⟩ | ⟨wrap, a, l, w₁, hw, h, -, -, he⟩
  · cases h.symm.trans hc
    rw [since_of_calls_eq rfl]
    exact .nil
  · cases h.symm.trans hc
  · cases h.symm.trans hc
    rw [he] at hg ⊢
    rw [since_taken]
    have hg' : Honoured [.taken l (some a)] := ⟨hg.1.of_subset (List.nil_subset _), trivial⟩
    rcases hw with rfl | rfl <;> exact Accounts.nil.taken hg'

/-- One that could not be made has nothing to account for. -/
theorem accounts_declined {kind : AllocatorKind} {label : String} {capacity : Nat} {r : Refusal}
    (hc : Allocator.create kind label capacity w = (.error r, w')) :
    Accounts (since w.events w'.events) [] := by
  rcases Allocator.create_cases kind label capacity w with
    ⟨zeroed, h⟩ | ⟨r', w₁, h, -, he⟩ | ⟨wrap, a, l, w₁, hw, h, -⟩
  · cases h.symm.trans hc
  · cases h.symm.trans hc
    rcases he with he | ⟨l, he⟩ <;> rw [he]
    · rw [since_of_calls_eq rfl]
      exact .nil
    · rw [since_taken]
      exact Accounts.nil.declined l
  · cases h.symm.trans hc

/-- **A deed leaves the account straight**, with the calls that it has made. -/
theorem accounts_act (hs : c.Sound b w.memory) (ha : Accounts w.events (c.footprint ++ rest))
    (ho : Accounts own c.footprint) (hd : c.Allows d) {out : Except Failure Reply}
    (hact : act b d ⟨c, w⟩ = Action.ending out ⟨c', w'⟩) (hg : Honoured w'.events) :
    Accounts (since w.events w'.events ++ own) c'.footprint := by
  -- the deed is done in a world in which only what was done for this allocator has happened
  obtain ⟨v, hv, hb⟩ := act_beside (w.beside_recast own) hact
  obtain ⟨new, hw', hv'⟩ := hb.events
  rw [hw'] at hg
  have hg' : Honoured v.events := by
    rw [hv']
    exact hg.of_subperm ho.honoured (subperm_own ha ho)
  have hu := (ends_act (w := w.recast own) hs (accounts_recast w ho) hd).elim hv hg'
  have hacc := hu.accounts
  rw [List.append_nil, hv'] at hacc
  rw [hw', since_append]
  exact hacc.congr (calls_calls_append new own)

/-- **And so does an end**, with what it has given back. -/
theorem accounts_close (hs : c.Sound b w.memory) (ho : Accounts own c.footprint)
    {out : Except Failure Unit} {k : Allocator}
    (hcl : Allocator.close ⟨c.allocator, w⟩ = Action.ending out ⟨k, w'⟩) :
    Accounts (since w.events w'.events ++ own) c.remains := by
  obtain ⟨v, hv, hb⟩ := close_beside (w.beside_recast own) hcl
  obtain ⟨new, hw', hv'⟩ := hb.events
  obtain ⟨k', v₁, hcl', hacc, -⟩ := close_cases (w := w.recast own) hs (accounts_recast w ho)
  obtain rfl : v₁ = v := Action.world_eq_of_ending (hcl'.symm.trans hv)
  rw [List.append_nil, hv'] at hacc
  rw [hw', since_append]
  exact hacc.congr (calls_calls_append new own)

end Custody

namespace Estate

variable [Resource ρ] {b : Build} {E E' : Estate ρ} {mv : Move}

/-- A step leaves the account of every allocator straight. -/
theorem Sound.accounts_step (h : E.Sound b) (hm : ∀ t ∈ E.tenants, Accounts t.made t.footprint)
    (hst : Step b E mv E') : ∀ t ∈ E'.tenants, Accounts t.made t.footprint := by
  intro u hu
  cases hst with
  | opened hc hg =>
    rcases List.mem_cons.1 hu with rfl | hu
    · exact Custody.accounts_opened hc hg
    · exact hm u hu
  | declined hc hg => exact hm u hu
  | @acted before after t d out c' w' hE hd hact hg =>
    have hmem : t ∈ E.tenants := hE ▸ mem_split.2 (Or.inl rfl)
    rcases mem_split.1 hu with rfl | hu
    · obtain ⟨rest, ha⟩ := h.accounts_tenant hmem
      exact Custody.accounts_act (h.sound t hmem) ha (hm t hmem) hd hact hg
    · exact hm u (hE ▸ mem_split.2 (Or.inr hu))
  | closed hE hcl hg => exact hm u (hE ▸ mem_split.2 (Or.inr hu))

/-- **Every allocator's own account is straight**: of the blocks that were taken
for it, those that it answers for are outstanding, and nothing was given back for
it that was not taken for it. -/
theorem Reachable.accounts_made (h : Reachable b E) :
    ∀ t ∈ E.tenants, Accounts t.made t.footprint := by
  induction h with
  | start r m => exact nofun
  | step hr hst ih => exact hr.sound.accounts_step ih hst

end Estate

end Allocators
