import Allocators.Proofs.Life
/-!
# Chronicles — every run of calls on one allocator

A run of one allocator starts when it is created and goes on with calls on it
and with writes into its blocks. `Page` is the record of one of these: what was
called, through which restrictions, how it ended, and which events it added.
`Book` is where a run has come to: the allocator with its live blocks and
callbacks, its world, and the record so far. `Chronicle` says which books runs
lead to. Which calls may be made is a parameter, and between two calls the rest
of the program goes on with the same resource and memory. If every call that
may be made keeps the invariant, all runs do: `Chronicle.inOrder`.
-/

namespace Allocators

open Trace

variable {ρ : Type}

/-! ## Deeds through restrictions -/

/-- Whether the nest keeps the deed from its allocator. -/
def Restriction.Silences (nest : List Restriction) : Deed → Prop
  | .call (.deallocate _ _) => noFree ∈ nest
  | .call .clear => noClear ∈ nest
  | _ => False

instance (nest : List Restriction) (d : Deed) : Decidable (Restriction.Silences nest d) :=
  match d with
  | .call (.deallocate _ _) => inferInstanceAs (Decidable (Restriction.noFree ∈ nest))
  | .call .clear => inferInstanceAs (Decidable (Restriction.noClear ∈ nest))
  | .call (.allocate _) => .isFalse id
  | .call (.allocateBytes _) => .isFalse id
  | .call (.reallocate _) => .isFalse id
  | .call (.register _ _) => .isFalse id
  | .write _ _ _ => .isFalse id

/-- The notice a nest leaves of a call it has kept from its allocator. -/
def Restriction.silence : Deed → Notice
  | .call (.deallocate a _) => .freeSuppressed a
  | _ => .clearSuppressed

namespace Custody

variable [Resource ρ] {b : Build} {nest : List Restriction} {d : Deed} {c : Custody} {w : World ρ}

/-- Makes a deed through a nest. A deed that the nest keeps from the allocator
changes nothing that is held. -/
def deal (b : Build) (nest : List Restriction) : Deed → Action Custody ρ Reply
  | .write start len f => act b (.write start len f)
  | .call call => fun s =>
    let c := s.allocator
    match Restriction.perform b nest call ⟨c.allocator, s.world⟩ with
    | .ok reply t =>
      .ok reply ⟨if Restriction.Silences nest (.call call) then
        { c with allocator := t.allocator } else c.answered t.allocator call reply, t.world⟩
    | .error e t => .error e ⟨c.failed t.allocator call, t.world⟩

/-- A deed that is kept from the allocator leaves a notice. -/
theorem deal_of_silences (h : Restriction.Silences nest d) (b : Build) (c : Custody) (w : World ρ) :
    deal b nest d ⟨c, w⟩ =
      .ok .done ⟨c, w.record (.noted none (Restriction.silence d))⟩ := by
  cases d with
  | write start len f => exact h.elim
  | call call =>
    cases call with
    | deallocate a l =>
      have hd := Restriction.deallocate_of_mem (ρ := ρ) (b := b) (a := a) (l := l) h
      simp only [deal, Restriction.perform, hd, Action.map_apply, Action.record_apply, if_pos h]
      rfl
    | clear =>
      have hd := Restriction.clear_of_mem (ρ := ρ) (b := b) h
      simp only [deal, Restriction.perform, hd, Action.map_apply, Action.record_apply, if_pos h]
      rfl
    | allocate l => exact h.elim
    | allocateBytes size => exact h.elim
    | reallocate r => exact h.elim
    | register data f => exact h.elim

/-- Any other deed is made as if there were no restriction. -/
theorem deal_of_not_silences (h : ¬ Restriction.Silences nest d) (b : Build) :
    deal (ρ := ρ) b nest d = act b d := by
  cases d with
  | write start len f => rfl
  | call call =>
    have hp : Restriction.perform (ρ := ρ) b nest call = Restriction.perform b [] call := by
      cases call with
      | deallocate a l =>
        rw [Restriction.perform, Restriction.deallocate_of_not_mem h]
        rfl
      | clear =>
        rw [Restriction.perform, Restriction.clear_of_not_mem h]
        rfl
      | allocate l => rfl
      | allocateBytes size => rfl
      | reallocate r => rfl
      | register data f => rfl
    funext s
    unfold deal act
    simp only [hp]
    cases Restriction.perform b [] call ⟨s.allocator.allocator, s.world⟩ with
    | ok reply t => simp only [if_neg h]
    | error e t => rfl

end Custody

/-! ## Runs -/

/-- The events added to a trace, latest first. -/
def Trace.added (before after : Trace) : Trace := after.take (after.length - before.length)

/-- What has been put on top of a trace was added to it. -/
@[simp] theorem Trace.added_append (new es : Trace) : added es (new ++ es) = new := by
  rw [added, List.length_append, Nat.add_sub_cancel, List.take_left]

/-- The record of one call, or of one write: the deed, the restrictions it went
through, how it ended, and the events it added, latest first. -/
structure Page where
  nest : List Restriction
  deed : Deed
  outcome : Except Failure Reply
  events : Trace

/-- Where a run of one allocator has come to: the record of its calls so far,
latest first, the allocator with its live blocks and callbacks, and its world. -/
structure Book (ρ : Type) where
  pages : List Page
  custody : Custody
  world : World ρ

/-- The run goes on with one more call or write. -/
def Book.turn [Resource ρ] (b : Build) (B : Book ρ) (nest : List Restriction) (d : Deed) :
    Book ρ :=
  let (out, s) := Action.ended (Custody.deal b nest d ⟨B.custody, B.world⟩)
  ⟨⟨nest, d, out, Trace.added B.world.events s.world.events⟩ :: B.pages, s.allocator, s.world⟩

variable [Resource ρ] {b : Build} {kind : AllocatorKind} {p : Custody → Deed → Prop}

/-- **The runs of one allocator** of this kind, from its creation on. The deeds
in them are such as `p` lets callers do, the resource keeps its part, and what
others do in the meantime leaves alone the blocks of the resource that the
allocator has. -/
inductive Chronicle (b : Build) (p : Custody → Deed → Prop) (kind : AllocatorKind) :
    Book ρ → Prop
  | made {label : String} {capacity : Nat} {k : Allocator} {w w' : World ρ} {others : List Block} :
      Accounts w.events others → Allocator.create kind label capacity w = (.ok k, w') →
      Honoured w'.events → Chronicle b p kind ⟨[], .opened k, w'⟩
  | dealt {B : Book ρ} {nest : List Restriction} {d : Deed} : Chronicle b p kind B →
      p B.custody d → Honoured (B.turn b nest d).world.events →
      Chronicle b p kind (B.turn b nest d)
  | meanwhile {B : Book ρ} {w' : World ρ} {others : List Block} : Chronicle b p kind B →
      Accounts w'.events (B.custody.footprint ++ others) →
      (∀ x ∈ B.custody.footprint, B.world.memory.Keeps w'.memory x) →
      Chronicle b p kind { B with world := w' }

/-! ## All in order -/

/-- The allocator is of its kind and in order, and the accounts with the
resource are straight. -/
structure Custody.InOrder (b : Build) (kind : AllocatorKind) (others : List Block) (c : Custody)
    (w : World ρ) : Prop where
  sound : c.Sound b w.memory
  accounts : Accounts w.events (c.footprint ++ others)
  kind : c.allocator.isHeap = kind.isHeap

/-- Deeds that `p` lets callers do leave all in order. -/
def Custody.Steady (ρ : Type) [Resource ρ] (b : Build) (kind : AllocatorKind)
    (p : Custody → Deed → Prop) : Prop :=
  ∀ (c : Custody) (w : World ρ) (others : List Block) (d : Deed),
    c.InOrder b kind others w → p c d →
      c.Ends b d w fun _ c' w' => Honoured w'.events → c'.InOrder b kind others w'

/-- What the agreement allows leaves all in order. -/
theorem Custody.steady_allows : Steady ρ b kind Allows := by
  intro c w others d h hd
  obtain ⟨out, c', w', hact, hu⟩ := ends_act h.sound h.accounts hd
  refine ⟨out, c', w', hact, fun hg => ?_⟩
  have hup := hu hg
  exact ⟨hup.sound, hup.accounts, hup.kind.trans h.kind⟩

/-- An allocator is made of the kind that is asked for. -/
theorem Allocator.kind_create {label : String} {capacity : Nat} {k : Allocator}
    {w w' : World ρ} (hc : create kind label capacity w = (.ok k, w')) : k.kind = kind := by
  cases kind with
  | heap =>
    cases hc
    rfl
  | zeroed =>
    cases hc
    rfl
  | stack =>
    rcases hb : Buffer.create label capacity w with ⟨_ | s, w₁⟩ <;> simp only [create, hb] at hc <;>
      cases hc
    rfl
  | arena =>
    rcases hb : Buffer.create label capacity w with ⟨_ | s, w₁⟩ <;> simp only [create, hb] at hc <;>
      cases hc
    rfl

/-- A deed through a nest ends as the deed does, or leaves a notice. -/
theorem Book.turn_cases (b : Build) (B : Book ρ) (nest : List Restriction) (d : Deed) :
    (Restriction.Silences nest d ∧ (B.turn b nest d).custody = B.custody ∧
      (B.turn b nest d).world =
        B.world.record (.noted none (Restriction.silence d))) ∨
    ¬ Restriction.Silences nest d ∧ ∃ out, Custody.act b d ⟨B.custody, B.world⟩ =
      Action.ending out ⟨(B.turn b nest d).custody, (B.turn b nest d).world⟩ := by
  unfold turn
  by_cases hs : Restriction.Silences nest d
  · rw [Custody.deal_of_silences hs]
    exact Or.inl ⟨hs, rfl, rfl⟩
  · rw [Custody.deal_of_not_silences hs]
    exact Or.inr ⟨hs, _, (Action.ending_ended _).symm⟩

/-- **The invariant holds at the end of every run**, if the deeds in it keep
it. -/
theorem Chronicle.inOrder (hp : Custody.Steady ρ b kind p) {B : Book ρ}
    (h : Chronicle b p kind B) : ∃ others, B.custody.InOrder b kind others B.world := by
  induction h with
  | made ha hc hg =>
    obtain ⟨hs, hacc, -⟩ := Custody.create_ok hc hg ha b
    exact ⟨_, hs, hacc, congrArg AllocatorKind.isHeap (Allocator.kind_create hc)⟩
  | @dealt B nest d _ hd hg ih =>
    obtain ⟨others, hin⟩ := ih
    rcases B.turn_cases b nest d with ⟨-, hc, hw⟩ | ⟨-, out, hact⟩
    · rw [hc, hw]
      exact ⟨others, hin.sound, hin.accounts.congr rfl, hin.kind⟩
    · exact ⟨others, (hp _ _ others d hin hd).elim hact hg⟩
  | meanwhile _ ha hk ih =>
    obtain ⟨others, hin⟩ := ih
    exact ⟨_, hin.sound.congr hk, ha, hin.kind⟩

/-! ## Many deeds -/

/-- The run goes on with these deeds, in their order. -/
def Book.turns (b : Build) (B : Book ρ) : List (List Restriction × Deed) → Book ρ
  | [] => B
  | (nest, d) :: ds => (B.turn b nest d).turns b ds

/-- Callers may do each of these deeds when it is due, and the resource keeps
its part. -/
def Book.Fair (b : Build) (p : Custody → Deed → Prop) (B : Book ρ) :
    List (List Restriction × Deed) → Prop
  | [] => True
  | (nest, d) :: ds => (p B.custody d ∧ Honoured (B.turn b nest d).world.events) ∧
      (B.turn b nest d).Fair b p ds

instance Book.decidableFair [∀ c d, Decidable (p c d)] (B : Book ρ) :
    (ds : List (List Restriction × Deed)) → Decidable (B.Fair b p ds)
  | [] => .isTrue trivial
  | (nest, d) :: ds => @instDecidableAnd _ _ inferInstance ((B.turn b nest d).decidableFair ds)

/-- **A run goes on** with deeds that callers may do. -/
theorem Chronicle.turns {B : Book ρ} (h : Chronicle b p kind B)
    {ds : List (List Restriction × Deed)} (hf : B.Fair b p ds) :
    Chronicle b p kind (B.turns b ds) := by
  induction ds generalizing B with
  | nil => exact h
  | cons e ds ih =>
    obtain ⟨nest, d⟩ := e
    exact ih (h.dealt hf.1.1 hf.1.2) hf.2

end Allocators
