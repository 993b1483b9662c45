import Allocators.Proofs.Lockstep
/-!
# What calls keep true of the world

A call does few things in a world: it leaves notices, writes, asks the
resource for blocks and gives them back, and runs callbacks. What each of
these keeps true (`World.Closed`) every call keeps true, however it ends
(`World.Closed.perform`), and so do an allocator's making and its end. The
first use of it is that what has happened stays on record
(`World.closed_suffix`).
-/

namespace Allocators

variable {ρ : Type}

/-- A property of worlds that everything a call does in one keeps true, short
of running a callback. -/
structure World.Closed [Resource ρ] (P : World ρ → Prop) : Prop where
  noted {w : World ρ} (label : Option String) (n : Notice) : P w → P (w.record (.noted label n))
  write {w : World ρ} (f : Memory → Memory) : P w → P (w.write f)
  take {w : World ρ} (l : Layout) : P w → P (w.take l).2
  give {w : World ρ} (a : Nat) (l : Layout) : P w → P (w.give a l)

/-- And running a callback too. -/
def World.KeptByRuns (P : World ρ → Prop) : Prop := ∀ w data, P w → P (w.record (.ran data))

namespace Action

variable {κ α β : Type} {F : κ → κ} {P : World ρ → Prop} {x : Action κ ρ α}

/-- A call in step with itself, in a world for which `P` holds, keeps `P`. -/
theorem InStep.keeps (h : InStep F (fun w w' => w' = w ∧ P w) (fun _ => False) x x) (k : κ)
    {w : World ρ} (hw : P w) : P (ended (x ⟨k, w⟩)).2.world := by
  have halike := h.alike k w w ⟨rfl, hw⟩
  cases hx : x ⟨k, w⟩ with
  | ok a t =>
    rw [hx] at halike
    obtain ⟨v, -, -, ht⟩ := halike
    exact ht
  | error e t =>
    rw [hx] at halike
    rcases halike with he | ⟨v, -, -, ht⟩
    · exact he.elim
    · exact ht

end Action

namespace World.Closed

variable [Resource ρ] {P : World ρ → Prop} {w : World ρ} {b : Build}

/-- To be the same world, with such a property, is a coupling. -/
theorem coupling (h : Closed P) : Coupling fun w w' => w' = w ∧ P w where
  memory hw := hw.1 ▸ rfl
  noted label n hw := ⟨hw.1 ▸ rfl, h.noted label n hw.2⟩
  write f hw := ⟨hw.1 ▸ rfl, h.write f hw.2⟩
  take l hw := ⟨hw.1 ▸ rfl, hw.1 ▸ rfl, h.take l hw.2⟩
  give a l hw := ⟨hw.1 ▸ rfl, h.give a l hw.2⟩

omit [Resource ρ] in
/-- Callbacks run in both worlds. -/
theorem runs (h : KeptByRuns P) : Runs fun w w' => w' = w ∧ P w :=
  fun w _ data hw => ⟨hw.1 ▸ rfl, h w data hw.2⟩

/-- **Every call keeps it true**, whatever it comes to. Only a clear runs
callbacks. -/
theorem perform (h : Closed P) {call : Call} (hr : call = .clear → KeptByRuns P) (b : Build)
    (nest : List Restriction) (k : Allocator) (hw : P w) :
    P (Action.ended (Restriction.perform b nest call ⟨k, w⟩)).2.world :=
  (Restriction.inStep_perform h.coupling (.same b) nest call fun hc => runs (hr hc)).keeps k hw

/-- The end of an allocator keeps it true. -/
theorem close (h : Closed P) (hr : KeptByRuns P) (k : Allocator) (hw : P w) :
    P (Action.ended (Allocator.close ⟨k, w⟩)).2.world :=
  (Allocator.inStep_close (g := id) h.coupling (runs hr)).keeps k hw

/-- And so does the making of one. -/
theorem create (h : Closed P) (kind : AllocatorKind) (label : String) (capacity : Nat) (hw : P w) :
    P (Allocator.create kind label capacity w).2 := by
  have hregion : P (Region.create capacity w).2 := by
    unfold Region.create
    split
    · exact hw
    · split
      · exact hw
      · next l _ =>
        have ht := h.take l hw
        split <;> next he => rwa [he] at ht
  have hbuffer : P (Buffer.create label capacity w).2 := by
    unfold Buffer.create
    split <;> next he => rwa [he] at hregion
  cases kind with
  | heap => exact hw
  | zeroed => exact hw
  | stack =>
    unfold Allocator.create
    simp only
    split <;> next he => rwa [he] at hbuffer
  | arena =>
    unfold Allocator.create
    simp only
    split <;> next he => rwa [he] at hbuffer

end World.Closed

/-! ## What has happened -/

/-- **What has happened stays on record.** -/
theorem World.closed_suffix [Resource ρ] (es : Trace) :
    Closed fun w : World ρ => es <:+ w.events where
  noted _ _ h := h.trans (List.suffix_cons _ _)
  write _ h := h
  take {w} l h := by
    rcases w.take_cases l with ⟨v, ht, -, hev⟩ | ⟨a, v, ht, -, hev⟩
    · rw [ht, hev]
      exact h.trans (List.suffix_cons _ _)
    · rw [ht, hev]
      exact h.trans (List.suffix_cons _ _)
  give _ _ h := h.trans (List.suffix_cons _ _)

/-- A callback that runs leaves it there. -/
theorem World.suffix_keptByRuns (es : Trace) :
    KeptByRuns fun w : World ρ => es <:+ w.events := fun _ _ h => h.trans (List.suffix_cons _ _)

end Allocators
