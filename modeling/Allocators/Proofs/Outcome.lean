import Allocators.Allocator
/-!
# Outcomes — what calls come to and what they ensure

A result has an outcome, which is an answer or a failure, and a scene to go
on from. How a call on a part ends, or one whose answer is passed on
changed, is how the call itself ends (`Action.on_eq_ending_iff`,
`Action.map_eq_ending_iff`).

`Action.Ensures` is what a call is relied on for: a condition on the scenes
that it starts from, one on its answers and one on its failures, each with
the scene that is left. The rules take a call apart in the order of its
steps. Properties of calls are choices of the three conditions, so that the
rules need to be stated once.
-/

namespace Allocators

namespace Action

variable {κ κ' ρ α β : Type} {s t : Scene κ ρ} {w : World ρ}
variable {x : Action κ ρ α} {g : α → β} {f : α → Action κ ρ β}
variable {part k : κ} {k' : κ'} {whole : κ → κ'}

/-! ## Outcomes -/

/-- An outcome with a scene to go on from. -/
def ending (o : Except Failure α) (s : Scene κ ρ) : EStateM.Result Failure (Scene κ ρ) α :=
  match o with
  | .ok a => .ok a s
  | .error e => .error e s

/-- The outcome and the scene of a result. -/
def ended (r : EStateM.Result Failure (Scene κ ρ) α) : Except Failure α × Scene κ ρ :=
  match r with
  | .ok a s => (.ok a, s)
  | .error e s => (.error e, s)

/-- They make up the result again. -/
theorem ending_ended (r : EStateM.Result Failure (Scene κ ρ) α) :
    ending (ended r).1 (ended r).2 = r := by
  cases r <;> rfl

/-- A result has one outcome and one scene. -/
theorem ending_inj {o out : Except Failure α} : ending o s = ending out t ↔ out = o ∧ t = s := by
  constructor
  · intro h
    cases o <;> cases out <;> cases h <;> exact ⟨rfl, rfl⟩
  · rintro ⟨rfl, rfl⟩
    rfl

/-- An answer is the outcome of its result. -/
theorem ok_eq_ending_iff {a : α} {out : Except Failure α} :
    .ok a s = ending out t ↔ out = .ok a ∧ t = s := by
  show ending (.ok a) s = _ ↔ _
  exact ending_inj

/-- And so is a failure. -/
theorem error_eq_ending_iff {e : Failure} {out : Except Failure α} :
    .error e s = ending out t ↔ out = .error e ∧ t = s := by
  show ending (.error e) s = _ ↔ _
  exact ending_inj

/-- An outcome that is one thing twice has the same world. -/
theorem world_eq_of_ending {o out : Except Failure α} (h : ending o s = ending out t) :
    s.world = t.world := by
  rw [(ending_inj.1 h).2]

/-! ### Calls on a part -/

/-- A call on a part ends as the part does. -/
theorem on_of_ending {w' : World ρ} {o : Except Failure α} (h : x ⟨part, w⟩ = ending o ⟨k, w'⟩)
    (k' : κ') : on part whole x ⟨k', w⟩ = ending o ⟨whole k, w'⟩ := by
  cases o with
  | ok a => exact on_of_ok h k'
  | error e => exact on_of_error h k'

/-- How a call on a part ends is how the part ends it. -/
theorem on_eq_ending_iff {out : Except Failure α} {t : Scene κ' ρ} :
    on part whole x ⟨k', w⟩ = ending out t ↔
      ∃ u, x ⟨part, w⟩ = ending out u ∧ t = ⟨whole u.allocator, u.world⟩ := by
  obtain ⟨o, u, hu⟩ : ∃ o u, x ⟨part, w⟩ = ending o u := ⟨_, _, (ending_ended _).symm⟩
  rw [on_of_ending hu, hu]
  simp only [ending_inj]
  constructor
  · rintro ⟨rfl, rfl⟩
    exact ⟨u, ⟨rfl, rfl⟩, rfl⟩
  · rintro ⟨u', ⟨rfl, rfl⟩, rfl⟩
    exact ⟨rfl, rfl⟩

/-- It is answered as the part answers it. -/
theorem on_eq_ok_iff {a : α} {t : Scene κ' ρ} : on part whole x ⟨k', w⟩ = .ok a t ↔
      ∃ u, x ⟨part, w⟩ = .ok a u ∧ t = ⟨whole u.allocator, u.world⟩ := by
  show _ = ending (.ok a) t ↔ ∃ u, _ = ending (.ok a) u ∧ _
  exact on_eq_ending_iff

/-- It fails as the part fails. -/
theorem on_eq_error_iff {e : Failure} {t : Scene κ' ρ} : on part whole x ⟨k', w⟩ = .error e t ↔
      ∃ u, x ⟨part, w⟩ = .error e u ∧ t = ⟨whole u.allocator, u.world⟩ := by
  show _ = ending (.error e) t ↔ ∃ u, _ = ending (.error e) u ∧ _
  exact on_eq_ending_iff

/-- So it finds fault just if the part does. -/
theorem on_fault_iff : (∃ f t, on part whole x ⟨k', w⟩ = .error (.fault f) t) ↔
    ∃ f u, x ⟨part, w⟩ = .error (.fault f) u := by
  constructor
  · rintro ⟨f, t, h⟩
    obtain ⟨u, hu, -⟩ := on_eq_error_iff.1 h
    exact ⟨f, u, hu⟩
  · rintro ⟨f, u, hu⟩
    exact ⟨f, _, on_eq_error_iff.2 ⟨u, hu, rfl⟩⟩

/-- And it leaves the world that the part leaves. -/
theorem world_ended_on :
    (ended (on part whole x ⟨k', w⟩)).2.world = (ended (x ⟨part, w⟩)).2.world := by
  unfold on
  cases x ⟨part, w⟩ <;> rfl

/-! ### Answers that are passed on changed -/

/-- A call whose answer is passed on changed ends as the call does. -/
theorem map_eq_ending_iff {out : Except Failure β} :
    (g <$> x) s = ending out t ↔ ∃ o, x s = ending o t ∧ out = o.map g := by
  obtain ⟨o, u, hu⟩ : ∃ o u, x s = ending o u := ⟨_, _, (ending_ended _).symm⟩
  have hmap : (g <$> x) s = ending (o.map g) u := by
    rw [map_apply, hu]
    cases o <;> rfl
  rw [hmap, hu]
  simp only [ending_inj]
  constructor
  · rintro ⟨rfl, rfl⟩
    exact ⟨o, ⟨rfl, rfl⟩, rfl⟩
  · rintro ⟨o', ⟨rfl, rfl⟩, rfl⟩
    exact ⟨rfl, rfl⟩

/-- An answer that is passed on changed was one. -/
theorem map_eq_ok_iff {c : β} : (g <$> x) s = .ok c t ↔ ∃ a, x s = .ok a t ∧ g a = c := by
  rw [map_apply]
  cases x s with
  | ok a u =>
    constructor
    · intro h
      cases h
      exact ⟨a, rfl, rfl⟩
    · rintro ⟨a', h, rfl⟩
      cases h
      rfl
  | error e u => simp

/-- A failure is passed on as it is. -/
theorem map_eq_error_iff {e : Failure} : (g <$> x) s = .error e t ↔ x s = .error e t := by
  rw [map_apply]
  cases x s <;> simp

/-- The scene is left as it is. -/
theorem ended_map (g : α → β) (x : Action κ ρ α) (s : Scene κ ρ) :
    (ended ((g <$> x) s)).2 = (ended (x s)).2 := by
  rw [map_apply]
  cases x s <;> rfl

/-! ## What calls ensure -/

/-- From a scene with `P` the call ends with an answer for which `Q` holds, or
with a failure for which `E` does. -/
structure Ensures (P : Scene κ ρ → Prop) (Q : α → Scene κ ρ → Prop)
    (E : Failure → Scene κ ρ → Prop) (x : Action κ ρ α) : Prop where
  answered {s t : Scene κ ρ} {a : α} : P s → x s = .ok a t → Q a t
  failed {s t : Scene κ ρ} {e : Failure} : P s → x s = .error e t → E e t

variable {P P' I : Scene κ ρ → Prop} {M Q Q' : α → Scene κ ρ → Prop} {R : β → Scene κ ρ → Prop}
variable {E E' : Failure → Scene κ ρ → Prop}

/-- A call that is answered. -/
theorem Ensures.of_ok (h : ∀ s, P s → ∃ a t, x s = .ok a t ∧ Q a t) : Ensures P Q E x where
  answered {s t a} hs hx := by
    obtain ⟨a', t', h, hq⟩ := h s hs
    cases h.symm.trans hx
    exact hq
  failed {s t e} hs hx := by
    obtain ⟨a', t', h, -⟩ := h s hs
    cases h.symm.trans hx

/-- A call that fails. -/
theorem Ensures.of_error (h : ∀ s, P s → ∃ e t, x s = .error e t ∧ E e t) : Ensures P Q E x where
  answered {s t a} hs hx := by
    obtain ⟨e', t', h, -⟩ := h s hs
    cases h.symm.trans hx
  failed {s t e} hs hx := by
    obtain ⟨e', t', h, he⟩ := h s hs
    cases h.symm.trans hx
    exact he

/-- What does not speak of the scene stays true. -/
theorem ensures_const (p : Prop) (x : Action κ ρ α) :
    Ensures (fun _ => p) (fun _ _ => p) (fun _ _ => p) x :=
  ⟨fun h _ => h, fun h _ => h⟩

/-- Less is ensured from more. -/
theorem Ensures.imp (h : Ensures P Q E x) (hP : ∀ s, P' s → P s) (hQ : ∀ a t, Q a t → Q' a t)
    (hE : ∀ e t, E e t → E' e t) : Ensures P' Q' E' x where
  answered hs hx := hQ _ _ (h.answered (hP _ hs) hx)
  failed hs hx := hE _ _ (h.failed (hP _ hs) hx)

/-- What is ensured either way holds of the scene that is left. -/
theorem Ensures.ended (h : Ensures P (fun _ => I) (fun _ => I) x) (hs : P s) :
    I (ended (x s)).2 := by
  cases hx : x s with
  | ok a t => exact h.answered hs hx
  | error e t => exact h.failed hs hx

/-! ### Calls put together -/

/-- **One call after another**: the second starts from what the first ensures of
its answer. -/
theorem Ensures.bind (hx : Ensures P M E x) (hf : ∀ a, Ensures (M a) R E (f a)) :
    Ensures P R E (x >>= f) where
  answered hs h := by
    obtain ⟨a, u, hu, h⟩ := bind_eq_ok_iff.1 h
    exact (hf a).answered (hx.answered hs hu) h
  failed hs h := by
    rcases bind_eq_error_iff.1 h with h | ⟨a, u, hu, h⟩
    · exact hx.failed hs h
    · exact (hf a).failed (hx.answered hs hu) h

/-- Where only answers count, and nothing is known before, it is the last call
that counts. -/
theorem Ensures.last (hf : ∀ a, Ensures (fun _ => True) R (fun _ _ => True) (f a)) :
    Ensures (fun _ => True) R (fun _ _ => True) (x >>= f) :=
  (ensures_const True x).bind hf

/-- Every answer is one for which `p` holds. -/
abbrev Yields (p : α → Prop) (x : Action κ ρ α) : Prop :=
  Ensures (fun _ => True) (fun a _ => p a) (fun _ _ => True) x

/-- What is known of the scene is known of the allocator that is found there. -/
theorem Ensures.self_bind {f : κ → Action κ ρ β} (hf : ∀ s, P s → Ensures P R E (f s.allocator)) :
    Ensures P R E (self >>= f) where
  answered hs h := (hf _ hs).answered hs h
  failed hs h := (hf _ hs).failed hs h

/-- An answer that is passed on changed. -/
theorem Ensures.map (h : Ensures P (fun a => R (g a)) E x) : Ensures P R E (g <$> x) where
  answered hs hx := by
    obtain ⟨a, ha, rfl⟩ := map_eq_ok_iff.1 hx
    exact h.answered hs ha
  failed hs hx := h.failed hs (map_eq_error_iff.1 hx)

/-- A call that is made or left out. -/
theorem Ensures.when (p : Prop) [Decidable p] {x : Action κ ρ Unit}
    (h : Ensures I (fun _ => I) E x) : Ensures I (fun _ => I) E (Action.when p x) := by
  unfold Action.when
  split
  · exact h
  · exact .of_ok fun s hs => ⟨(), s, rfl, hs⟩

/-- A call on a part, with the conditions on the whole told of the part. -/
theorem Ensures.on {Q : α → Scene κ' ρ → Prop} {E : Failure → Scene κ' ρ → Prop}
    (h : Ensures P (fun a u => Q a ⟨whole u.allocator, u.world⟩)
      (fun e u => E e ⟨whole u.allocator, u.world⟩) x) (part : κ) :
    Ensures (fun s => P ⟨part, s.world⟩) Q E (Action.on part whole x) where
  answered hs hx := by
    obtain ⟨u, hu, rfl⟩ := on_eq_ok_iff.1 hx
    exact h.answered hs hu
  failed hs hx := by
    obtain ⟨u, hu, rfl⟩ := on_eq_error_iff.1 hx
    exact h.failed hs hu

/-! ### Single steps -/

/-- A value is answered. -/
theorem ensures_pure {a : α} (h : ∀ s, P s → Q a s) : Ensures P Q E (pure a) :=
  .of_ok fun s hs => ⟨a, s, rfl, h s hs⟩

/-- A question changes nothing. -/
theorem ensures_self : Ensures I (fun _ => I) E self := .of_ok fun s hs => ⟨_, s, rfl, hs⟩

/-- Nor does one about the memory. -/
theorem ensures_memory : Ensures I (fun _ => I) E memory := .of_ok fun s hs => ⟨_, s, rfl, hs⟩

/-- A changed allocator takes the place of the old one. -/
theorem ensures_become {k : κ} (h : ∀ s, I s → I ⟨k, s.world⟩) :
    Ensures I (fun _ => I) E (become k) :=
  .of_ok fun s hs => ⟨(), _, rfl, h s hs⟩

/-- The memory is changed. -/
theorem ensures_write {m : Memory → Memory} (h : ∀ s, I s → I ⟨s.allocator, s.world.write m⟩) :
    Ensures I (fun _ => I) E (write m) :=
  .of_ok fun s hs => ⟨(), _, rfl, h s hs⟩

/-- An event is recorded. -/
theorem ensures_record {e : Event} (h : ∀ s, I s → I ⟨s.allocator, s.world.record e⟩) :
    Ensures I (fun _ => I) E (record e) :=
  .of_ok fun s hs => ⟨(), _, rfl, h s hs⟩

/-- The resource is asked. -/
theorem ensures_take [Resource ρ] {l : Layout}
    (h : ∀ s, I s → I ⟨s.allocator, (s.world.take l).2⟩) : Ensures I (fun _ => I) E (take l) :=
  .of_ok fun s hs => ⟨_, _, rfl, h s hs⟩

/-- It is asked for zeros. -/
theorem ensures_takeZeroed [Resource ρ] {l : Layout}
    (h : ∀ s, I s → I ⟨s.allocator, (s.world.takeZeroed l).2⟩) :
    Ensures I (fun _ => I) E (takeZeroed l) :=
  .of_ok fun s hs => ⟨_, _, rfl, h s hs⟩

/-- It is given something back. -/
theorem ensures_give [Resource ρ] {a : Nat} {l : Layout}
    (h : ∀ s, I s → I ⟨s.allocator, s.world.give a l⟩) : Ensures I (fun _ => I) E (give a l) :=
  .of_ok fun s hs => ⟨(), _, rfl, h s hs⟩

/-- The call is declined. -/
theorem ensures_refuse {r : Refusal} (h : ∀ s, P s → E (.refused r) s) :
    Ensures P Q E (refuse r) :=
  .of_error fun s hs => ⟨_, s, rfl, h s hs⟩

/-- A value is gone on with, or it is a failure. -/
theorem ensures_ofExcept {v : Except Failure α} (h : ∀ e s, v = .error e → I s → E e s) :
    Ensures I (fun _ => I) E (ofExcept v) := by
  cases v with
  | ok a => exact .of_ok fun s hs => ⟨a, s, rfl, hs⟩
  | error e => exact .of_error fun s hs => ⟨e, s, rfl, h e s rfl hs⟩

/-- A value is gone on with, or there is none. -/
theorem ensures_ofOption {r : Refusal} {v : Option α} (h : ∀ s, I s → E (.refused r) s) :
    Ensures I (fun _ => I) E (ofOption r v) := by
  cases v with
  | some a => exact .of_ok fun s hs => ⟨a, s, rfl, hs⟩
  | none => exact ensures_refuse h

/-- A demand is met or declined. -/
theorem ensures_demand (p : Prop) [Decidable p] {r : Refusal} (h : ∀ s, I s → E (.refused r) s) :
    Ensures I (fun _ => I) E (demand p r) := by
  unfold demand
  split
  · exact ensures_pure fun _ => id
  · exact ensures_refuse h

end Action

open Allocators.Action

/-- **A call that is made by the kind**, with the conditions told of each kind. -/
theorem Allocator.ensures_dispatch {ρ α : Type} {x : Action Heap ρ α} {y z : Action Buffer ρ α}
    {P : Scene Allocator ρ → Prop} {Q : α → Scene Allocator ρ → Prop}
    {E : Failure → Scene Allocator ρ → Prop}
    (hx : Ensures (fun u => P ⟨heap u.allocator, u.world⟩)
      (fun a u => Q a ⟨heap u.allocator, u.world⟩) (fun e u => E e ⟨heap u.allocator, u.world⟩) x)
    (hy : Ensures (fun u => P ⟨stack u.allocator, u.world⟩)
      (fun a u => Q a ⟨stack u.allocator, u.world⟩)
      (fun e u => E e ⟨stack u.allocator, u.world⟩) y)
    (hz : Ensures (fun u => P ⟨arena u.allocator, u.world⟩)
      (fun a u => Q a ⟨arena u.allocator, u.world⟩)
      (fun e u => E e ⟨arena u.allocator, u.world⟩) z) : Ensures P Q E (dispatch x y z) where
  answered {s _ _} hs h := by
    obtain ⟨k, w⟩ := s
    cases k with
    | heap s => exact (hx.on s).answered (s := ⟨heap s, w⟩) hs h
    | stack s => exact (hy.on s).answered (s := ⟨stack s, w⟩) hs h
    | arena s => exact (hz.on s).answered (s := ⟨arena s, w⟩) hs h
  failed {s _ _} hs h := by
    obtain ⟨k, w⟩ := s
    cases k with
    | heap s => exact (hx.on s).failed (s := ⟨heap s, w⟩) hs h
    | stack s => exact (hy.on s).failed (s := ⟨stack s, w⟩) hs h
    | arena s => exact (hz.on s).failed (s := ⟨arena s, w⟩) hs h

end Allocators
