import Allocators.Proofs.Outcome
import Allocators.Proofs.Trace
/-!
# Chains — the registrations an allocator's callbacks stand for

A registration is an entry that lies in memory at a known place. `Linked`
says that the entries found from an address on are these registrations,
in this order. A change of memory that keeps their blocks keeps the chain
(`Linked.congr`), and running the callbacks of a chain visits its
registrations in order, up to the first one that fails: `runFrom_linked`
gives the outcome, and `World.walked` the world afterwards, for anything
done with an entry once its callback has run.
-/

namespace Allocators

/-- A registered callback, with the address of its entry. -/
structure Registration where
  address : Nat
  data : Nat
  handler : Handler
deriving DecidableEq, Repr

namespace Registration

/-- The block the entry takes up. -/
def block (e : Registration) : Block := Block.of e.address Layout.entry

/-- Whether the callback returns. -/
def Returns (e : Registration) : Prop := e.handler = .returns

instance (e : Registration) : Decidable e.Returns := inferInstanceAs (Decidable (_ = _))

end Registration

open Registration

/-- An entry depends on the bytes of its block only. -/
theorem CallbackEntry.read_congr {m m' : Memory} {a : Nat}
    (h : m.Keeps m' (Block.of a Layout.entry)) : read m' a = read m a := by
  have hw : ∀ i, i + 8 ≤ 24 → m'.word (a + i) = m.word (a + i) := by
    intro i hi
    refine h.word_eq (Nat.le_add_right a i) ?_
    show a + i + 8 ≤ a + 24
    omega
  unfold read
  rw [hw 8 (by omega), hw 16 (by omega), show m'.word a = m.word a from hw 0 (by omega)]

/-- An entry changes its own bytes. -/
theorem CallbackEntry.changedIn_write (m : Memory) (a : Nat) (e : CallbackEntry) :
    m.ChangedIn (write m a e) a (a + 24) := by
  have h1 := m.changedIn_writeWord a e.data
  have h2 := (m.writeWord a e.data).changedIn_writeWord (a + 8) e.handler.code
  have h3 := ((m.writeWord a e.data).writeWord (a + 8) e.handler.code).changedIn_writeWord (a + 16)
    (linkWord e.previous)
  have hb : Word.bytes = 8 := rfl
  exact ((h1.mono le_rfl (by omega)).trans (h2.mono (by omega) (by omega))).trans
    (h3.mono (by omega) (by omega))

/-! ## Chains -/

/-- The entries found from `head` on are these registrations. -/
def Linked (m : Memory) : Option Nat → List Registration → Prop
  | head, [] => head = none
  | head, e :: es => head = some e.address ∧
      ∃ link, CallbackEntry.read m e.address = ⟨e.data, e.handler, link⟩ ∧ Linked m link es

/-- A chain stays what it is while its entries are kept. -/
theorem Linked.congr {m m' : Memory} {head : Option Nat} {es : List Registration}
    (h : Linked m head es) (hk : ∀ e ∈ es, m.Keeps m' e.block) : Linked m' head es := by
  induction es generalizing head with
  | nil => exact h
  | cons e es ih =>
    obtain ⟨hh, link, hr, hl⟩ := h
    refine ⟨hh, link, ?_, ih hl fun d hd => hk d (List.mem_cons_of_mem _ hd)⟩
    rw [CallbackEntry.read_congr (hk e List.mem_cons_self), hr]

/-- A chain starts at its first entry, if it has one. -/
theorem Linked.head_eq {m : Memory} {head : Option Nat} {es : List Registration}
    (h : Linked m head es) : head = es.head?.map Registration.address := by
  cases es with
  | nil => exact h
  | cons e es => exact h.1

/-! ## Running a chain -/

variable {κ ρ : Type}

/-- The world after running these callbacks up to the first that fails;
`g` is what is done with an entry whose callback has returned. -/
def World.walked (g : Nat → World ρ → World ρ) : List Registration → World ρ → World ρ
  | [], w => w
  | e :: es, w =>
    match e.handler with
    | .returns => walked g es (g e.address (w.record (.ran e.data)))
    | .fails => w.record (.ran e.data)

/-- The world after an allocator's callbacks have run at its end: their
number is reported, if there were any and all have returned. -/
def World.farewell (label : String) (x : Except Failure Nat) (w : World ρ) : World ρ :=
  match x with
  | .ok (n + 1) => w.record (.noted (some label) (.ended (n + 1)))
  | _ => w

/-- A report writes nothing. -/
@[simp] theorem World.memory_farewell (label : String) (x : Except Failure Nat) (w : World ρ) :
    (w.farewell label x).memory = w.memory := by
  unfold farewell
  split <;> rfl

/-- A report asks nothing of the resource. -/
@[simp] theorem World.calls_farewell (label : String) (x : Except Failure Nat) (w : World ρ) :
    Trace.calls (w.farewell label x).events = Trace.calls w.events := by
  unfold farewell
  split <;> rfl

/-- How running these callbacks ends: with their number, or with the fault
of the first that fails. -/
def runResult (es : List Registration) : Except Failure Nat :=
  match es.find? fun e => e.handler = .fails with
  | none => .ok es.length
  | some e => .error (.fault (.callback e.data))

/-- The registrations from the first whose callback fails on. -/
def unreturned : List Registration → List Registration
  | [] => []
  | e :: es =>
    match e.handler with
    | .returns => unreturned es
    | .fails => e :: es

/-- **A chain runs in order.** Its callbacks run from the first entry on,
and an entry may be done away with as soon as its own callback has
returned, if that keeps the others. -/
theorem Callbacks.runFrom_linked {release : Nat → Action κ ρ Unit}
    {g : Nat → World ρ → World ρ} (hr : ∀ a k w, release a ⟨k, w⟩ = .ok () ⟨k, g a w⟩)
    (hg : ∀ (a : Nat) (w : World ρ) (x : Block), (Block.of a Layout.entry).Apart x →
      w.memory.Keeps (g a w).memory x)
    {es : List Registration} {head : Option Nat} {w : World ρ} (hl : Linked w.memory head es)
    (ha : (es.map block).Pairwise Block.Apart) (k : κ) :
    runFrom release es.length head ⟨k, w⟩ = Action.ending (runResult es) ⟨k, w.walked g es⟩ := by
  induction es generalizing head w with
  | nil =>
    cases hl
    rfl
  | cons e es ih =>
    obtain ⟨rfl, link, hread, hl⟩ := hl
    rw [List.map_cons, List.pairwise_cons] at ha
    -- the link is read before the entry is done away with, so the rest is still there
    have hrest : Linked (g e.address (w.record (.ran e.data))).memory link es := by
      refine hl.congr fun d hd => ?_
      exact hg e.address (w.record (.ran e.data)) d.block (ha.1 _ (List.mem_map_of_mem hd))
    simp only [runFrom, List.length_cons, Action.bind_apply, Action.memory_apply, hread, invoke,
      Action.record_apply]
    cases hh : e.handler with
    | returns =>
      simp only [Action.pure_apply, hr, ih hrest ha.2]
      have hf : runResult (e :: es) = (runResult es).map (· + 1) := by
        unfold runResult
        rw [List.find?_cons_of_neg (by simp [hh])]
        cases es.find? fun e => e.handler = .fails <;> rfl
      rw [hf, World.walked, hh]
      cases runResult es <;> rfl
    | fails =>
      simp only [Action.ofExcept_error]
      have hf : runResult (e :: es) = .error (.fault (.callback e.data)) := by
        unfold runResult
        rw [List.find?_cons_of_pos (by simp [hh])]
      rw [hf, World.walked, hh]
      rfl

/-- All callbacks return when none fails. -/
theorem runResult_of_returns {es : List Registration} (h : ∀ e ∈ es, e.Returns) :
    runResult es = .ok es.length := by
  have hn : es.find? (fun e => e.handler = .fails) = none := by
    rw [List.find?_eq_none]
    intro e he
    simp [show e.handler = .returns from h e he]
  unfold runResult
  rw [hn]

/-- A run that fails fails with the fault of a callback. -/
theorem fault_of_runResult {es : List Registration} {e : Failure} (h : runResult es = .error e) :
    ∃ data, e = .fault (.callback data) := by
  unfold runResult at h
  split at h
  · cases h
  · cases h
    exact ⟨_, rfl⟩

/-- Every registration has had its run when all callbacks return. -/
theorem unreturned_of_returns {es : List Registration} (h : ∀ e ∈ es, e.Returns) :
    unreturned es = [] := by
  induction es with
  | nil => rfl
  | cons e es ih =>
    have he : e.handler = .returns := h e List.mem_cons_self
    rw [unreturned, he]
    exact ih fun d hd => h d (List.mem_cons_of_mem _ hd)

/-- What has not had its run was registered. -/
theorem unreturned_sublist (es : List Registration) : (unreturned es).Sublist es := by
  induction es with
  | nil => exact .slnil
  | cons e es ih =>
    rw [unreturned]
    cases e.handler with
    | returns => exact ih.cons e
    | fails => exact .refl _

/-- A run fails when not all callbacks return. -/
theorem runResult_of_not_returns {es : List Registration} (h : ¬ ∀ e ∈ es, e.Returns) :
    ∃ e, runResult es = .error e := by
  unfold runResult
  cases hf : es.find? fun e => e.handler = .fails with
  | some e => exact ⟨_, rfl⟩
  | none =>
    refine absurd (fun e he => ?_) h
    have hne := List.find?_eq_none.1 hf e he
    show e.handler = .returns
    cases hh : e.handler with
    | returns => rfl
    | fails => simp [hh] at hne

end Allocators
