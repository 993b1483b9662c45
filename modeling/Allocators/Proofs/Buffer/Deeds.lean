import Allocators.Proofs.Arena
import Allocators.Proofs.Stack
/-!
# What a deed comes to on a stack or an arena

Whatever its callers do with a stack or an arena within the agreement,
and however that ends, is a shift of the buffer, with nothing asked of
the resource, and the only block it may write to is one that the deed is
about: `Stack.ends_act` and `Arena.ends_act`.
-/

namespace Allocators

variable {ρ : Type} [Resource ρ]

open Custody

namespace Buffer

variable {header : Nat} {wrap : Buffer → Allocator} {b : Build} {s : Buffer} {w : World ρ}
variable {live : List Holding} {pending : List Registration}

/-- What happens to a buffer of this kind when the deed is done: a shift,
which writes to no block but the one the deed is about. -/
def Did (header : Nat) (wrap : Buffer → Allocator) (d : Deed) (w : World ρ) (s : Buffer)
    (live : List Holding) (pending : List Registration) (out : Except Failure Reply) (c' : Custody)
    (w' : World ρ) : Prop :=
  ∃ t s', c'.allocator = wrap s' ∧ Step header w s live pending t w' s' c'.live c'.pending ∧
    ∀ y ∈ t, d.Touches out y.toBlock

omit [Resource ρ] in
/-- A step about no block writes to none. -/
theorem Did.of_step {d : Deed} {out : Except Failure Reply} {w' : World ρ} {s' : Buffer}
    {live' : List Holding} {pending' : List Registration}
    (h : Step header w s live pending none w' s' live' pending') :
    Did header wrap d w s live pending out ⟨wrap s', live', pending'⟩ w' :=
  ⟨none, s', rfl, h, fun y hy => absurd hy (Option.not_mem_none y)⟩

omit [Resource ρ] in
/-- A deed that changes nothing. -/
theorem Did.stay {d : Deed} {out : Except Failure Reply} :
    Did header wrap d w s live pending out ⟨wrap s, live, pending⟩ w :=
  .of_step ⟨.stay, rfl⟩

/-- A write into a live block is a shift. -/
theorem ends_write {start len : Nat} (f : Nat → UInt8 → UInt8) {x : Holding} (hx : x ∈ live)
    (h : x.address ≤ start ∧ start + len ≤ x.address + x.size) (b : Build) :
    Ends b (.write start len f) ⟨wrap s, live, pending⟩ w
      (Did header wrap (.write start len f) w s live pending) := by
  refine ⟨.ok .done, ⟨wrap s, live, pending⟩, w.write fun m => m.update start len f, rfl, some x, s,
    rfl, ⟨.write hx ?_, rfl⟩, ?_⟩
  · exact (w.memory.changedIn_update start len f).mono h.1 h.2
  · rintro y hy
    cases hy
    exact h

/-- A clear lets go of everything, or of the callbacks only. -/
theorem ends_clear (hs : Sound header w.memory s live pending) (b : Build)
    (hk : wrap = .stack ∨ wrap = .arena) :
    Ends b (.call .clear) ⟨wrap s, live, pending⟩ w
      (Did header wrap (.call .clear) w s live pending) := by
  have hp : Restriction.perform b [] .clear ⟨wrap s, w⟩ =
      ((fun _ => Reply.done) <$> Action.on s wrap Buffer.clear) ⟨wrap s, w⟩ := by
    rcases hk with rfl | rfl <;> rfl
  have hheap : (wrap s).isHeap = false := by
    rcases hk with rfl | rfl <;> rfl
  cases hn : runResult pending with
  | ok n =>
    refine .of_ok hp (clear_of_ok hs.bounded hn) (if_neg (by simp [hheap]))
      (.of_step ⟨?_, w.calls_ran pending⟩)
    rw [show ((w.ran pending).record _).memory = w.memory from w.memory_ran pending]
    exact .reset
  | error e =>
    refine .of_error hp (clear_of_error hs.bounded hn) rfl (.of_step ⟨?_, w.calls_ran pending⟩)
    simp only [hheap, Bool.false_eq_true, if_false, w.memory_ran pending]
    exact .detach

/-- A registration puts an entry on the shelf, or is declined. -/
theorem ends_register (hs : Sound header w.memory s live pending) (b : Build) {data : Nat}
    (hd : data < Word.size) (h : Handler) (hk : wrap = .stack ∨ wrap = .arena) :
    Ends b (.call (.register data h)) ⟨wrap s, live, pending⟩ w
      (Did header wrap (.call (.register data h)) w s live pending) := by
  have hp : Restriction.perform b [] (.register data h) ⟨wrap s, w⟩ =
      ((fun _ => Reply.done) <$> Action.on s wrap (Buffer.register b data h)) ⟨wrap s, w⟩ := by
    rcases hk with rfl | rfl <;> rfl
  rcases register_cases hs b hd h with hr | ⟨a, s', w', hr, ha, hst⟩
  · exact .of_error hp hr rfl .stay
  · have hcb : (wrap s').callbacks.head = some a := by
      rcases hk with rfl | rfl <;> exact ha
    refine .of_ok hp hr rfl (.of_step ?_)
    simp only [hcb, Option.getD_some]
    exact hst

end Buffer

/-! ## Stacks -/

namespace Stack

open Buffer

variable {b : Build} {s : Buffer} {w : World ρ} {live : List Holding}
variable {pending : List Registration}

/-- An allocation is a shift. -/
theorem ends_allocate (hs : Sound header w.memory s live pending) (b : Build) (l : Layout) :
    Ends b (.call (.allocate l)) ⟨.stack s, live, pending⟩ w
      (Did header .stack (.call (.allocate l)) w s live pending) := by
  rcases allocate_cases hs b l with ⟨w', h, hst⟩ | ⟨a, s', w', h, hst⟩
  · exact .of_error rfl h rfl (.of_step hst)
  · exact .of_ok rfl h rfl (.of_step hst)

/-- The blocks under the latest start elsewhere. -/
theorem address_ne {m : Memory} {x : Holding} {older : List Holding}
    (hs : Sound header m s (x :: older) pending) : ∀ y ∈ older, y.address ≠ x.address := by
  intro y hy
  have hb := Piled.bounds hs.piled.2.2 hy
  have hg := hs.piled.2.1
  have hpos := (hs.shaped y (List.mem_cons_of_mem _ hy)).2
  omega

/-- So the latest block takes its own place among those that are held. -/
theorem answered_resized_top {m : Memory} {x : Holding} {older : List Holding}
    (hs : Sound header m s (x :: older) pending) {r : Resize} (hr : r.Describes x.toBlock)
    (k : Allocator) (size : Nat) (start : Option Nat) :
    Custody.answered ⟨.stack s, x :: older, pending⟩ k (.reallocate r)
        (.resized ⟨x.address, size, start, false⟩) =
      ⟨k, { x with size := size } :: older, pending⟩ := by
  have hne : ∀ y ∈ [] ++ older, y.address ≠ x.address := address_ne hs
  have hlive := Holding.map_split (fun y => { y with address := x.address, size := size }) hne
  simp only [List.nil_append] at hlive
  simp only [Custody.answered, Custody.resized, Bool.false_eq_true, if_false, hr.1, hlive]

/-- A resize is a shift, of the block that is resized. -/
theorem ends_reallocate (hs : Sound header w.memory s live pending) (b : Build) {r : Resize}
    {x : Holding} (hx : x ∈ live) (hr : r.Describes x.toBlock) :
    Ends b (.call (.reallocate r)) ⟨.stack s, live, pending⟩ w
      (Did header .stack (.call (.reallocate r)) w s live pending) := by
  have herr : ∀ e, reallocate b r ⟨s, w⟩ = .error e ⟨s, w⟩ →
      Ends b (.call (.reallocate r)) ⟨.stack s, live, pending⟩ w
        (Did header .stack (.call (.reallocate r)) w s live pending) := fun e h =>
    .of_error rfl h rfl .stay
  cases hp : r.plan b with
  | error e => exact herr e (reallocate_of_error w hp)
  | ok plan =>
    obtain ⟨newer, older, rfl⟩ := List.append_of_mem hx
    by_cases hn : newer = []
    · subst hn
      rcases reallocate_top hs hr hp with h | ⟨size, start, s', w', h, hst⟩
      · exact herr _ h
      · have hc := answered_resized_top hs hr (.stack s') size start
        refine .of_ok rfl h hc ⟨some x, s', rfl, hst, ?_⟩
        rintro y hy
        cases hy
        exact ⟨hr, _, rfl⟩
    · exact herr _ (reallocate_under hs hn hr hp)

/-- A free is a shift, and one of a block under another changes nothing. -/
theorem ends_deallocate (hs : Sound header w.memory s live pending) (b : Build) {a : Nat}
    {l : Layout} {x : Holding} (hx : x ∈ live) (hl : Block.of a l = x.toBlock) :
    Ends b (.call (.deallocate a l)) ⟨.stack s, live, pending⟩ w
      (Did header .stack (.call (.deallocate a l)) w s live pending) := by
  have ha : a = x.address := congrArg Block.address hl
  have hsz : l.size = x.size := congrArg Block.size hl
  subst ha
  obtain ⟨newer, older, rfl⟩ := List.append_of_mem hx
  by_cases hn : newer = []
  · subst hn
    have hf : ∀ k, Custody.answered ⟨.stack s, [] ++ x :: older, pending⟩ k
        (.deallocate x.address l) .done = ⟨k, older, pending⟩ := by
      intro k
      simp only [Custody.answered, Allocator.freed, if_pos, List.nil_append]
    exact .of_ok rfl (deallocate_top hs b hsz) (hf _) (.of_step ⟨.pop rfl, rfl⟩)
  · have h := deallocate_under hs hn b hsz
    cases b with
    | debug => exact .of_error rfl h rfl .stay
    | release =>
      obtain ⟨y, newer, rfl⟩ := List.exists_cons_of_ne_nil hn
      have hlt := hs.piled.end_le (y := y) List.mem_cons_self
      have hpos := (hs.shaped x (by simp)).2
      have hc : Custody.answered ⟨.stack s, y :: newer ++ x :: older, pending⟩ (.stack s)
          (.deallocate x.address l) .done = ⟨.stack s, y :: newer ++ x :: older, pending⟩ := by
        simp only [Custody.answered, Allocator.freed, List.cons_append]
        rw [if_neg (by omega)]
      exact .of_ok rfl h hc (.of_step ⟨.stay, rfl⟩)

/-- **Every deed on a stack is a shift of it.** -/
theorem ends_act (hs : Sound header w.memory s live pending) (b : Build) {d : Deed}
    (hd : Custody.Allows ⟨.stack s, live, pending⟩ d) :
    Ends b d ⟨.stack s, live, pending⟩ w (Did header .stack d w s live pending) := by
  rcases d with call | ⟨start, len, f⟩
  · cases call with
    | allocate l => exact ends_allocate hs b l
    | allocateBytes size =>
      exact .allocateBytes (ends_allocate hs b) .stay size
    | reallocate r =>
      obtain ⟨x, hx, hr⟩ := hd
      exact ends_reallocate hs b hx hr
    | deallocate a l =>
      obtain ⟨x, hx, hl⟩ := hd
      exact ends_deallocate hs b hx hl
    | clear => exact ends_clear hs b (Or.inl rfl)
    | register data h => exact ends_register hs b hd h (Or.inl rfl)
  · obtain ⟨x, hx, hr⟩ := hd
    exact ends_write f hx hr b

end Stack

/-! ## Arenas -/

namespace Arena

open Buffer

variable {b : Build} {s : Buffer} {w : World ρ} {live : List Holding}
variable {pending : List Registration}

/-- An allocation is a shift. -/
theorem ends_allocate (b : Build) (s : Buffer) (w : World ρ) (live : List Holding)
    (pending : List Registration) (l : Layout) :
    Ends b (.call (.allocate l)) ⟨.arena s, live, pending⟩ w
      (Did 0 .arena (.call (.allocate l)) w s live pending) := by
  rcases allocate_cases b s w live pending l with h | ⟨a, s', w', h, hst⟩
  · exact .of_error rfl h rfl .stay
  · exact .of_ok rfl h rfl (.of_step hst)

/-- A free changes nothing. -/
theorem ends_deallocate (b : Build) (s : Buffer) (w : World ρ) (live : List Holding)
    (pending : List Registration) (a : Nat) (l : Layout) :
    Ends b (.call (.deallocate a l)) ⟨.arena s, live, pending⟩ w
      (Did 0 .arena (.call (.deallocate a l)) w s live pending) := by
  have h := deallocate_apply (s := s) b a w
  have hst : Step 0 w s live pending none w s live pending := ⟨.stay, rfl⟩
  cases b with
  | debug => exact .of_error (g := fun _ => .done) rfl h rfl (.of_step hst)
  | release =>
    exact .of_ok (g := fun _ => .done) rfl h rfl (.of_step ⟨.stay, rfl⟩)

/-- **Every deed on an arena is a shift of it.** -/
theorem ends_act (hs : Sound 0 w.memory s live pending) (b : Build) {d : Deed}
    (hd : Custody.Allows ⟨.arena s, live, pending⟩ d) :
    Ends b d ⟨.arena s, live, pending⟩ w (Did 0 .arena d w s live pending) := by
  rcases d with call | ⟨start, len, f⟩
  · cases call with
    | allocate l => exact ends_allocate b s w live pending l
    | allocateBytes size =>
      exact .allocateBytes (ends_allocate b s w live pending)
        .stay size
    | reallocate r =>
      exact .of_error (g := .resized) rfl (reallocate_apply r w) rfl
        (.of_step ⟨.stay, rfl⟩)
    | deallocate a l => exact ends_deallocate b s w live pending a l
    | clear => exact ends_clear hs b (Or.inr rfl)
    | register data h => exact ends_register hs b hd h (Or.inr rfl)
  · obtain ⟨x, hx, hr⟩ := hd
    exact ends_write f hx hr b

end Arena

end Allocators
