import Allocators.Proofs.Buffer.Sound
/-!
# What the calls of a buffer come to

The calls that stacks and arenas share, on a buffer whose bounds hold:
registering carves an entry or is declined (`register_cases`), and a
clear or an end runs the chain that was registered and then lets go of
everything, or stops at the first callback that fails (`clear_of_ok`,
`close_of_ok` and their counterparts). Neither build finds a sum or a
difference to complain of, since all of them are addresses within the
region.
-/

namespace Allocators

variable {ρ : Type}

/-! ## Walking without giving back -/

/-- The world after running callbacks whose entries stay where they are. -/
def World.ran (es : List Registration) (w : World ρ) : World ρ := w.walked (fun _ w => w) es

/-- What one callback more does not change, all of them do not change. -/
theorem World.ran_congr {α : Type} {f : World ρ → α}
    (hf : ∀ w data, f (w.record (.ran data)) = f w) (es : List Registration) (w : World ρ) :
    f (w.ran es) = f w := by
  unfold ran
  induction es generalizing w with
  | nil => rfl
  | cons e es ih =>
    rw [World.walked]
    cases e.handler with
    | returns => exact (ih (w.record (.ran e.data))).trans (hf w e.data)
    | fails => exact hf w e.data

/-- Running callbacks writes nothing. -/
@[simp] theorem World.memory_ran (es : List Registration) (w : World ρ) :
    (w.ran es).memory = w.memory := ran_congr (f := World.memory) (fun _ _ => rfl) es w

/-- Running callbacks asks nothing of the resource. -/
@[simp] theorem World.calls_ran (es : List Registration) (w : World ρ) :
    Trace.calls (w.ran es).events = Trace.calls w.events :=
  ran_congr (f := fun w => Trace.calls w.events) (fun _ _ => rfl) es w

namespace Region

/-- A cursor is moved to any place before the tail. -/
theorem setCursor_of_le (b : Build) {r : Region} {offset : Nat} (h : offset ≤ r.tail) :
    r.setCursor b offset = .ok { r with cursor := offset } := by
  simp only [setCursor, Build.require_of b _ h, bind, Except.bind, pure, Except.pure]

/-- The address of a block in the region has an offset. -/
theorem offsetOf?_of_le {r : Region} {a : Nat} (h : r.base ≤ a) (h' : a ≤ r.base + r.capacity) :
    r.offsetOf? a = some (a - r.base) := by
  unfold offsetOf?
  rw [if_pos ⟨h, by omega⟩]

/-- **An entry is carved between the cursor and the tail**, or not at all. -/
theorem carveEntry_cases (b : Build) {r : Region} (hc : r.cursor ≤ r.tail)
    (hw : r.base + r.tail < Word.size) :
    r.carveEntry b = .ok none ∨
      ∃ a, r.carveEntry b = .ok (some (a, { r with tail := a - r.base })) ∧
        r.base + r.cursor ≤ a ∧ a + 24 ≤ r.base + r.tail := by
  -- the sums are addresses within the region, so both builds form them alike
  have hadd : b.add r.base r.cursor = .ok (r.base + r.cursor) := b.add_of_lt (by omega)
  simp only [carveEntry, carveTail, b.add_of_lt hw, hadd, bind, Except.bind, pure, Except.pure]
  by_cases hs : r.base + r.tail < Layout.entry.size
  · exact Or.inl (if_pos hs)
  · rw [if_neg hs]
    have he : Layout.entry.size = 24 := rfl
    have hle := roundDown_le (r.base + r.tail - Layout.entry.size) Layout.entry.align
    generalize roundDown (r.base + r.tail - Layout.entry.size) Layout.entry.align = a at hle ⊢
    by_cases hcur : a < r.base + r.cursor
    · exact Or.inl (if_pos hcur)
    · refine Or.inr ⟨a, ?_, by omega, by omega⟩
      rw [if_neg hcur, b.sub_of_le (by omega)]

end Region

namespace Buffer

variable {header : Nat} {s : Buffer} {w : World ρ} {live : List Holding}
variable {pending : List Registration}

/-- A shift of a buffer in its world, with nothing asked of the resource. -/
structure Step (header : Nat) (w : World ρ) (s : Buffer) (live : List Holding)
    (pending : List Registration) (t : Option Holding) (w' : World ρ) (s' : Buffer)
    (live' : List Holding) (pending' : List Registration) : Prop where
  shift : Shift header w.memory s live pending t w'.memory s' live' pending'
  calls : Trace.calls w'.events = Trace.calls w.events

/-! ## Registering -/

/-- Without room for an entry a callback is not registered. -/
theorem register_of_none {b : Build} (data : Nat) (h : Handler) (w : World ρ)
    (hn : s.region.carveEntry b = .ok none) :
    register b data h ⟨s, w⟩ = .error (.refused .bookkeeping) ⟨s, w⟩ := by
  simp only [register, Action.bind_apply, Action.self_apply, hn, Action.ofExcept_ok,
    Action.refuse_apply]

/-- With room for an entry a callback is registered there. -/
theorem register_of_some {b : Build} (data : Nat) (h : Handler) (w : World ρ) {a : Nat}
    {region : Region} (hn : s.region.carveEntry b = .ok (some (a, region))) :
    register b data h ⟨s, w⟩ =
      .ok () ⟨{ s with region := region, callbacks := s.callbacks.push a },
        w.write fun m => CallbackEntry.write m a (s.callbacks.entry data h)⟩ := by
  simp only [register, Action.bind_apply, Action.self_apply, hn, Action.ofExcept_ok,
    Action.write_apply, Action.become_apply]

/-- **A callback is registered or declined**, and a registration is a shift. -/
theorem register_cases (hs : Sound header w.memory s live pending) (b : Build) {data : Nat}
    (hd : data < Word.size) (h : Handler) :
    register b data h ⟨s, w⟩ = .error (.refused .bookkeeping) ⟨s, w⟩ ∨
      ∃ a s' w', register b data h ⟨s, w⟩ = .ok () ⟨s', w'⟩ ∧ s'.callbacks.head = some a ∧
        Step header w s live pending none w' s' live (⟨a, data, h⟩ :: pending) := by
  have ht := hs.tail_le
  have he := hs.end_lt
  rcases s.region.carveEntry_cases b hs.cursor_le (by omega) with hn | ⟨a, hn, hlo, hhi⟩
  · exact Or.inl (register_of_none data h w hn)
  · refine Or.inr ⟨a, _, _, register_of_some data h w hn, rfl, ?_, rfl⟩
    refine Shift.carve (e := ⟨a, data, h⟩) hlo hhi (CallbackEntry.changedIn_write _ _ _) ?_
    exact CallbackEntry.read_write w.memory a hd hs.bounded.head_lt

/-! ## Clearing and ending -/

/-- The callbacks of a buffer run in the order of the chain. -/
theorem runCallbacks_apply (hs : Bounded w.memory s pending) :
    runCallbacks ⟨s, w⟩ = Action.ending (runResult pending)
      ⟨{ s with callbacks := Callbacks.empty }, w.ran pending⟩ := by
  simp only [runCallbacks, Action.bind_apply, Action.self_apply, Action.become_apply, Callbacks.run,
    hs.counted]
  exact Callbacks.runFrom_linked (fun _ _ _ => rfl) (fun _ _ _ _ => Memory.Keeps.refl _ _)
    hs.linked hs.shelved.pairwise _

/-- A clear in which every callback returns lets go of everything. -/
theorem clear_of_ok (hs : Bounded w.memory s pending) {n : Nat}
    (hn : runResult pending = .ok n) :
    clear ⟨s, w⟩ = .ok () ⟨{ s with region := s.region.reset, callbacks := Callbacks.empty },
      (w.ran pending).record (.noted (some s.label) (.cleared n))⟩ := by
  simp only [clear, Action.bind_apply, runCallbacks_apply hs, hn, Action.ending, Action.self_apply,
    Action.become_apply, Action.note_apply]

/-- A clear in which a callback fails lets go of the callbacks only. -/
theorem clear_of_error (hs : Bounded w.memory s pending) {e : Failure}
    (hn : runResult pending = .error e) :
    clear ⟨s, w⟩ = .error e ⟨{ s with callbacks := Callbacks.empty }, w.ran pending⟩ := by
  simp only [clear, Action.bind_apply, runCallbacks_apply hs, hn, Action.ending]

variable [Resource ρ]

/-- A buffer in which every callback returns reports their number and gives
its region back. -/
theorem close_eq_of_ok (hs : Bounded w.memory s pending) {n : Nat}
    (hn : runResult pending = .ok n) :
    close ⟨s, w⟩ = .ok () ⟨{ s with callbacks := Callbacks.empty },
      ((w.ran pending).farewell s.label (.ok n)).give s.region.base s.region.layout⟩ := by
  simp only [close, Action.bind_apply, runCallbacks_apply hs, hn, Action.ending, Action.self_apply,
    Action.when_apply]
  cases n <;> rfl

/-- It writes nothing before that, and asks nothing of the resource. -/
theorem close_of_ok (hs : Bounded w.memory s pending) {n : Nat}
    (hn : runResult pending = .ok n) :
    ∃ w' : World ρ, close ⟨s, w⟩ = .ok () ⟨{ s with callbacks := Callbacks.empty },
        w'.give s.region.base s.region.layout⟩ ∧
      w'.memory = w.memory ∧ Trace.calls w'.events = Trace.calls w.events :=
  ⟨_, close_eq_of_ok hs hn, by simp, by simp⟩

/-- A buffer in which a callback fails does not give its region back. -/
theorem close_of_error (hs : Bounded w.memory s pending) {e : Failure}
    (hn : runResult pending = .error e) :
    close ⟨s, w⟩ = .error e ⟨{ s with callbacks := Callbacks.empty }, w.ran pending⟩ := by
  simp only [close, Action.bind_apply, runCallbacks_apply hs, hn, Action.ending]

end Buffer

end Allocators
