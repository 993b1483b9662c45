import Allocators.Proofs.Chronicle
import Allocators.Proofs.Closure
/-!
# Which callbacks have run

A trace tells which callbacks have run, in their order, and which numbers
of them notices report. `Trace.Tells` compares two traces: what has run
and been reported from the one to the other. A chain runs its callbacks
once each, newest first, up to the first that fails
(`World.tells_walked`); if all return, a clear of a buffer and the end of
any allocator run the chain and report its length
(`Custody.tells_clear`, `Custody.tells_close`), and no other call runs a
callback (`Restriction.runsNone_perform`). The text of an allocator
says how many are left to run (`Custody.text_eq`).
-/

namespace Allocators

open Trace

/-- The data of the callback that ran, if one did. -/
def Event.ran? : Event → Option Nat
  | .ran data => some data
  | _ => none

/-- How many callbacks have run, if the event is a notice that reports it. -/
def Event.reported? : Event → Option Nat
  | .noted _ (.cleared n) => some n
  | .noted _ (.ended n) => some n
  | _ => none

namespace Trace

variable {es es' es'' : Trace} {ds ds' ns ns' : List Nat}

/-- The data of the callbacks that ran, in the order in which they did. -/
def invoked (es : Trace) : List Nat := (es.filterMap Event.ran?).reverse

/-- The numbers of callbacks that were reported, in order. -/
def reported (es : Trace) : List Nat := (es.filterMap Event.reported?).reverse

/-- The second trace goes on from the first, and in between just these
callbacks ran and these numbers were reported. -/
def Tells (es es' : Trace) (ds ns : List Nat) : Prop :=
  ∃ new, es' = new ++ es ∧ invoked new = ds ∧ reported new = ns

/-- A trace goes on from itself with nothing. -/
theorem Tells.refl (es : Trace) : Tells es es [] [] := ⟨[], rfl, rfl, rfl⟩

/-- One event more. -/
theorem Tells.cons (h : Tells es es' ds ns) (e : Event) :
    Tells es (e :: es') (ds ++ e.ran?.toList) (ns ++ e.reported?.toList) := by
  obtain ⟨new, rfl, rfl, rfl⟩ := h
  refine ⟨e :: new, rfl, ?_, ?_⟩
  · unfold invoked
    cases hd : e.ran? <;> simp [hd]
  · unfold reported
    cases hn : e.reported? <;> simp [hn]

/-- What happens later comes after what happened before. -/
theorem Tells.trans (h : Tells es es' ds ns) (h' : Tells es' es'' ds' ns') :
    Tells es es'' (ds ++ ds') (ns ++ ns') := by
  obtain ⟨new, rfl, rfl, rfl⟩ := h
  obtain ⟨new', rfl, rfl, rfl⟩ := h'
  refine ⟨new' ++ new, (List.append_assoc _ _ _).symm, ?_, ?_⟩
  · simp only [invoked, List.filterMap_append, List.reverse_append]
  · simp only [reported, List.filterMap_append, List.reverse_append]

/-- The events that were added tell the same. -/
theorem Tells.added (h : Tells es es' ds ns) :
    invoked (Trace.added es es') = ds ∧ reported (Trace.added es es') = ns := by
  obtain ⟨new, rfl, hd, hn⟩ := h
  rw [added_append]
  exact ⟨hd, hn⟩

/-- No callback ran between the two traces. -/
def RunsNone (es es' : Trace) : Prop := ∃ ns, Tells es es' [] ns

/-- One event more that is no callback. -/
theorem RunsNone.cons (h : RunsNone es es') {e : Event} (he : e.ran? = none) :
    RunsNone es (e :: es') := by
  obtain ⟨ns, h⟩ := h
  have hc := h.cons e
  rw [he] at hc
  exact ⟨_, hc⟩

variable {ρ : Type} [Resource ρ]

/-- What a call does in a world, short of running a callback, runs none. -/
theorem RunsNone.closed (es : Trace) : World.Closed fun w : World ρ => RunsNone es w.events where
  noted _ _ h := h.cons rfl
  write _ h := h
  take {w} l h := by
    rcases w.take_cases l with ⟨v, ht, -, hev⟩ | ⟨a, v, ht, -, hev⟩
    · rw [ht, hev]
      exact h.cons rfl
    · rw [ht, hev]
      exact h.cons rfl
  give _ _ h := h.cons rfl

end Trace

variable {ρ : Type} [Resource ρ] {b : Build} {w : World ρ}

/-- **Only a clear runs callbacks**, whatever the call and however it ends. -/
theorem Restriction.runsNone_perform (b : Build) (nest : List Restriction) {call : Call}
    (hc : call ≠ .clear) (k : Allocator) (w : World ρ) :
    RunsNone w.events (Action.ended (perform b nest call ⟨k, w⟩)).2.world.events :=
  (RunsNone.closed w.events).perform (fun h => absurd h hc) b nest k ⟨[], .refl _⟩

/-! ## Chains -/

/-- The data and the handler. -/
def Registration.callback (e : Registration) : Nat × Handler := (e.data, e.handler)

/-- Of callbacks that are due in this order, those that run: up to the first
that fails, and with it. -/
def reached (cs : List (Nat × Handler)) : List (Nat × Handler) :=
  cs.take (cs.findIdx (·.2 = .fails) + 1)

/-- And those that do not: what comes after it. -/
def unreached (cs : List (Nat × Handler)) : List (Nat × Handler) :=
  cs.drop (cs.findIdx (·.2 = .fails) + 1)

section Walking

variable {es : Trace} {pending : List Registration} {cs : List (Nat × Handler)} {ds ns : List Nat}

/-- Nothing is both or neither. -/
theorem reached_append_unreached (cs : List (Nat × Handler)) : reached cs ++ unreached cs = cs :=
  List.take_append_drop _ cs

/-- A callback that returns is followed by the others. -/
theorem reached_cons_of_returns {x : Nat × Handler} (hx : x.2 = .returns) :
    reached (x :: cs) = x :: reached cs := by
  rw [reached, List.findIdx_cons]
  simp [hx, reached]

/-- One that fails is not. -/
theorem reached_cons_of_fails {x : Nat × Handler} (hx : x.2 = .fails) :
    reached (x :: cs) = [x] := by
  rw [reached, List.findIdx_cons]
  simp [hx]

/-- All run if all return. -/
theorem reached_of_returns (h : ∀ x ∈ cs, x.2 = .returns) : reached cs = cs := by
  induction cs with
  | nil => rfl
  | cons x cs ih =>
    rw [reached_cons_of_returns (h x List.mem_cons_self),
      ih fun y hy => h y (List.mem_cons_of_mem _ hy)]

omit [Resource ρ] in
/-- **A chain runs its callbacks once each**, in order, up to the first that
fails, if nothing that is done with an entry afterwards runs or reports any. -/
theorem World.tells_walked {g : Nat → World ρ → World ρ}
    (hg : ∀ a w, Tells w.events (g a w).events [] []) (pending : List Registration)
    (w : World ρ) :
    Tells w.events (w.walked g pending).events
      ((reached (pending.map Registration.callback)).map Prod.fst) [] := by
  induction pending generalizing w with
  | nil => exact .refl _
  | cons e pending ih =>
    have hran : Tells w.events (w.record (.ran e.data)).events [e.data] [] :=
      (Tells.refl w.events).cons _
    rw [World.walked, List.map_cons]
    cases he : e.handler with
    | returns =>
      rw [reached_cons_of_returns he]
      exact (hran.trans (hg _ _)).trans (ih (g e.address (w.record (.ran e.data))))
    | fails =>
      rw [reached_cons_of_fails he]
      exact hran

/-- They are all of them if all return. -/
theorem reached_callbacks (hr : ∀ e ∈ pending, e.Returns) :
    (reached (pending.map Registration.callback)).map Prod.fst =
      pending.map Registration.data := by
  rw [reached_of_returns fun x hx => ?_, List.map_map]
  · rfl
  · obtain ⟨e, he, rfl⟩ := List.mem_map.1 hx
    exact hr e he

omit [Resource ρ] in
/-- In particular if their entries stay where they are. -/
theorem World.tells_ran (pending : List Registration) (w : World ρ) :
    Tells w.events (w.ran pending).events
      ((reached (pending.map Registration.callback)).map Prod.fst) [] :=
  World.tells_walked (fun _ w => .refl w.events) pending w

omit [Resource ρ] in
/-- A notice runs nothing, and reports a number if it is one that does. -/
theorem World.tells_noted (h : Tells es w.events ds []) (label : Option String) (n : Notice) :
    Tells es (w.record (.noted label n)).events ds (Event.noted label n).reported?.toList := by
  have hc : Tells es _ (ds ++ []) (Event.noted label n).reported?.toList := h.cons (.noted label n)
  rwa [List.append_nil] at hc

omit [Resource ρ] in
/-- The number of callbacks is reported at the end, if there were any. -/
theorem World.tells_farewell (h : Tells es w.events ds []) (label : String) (n : Nat) :
    Tells es (w.farewell label (.ok n)).events ds (if n = 0 then [] else [n]) := by
  cases n with
  | zero => exact h
  | succ n => exact World.tells_noted h _ _

/-- A block given back runs and reports nothing. -/
theorem World.tells_give (h : Tells es w.events ds ns) (a : Nat) (l : Layout) :
    Tells es (w.give a l).events ds ns := by
  have hc : Tells es (w.give a l).events (ds ++ []) (ns ++ []) := h.cons (.given a l)
  rwa [List.append_nil, List.append_nil] at hc

end Walking

/-- As many entries are found along a chain as were registered. -/
theorem Linked.walk_eq {m : Memory} {head : Option Nat} {es : List Registration}
    (h : Linked m head es) : Callbacks.walk m es.length head = es.length := by
  induction es generalizing head with
  | nil => rfl
  | cons e es ih =>
    obtain ⟨rfl, link, hread, hl⟩ := h
    rw [List.length_cons, Callbacks.walk, hread, ih hl]

/-- Callbacks that are such a chain are as many. -/
theorem Linked.length_eq {m : Memory} {c : Callbacks} {es : List Registration}
    (h : Linked m c.head es) (hc : c.count = es.length) : c.length m = es.length := by
  rw [Callbacks.length, hc, h.walk_eq]

/-! ## Allocators -/

/-- Whether the allocator's text says how many callbacks are registered. -/
def Allocator.Counts : Allocator → Prop
  | heap _ => True
  | stack _ => True
  | arena _ => False

namespace Custody

variable {c : Custody} {rest : List Block}

omit [Resource ρ] in
/-- The text says how many callbacks are registered. -/
theorem text_eq {m : Memory} (hs : c.Sound b m) (hc : c.allocator.Counts) :
    ∃ front, c.allocator.text b m =
      .ok (front ++ "\n  Destruction callbacks: " ++ toString c.pending.length ++ "\n") := by
  obtain ⟨k, live, pending⟩ := c
  cases k with
  | heap s =>
    have hl : s.callbacks.length m = pending.length := (Heap.Sound.linked hs).length_eq hs.counted
    show ∃ front, Except.ok (s.text m) = _
    unfold Heap.text
    rw [hl]
    exact ⟨_, rfl⟩
  | stack s =>
    have hl : s.callbacks.length m = pending.length := (Buffer.Sound.linked hs).length_eq hs.counted
    have hf : s.region.free b = .ok (s.region.tail - s.region.cursor) :=
      b.sub_of_le (Buffer.Sound.cursor_le hs)
    show ∃ front, Stack.text b m s = _
    unfold Stack.text
    rw [hf, hl]
    exact ⟨_, rfl⟩
  | arena s => exact hc.elim

/-- **A clear of a buffer** runs the callbacks that are registered, and
reports their number. -/
theorem tells_clear (hs : c.Sound b w.memory) (hk : c.allocator.isHeap = false)
    (hr : ∀ e ∈ c.pending, e.Returns) :
    ∃ k w', act b (.call .clear) ⟨c, w⟩ = .ok .done ⟨⟨k, [], []⟩, w'⟩ ∧
      Tells w.events w'.events (c.pending.map Registration.data) [c.pending.length] := by
  obtain ⟨k, live, pending⟩ := c
  have hn := runResult_of_returns hr
  have hran : Tells w.events (w.ran pending).events (pending.map Registration.data) [] :=
    reached_callbacks hr ▸ World.tells_ran pending w
  have ht : ∀ label, Tells w.events
      ((w.ran pending).record (.noted (some label) (.cleared pending.length))).events
      (pending.map Registration.data) [pending.length] := fun label =>
    World.tells_noted hran _ _
  cases k with
  | heap s => simp at hk
  | stack s =>
    have hclear := Buffer.clear_of_ok (Buffer.Sound.bounded hs) hn
    exact ⟨_, _, act_of_ok (g := fun _ => .done) rfl hclear, ht s.label⟩
  | arena s =>
    have hclear := Buffer.clear_of_ok (Buffer.Sound.bounded hs) hn
    exact ⟨_, _, act_of_ok (g := fun _ => .done) rfl hclear, ht s.label⟩

/-- **The end of any allocator** runs the callbacks that are registered, and
reports their number if there are any. -/
theorem tells_close (hs : c.Sound b w.memory) (ha : Accounts w.events (c.footprint ++ rest))
    (hr : ∀ e ∈ c.pending, e.Returns) :
    ∃ k w', Allocator.close ⟨c.allocator, w⟩ = .ok () ⟨k, w'⟩ ∧
      Tells w.events w'.events (c.pending.map Registration.data)
        (if c.pending.length = 0 then [] else [c.pending.length]) := by
  obtain ⟨k, live, pending⟩ := c
  have hn := runResult_of_returns hr
  have hran : Tells w.events (w.ran pending).events (pending.map Registration.data) [] :=
    reached_callbacks hr ▸ World.tells_ran pending w
  cases k with
  | heap s =>
    have h := Heap.close_apply hs ha.pairwise_middle
    rw [hn] at h
    have hw := World.tells_walked (g := fun a w => w.give a Layout.entry)
      (fun a w => World.tells_give (.refl w.events) a Layout.entry) pending w
    rw [reached_callbacks hr] at hw
    exact ⟨_, _, Action.on_of_ok h _, World.tells_farewell hw s.label pending.length⟩
  | stack s =>
    exact ⟨_, _, Action.on_of_ok (Buffer.close_eq_of_ok (Buffer.Sound.bounded hs) hn) _,
      World.tells_give (World.tells_farewell hran s.label pending.length) _ _⟩
  | arena s =>
    exact ⟨_, _, Action.on_of_ok (Buffer.close_eq_of_ok (Buffer.Sound.bounded hs) hn) _,
      World.tells_give (World.tells_farewell hran s.label pending.length) _ _⟩

end Custody

end Allocators
