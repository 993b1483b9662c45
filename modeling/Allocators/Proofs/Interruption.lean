import Allocators.Proofs.Destruction
import Allocators.Proofs.Faultless
/-!
# A callback that fails

A callback may fail, and the call that runs it stops where it is, its work
half done. No callback runs twice all the same, whichever of them fail:
the chain is let go of before its first callback runs, so those after one
that fails never run at all. A clear that fails leaves the region as it was,
and the allocator goes on in order; the next one that does not fail runs
what has been registered since and resets the region. An end that fails
keeps the region, or the entries whose callbacks have not returned:
`Chronicle.callbacks_run_at_most_once`, for every kind, in either build.
-/

namespace Allocators

open Trace

/-! ## What a run of callbacks leaves -/

namespace Allocator

/-- The allocator after it has let go of its callbacks. -/
def detached : Allocator → Allocator
  | heap s => heap { s with callbacks := .empty }
  | stack s => stack { s with callbacks := .empty }
  | arena s => arena { s with callbacks := .empty }

/-- The allocator after it has let go of its callbacks and everything in its
region. -/
def emptied : Allocator → Allocator
  | heap s => heap { s with callbacks := .empty }
  | stack s => stack { s with region := s.region.reset, callbacks := .empty }
  | arena s => arena { s with region := s.region.reset, callbacks := .empty }

end Allocator

/-- Whether all of these callbacks return. -/
def AllReturn (cs : List (Nat × Handler)) : Prop := ∀ x ∈ cs, x.2 = .returns

instance (cs : List (Nat × Handler)) : Decidable (AllReturn cs) :=
  inferInstanceAs (Decidable (∀ x ∈ cs, x.2 = .returns))

/-- How running these callbacks ends, when there is no answer to give: with the
fault of the first that fails, if one does. -/
def runOutcome (cs : List (Nat × Handler)) : Except Failure Unit :=
  match cs.find? (·.2 = .fails) with
  | none => .ok ()
  | some x => .error (.fault (.callback x.1))

section Chains

/-- A run of registered callbacks ends as its callbacks say. -/
theorem runResult_eq (es : List Registration) :
    runResult es = (runOutcome (es.map Registration.callback)).map fun _ => es.length := by
  have hf : (es.map Registration.callback).find? (·.2 = .fails) =
      (es.find? fun e => e.handler = .fails).map Registration.callback := List.find?_map
  unfold runResult runOutcome
  rw [hf]
  cases es.find? fun e => e.handler = .fails <;> rfl

/-- It comes through just when all return. -/
theorem runOutcome_cases (cs : List (Nat × Handler)) :
    AllReturn cs ∧ runOutcome cs = .ok () ∨
      ¬ AllReturn cs ∧ ∃ x ∈ cs, runOutcome cs = .error (.fault (.callback x.1)) := by
  unfold runOutcome
  cases hf : cs.find? (·.2 = .fails) with
  | none =>
    refine Or.inl ⟨fun x hx => ?_, rfl⟩
    have hne := List.find?_eq_none.1 hf x hx
    cases hh : x.2 with
    | returns => rfl
    | fails => simp [hh] at hne
  | some x =>
    have hx : x ∈ cs := List.mem_of_find?_eq_some hf
    have hfails : x.2 = .fails := by simpa using List.find?_some hf
    refine Or.inr ⟨fun h => ?_, x, hx, rfl⟩
    cases hfails.symm.trans (h x hx)

variable {ρ : Type} [Resource ρ]

/-- Along a chain the entries of the callbacks that return are given back,
and nothing else is asked of the resource. -/
theorem World.calls_walked (es : List Registration) (w : World ρ) :
    calls (w.walked (fun a w => w.give a Layout.entry) es).events =
      ((es.takeWhile (·.Returns)).map fun e => Event.given e.address Layout.entry).reverse ++
        calls w.events := by
  induction es generalizing w with
  | nil => rfl
  | cons e es ih =>
    rw [World.walked]
    cases he : e.handler with
    | returns =>
      have hreturns : e.Returns := he
      have hgive : calls ((w.record (.ran e.data)).give e.address Layout.entry).events =
          .given e.address Layout.entry :: calls w.events := rfl
      rw [List.takeWhile_cons_of_pos (by simpa using hreturns), List.map_cons,
        List.reverse_cons, List.append_assoc, List.singleton_append, ← hgive]
      exact ih _
    | fails =>
      rw [List.takeWhile_cons_of_neg (by simp [Registration.Returns, he])]
      rfl

end Chains

/-! ## One clear, one end -/

namespace Custody

variable {ρ : Type} [Resource ρ] {b : Build} {c : Custody} {w : World ρ} {rest : List Block}

/-- The callbacks that are registered, newest first. -/
def due (c : Custody) : List (Nat × Handler) := c.pending.map Registration.callback

/-- A buffer after a clear: all callbacks are let go of, and the live blocks too
if all of them return. -/
def cleared (c : Custody) : Custody :=
  if AllReturn c.due then ⟨c.allocator.emptied, [], []⟩ else ⟨c.allocator.detached, c.live, []⟩

/-- **A clear of a buffer** ends as its callbacks say. It has run those up to
the first that fails, written nothing and asked the resource for nothing. -/
theorem act_clear (hs : c.Sound b w.memory) (hk : c.allocator.isHeap = false) :
    ∃ w', act b (.call .clear) ⟨c, w⟩ =
        Action.ending ((runOutcome c.due).map fun _ => Reply.done) ⟨c.cleared, w'⟩ ∧
      (∃ ns, Tells w.events w'.events ((reached c.due).map Prod.fst) ns) ∧
      w'.memory = w.memory ∧ calls w'.events = calls w.events := by
  have hbuffer : ∀ {header : Nat} {wrap : Buffer → Allocator} {s : Buffer} {live : List Holding}
      {pending : List Registration}, (wrap = .stack ∨ wrap = .arena) →
      s.Sound header w.memory live pending →
        let c : Custody := ⟨wrap s, live, pending⟩
        ∃ w', act b (.call .clear) ⟨c, w⟩ =
            Action.ending ((runOutcome c.due).map fun _ => Reply.done) ⟨c.cleared, w'⟩ ∧
          (∃ ns, Tells w.events w'.events ((reached c.due).map Prod.fst) ns) ∧
          w'.memory = w.memory ∧ calls w'.events = calls w.events := by
    intro header wrap s live pending hk hs c
    have hran := World.tells_ran pending w
    have hdue : c.due = pending.map Registration.callback := rfl
    have hresult := runResult_eq pending
    rw [← hdue] at hresult hran
    have hquiet := And.intro (w.memory_ran pending) (w.calls_ran pending)
    rcases runOutcome_cases c.due with ⟨hr, hout⟩ | ⟨hr, x, -, hout⟩
    · rw [hout] at hresult ⊢
      refine ⟨(w.ran pending).record (.noted (some s.label) (.cleared pending.length)), ?_,
        ⟨_, World.tells_noted hran _ _⟩, hquiet⟩
      have h := Buffer.clear_of_ok hs.bounded hresult
      rw [cleared, if_pos hr]
      rcases hk with rfl | rfl <;> exact act_of_ok (g := fun _ => .done) rfl h
    · rw [hout] at hresult ⊢
      refine ⟨w.ran pending, ?_, ⟨_, hran⟩, hquiet⟩
      have h := Buffer.clear_of_error hs.bounded hresult
      rw [cleared, if_neg hr]
      rcases hk with rfl | rfl <;> exact act_of_error (g := fun _ => .done) rfl h
  obtain ⟨k, live, pending⟩ := c
  cases k with
  | heap s => simp at hk
  | stack s => exact hbuffer (Or.inl rfl) hs
  | arena s => exact hbuffer (Or.inr rfl) hs

/-- The calls on the resource that the end of an allocator makes, latest
first: a heap gives back the entries of the callbacks that come through, a
buffer its region if all do. -/
def handsBack (c : Custody) : Trace :=
  match c.allocator with
  | .heap _ =>
    ((c.pending.takeWhile (·.Returns)).map fun e => Event.given e.address Layout.entry).reverse
  | .stack s => if AllReturn c.due then [.given s.region.base s.region.layout] else []
  | .arena s => if AllReturn c.due then [.given s.region.base s.region.layout] else []

omit [Resource ρ] in
/-- The report at the end runs no callback. -/
theorem tells_end {es : Trace} {ds : List Nat} (h : Tells es w.events ds []) (label : String)
    (x : Except Failure Nat) : ∃ ns, Tells es (w.farewell label x).events ds ns := by
  cases x with
  | ok n => exact ⟨_, World.tells_farewell h label n⟩
  | error e => exact ⟨[], h⟩

/-- **The end of any allocator** ends as its callbacks say. It has run those
up to the first that fails, and handed back what that leaves it to. -/
theorem close_handsBack (hs : c.Sound b w.memory) (ha : Accounts w.events (c.footprint ++ rest)) :
    ∃ k w', Allocator.close ⟨c.allocator, w⟩ = Action.ending (runOutcome c.due) ⟨k, w'⟩ ∧
      (∃ ns, Tells w.events w'.events ((reached c.due).map Prod.fst) ns) ∧
      calls w'.events = c.handsBack ++ calls w.events := by
  have hbuffer : ∀ {header : Nat} {s : Buffer} {live : List Holding}
      {pending : List Registration}, s.Sound header w.memory live pending →
        let cs := pending.map Registration.callback
        ∃ s' w', Buffer.close ⟨s, w⟩ = Action.ending (runOutcome cs) ⟨s', w'⟩ ∧
          (∃ ns, Tells w.events w'.events ((reached cs).map Prod.fst) ns) ∧
          calls w'.events =
            (if AllReturn cs then [.given s.region.base s.region.layout] else []) ++
              calls w.events := by
    intro header s live pending hs cs
    have hran : Tells w.events (w.ran pending).events ((reached cs).map Prod.fst) [] :=
      World.tells_ran pending w
    have hresult : runResult pending = (runOutcome cs).map fun _ => pending.length :=
      runResult_eq pending
    rcases runOutcome_cases cs with ⟨hr, hout⟩ | ⟨hr, x, -, hout⟩
    · rw [hout] at hresult ⊢
      refine ⟨_, _, Buffer.close_eq_of_ok hs.bounded hresult,
        ⟨_, World.tells_give (World.tells_farewell hran s.label pending.length) _ _⟩, ?_⟩
      rw [if_pos hr]
      show Event.given s.region.base s.region.layout ::
        calls ((w.ran pending).farewell s.label _).events = _
      rw [World.calls_farewell, World.calls_ran]
      rfl
    · rw [hout] at hresult ⊢
      refine ⟨_, _, Buffer.close_of_error hs.bounded hresult, ⟨_, hran⟩, ?_⟩
      rw [if_neg hr]
      exact w.calls_ran pending
  obtain ⟨k, live, pending⟩ := c
  cases k with
  | heap s =>
    have h := Heap.close_apply hs ha.pairwise_middle
    have hmap : (runResult pending).map (fun _ => ()) =
        runOutcome (pending.map Registration.callback) := by
      rw [runResult_eq]
      cases runOutcome (pending.map Registration.callback) <;> rfl
    rw [hmap] at h
    have hwalk := World.tells_walked (g := fun a w => w.give a Layout.entry)
      (fun a w => World.tells_give (.refl w.events) a Layout.entry) pending w
    refine ⟨_, _, Action.on_of_ending h _, tells_end hwalk _ _, ?_⟩
    rw [World.calls_farewell]
    exact World.calls_walked pending w
  | stack s =>
    obtain ⟨s', w', h, ht, hc⟩ := hbuffer hs
    exact ⟨_, w', Action.on_of_ending h _, ht, hc⟩
  | arena s =>
    obtain ⟨s', w', h, ht, hc⟩ := hbuffer hs
    exact ⟨_, w', Action.on_of_ending h _, ht, hc⟩

end Custody

/-! ## Runs of calls -/

variable {ρ : Type} [Resource ρ] {b : Build} {kind : AllocatorKind} {B : Book ρ}
variable {nest : List Restriction} {d : Deed}

/-- A deed that comes to its allocator is the next on record. -/
theorem Book.turn_of_act {out : Except Failure Reply} {c' : Custody} {w' : World ρ}
    (hs : ¬ Restriction.Silences nest d)
    (h : Custody.act b d ⟨B.custody, B.world⟩ = Action.ending out ⟨c', w'⟩) :
    B.turn b nest d = ⟨⟨nest, d, out, added B.world.events w'.events⟩ :: B.pages, c', w'⟩ := by
  unfold turn
  rw [Custody.deal_of_not_silences hs, h]
  cases out <;> rfl

/-- What a clear of a buffer leaves, whichever callbacks fail. -/
structure Book.Clears (b : Build) (kind : AllocatorKind) (B : Book ρ) (nest : List Restriction)
    (d : Deed) : Prop where
  /-- It ends with an answer, or with the fault of the first that fails. -/
  outcome : (B.turn b nest d).pages.head?.map Page.outcome =
    some ((runOutcome (awaiting kind B.pages)).map fun _ => .done)
  /-- If all return, everything is let go of and the region is reset. -/
  completed : AllReturn (awaiting kind B.pages) →
    (B.turn b nest d).custody = ⟨B.custody.allocator.emptied, [], []⟩
  /-- If one fails, the callbacks are let go of and nothing else changes. -/
  stopped : ¬ AllReturn (awaiting kind B.pages) →
    (B.turn b nest d).custody = ⟨B.custody.allocator.detached, B.custody.live, []⟩
  /-- Nothing is written and the resource is asked for nothing. -/
  quiet : (B.turn b nest d).world.memory = B.world.memory ∧
    calls (B.turn b nest d).world.events = calls B.world.events
  /-- The allocator goes on from there, in order, and meets no fault. -/
  goesOn : Chronicle b Custody.Allows kind (B.turn b nest d) ∧
    (B.turn b nest d).custody.NoFault b (B.turn b nest d).world

/-- How the callbacks that were registered in a run are called back if any of
them may fail. -/
structure Book.AtMostOnce (b : Build) (kind : AllocatorKind) (B : Book ρ) : Prop where
  /-- Each clear that came through to a buffer ran the callbacks registered
  since the one before it, latest first, up to the first that failed; no
  other deed ran any. -/
  due : AllRan reached kind B.pages
  /-- So each callback that has been registered has run once, awaits its run, or
  has been passed over by a clear that failed before it. -/
  once : (ranIn B.pages ++ (awaiting kind B.pages ++ passedOver unreached kind B.pages).map
    Prod.fst).Perm ((registeredIn B.pages).map Prod.fst)
  /-- What the next clear leaves. -/
  clear : ∀ nest d, kind.clears nest d = true → B.Clears b kind nest d
  /-- The end runs what awaits it in the same way, hands back what that leaves
  it to, and then each callback has run once or been passed over. -/
  ended : ∃ k w', Allocator.close ⟨B.custody.allocator, B.world⟩ =
      Action.ending (runOutcome (awaiting kind B.pages)) ⟨k, w'⟩ ∧
    calls w'.events = B.custody.handsBack ++ calls B.world.events ∧
    let last := invoked (added B.world.events w'.events)
    last = (reached (awaiting kind B.pages)).map Prod.fst ∧
      (ranIn B.pages ++ last ++ (unreached (awaiting kind B.pages) ++
        passedOver unreached kind B.pages).map Prod.fst).Perm
          ((registeredIn B.pages).map Prod.fst)

namespace Chronicle

/-- **Each clear has run what awaited it up to the first that failed**, and no
other deed has run any. -/
theorem allRan (h : Chronicle b Custody.Allows kind B) : AllRan reached kind B.pages := by
  induction h with
  | made _ _ _ => exact trivial
  | @dealt B nest d h _ _ ih =>
    obtain ⟨others, hin⟩ := h.inOrder Custody.steady_allows
    by_cases hc : kind.clears nest d = true
    · obtain ⟨rfl, hheap, hn⟩ := AllocatorKind.clears_iff.1 hc
      obtain ⟨w', hact, ⟨ns, ht⟩, -⟩ := Custody.act_clear hin.sound (hin.kind.trans hheap)
      rw [Custody.due, h.pending_eq] at ht
      have hsil : ¬ Restriction.Silences nest (.call .clear) := hn
      rw [Book.turn_of_act hsil hact]
      exact ⟨by rw [if_pos hc]; exact ht.added.1, ih⟩
    · obtain ⟨ns, ht⟩ := Custody.runsNone_deal hin.kind hc b B.world
      exact ⟨by rw [if_neg hc]; exact ht.added.1, ih⟩
  | meanwhile _ _ _ ih => exact ih

/-- Callers who keep to the agreement have met no fault so far. -/
theorem noFault (h : Chronicle b Custody.Allows kind B) : B.custody.NoFault b B.world := by
  obtain ⟨others, hin⟩ := h.inOrder Custody.steady_allows
  exact Custody.noFault hin.sound hin.accounts

/-- What the next clear leaves. -/
theorem clears (h : Chronicle b Custody.Allows kind B) (hc : kind.clears nest d = true) :
    B.Clears b kind nest d := by
  obtain ⟨others, hin⟩ := h.inOrder Custody.steady_allows
  obtain ⟨rfl, hheap, hn⟩ := AllocatorKind.clears_iff.1 hc
  obtain ⟨w', hact, -, hm, hcalls⟩ := Custody.act_clear hin.sound (hin.kind.trans hheap)
  have hdue : B.custody.due = awaiting kind B.pages := h.pending_eq
  have hsil : ¬ Restriction.Silences nest (.call .clear) := hn
  have hturn := Book.turn_of_act hsil hact
  -- the resource has not been asked, so it has kept its part
  have hgoes : Chronicle b Custody.Allows kind (B.turn b nest (.call .clear)) := by
    refine h.dealt trivial ?_
    rw [hturn]
    exact (honoured_congr hcalls).2 hin.accounts.honoured
  refine ⟨?_, fun hr => ?_, fun hr => ?_, ?_, hgoes, hgoes.noFault⟩
  · rw [hturn, ← hdue]
    rfl
  · rw [hturn]
    exact if_pos (hdue ▸ hr)
  · rw [hturn]
    exact if_neg (hdue ▸ hr)
  · rw [hturn]
    exact ⟨hm, hcalls⟩

/-- **No callback runs twice, whichever of them fail**: at every moment of every
run of calls on an allocator, and if the allocator is dropped there. -/
theorem callbacks_run_at_most_once (h : Chronicle b Custody.Allows kind B) :
    B.AtMostOnce b kind := by
  obtain ⟨others, hin⟩ := h.inOrder Custody.steady_allows
  have honce := h.allRan.perm reached_append_unreached
  obtain ⟨k, w', hclose, ⟨ns, ht⟩, hcalls⟩ := Custody.close_handsBack hin.sound hin.accounts
  have hdue : B.custody.due = awaiting kind B.pages := h.pending_eq
  rw [hdue] at hclose ht
  refine ⟨h.allRan, honce, fun nest d hc => h.clears hc, k, w', hclose, hcalls, ht.added.1, ?_⟩
  -- what awaits the end is split in two
  have hsplit := reached_append_unreached (awaiting kind B.pages)
  rw [ht.added.1, List.append_assoc, ← List.map_append, ← List.append_assoc, hsplit]
  exact honce

end Chronicle

/-- Three callbacks are registered, of which the second fails, a clear runs the
last two, a fourth is registered, another clear runs it, and so on. -/
def mishaps : List (List Restriction × Deed) :=
  [([], .call (.register 1 .returns)), ([], .call (.register 2 .fails)),
    ([], .call (.register 3 .returns)), ([], .call .clear), ([], .call (.register 4 .returns)),
    ([], .call .clear), ([], .call (.register 5 .fails))]

/-- The first callback is passed over, and never runs. -/
theorem callbacks_run_at_most_once_mishaps :
    (newStack.turns .debug mishaps).pages.map (fun p => invoked p.events) =
      [[], [4], [], [3, 2], [], [], []] ∧
    passedOver unreached .stack (newStack.turns .debug mishaps).pages = [(1, .returns)] ∧
    (newStack.turns .debug mishaps).AtMostOnce .debug .stack := by
  have hc : Allocator.create .stack "stack" 96 (.start (Pool.ofSize 4096)) =
      (.ok newStack.custody.allocator, newStack.world) := rfl
  have hmade : Chronicle .debug Custody.Allows .stack newStack :=
    .made Accounts.nil hc (by decide +kernel)
  have hfair : newStack.Fair .debug Custody.Allows mishaps := by decide +kernel
  exact ⟨by decide +kernel, by decide +kernel, (hmade.turns hfair).callbacks_run_at_most_once⟩

end Allocators
