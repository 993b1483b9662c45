import Allocators.Proofs.Effect
/-!
# Buffers that no caller can tell apart

Two runs are twins when they have come to the same allocator, a stack or an
arena, with the same live blocks and callbacks, and its headers and entries are
intact in the memory of either, whatever else the two memories hold. Twins
answer alike: the same call has the same answer and the same events in both and
leaves them twins (`Book.Twins.turn`), and so do many (`Book.Twins.turns`). No
caller can tell the two allocators apart (`Book.Twins.looksLike`), and the bytes
that are known of both stay known by the same rule (`Book.Twins.agreeOn_turns`).
-/

namespace Allocators

open Trace

/-! ## What every deed on a buffer keeps -/

/-- Emptied, an allocator is of the same kind. -/
@[simp] theorem Allocator.isHeap_emptied (k : Allocator) : k.emptied.isHeap = k.isHeap := by
  cases k <;> rfl

/-- A buffer keeps its label and its place. -/
theorem Buffer.Shift.emptied_eq {header : Nat} {m m' : Memory} {s s' : Buffer}
    {live live' : List Holding} {pending pending' : List Registration} {t : Option Holding}
    (h : Shift header m s live pending t m' s' live' pending') :
    { s' with region := s'.region.reset, callbacks := .empty } =
      { s with region := s.region.reset, callbacks := .empty } := by
  cases h <;> rfl

section Keeping

variable {ρ : Type} [Resource ρ] {b : Build} {d : Deed} {c : Custody} {w : World ρ} {B : Book ρ}

omit [Resource ρ] in
/-- What a deed leaves of a buffer is in order, with its label and its place. -/
theorem Custody.kept_of_did {header : Nat} {wrap : Buffer → Allocator} {s : Buffer}
    {live : List Holding} {pending : List Registration} {out : Except Failure Reply} {c' : Custody}
    {w' : World ρ} (hk : wrap = .stack ∧ header = Stack.header ∨ wrap = .arena ∧ header = 0)
    (hs : s.Sound header w.memory live pending)
    (h : Buffer.Did header wrap d w s live pending out c' w') :
    c'.Sound b w'.memory ∧ c'.allocator.emptied = (wrap s).emptied := by
  refine ⟨sound_of_did hk hs h, ?_⟩
  obtain ⟨t, s', hc, hst, -⟩ := h
  rw [hc]
  rcases hk with ⟨rfl, -⟩ | ⟨rfl, -⟩
  · exact congrArg Allocator.stack hst.shift.emptied_eq
  · exact congrArg Allocator.arena hst.shift.emptied_eq

/-- So every deed leaves it. -/
theorem Custody.ends_kept (hs : c.Sound b w.memory) (hk : c.allocator.isHeap = false)
    (hd : c.Allows d) : Ends b d c w fun _ c' w' =>
      c'.Sound b w'.memory ∧ c'.allocator.emptied = c.allocator.emptied := by
  obtain ⟨k, live, pending⟩ := c
  obtain ⟨s, rfl | rfl⟩ := Allocator.exists_buffer hk
  · obtain ⟨out, c', w', h, hdid⟩ := Stack.ends_act hs b hd
    exact ⟨out, c', w', h, kept_of_did (Or.inl ⟨rfl, rfl⟩) hs hdid⟩
  · obtain ⟨out, c', w', h, hdid⟩ := Arena.ends_act hs b hd
    exact ⟨out, c', w', h, kept_of_did (Or.inr ⟨rfl, rfl⟩) hs hdid⟩

/-- And so does a deed through a nest. -/
theorem Book.turn_kept (hs : B.custody.Sound b B.world.memory)
    (hk : B.custody.allocator.isHeap = false) (hd : B.custody.Allows d) (nest : List Restriction) :
    (B.turn b nest d).custody.Sound b (B.turn b nest d).world.memory ∧
      (B.turn b nest d).custody.allocator.emptied = B.custody.allocator.emptied := by
  rcases B.turn_cases b nest d with ⟨-, hc, hw⟩ | ⟨-, out, hact⟩
  · rw [hc, hw]
    exact ⟨hs, rfl⟩
  · exact (Custody.ends_kept hs hk hd).elim hact

/-- A buffer stays a buffer. -/
theorem Book.isHeap_turn (hs : B.custody.Sound b B.world.memory)
    (hk : B.custody.allocator.isHeap = false) (hd : B.custody.Allows d) (nest : List Restriction) :
    (B.turn b nest d).custody.allocator.isHeap = false := by
  rw [← Allocator.isHeap_emptied, (turn_kept hs hk hd nest).2, Allocator.isHeap_emptied, hk]

/-- Many deeds leave it so. -/
theorem Book.turns_kept {ds : List (List Restriction × Deed)}
    (hs : B.custody.Sound b B.world.memory) (hk : B.custody.allocator.isHeap = false)
    (hf : B.Fair b Custody.Allows ds) :
    (B.turns b ds).custody.Sound b (B.turns b ds).world.memory ∧
      (B.turns b ds).custody.allocator.emptied = B.custody.allocator.emptied := by
  induction ds generalizing B with
  | nil => exact ⟨hs, rfl⟩
  | cons e ds ih =>
    obtain ⟨nest, d⟩ := e
    have hkept := turn_kept hs hk hf.1.1 nest
    have hlast := ih hkept.1 (isHeap_turn hs hk hf.1.1 nest) hf.2
    exact ⟨hlast.1, hlast.2.trans hkept.2⟩

end Keeping

/-! ## What can be seen of an allocator -/

namespace Book

variable {ρ σ : Type} [Resource ρ] [Resource σ]

/-- The text of the allocator. -/
def text (b : Build) (B : Book ρ) : Except Failure String :=
  B.custody.allocator.text b B.world.memory

/-- What the allocator's end would come to: how it ends, and the events it
adds. -/
def closing (B : Book ρ) : Except Failure Unit × Trace :=
  let (out, s) := Action.ended (Allocator.close ⟨B.custody.allocator, B.world⟩)
  (out, added B.world.events s.world.events)

/-- Nothing that callers can see tells the two allocators apart: their live
blocks and callbacks, how much is taken and left, their text, and what happens
when they are dropped. -/
structure LooksLike (b : Build) (B : Book ρ) (B' : Book σ) : Prop where
  custody : B.custody = B'.custody
  space : B.custody.allocator.space b = B'.custody.allocator.space b
  text : B.text b = B'.text b
  closing : B.closing = B'.closing

/-- Two runs that have come to the same allocator with the same live blocks and
callbacks, a buffer that is in order in both memories. -/
structure Twins (b : Build) (B : Book ρ) (B' : Book σ) : Prop where
  custody : B.custody = B'.custody
  isBuffer : B.custody.allocator.isHeap = false
  sound : B.custody.Sound b B.world.memory
  sound' : B'.custody.Sound b B'.world.memory

end Book

section Seeing

variable {b : Build} {c : Custody} {m m' : Memory}

/-- What the text of a buffer says of the memory is what is held. -/
theorem Custody.Sound.text_congr (hk : c.allocator.isHeap = false) (hs : c.Sound b m)
    (hs' : c.Sound b m') : c.allocator.text b m = c.allocator.text b m' := by
  obtain ⟨k, live, pending⟩ := c
  cases k with
  | heap s => simp at hk
  | stack s =>
    have hl := (Buffer.Sound.linked hs).length_eq (Buffer.Sound.counted hs)
    have hl' := (Buffer.Sound.linked hs').length_eq (Buffer.Sound.counted hs)
    show Stack.text b m s = Stack.text b m' s
    unfold Stack.text
    rw [hl, hl']
  | arena s => rfl

/-- The events of the end of a buffer, latest first. -/
def Buffer.lastEvents (s : Buffer) (pending : List Registration) : Trace :=
  match runResult pending with
  | .ok 0 => .given s.region.base s.region.layout :: ranEvents pending
  | .ok (n + 1) => .given s.region.base s.region.layout :: .noted (some s.label) (.ended (n + 1)) ::
      ranEvents pending
  | .error _ => ranEvents pending

variable {ρ : Type} [Resource ρ] {w : World ρ}

/-- They are told without the memory. -/
theorem Buffer.close_events {header : Nat} {s : Buffer} {live : List Holding}
    {pending : List Registration} (hs : s.Sound header w.memory live pending) :
    ∃ s' w', Buffer.close ⟨s, w⟩ = Action.ending ((runResult pending).map fun _ => ()) ⟨s', w'⟩ ∧
      w'.events = s.lastEvents pending ++ w.events := by
  cases hn : runResult pending with
  | ok n =>
    refine ⟨_, _, close_eq_of_ok hs.bounded hn, ?_⟩
    rw [World.ran_eq]
    cases n with
    | zero =>
      simp only [lastEvents, hn]
      rfl
    | succ n =>
      simp only [lastEvents, hn]
      rfl
  | error e =>
    refine ⟨_, _, close_of_error hs.bounded hn, ?_⟩
    rw [World.ran_eq]
    simp only [lastEvents, hn]
    rfl

/-- So is how an allocator that is a buffer ends. -/
theorem Book.closing_eq {B : Book ρ} {s : Buffer}
    (hk : B.custody.allocator = .stack s ∨ B.custody.allocator = .arena s)
    (hs : B.custody.Sound b B.world.memory) :
    B.closing =
      ((runResult B.custody.pending).map fun _ => (), s.lastEvents B.custody.pending) := by
  obtain ⟨pages, ⟨k, live, pending⟩, w⟩ := B
  have hclose : ∃ k' w', Allocator.close ⟨k, w⟩ =
      Action.ending ((runResult pending).map fun _ => ()) ⟨k', w'⟩ ∧
      w'.events = s.lastEvents pending ++ w.events := by
    rcases hk with rfl | rfl
    · have hb : s.Sound Stack.header w.memory live pending := hs
      obtain ⟨s', w', h, he⟩ := Buffer.close_events hb
      exact ⟨_, w', Action.on_of_ending h _, he⟩
    · have hb : s.Sound 0 w.memory live pending := hs
      obtain ⟨s', w', h, he⟩ := Buffer.close_events hb
      exact ⟨_, w', Action.on_of_ending h _, he⟩
  obtain ⟨k', w', h, he⟩ := hclose
  have hadded := Trace.added_append (s.lastEvents pending) w.events
  rw [← he] at hadded
  unfold closing
  rw [h]
  cases (runResult pending).map fun _ => () <;>
    exact Prod.ext rfl hadded

end Seeing

/-! ## Twins -/

namespace Book.Twins

variable {ρ σ : Type} [Resource ρ] [Resource σ] {b : Build} {B : Book ρ} {B' : Book σ}
variable {d : Deed}

/-- **Twins look alike.** -/
theorem looksLike (h : Twins b B B') : LooksLike b B B' := by
  obtain ⟨hc, hk, hs, hs'⟩ := h
  refine ⟨hc, by rw [hc], ?_, ?_⟩
  · rw [← hc] at hs'
    unfold Book.text
    rw [← hc]
    exact hs.text_congr hk hs'
  · obtain ⟨s, hb⟩ := Allocator.exists_buffer hk
    rw [closing_eq hb hs, closing_eq (hc ▸ hb) hs', hc]

/-- **The same deed is answered alike in both** and leaves them twins; the
memories change by the same stores. -/
theorem turn (h : Twins b B B') (hd : B.custody.Allows d) (nest : List Restriction) :
    Twins b (B.turn b nest d) (B'.turn b nest d) ∧
      (∃ page, (B.turn b nest d).pages = page :: B.pages ∧
        (B'.turn b nest d).pages = page :: B'.pages) ∧
      (B.turn b nest d).world.memory = Store.applyAll (B.stores b nest d) B.world.memory ∧
      (B'.turn b nest d).world.memory = Store.applyAll (B.stores b nest d) B'.world.memory := by
  obtain ⟨hc, hk, hs, hs'⟩ := h
  obtain ⟨e, he⟩ := Custody.exists_deals hs hk hd nest
  have ht := turn_of_deals he hs
  have ht' := turn_of_deals (hc ▸ he) hs'
  have hkept := turn_kept hs hk hd nest
  have hkept' := turn_kept hs' (hc ▸ hk) (hc ▸ hd) nest
  refine ⟨⟨by rw [ht, ht'], isHeap_turn hs hk hd nest, hkept.1, hkept'.1⟩, ?_, ?_, ?_⟩
  · rw [ht, ht']
    exact ⟨_, rfl, rfl⟩
  · rw [ht, stores_of_deals he hs]
    rfl
  · rw [ht', stores_of_deals he hs, hc]
    rfl

variable {ds : List (List Restriction × Deed)}

/-- **So do many**: they are answered alike. -/
theorem turns (h : Twins b B B') (hf : B.Fair b Custody.Allows ds) :
    Twins b (B.turns b ds) (B'.turns b ds) ∧ ∃ new, (B.turns b ds).pages = new ++ B.pages ∧
      (B'.turns b ds).pages = new ++ B'.pages := by
  induction ds generalizing B B' with
  | nil => exact ⟨h, [], rfl, rfl⟩
  | cons e ds ih =>
    obtain ⟨nest, d⟩ := e
    obtain ⟨htwins, ⟨page, hp, hp'⟩, -, -⟩ := h.turn hf.1.1 nest
    obtain ⟨hlast, new, hnew, hnew'⟩ := ih htwins hf.2
    rw [hp] at hnew
    rw [hp'] at hnew'
    exact ⟨hlast, new ++ [page], by rw [List.append_assoc]; exact hnew,
      by rw [List.append_assoc]; exact hnew'⟩

end Book.Twins

/-! ## Known bytes -/

section Knowing

variable {ρ σ : Type} [Resource ρ] [Resource σ] {b : Build} {B : Book ρ} {B' : Book σ}
variable {known : Nat → Prop} {ds : List (List Restriction × Deed)}

/-- The addresses whose bytes are known after these deeds, if these were known
before. -/
def Book.settled (b : Build) (known : Nat → Prop) (B : Book ρ) :
    List (List Restriction × Deed) → Nat → Prop
  | [] => known
  | (nest, d) :: ds =>
    settled b (Store.settleAll known (B.stores b nest d)) (B.turn b nest d) ds

/-- **Bytes that are known of twins stay alike**, and those that are written
become so. -/
theorem Book.Twins.agreeOn_turns (h : Twins b B B') (hf : B.Fair b Custody.Allows ds)
    (ha : B.world.memory.AgreeOn known B'.world.memory) :
    (B.turns b ds).world.memory.AgreeOn (B.settled b known ds) (B'.turns b ds).world.memory := by
  induction ds generalizing B B' known with
  | nil => exact ha
  | cons e ds ih =>
    obtain ⟨nest, d⟩ := e
    obtain ⟨htwins, -, hm, hm'⟩ := h.turn hf.1.1 nest
    refine ih htwins hf.2 ?_
    rw [hm, hm']
    exact Store.agreeOn_applyAll ha _

end Knowing

end Allocators
