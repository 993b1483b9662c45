import Allocators.Proofs.Faultless
import Allocators.Proofs.Interruption
/-!
# What a stack withstands in a debug build

Callers may break every rule there is: resize and free blocks that are
stale, forged or of another size, write anywhere below the tail, headers
included, and go on after each fault. A header may then hold any word, and
the block on top may be one that was never handed out. In a debug build
the bounds of the stack hold all the same. What keeps them is one look at
each moment: an end that is no word is found before it is compared, a
block is moved and resized below the tail only, and a mark that is read
back has to be below the tail before it becomes the cursor:
`Chronicle.stack_bounds_survive_misuse`.
-/

namespace Allocators

open Trace

variable {ρ : Type} [Resource ρ]

/-- What is left of the agreement: what is freed starts at a multiple of a
word, a callback's data is a word, and nothing is written from the tail on. -/
def Custody.Rough (c : Custody) : Deed → Prop
  | .call (.deallocate a _) => a % Word.bytes = 0
  | .call (.register data _) => data < Word.size
  | .call _ => True
  | .write start len _ =>
    match c.allocator with
    | .stack s => start + len ≤ s.region.base + s.region.tail
    | _ => False

instance (c : Custody) (d : Deed) : Decidable (c.Rough d) :=
  match d with
  | .call (.deallocate a _) => inferInstanceAs (Decidable (a % Word.bytes = 0))
  | .call (.register data _) => inferInstanceAs (Decidable (data < Word.size))
  | .call (.allocate _) => .isTrue trivial
  | .call (.allocateBytes _) => .isTrue trivial
  | .call (.reallocate _) => .isTrue trivial
  | .call .clear => .isTrue trivial
  | .write start len _ =>
    match c with
    | ⟨.stack s, _, _⟩ => inferInstanceAs (Decidable (start + len ≤ s.region.base + s.region.tail))
    | ⟨.heap _, _, _⟩ => .isFalse id
    | ⟨.arena _, _, _⟩ => .isFalse id

namespace Stack

open Buffer Custody

variable {s : Buffer} {w : World ρ} {live : List Holding} {pending : List Registration}

omit [Resource ρ] in
/-- **What a debug build takes for the block on top** ends at the cursor and
leaves room for a header, whatever block it is. -/
theorem topOffset?_debug (s : Buffer) (a size : Nat) :
    (∃ f, topOffset? .debug s a size = .error (.fault f)) ∨
    topOffset? .debug s a size = .ok none ∨
    ∃ offset, topOffset? .debug s a size = .ok (some offset) ∧ a = s.region.base + offset ∧
      header ≤ offset ∧ offset + size = s.region.cursor := by
  unfold topOffset? Region.offsetOf?
  by_cases hin : s.region.base ≤ a ∧ a - s.region.base ≤ s.region.capacity
  · rw [if_pos hin]
    by_cases hh : a - s.region.base < header
    · exact Or.inr (Or.inl (if_pos hh))
    · simp only [if_neg hh, Build.add, bind, Except.bind, pure, Except.pure]
      by_cases hw : a - s.region.base + size < Word.size
      · rw [if_pos hw]
        by_cases hc : a - s.region.base + size = s.region.cursor
        · exact Or.inr (Or.inr ⟨_, congrArg Except.ok (if_pos hc), by omega, by omega, hc⟩)
        · exact Or.inr (Or.inl (congrArg Except.ok (if_neg hc)))
      · rw [if_neg hw]
        exact Or.inl ⟨_, rfl⟩
  · rw [if_neg hin]
    exact Or.inr (Or.inl rfl)

end Stack

/-- What a call leaves of a stack, whatever its arguments: the bounds, the
bytes outside the region and from the tail on, and everything if a check of
its own has stopped it. -/
structure Custody.Withstood (s : Buffer) (c : Custody) (w : World ρ)
    (out : Except Failure Reply) (c' : Custody) (w' : World ρ) : Prop where
  bounded : ∃ s', c'.allocator = .stack s' ∧ s'.region.block = s.region.block ∧
    s'.Bounded w'.memory c'.pending
  inside : w.memory.ChangedIn w'.memory s.region.base (s.region.base + s.region.tail)
  stopped : ∀ f, out = .error (.fault f) → f.isCallback = false → c' = c ∧ w' = w

namespace Stack

open Buffer Custody

variable {s : Buffer} {w : World ρ} {live : List Holding} {pending : List Registration}

variable (hs : s.Bounded w.memory pending)

include hs

omit [Resource ρ] in
/-- A call that changes nothing. -/
theorem withstood_stay (out : Except Failure Reply) :
    Withstood s ⟨.stack s, live, pending⟩ w out ⟨.stack s, live, pending⟩ w :=
  ⟨⟨s, rfl, rfl, hs⟩, .refl _ _ _, fun _ _ _ => ⟨rfl, rfl⟩⟩

/-- A block is put on top, or declined. -/
theorem withstood_allocate (l : Layout) :
    Ends .debug (.call (.allocate l)) ⟨.stack s, live, pending⟩ w
      (Withstood s ⟨.stack s, live, pending⟩ w) := by
  have hpos : 0 < max l.align Word.bytes := lt_of_lt_of_le l.align_pos (Nat.le_max_left _ _)
  rcases s.region.bump_cases .debug l.size hpos header with h | ⟨offset, h, hlo, -, hhi⟩
  · exact .of_error rfl (allocate_of_none l w h) rfl
      ⟨⟨s, rfl, rfl, hs⟩, .refl _ _ _, nofun⟩
  · have hoff : header ≤ offset := by omega
    have hm := w.memory.changedIn_writeWord (s.region.base + (offset - header)) s.region.cursor
    have hb : Word.bytes = header := rfl
    have hin : w.memory.ChangedIn _ s.region.base (s.region.base + s.region.tail) :=
      hm.mono (by omega) (by omega)
    exact .of_ok rfl (allocate_of_some l w h hoff) rfl
      ⟨⟨_, rfl, rfl, hs.setCursor hhi hin le_rfl⟩, hin, nofun⟩

/-- Whatever is resized, it is moved and ends below the tail. -/
theorem withstood_reallocate (r : Resize) :
    Ends .debug (.call (.reallocate r)) ⟨.stack s, live, pending⟩ w
      (Withstood s ⟨.stack s, live, pending⟩ w) := by
  have hstay : ∀ e, reallocate .debug r ⟨s, w⟩ = .error e ⟨s, w⟩ →
      Ends .debug (.call (.reallocate r)) ⟨.stack s, live, pending⟩ w
        (Withstood s ⟨.stack s, live, pending⟩ w) := fun e h =>
    .of_error rfl h rfl (withstood_stay hs _)
  cases hp : r.plan .debug with
  | error e => exact hstay e (reallocate_of_error w hp)
  | ok plan =>
    by_cases hal : r.address % r.align = 0
    · rcases topOffset?_debug s r.address r.size with ⟨f, ht⟩ | ht | ⟨offset, ht, ha, -, hc⟩
      · exact hstay _ (reallocate_of_top_error w hp hal ht)
      · exact hstay _ (reallocate_of_none w hp hal ht)
      · have hcur := hs.cursor_le
        have htl := hs.tail_le
        have he := hs.end_lt
        have hoff : offset ≤ s.region.tail := by omega
        by_cases hroom : plan.newSize ≤ s.region.tail - offset
        · have h := reallocate_of_room w hp hal ht hoff (by omega) hroom
          have hm := changedIn_moved hp w.memory r.address (s.region.tail - offset)
          have hg : granted plan (s.region.tail - offset) ≤ s.region.tail - offset := by
            unfold granted
            omega
          have hin : w.memory.ChangedIn _ s.region.base (s.region.base + s.region.tail) :=
            hm.mono (by omega) (by omega)
          exact .of_ok rfl h rfl ⟨⟨_, rfl, rfl, hs.setCursor (by omega) hin le_rfl⟩, hin, nofun⟩
        · exact hstay _ (reallocate_of_no_room w hp hal ht hoff hroom)
    · exact hstay _ (reallocate_of_misaligned w hp hal)

/-- Whatever is freed, the mark that is read back is below the tail, or the
cursor stays where it is. -/
theorem withstood_deallocate (a : Nat) (l : Layout) :
    Ends .debug (.call (.deallocate a l)) ⟨.stack s, live, pending⟩ w
      (Withstood s ⟨.stack s, live, pending⟩ w) := by
  have hstay : ∀ e, deallocate .debug a l ⟨s, w⟩ = .error e ⟨s, w⟩ →
      Ends .debug (.call (.deallocate a l)) ⟨.stack s, live, pending⟩ w
        (Withstood s ⟨.stack s, live, pending⟩ w) := fun e h =>
    .of_error (g := fun _ => .done) rfl h rfl (withstood_stay hs _)
  rcases topOffset?_debug s a l.size with ⟨f, ht⟩ | ht | ⟨offset, ht, -, ho, -⟩
  · exact hstay _ (deallocate_of_top_error w ht)
  · exact hstay _ (deallocate_of_none .debug s a l w ht)
  · by_cases hmark : w.memory.word (s.region.addressOf (offset - header)) ≤ s.region.tail
    · have h := deallocate_of_some w ht ho (Region.setCursor_of_le .debug hmark)
      exact .of_ok (g := fun _ => .done) rfl h rfl
        ⟨⟨_, rfl, rfl, hs.setCursor hmark (.refl _ s.region.base _) le_rfl⟩, .refl _ _ _, nofun⟩
    · have hc : s.region.setCursor .debug (w.memory.word (s.region.addressOf (offset - header))) =
          .error (.fault .cursorPastTail) := by
        simp only [Region.setCursor, Build.require, if_neg hmark, bind, Except.bind]
      exact hstay _ (deallocate_of_mark_error w ht ho hc)

/-- A clear runs the callbacks that were registered, and only they can stop
it. -/
theorem withstood_clear :
    Ends .debug (.call .clear) ⟨.stack s, live, pending⟩ w
      (Withstood s ⟨.stack s, live, pending⟩ w) := by
  have hm : (w.ran pending).memory = w.memory := w.memory_ran pending
  cases hn : runResult pending with
  | ok n =>
    refine .of_ok (g := fun _ => .done) rfl (clear_of_ok hs hn) rfl ⟨⟨_, rfl, rfl, ?_⟩, ?_, nofun⟩
    · show Bounded (w.ran pending).memory _ []
      rw [hm]
      exact hs.reset
    · show w.memory.ChangedIn (w.ran pending).memory _ _
      rw [hm]
      exact .refl _ _ _
  | error e =>
    refine .of_error (g := fun _ => .done) rfl (clear_of_error hs hn) rfl
      ⟨⟨_, rfl, rfl, ?_⟩, ?_, fun f hf hcb => ?_⟩
    · rw [hm]
      exact hs.detach
    · rw [hm]
      exact .refl _ _ _
    · obtain ⟨data, rfl⟩ := fault_of_runResult hn
      cases hf
      cases hcb

/-- A registration puts an entry below the others, or is declined. -/
theorem withstood_register {data : Nat} (hd : data < Word.size) (h : Handler) :
    Ends .debug (.call (.register data h)) ⟨.stack s, live, pending⟩ w
      (Withstood s ⟨.stack s, live, pending⟩ w) := by
  have ht := hs.tail_le
  have he := hs.end_lt
  rcases s.region.carveEntry_cases .debug hs.cursor_le (by omega) with hn | ⟨a, hn, hlo, hhi⟩
  · exact .of_error (g := fun _ => .done) rfl (register_of_none data h w hn) rfl
      (withstood_stay hs _)
  · have hm := CallbackEntry.changedIn_write w.memory a (s.callbacks.entry data h)
    have hread := CallbackEntry.read_write (e := s.callbacks.entry data h) w.memory a hd hs.head_lt
    have hin := hm.mono (show s.region.base ≤ a by omega) hhi
    exact .of_ok (g := fun _ => .done) rfl (register_of_some data h w hn) rfl
      ⟨⟨_, rfl, rfl, hs.carve (e := ⟨a, data, h⟩) hlo hhi hm hread⟩, hin, nofun⟩

/-- **Whatever is called with whatever arguments, the stack withstands it.** -/
theorem withstood {call : Call} (hd : Custody.Rough ⟨.stack s, live, pending⟩ (.call call)) :
    Ends .debug (.call call) ⟨.stack s, live, pending⟩ w
      (Withstood s ⟨.stack s, live, pending⟩ w) := by
  cases call with
  | allocate l => exact withstood_allocate hs l
  | allocateBytes size =>
    exact .allocateBytes (withstood_allocate hs) (withstood_stay hs _) size
  | reallocate r => exact withstood_reallocate hs r
  | deallocate a l => exact withstood_deallocate hs a l
  | clear => exact withstood_clear hs
  | register data h => exact withstood_register hs hd h

end Stack

/-! ## Runs of misuse -/

/-- What holds of a stack in a debug build whatever its callers have done. -/
structure Book.Withstands (B : Book ρ) (s : Buffer) : Prop where
  stack : B.custody.allocator = .stack s
  cursor_le : s.region.cursor ≤ s.region.tail
  tail_le : s.region.tail ≤ s.region.capacity
  /-- What is taken and what is left is told, and makes up the whole. -/
  space : ∃ used free, B.custody.allocator.space .debug = .ok (used, free) ∧
    used + free = s.region.capacity
  /-- The entries of the callbacks that are registered lie from the tail on, and
  are found there. -/
  entries : Shelved (s.region.base + s.region.tail) (s.region.base + s.region.capacity)
    B.custody.pending ∧ Linked B.world.memory s.callbacks.head B.custody.pending
  /-- No call writes outside the region, or to an entry. -/
  writes : ∀ nest call, B.custody.Rough (.call call) → ∀ a,
    (B.turn .debug nest (.call call)).world.memory.byteAt a ≠ B.world.memory.byteAt a →
      s.region.block.Covers a ∧ ∀ e ∈ B.custody.pending, ¬ e.block.Covers a
  /-- A call that a check has stopped, and not a callback, has changed nothing. -/
  stopped : ∀ nest call, B.custody.Rough (.call call) →
    ∀ page ∈ (B.turn .debug nest (.call call)).pages.head?, ∀ f,
      page.outcome = .error (.fault f) → f.isCallback = false →
        (B.turn .debug nest (.call call)).custody = B.custody ∧
          (B.turn .debug nest (.call call)).world = B.world

section Chronicles

variable {B : Book ρ} {s : Buffer} {d : Deed} {nest : List Restriction}

/-- A call through a nest is withstood as well. -/
theorem Book.withstood_turn {call : Call} (hk : B.custody.allocator = .stack s)
    (hs : s.Bounded B.world.memory B.custody.pending) (hd : B.custody.Rough (.call call))
    (nest : List Restriction) :
    ∃ page, (B.turn .debug nest (.call call)).pages = page :: B.pages ∧
      Custody.Withstood s B.custody B.world page.outcome (B.turn .debug nest (.call call)).custody
        (B.turn .debug nest (.call call)).world := by
  obtain ⟨pages, ⟨k, live, pending⟩, w⟩ := B
  cases hk
  by_cases hn : Restriction.Silences nest (.call call)
  · have hdeal := Custody.deal_of_silences hn .debug ⟨.stack s, live, pending⟩ w
    unfold Book.turn
    rw [hdeal]
    exact ⟨_, rfl, ⟨s, rfl, rfl, hs⟩, .refl _ _ _, nofun⟩
  · obtain ⟨out, c', w', hact, hp⟩ := Stack.withstood hs hd
    rw [Book.turn_of_act hn hact]
    exact ⟨_, rfl, hp⟩

/-- **The bounds of a stack hold**, whatever its callers have tried. -/
theorem Chronicle.bounded (h : Chronicle .debug Custody.Rough .stack B) :
    ∃ s, B.custody.allocator = .stack s ∧ s.Bounded B.world.memory B.custody.pending := by
  induction h with
  | @made label capacity k w w' others ha hc hg =>
    rcases Buffer.create_cases label capacity w with ⟨r, w₁, h, -⟩ | ⟨a, l, w₁, h, -, -, he⟩
    · simp only [Allocator.create, h] at hc
      cases hc
    · simp only [Allocator.create, h] at hc
      cases hc
      rw [he] at hg
      have hs : Buffer.Sound Stack.header w'.memory _ [] [] := .granted w'.memory label hg
      exact ⟨_, rfl, hs.bounded⟩
  | @dealt B nest d _ hd _ ih =>
    obtain ⟨s, hk, hs⟩ := ih
    rcases d with call | ⟨start, len, f⟩
    · obtain ⟨page, -, ⟨s', hk', -, hs'⟩, -⟩ := Book.withstood_turn hk hs hd nest
      exact ⟨s', hk', hs'⟩
    · obtain ⟨pages, ⟨k, live, pending⟩, w⟩ := B
      cases hk
      have hm := w.memory.changedIn_update start len f
      exact ⟨s, rfl, { hs with linked := hs.linked_of_changedIn hm hd }⟩
  | @meanwhile B w' others _ ha hkeep ih =>
    obtain ⟨s, hk, hs⟩ := ih
    refine ⟨s, hk, hs.congr (hkeep _ ?_)⟩
    rw [Custody.footprint, hk]
    exact List.mem_cons_self

/-- **The bounds of a stack survive misuse in a debug build**: at every moment of
every run of calls with stale, forged or wrong arguments, and of writes anywhere
below the tail. -/
theorem Chronicle.stack_bounds_survive_misuse (h : Chronicle .debug Custody.Rough .stack B) :
    ∃ s, B.Withstands s := by
  obtain ⟨s, hk, hs⟩ := h.bounded
  have htl := hs.tail_le
  have hcur := hs.cursor_le
  have hspace : B.custody.allocator.space .debug =
      .ok (s.region.cursor + (s.region.capacity - s.region.tail),
        s.region.tail - s.region.cursor) := by
    rw [hk]
    simp only [Allocator.space, hs.used_eq .debug, hs.free_eq .debug]
    rfl
  refine ⟨s, hk, hcur, htl, ⟨_, _, hspace, by omega⟩, ⟨hs.shelved, hs.linked⟩, ?_, ?_⟩
  · intro nest call hd a hne
    obtain ⟨page, -, hp⟩ := Book.withstood_turn hk hs hd nest
    have hin := hp.inside.within_of_ne hne
    have hcap : s.region.capacity = s.region.block.size := rfl
    refine ⟨⟨hin.1, by show a < s.region.base + s.region.capacity; omega⟩, fun e he hcov => ?_⟩
    -- the entries lie from the tail on
    have hb := hs.shelved.bounds he
    have hlo : e.address ≤ a := hcov.1
    omega
  · intro nest call hd page hpage f hf hcb
    obtain ⟨page', hpages, hp⟩ := Book.withstood_turn hk hs hd nest
    rw [hpages] at hpage
    cases hpage
    exact hp.stopped f hf hcb

end Chronicles

/-- A block and a callback; then everything below the tail is overwritten, the
block is freed with that for a header, and resized with a size whose end is no
word. Blocks that were never handed out are resized and freed, the last of
them with a header that has been forged as well. -/
def misdeeds : List (List Restriction × Deed) :=
  [([], .call (.allocate Estate.sampleLayout)), ([], .call (.register 7 .returns)),
    ([], .write 0x100000000 72 fun _ _ => 0xff),
    ([], .call (.deallocate 0x100000010 Estate.sampleLayout)),
    ([], .call (.reallocate ((Resize.ofBlock 0x100000010 0xffffffffffffffff 16).edit
      (.shrinkBack 0xffffffffffffff00)))),
    ([], .call (.reallocate ((Resize.ofBlock 0x100000018 16 8).edit (.expandFront 8 8)))),
    ([], .call (.deallocate 0x100000018 Layout.entry)),
    ([], .write 0x100000010 8 fun _ _ => 0),
    ([], .call (.deallocate 0x100000018 Layout.entry)), ([], .call (.register 8 .fails))]

/-- Three of these are stopped by a check, the forged free sets the cursor to
the forged mark, and the bounds hold. -/
theorem stack_bounds_survive_misuse_misdeeds :
    ((newStack.turns .debug misdeeds).pages.map fun p => p.outcome.isOk) =
      [true, true, true, false, true, false, false, true, true, true] ∧
    (newStack.turns .debug misdeeds).custody.allocator.cursor = 0 ∧
    ∃ s, (newStack.turns .debug misdeeds).Withstands s := by
  have hmade := chronicle_newStack .debug Custody.Rough
  have hfair : newStack.Fair .debug Custody.Rough misdeeds := by decide +kernel
  exact ⟨by decide +kernel, by decide +kernel, (hmade.turns hfair).stack_bounds_survive_misuse⟩

end Allocators
