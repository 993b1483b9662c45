import Allocators.Proofs.Shell.Record
import Allocators.Proofs.Shell.Sessions
/-!
# Sessions list the live blocks of their allocators

Two parties remember which blocks are live: a session in its ledger, and
its allocator in a ledger of its own, or in its cursor and the words in
front of its blocks. A prompt of a shell in order is in order again
(`InOrder.line_cases` for one line, `InOrder.track` for any number), so at
every prompt both tell the same (`Shell.sessions_list_live_blocks`). Whatever
numbers and switches a command gives then, no fault is found by it, unless it
is to free a block of a stack or an arena; and none is found when the sessions
end.
-/

namespace Allocators

open Trace

variable {ρ : Type} [Resource ρ]

namespace Shell

variable {s s' : Shell ρ} {roll roll' : Roll}

/-! ## Every prompt -/

/-- **Every command is carried out**, but to free a block that its allocator
cannot free. -/
theorem InOrder.carried (h : s.InOrder roll) {cmd : Command} (hm : ¬ s.Misfrees roll cmd)
    (ho : Ordinary (s.execute .debug cmd).2.world.events) :
    Carried (s.execute .debug cmd) (s.rollAfter .debug roll cmd) := by
  cases cmd with
  | create name kind capacity zeroed => exact h.carried_create name kind capacity zeroed ho
  | delete name => exact h.carried_delete name
  | alloc name size align => exact h.carried_alloc name size align ho
  | realloc name base changes => exact h.carried_realloc name base changes ho
  | free name base => exact h.carried_free name base hm ho
  | clear name => exact h.carried_clear name ho
  | features name =>
    show Carried (s.features name) roll
    unfold features onSession
    split <;> exact carried_printing h _
  | print name => exact h.carried_print name
  | exit => exact carried_printing h _

/-- The line's command is to free a block that its allocator cannot free. -/
def MisfreesBy (s : Shell ρ) (roll : Roll) (text : String) : Prop :=
  ∃ cmd, Command.ofLine text = .ok cmd ∧ s.Misfrees roll cmd

omit [Resource ρ] in
/-- Only one command matters. -/
theorem misfreesBy_iff {text : String} {cmd : Command} (hc : Command.ofLine text = .ok cmd) :
    s.MisfreesBy roll text ↔ s.Misfrees roll cmd := by
  constructor
  · rintro ⟨cmd', hc', hm⟩
    cases hc.symm.trans hc'
    exact hm
  · exact fun hm => ⟨cmd, hc, hm⟩

/-- **One line**: a fault ends it if its command is to free a block that its
allocator cannot free; else it is the last, or there is another prompt, in
order again. -/
theorem InOrder.line_cases (h : s.InOrder roll) (text : String)
    (ho : Ordinary (s.line .debug text).shell.world.events) :
    (s.MisfreesBy roll text ∧ ∃ f s', s.line .debug text = .over (.printed "" (.fault f)) true s') ∨
    ¬ s.MisfreesBy roll text ∧ (s.line .debug text = .over (.printed "" .done) false s ∨
      ∃ step s' roll', s.line .debug text = .more step s' ∧ step.Answered ∧
        s.track .debug roll [text] = some (s', roll') ∧ s'.InOrder roll') := by
  rcases s.line_cases .debug text with ⟨r, hc, hl⟩ | ⟨hc, hl⟩ | ⟨cmd, hc, hcarry⟩
  · have hnot : ¬ s.MisfreesBy roll text := by
      rintro ⟨cmd, hc', -⟩
      cases hc.symm.trans hc'
    have ht : s.track .debug roll [text] = some (s, roll) := by simp only [Shell.track, hl, hc]
    exact Or.inr ⟨hnot, Or.inr ⟨_, s, roll, hl, trivial, ht, h⟩⟩
  · refine Or.inr ⟨fun hm => ?_, Or.inl hl⟩
    obtain ⟨name, base, x, l, c, hcmd, -⟩ := (misfreesBy_iff hc).1 hm
    cases hcmd
  · rw [misfreesBy_iff hc]
    by_cases hm : s.Misfrees roll cmd
    · obtain ⟨f, hf⟩ := h.fault_of_misfrees hm
      rcases hcarry with ⟨out, f', s', hex, hl⟩ | ⟨step, s', hex, ha, -⟩
      · rw [hex] at hf
        cases hf
        exact Or.inl ⟨hm, f, s', hl⟩
      · rw [hex] at hf
        obtain rfl : step = .printed "" (.fault f) := hf
        exact ha.elim
    · rw [shell_line hc] at ho
      have hcarried := h.carried hm ho
      refine Or.inr ⟨hm, Or.inr ?_⟩
      rcases hcarry with ⟨out, f, s', hex, hl⟩ | ⟨step, s', hex, ha, hl⟩
      · rw [hex] at hcarried
        obtain ⟨out', hout⟩ := hcarried.done
        cases hout
      · rw [hex] at hcarried
        exact ⟨step, s', _, hl, ha, track_of_more hl hc, hcarried.inOrder⟩

/-- **Every prompt is in order.** -/
theorem InOrder.track (h : s.InOrder roll) {lines : List String}
    (ht : s.track .debug roll lines = some (s', roll')) (ho : Ordinary s'.world.events) :
    s'.InOrder roll' := by
  induction lines generalizing s roll with
  | nil =>
    cases ht
    exact h
  | cons text rest ih =>
    rw [track_cons] at ht
    obtain ⟨⟨u, roll₁⟩, hu, ht⟩ := Option.bind_eq_some_iff.1 ht
    obtain ⟨step, hl⟩ := line_of_track hu
    have hou : Ordinary (s.line .debug text).shell.world.events := by
      rw [hl]
      exact ho.of_suffix (suffix_track .debug u ht)
    rcases h.line_cases text hou with
      ⟨-, f, v, hover⟩ | ⟨-, hover | ⟨step', v, roll₂, -, -, hv, hin⟩⟩
    · cases hl.symm.trans hover
    · cases hl.symm.trans hover
    · cases hu.symm.trans hv
      exact ih hin ht

end Shell

/-! ## Two records of the live blocks -/

/-- What the allocator keeps of its live blocks itself tells the same as the
ledger: a heap's own ledger finds what this one finds. In a stack the live
blocks are piled up to the cursor, the latest on top, and the word in front
of each holds the cursor from before it; in an arena they are piled up to the
cursor. -/
def Custody.Tells (c : Custody) (m : Memory) (t : Ledger) : Prop :=
  match c.allocator with
  | .heap k => ∀ a, t.find? a = k.ledger.find? a
  | .stack k => Piled Stack.header k.region.base k.region.cursor c.live ∧
      ∀ x ∈ c.live, m.word (x.address - Stack.header) = x.mark
  | .arena k => Piled 0 k.region.base k.region.cursor c.live

/-- A session lists the live blocks of its allocator, and the allocator's own
record tells the same. -/
structure Session.Books (x : Session) (c : Custody) (m : Memory) : Prop where
  /-- The custody is of the session's allocator. -/
  allocator : x.allocator = c.allocator
  /-- The ledger's entries are the live blocks, each entered once: where it is
  now, with the size it was granted and the alignment it was asked for with. -/
  lists : x.blocks.Lists c.blocks
  /-- What is found at an address is the live block that starts there. -/
  found : ∀ a l, x.blocks.find? a = some l ↔ Block.of a l ∈ c.blocks
  /-- The allocator's own record tells the same. -/
  tells : c.Tells m x.blocks

/-- A session of a shell in order does. -/
theorem Session.Booked.books {x : Session} {c : Custody} {m : Memory} (hx : x.Booked c)
    (hs : c.Sound .debug m) (hd : c.Distinct) : x.Books c m where
  allocator := hx.allocator
  lists := hx.lists
  found _ _ := hx.lists.find?_eq_some_iff hd
  tells := by
    have hfound : ∀ a l, x.blocks.find? a = some l ↔ Block.of a l ∈ c.blocks := fun _ _ =>
      hx.lists.find?_eq_some_iff hd
    obtain ⟨k, live, pending⟩ := c
    cases k with
    | heap k =>
      intro a
      have hlisted := Heap.Sound.listed hs rfl
      exact Option.ext fun l => (hfound a l).trans (hlisted a l).symm
    | stack k => exact ⟨Buffer.Sound.piled hs, Buffer.Sound.saved hs rfl⟩
    | arena k => exact Buffer.Sound.piled hs

/-! ## Blocks in the order of their addresses -/

/-- Sorting leaves out nothing and adds nothing. -/
theorem Session.Books.sortedBlocks_perm {x : Session} {c : Custody} {m : Memory}
    (h : x.Books c m) : (x.sortedBlocks.map fun e => Block.of e.1 e.2).Perm c.blocks :=
  ((List.mergeSort_perm _ _).map _).trans h.lists

/-- Addresses go up. -/
theorem Session.Books.pairwise_sortedBlocks {x : Session} {c : Custody} {m : Memory}
    (h : x.Books c m) (hd : c.Distinct) : x.sortedBlocks.Pairwise fun e e' => e.1 < e'.1 := by
  have hle : x.sortedBlocks.Pairwise fun e e' => decide (e.1 ≤ e'.1) = true :=
    List.pairwise_mergeSort (fun _ _ _ => by simpa using Nat.le_trans)
      (fun e e' => by simpa using Nat.le_total e.1 e'.1) _
  have hne : x.sortedBlocks.Pairwise fun e e' => e.1 ≠ e'.1 := by
    have hkeys : (x.sortedBlocks.map Prod.fst).Perm (x.blocks.entries.map Prod.fst) :=
      (List.mergeSort_perm _ _).map _
    exact List.pairwise_map.1 (hkeys.nodup_iff.2 (h.lists.nodup hd))
  refine (hle.and hne).imp fun {e e'} hee => ?_
  have hlt := of_decide_eq_true hee.1
  omega

namespace Shell

variable {s : Shell ρ} {roll : Roll}

/-- What is on record in a shell at a prompt, and what that leaves to find fault
with. -/
structure Books (s : Shell ρ) (roll : Roll) : Prop where
  /-- Every allocator has its session. -/
  known : ∀ name c, roll name = some c → ∃ x, s.session? name = some x
  /-- The books of every session are in order. -/
  listed : ∀ name x, s.session? name = some x →
    ∃ c, roll name = some c ∧ x.Books c s.world.memory
  /-- No command finds fault, unless it is to free a block of a stack or an
  arena, or the resource breaks its part. -/
  quiet : ∀ cmd, (∀ name base x, cmd = .free name base → s.session? name = some x →
      x.allocator.isHeap = true) → Ordinary (s.execute .debug cmd).2.world.events →
    ∃ out, (s.execute .debug cmd).1 = .printed out .done
  /-- None is found when the sessions end, in any order, and then everything has
  been given back. -/
  closing : ∀ sessions, s.sessions.Perm sessions →
    (∀ f ∈ findings .debug s.world sessions, f = none) ∧
      outstanding (closeAll .debug s.world sessions).events = []
  /-- What is printed about a session is its allocator's text and its blocks, each
  once and in the order of their addresses. -/
  printed : ∀ name x, s.session? name = some x →
    ∃ (t : String) (c : Custody) (entries : List (Nat × Layout)),
      x.allocator.text .debug s.world.memory = .ok t ∧ roll name = some c ∧
        (entries.map fun e => Block.of e.1 e.2).Perm c.blocks ∧
        entries.Pairwise (fun e e' => e.1 < e'.1) ∧
        s.execute .debug (.print (some name)) =
          (.printed ("\n" ++ (t ++ "\n") ++ String.join (entries.map blockLine)) .done, s)

/-- A session of a shell in order, with its allocator. -/
theorem InOrder.books_session (h : s.InOrder roll) {name : String} {x : Session}
    (hx : s.session? name = some x) :
    ∃ c, roll name = some c ∧ x.Books c s.world.memory ∧ c.Distinct := by
  obtain ⟨as, bs, w, before, after, t, rfl, -, hr, hroll, hbook⟩ := h.focus hx
  have hd := (hr.tidy h.ordinary (t := t) (by simp)).distinct
  exact ⟨t.toCustody, hroll, hbook.books (hr.sound.sound t (by simp)) hd, hd⟩

/-- **In a shell in order every session lists its live blocks.** -/
theorem InOrder.books (h : s.InOrder roll) : s.Books roll where
  known name c hc := by
    cases hx : s.session? name with
    | none => cases hc.symm.trans (h.roll_eq_none hx)
    | some x => exact ⟨x, rfl⟩
  listed name x hx := by
    obtain ⟨c, hc, hb, -⟩ := h.books_session hx
    exact ⟨c, hc, hb⟩
  quiet cmd hcmd ho := by
    refine (h.carried (fun hm => ?_) ho).done
    obtain ⟨name, base, x, l, c, rfl, hx, -, hc, hbar⟩ := hm
    obtain ⟨c', hc', hb, -⟩ := h.books_session hx
    obtain rfl : c' = c := Option.some.inj (hc'.symm.trans hc)
    have hheap := hcmd name base x rfl hx
    rw [hb.allocator] at hheap
    -- a heap frees any block
    obtain ⟨k, live, pending⟩ := c'
    obtain ⟨k, rfl⟩ := Allocator.exists_heap hheap
    exact hbar
  closing sessions hp := (h.reorder hp).settles
  printed name x hx := by
    obtain ⟨c, hc, hb, hd⟩ := h.books_session hx
    obtain ⟨t, ht⟩ := h.text_ok (mem_of_session? hx)
    refine ⟨t, c, x.sortedBlocks, ht, hc, hb.sortedBlocks_perm, hb.pairwise_sortedBlocks hd, ?_⟩
    simp only [execute, printOne, onSession, hx, allocatorText, ht]
    rfl

/-- **At every prompt each session lists the live blocks of its allocator**,
whatever the lines before it were, if the resource has kept its part. -/
theorem sessions_list_live_blocks {r : ρ} {lines : List String}
    (ht : (start r).track .debug .empty lines = some (s, roll)) (ho : Ordinary s.world.events) :
    s.Books roll := ((inOrder_start r).track ht ho).books

/-- Three sessions: a heap's with a block that was resized and kept, a stack's
with a block that has grown by what it preferred, and an arena's that was
cleared. -/
def sampleLines : List String :=
  ["create --name h", "alloc --allocator h --size 32",
    "realloc --allocator h --base 0x100000000 --expand-back 32 --keep-old",
    "create --name s --kind stack", "alloc --allocator s --size 8",
    "realloc --allocator s --base 0x100000070 --expand-back 8 --preferred-back 64",
    "create --name a --kind arena", "alloc --allocator a --size 32", "clear --allocator a"]

/-- What they list: the address, the size and the alignment of each block. -/
theorem sessions_list_live_blocks_sample : ∃ (s : Shell Pool) (roll : Roll),
    (start (Pool.ample 0x10000000000)).track .debug .empty sampleLines = some (s, roll) ∧
      s.sessions.map (fun e => (e.1, e.2.blocks.entries.map fun b => (b.1, b.2.size, b.2.align))) =
        [("h", [(0x100000020, 64, 16), (0x100000000, 32, 16)]), ("s", [(0x100000070, 72, 16)]),
          ("a", [])] ∧
      s.Books roll := by
  have hp : (Pool.ample 0x10000000000).Seated := by decide +kernel
  have hlists : ((start (Pool.ample 0x10000000000)).track .debug .empty sampleLines).map
      (fun p => p.1.sessions.map fun e =>
        (e.1, e.2.blocks.entries.map fun b => (b.1, b.2.size, b.2.align))) =
      some [("h", [(0x100000020, 64, 16), (0x100000000, 32, 16)]), ("s", [(0x100000070, 72, 16)]),
        ("a", [])] := by decide +kernel
  obtain ⟨⟨s, roll⟩, ht, hs⟩ := Option.map_eq_some_iff.1 hlists
  exact ⟨s, roll, ht, hs, sessions_list_live_blocks ht (hp.ordinary_track ht)⟩

end Shell

end Allocators
