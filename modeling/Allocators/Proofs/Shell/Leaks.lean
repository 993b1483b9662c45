import Allocators.Proofs.Shell.Misfrees
import Allocators.Proofs.Shell.Solvency
/-!
# Shells leak nothing

A shell keeps neither its sessions nor their blocks in an order of their own:
the next time it goes through them they may come in another (`Shell.Shuffled`).
A course of a shell (`Shell.Course`) reads lines and shuffles as it likes, with
the tab of every name beside it. It is solvent throughout, if the resource keeps
its part (`Shell.Course.solvent`). So wherever it ends, the sessions are closed
without a fault and everything has been given back, and what a deleted session
took has been given back as soon as it is deleted (`Shell.leaks_nothing`).
-/

namespace Allocators

open Trace

variable {ρ : Type}

/-- Whether there is no line after this one. -/
def Progress.isOver : Progress ρ → Bool
  | .more _ _ => false
  | .over _ _ _ => true

namespace Shell

/-- What may be different the next time: the order of the sessions, or that of the
blocks of one. -/
inductive Shuffled : Shell ρ → Shell ρ → Prop
  | sessions {xs ys : List (String × Session)} {w : World ρ} :
      xs.Perm ys → Shuffled ⟨xs, w⟩ ⟨ys, w⟩
  | blocks {as bs : List (String × Session)} {name : String} {x : Session}
      {entries : List (Nat × Layout)} {w : World ρ} : x.blocks.entries.Perm entries →
      Shuffled ⟨as ++ (name, x) :: bs, w⟩ ⟨as ++ (name, ⟨x.allocator, ⟨entries⟩⟩) :: bs, w⟩

/-- For one, the sessions may come in the opposite order. -/
theorem Shuffled.reverse (s : Shell ρ) : s.Shuffled ⟨s.sessions.reverse, s.world⟩ :=
  .sessions (List.reverse_perm s.sessions).symm

/-- The tabs after a line that led to this shell. -/
def tabsAfter (s : Shell ρ) (tabs : Tabs) (text : String) (s' : Shell ρ) : Tabs :=
  match Command.ofLine text with
  | .error _ => tabs
  | .ok cmd => s.charge tabs cmd s'

/-- **What lines may lead to**, with the tab of every name: a prompt, or, if it is
over, the shell that is left by the line that was the last, be it for an exit or
for a fault. In between the shell may be shuffled. -/
inductive Course [Resource ρ] (b : Build) (r : ρ) : List String → Bool → Shell ρ → Tabs → Prop
  | start : Course b r [] false (start r) fun _ => []
  | line {lines : List String} {s : Shell ρ} {tabs : Tabs} (h : Course b r lines false s tabs)
      (text : String) :
      Course b r (lines ++ [text]) (s.line b text).isOver (s.line b text).shell
        (s.tabsAfter tabs text (s.line b text).shell)
  | shuffled {lines : List String} {ended : Bool} {s s' : Shell ρ} {tabs : Tabs}
      (h : Course b r lines ended s tabs) (hs : s.Shuffled s') : Course b r lines ended s' tabs

/-! ## Courses are solvent -/

variable [Resource ρ] {b : Build} {r : ρ} {s s' : Shell ρ} {tabs : Tabs} {lines : List String}
variable {ended : Bool}

/-- A shell without sessions owes nothing. -/
theorem solvent_start (b : Build) (r : ρ) : (start r).Solvent b fun _ => [] :=
  ⟨[], ⟨List.nodup_nil, .start r _, nofun, nofun, fun _ _ => Accounts.nil.settled⟩, .nil⟩

/-- To shuffle a shell leaves it solvent. -/
theorem Solvent.shuffled (h : s.Solvent b tabs) (hs : s.Shuffled s') : s'.Solvent b tabs := by
  obtain ⟨ls, hl, hp⟩ := h
  cases hs with
  | sessions hperm => exact ⟨ls, hl, hp.trans hperm⟩
  | @blocks as bs name x entries w hperm =>
    obtain ⟨p, hmem, heq⟩ := List.mem_map.1 (hp.mem_iff.2 (List.perm_middle.mem_iff.2
      List.mem_cons_self))
    obtain ⟨before, after, rfl⟩ := List.append_of_mem hmem
    obtain ⟨rfl, rfl⟩ := Prod.mk.inj heq
    have hkept := (hl.kept p hmem).reorder hperm
    have hput := hl.put hkept hl.reachable
    rw [← hl.made p hmem, Function.update_eq_self] at hput
    refine ⟨_, hput, ?_⟩
    rw [List.map_append, List.map_cons] at hp ⊢
    have hothers : (before.map Lodger.entry ++ after.map Lodger.entry).Perm (as ++ bs) :=
      (List.perm_middle.symm.trans (hp.trans List.perm_middle)).cons_inv
    exact List.perm_middle.trans ((hothers.cons _).trans List.perm_middle.symm)

/-- **A line leaves a solvent shell solvent.** -/
theorem Solvent.line (h : s.Solvent b tabs) (text : String)
    (hg : Honoured (s.line b text).shell.world.events) :
    (s.line b text).shell.Solvent b (s.tabsAfter tabs text (s.line b text).shell) := by
  cases hc : Command.ofLine text with
  | error e =>
    simp only [Shell.line, tabsAfter, hc]
    exact h
  | ok cmd =>
    rw [shell_line hc] at hg ⊢
    simp only [tabsAfter, hc]
    exact h.execute cmd hg

/-- **A course is solvent throughout** if the resource keeps its part. -/
theorem Course.solvent (h : Course b r lines ended s tabs) (hg : Honoured s.world.events) :
    s.Solvent b tabs := by
  induction h with
  | start => exact solvent_start b r
  | @line lines s tabs h text ih =>
    exact (ih (honoured_of_line hg)).line text hg
  | @shuffled lines ended s s' tabs h hs ih =>
    have hworld : s'.world = s.world := by cases hs <;> rfl
    rw [hworld] at hg
    exact (ih hg).shuffled hs

end Shell

/-- **Over a pool a course has an ordinary history.** -/
theorem Pool.Seated.ordinary_course {p : Pool} (hp : p.Seated) {b : Build} {lines : List String}
    {ended : Bool} {s : Shell Pool} {tabs : Tabs} (h : Shell.Course b p lines ended s tabs) :
    Ordinary s.world.events := by
  have hsound : Pool.Sound s.world := by
    induction h with
    | start => exact hp.sound_start
    | line h text ih => exact closed_sound.line keptByRuns_sound b ih text
    | shuffled h hs ih => cases hs <;> exact ih
  exact hsound.ordinary

namespace Shell

variable [Resource ρ] {b : Build} {r : ρ} {s s' : Shell ρ} {tabs : Tabs} {lines : List String}
variable {ended : Bool}

/-! ## Nothing leaks -/

/-- Nothing that is taken for this shell's sessions fails to be given back. -/
structure Leakless (b : Build) (s : Shell ρ) (tabs : Tabs) : Prop where
  /-- If it is over now, the sessions are closed without a fault, and then
  everything that was taken from the resource has been given back. -/
  closed : (∀ f ∈ findings b s.world s.sessions, f = none) ∧
    Settled (closeAll b s.world s.sessions).events
  /-- A session that is deleted now is deleted without a fault, and then everything
  that was taken for it has been given back. -/
  deleted : ∀ name x, s.session? name = some x → ∃ s',
    s.delete b name = (.printed ("Deleted allocator " ++ Quoted.text name ++ "!\n") .done, s') ∧
      s'.session? name = none ∧ Settled (since s.world.events s'.world.events ++ tabs name)
  /-- And it has been given back for every session that was deleted before. -/
  gone : ∀ name, s.session? name = none → Settled (tabs name)

/-- A solvent shell leaks nothing. -/
theorem Solvent.leakless (h : s.Solvent b tabs) : s.Leakless b tabs where
  closed := h.closes
  deleted name x hx := by
    obtain ⟨before, p, after, hl, hperm, rfl, rfl⟩ := h.focus hx
    obtain ⟨w', hclose, -, hsettled⟩ := hl.close
    refine ⟨s.removeSession p.name w', ?_, ?_, hsettled⟩
    · simp only [Shell.delete, Shell.onSession, hx, hclose, printing]
    · refine session?_eq_none_iff.2 fun e he => ?_
      simpa using (List.mem_filter.1 he).2
  gone name hx := by
    obtain ⟨ls, hl, hp⟩ := h
    exact hl.gone name (Solvent.not_mem_of_session? hp hx)

/-- **A run is a course**, at the end of which the sessions are closed. -/
theorem Course.runFrom {read : List String} (h : Course b r read false s tabs)
    (lines : List String) : ∃ read' ended s' tabs', read' <+: read ++ lines ∧
      Course b r read' ended s' tabs' ∧
      (s.runFrom b lines).world = closeAll b s'.world s'.sessions := by
  induction lines generalizing read s tabs with
  | nil => exact ⟨read, false, s, tabs, List.prefix_append read [], h, rfl⟩
  | cons text rest ih =>
    have hline := h.line text
    have happend : read ++ text :: rest = (read ++ [text]) ++ rest := by simp
    rw [happend]
    unfold Shell.runFrom
    rcases hl : s.line b text with ⟨step, u⟩ | ⟨step, faulted, u⟩
    · rw [hl] at hline
      exact ih hline
    · rw [hl] at hline
      exact ⟨_, _, u, _, List.prefix_append _ rest, hline, rfl⟩

/-- Every prompt is on a course. -/
theorem Course.track {read : List String} {roll roll' : Roll}
    (h : Course b r read false s tabs) (ht : s.track b roll lines = some (s', roll')) :
    ∃ tabs', Course b r (read ++ lines) false s' tabs' := by
  induction lines generalizing read s tabs roll with
  | nil =>
    cases ht
    rw [List.append_nil]
    exact ⟨tabs, h⟩
  | cons text rest ih =>
    rw [track_cons] at ht
    obtain ⟨⟨u, roll₁⟩, hu, ht⟩ := Option.bind_eq_some_iff.1 ht
    obtain ⟨step, hl⟩ := line_of_track hu
    have hline := h.line text
    rw [hl] at hline
    have happend : read ++ text :: rest = (read ++ [text]) ++ rest := by simp
    rw [happend]
    exact ih hline ht

/-- **A shell leaks nothing**, in either build and whatever the lines are, if the
resource keeps its part: wherever a course ends, also by a fault, everything that
was taken has been given back when its sessions are closed, once and with the
layout that it was taken with; and so has everything that was taken for a session
when it is deleted. -/
theorem leaks_nothing (b : Build) (r : ρ) (lines : List String) :
    (∀ ended s tabs, Course b r lines ended s tabs → Honoured s.world.events →
      Leakless b s tabs) ∧
    (Honoured (run b r lines).world.events → Settled (run b r lines).world.events) := by
  refine ⟨fun ended s tabs h hg => (h.solvent hg).leakless, fun hg => ?_⟩
  obtain ⟨read, ended, s, tabs, -, hcourse, hworld⟩ :=
    (Course.start (b := b) (r := r)).runFrom lines
  have hrun : (run b r lines).world = closeAll b s.world s.sessions := hworld
  rw [hrun] at hg ⊢
  have hsuffix : s.world.events <:+ (closeAll b s.world s.sessions).events :=
    (World.closed_suffix _).closeAll (World.suffix_keptByRuns _) b _ List.suffix_rfl
  obtain ⟨new, hnew⟩ := hsuffix
  rw [← hnew] at hg
  exact (hcourse.solvent hg.of_append).closes.2

/-- The three sessions of the other sample, the arena's with a block again, and a
command to free that block. -/
def leavingLines : List String :=
  sampleLines ++ ["alloc --allocator a --size 32"] ++ ["free --allocator a --base 0x100001060"]

/-- That command ends in a fault, with all three sessions there and four blocks
taken for them. The sessions may be dropped in another order than they were made
in. -/
theorem leaks_nothing_leavingLines : ∃ (s : Shell Pool) (tabs : Tabs),
    Course .debug (Pool.ofSize 0x100000) leavingLines true s tabs ∧
      s.sessions.map Prod.fst = ["a", "s", "h"] ∧ (outstanding s.world.events).length = 4 ∧
      Leakless .debug s tabs ∧
      Settled (run .debug (Pool.ofSize 0x100000) leavingLines).world.events := by
  have hp : (Pool.ofSize 0x100000).Seated := by decide +kernel
  have hprompt : ((start (Pool.ofSize 0x100000)).track .debug .empty
      (sampleLines ++ ["alloc --allocator a --size 32"])).map (fun q =>
        let next := q.1.line .debug "free --allocator a --base 0x100001060"
        (next.isOver, next.shell.sessions.map Prod.fst,
          (outstanding next.shell.world.events).length)) =
      some (true, ["h", "s", "a"], 4) := by decide +kernel
  obtain ⟨⟨s, roll⟩, ht, hs⟩ := Option.map_eq_some_iff.1 hprompt
  simp only [Prod.mk.injEq] at hs
  obtain ⟨hover, hnames, hout⟩ := hs
  obtain ⟨tabs, hcourse⟩ := Course.start.track ht
  have hlast := hcourse.line "free --allocator a --base 0x100001060"
  rw [hover, List.nil_append] at hlast
  have hdropped := hlast.shuffled (.reverse _)
  have hnow := (leaks_nothing .debug (Pool.ofSize 0x100000) leavingLines).1 true _ _ hdropped
    (hp.ordinary_course hdropped).honoured
  -- for any lines, as what these lines lead to need not be worked out
  have hrun : ∀ lines, Settled (run .debug (Pool.ofSize 0x100000) lines).world.events :=
    fun lines => (leaks_nothing .debug (Pool.ofSize 0x100000) lines).2 hp.ordinary_run.honoured
  refine ⟨_, _, hdropped, ?_, hout, hnow, hrun leavingLines⟩
  rw [List.map_reverse, hnames]
  rfl

end Shell

end Allocators
