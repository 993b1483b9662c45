import Allocators.Proofs.Pools
import Allocators.Proofs.Shell.Commands
/-!
# What commands keep true of the world

Commands do in the world what the calls that they come to do, so what
these keep true (`World.Closed`) every command keeps true
(`World.Closed.execute`), every prompt finds true (`World.Closed.track`),
and so does whoever looks when all is over (`World.Closed.runFrom`). What
has happened stays on record then, up to the end (`Shell.suffix_track`,
`Shell.suffix_runFrom`), and over a pool it is ordinary whatever the lines
are (`Pool.Seated.ordinary_run`).
-/

namespace Allocators

open Trace

variable {ρ : Type}

/-! ## Lines -/

/-- How it goes on after a command: a fault is the end. -/
def Progress.after : ShellStep × Shell ρ → Progress ρ
  | (.printed out (.fault f), s) => .over (.printed out (.fault f)) true s
  | (step, s) => .more step s

/-- The shell after a line. -/
def Progress.shell : Progress ρ → Shell ρ
  | .more _ s => s
  | .over _ _ s => s

/-- The line was rejected, or answered by a text and without a fault. -/
def ShellStep.Answered : ShellStep → Prop
  | .printed _ (.fault _) => False
  | _ => True

namespace Shell

variable [Resource ρ]

/-- A command that is not the last is carried out. -/
theorem line_of_ok {b : Build} {s : Shell ρ} {text : String} {cmd : Command}
    (hc : Command.ofLine text = .ok cmd) (hne : cmd ≠ .exit) :
    s.line b text = .after (s.execute b cmd) := by
  unfold line
  rw [hc]
  cases cmd with
  | exit => exact absurd rfl hne
  | _ => rfl

/-- After a line the shell is as its command leaves it. -/
theorem shell_line {b : Build} {s : Shell ρ} {text : String} {cmd : Command}
    (hc : Command.ofLine text = .ok cmd) : (s.line b text).shell = (s.execute b cmd).2 := by
  by_cases hexit : cmd = .exit
  · subst hexit
    unfold line
    rw [hc]
    rfl
  · rw [line_of_ok hc hexit]
    rcases s.execute b cmd with ⟨_ | ⟨out, _ | f⟩, s'⟩ <;> rfl

/-- **What a line comes to**: it is rejected, it is the last, or its command is
carried out, which goes on unless a fault was found. -/
theorem line_cases (b : Build) (s : Shell ρ) (text : String) :
    (∃ r, Command.ofLine text = .error r ∧ s.line b text = .more (.rejected r) s) ∨
    (Command.ofLine text = .ok .exit ∧ s.line b text = .over (.printed "" .done) false s) ∨
    ∃ cmd, Command.ofLine text = .ok cmd ∧
      ((∃ out f s', s.execute b cmd = (.printed out (.fault f), s') ∧
        s.line b text = .over (.printed out (.fault f)) true s') ∨
      ∃ step s', s.execute b cmd = (step, s') ∧ step.Answered ∧
        s.line b text = .more step s') := by
  cases hcmd : Command.ofLine text with
  | error r => exact Or.inl ⟨r, rfl, by simp only [line, hcmd]⟩
  | ok cmd =>
    by_cases hexit : cmd = .exit
    · subst hexit
      exact Or.inr (Or.inl ⟨rfl, by simp only [line, hcmd]⟩)
    · have hl := line_of_ok (b := b) (s := s) hcmd hexit
      refine Or.inr (Or.inr ⟨cmd, rfl, ?_⟩)
      rw [hl]
      rcases s.execute b cmd with ⟨_ | ⟨out, _ | f⟩, s'⟩
      · exact Or.inr ⟨_, s', rfl, trivial, rfl⟩
      · exact Or.inr ⟨_, s', rfl, trivial, rfl⟩
      · exact Or.inl ⟨out, f, s', rfl, rfl⟩

variable {b : Build} {s : Shell ρ} {roll : Roll} {text : String}

/-- Lines are read one after another. -/
theorem track_cons (b : Build) (s : Shell ρ) (roll : Roll) (text : String) (rest : List String) :
    s.track b roll (text :: rest) =
      (s.track b roll [text]).bind fun p => p.1.track b p.2 rest := by
  simp only [track]
  rcases s.line b text with ⟨step, s'⟩ | ⟨step, faulted, s'⟩
  · cases Command.ofLine text <;> rfl
  · rfl

/-- A line that is the last is followed by no prompt. -/
theorem track_of_over {step : ShellStep} {faulted : Bool} {s' : Shell ρ}
    (hl : s.line b text = .over step faulted s') : s.track b roll [text] = none := by
  simp only [track, hl]

/-- Any other is followed by the shell and the roll after its command. -/
theorem track_of_more {step : ShellStep} {s' : Shell ρ} {cmd : Command}
    (hl : s.line b text = .more step s') (hc : Command.ofLine text = .ok cmd) :
    s.track b roll [text] = some (s', s.rollAfter b roll cmd) := by
  simp only [track, hl, hc]

/-- A prompt after a line is the one that the line went on to. -/
theorem line_of_track {s' : Shell ρ} {roll' : Roll}
    (ht : s.track b roll [text] = some (s', roll')) : ∃ step, s.line b text = .more step s' := by
  rcases hl : s.line b text with ⟨step, u⟩ | ⟨step, faulted, u⟩
  · simp only [track, hl] at ht
    cases hc : Command.ofLine text with
    | error r =>
      rw [hc] at ht
      cases ht
      exact ⟨step, rfl⟩
    | ok cmd =>
      rw [hc] at ht
      cases ht
      exact ⟨step, rfl⟩
  · cases ht.symm.trans (track_of_over hl)

/-- **From a prompt it goes on** as from its shell, whatever came before. -/
theorem runFrom_of_track {s' : Shell ρ} {roll' : Roll} {lines : List String}
    (ht : s.track b roll lines = some (s', roll')) (rest : List String) :
    ∃ steps, s.runFrom b (lines ++ rest) =
      { s'.runFrom b rest with steps := steps ++ (s'.runFrom b rest).steps } := by
  induction lines generalizing s roll with
  | nil =>
    cases ht
    exact ⟨[], rfl⟩
  | cons text lines ih =>
    rw [track_cons] at ht
    obtain ⟨⟨u, roll₁⟩, hu, ht⟩ := Option.bind_eq_some_iff.1 ht
    obtain ⟨step, hl⟩ := line_of_track hu
    obtain ⟨steps, hrun⟩ := ih ht
    refine ⟨step :: steps, ?_⟩
    simp only [List.cons_append, runFrom, hl, hrun]

end Shell

/-! ## What is kept true -/

namespace World.Closed

variable [Resource ρ] {P : World ρ → Prop} {w : World ρ} {b : Build}

/-- A call that is one of the interface's keeps it true. -/
theorem action (h : Closed P) (hr : KeptByRuns P) (b : Build) (call : Call) {α : Type}
    {x : Action Allocator ρ α} {g : α → Reply} (hp : Restriction.perform b [] call = g <$> x)
    (k : Allocator) (hw : P w) : P (Action.ended (x ⟨k, w⟩)).2.world := by
  rw [← Action.ended_map g, ← hp]
  exact h.perform (fun _ => hr) b [] k hw

/-- To free blocks one by one keeps it true. -/
theorem freeAll (h : Closed P) (hr : KeptByRuns P) (b : Build) (es : List (Nat × Layout))
    (k : Allocator) (hw : P w) : P (Action.ended (Session.freeAll b es ⟨k, w⟩)).2.world := by
  induction es generalizing k w with
  | nil => exact hw
  | cons e es ih =>
    have hfree : P (Action.ended (Allocator.deallocate b e.1 e.2 ⟨k, w⟩)).2.world :=
      h.action hr b (.deallocate e.1 e.2) (g := fun _ => .done) rfl k hw
    rw [Session.freeAll, Action.bind_apply]
    cases hx : Allocator.deallocate b e.1 e.2 ⟨k, w⟩ with
    | ok a t =>
      rw [hx] at hfree
      exact ih t.allocator hfree
    | error e t =>
      rw [hx] at hfree
      exact hfree

/-- And so does the end of a session. -/
theorem endSession (h : Closed P) (hr : KeptByRuns P) (b : Build) (x : Session) (hw : P w) :
    P (x.close b w).2 := by
  have hfree : P (Action.ended ((if x.freesBlocks then Session.freeAll b x.blocks.entries
      else pure () : Action Allocator ρ Unit) ⟨x.allocator, w⟩)).2.world := by
    split
    · exact h.freeAll hr b _ _ hw
    · exact hw
  unfold Session.close
  simp only
  split <;> next t hx =>
    rw [hx] at hfree
    have hend : P (Action.ended (Allocator.close t)).2.world := h.close hr t.allocator hfree
    split <;> next hc =>
      rw [hc] at hend
      exact hend

/-- Closing sessions one after another. -/
theorem closeAll (h : Closed P) (hr : KeptByRuns P) (b : Build) (xs : List (String × Session))
    (hw : P w) : P (Shell.closeAll b w xs) := by
  induction xs generalizing w with
  | nil => exact hw
  | cons e es ih => exact ih (h.endSession hr b e.2 hw)

variable {s s' : Shell ρ} {roll roll' : Roll}

/-- A call that a command comes to. -/
theorem call (h : Closed P) (hr : KeptByRuns P) (b : Build) (call : Call) {α : Type}
    {x : Action Allocator ρ α} {g : α → Reply} (hp : Restriction.perform b [] call = g <$> x)
    (hw : P s.world) (name : String) (session : Session) (blocks : α → Ledger)
    (out : α → String) : P (s.call name session x blocks out).2.world := by
  rw [Shell.world_call]
  exact h.action hr b call hp _ hw

/-- **Every command keeps it true.** -/
theorem execute (h : Closed P) (hr : KeptByRuns P) (b : Build) (hw : P s.world) (cmd : Command) :
    P (s.execute b cmd).2.world := by
  have hon : ∀ (name : String) (f : Session → ShellStep × Shell ρ), (∀ x, P (f x).2.world) →
      P (s.onSession name f).2.world := by
    intro name f hf
    unfold Shell.onSession
    split
    · exact hw
    · exact hf _
  have htext : ∀ out, P (s.printingText out).2.world := by
    intro out
    unfold Shell.printingText
    split <;> exact hw
  cases cmd with
  | create name kind capacity zeroed =>
    have hc := h.create (kind.toKind zeroed) name capacity hw
    show P (s.create name kind capacity zeroed).2.world
    unfold Shell.create
    split
    · exact hw
    · split <;> next hx =>
        rw [hx] at hc
        exact hc
  | delete name =>
    refine hon name _ fun x => ?_
    have hc := h.endSession hr b x hw
    simp only
    split <;> next hx =>
      rw [hx] at hc
      exact hc
  | alloc name size align =>
    refine hon name _ fun x => ?_
    split
    · exact hw
    · next l _ => exact h.call hr b (.allocate l) (g := .block) rfl hw _ _ _ _
  | realloc name base changes =>
    refine hon name _ fun x => ?_
    split
    · exact hw
    · next l _ =>
      exact h.call hr b (.reallocate ((Resize.ofBlock base l.size l.align).edits changes.edits))
        (g := .resized) rfl hw _ _ _ _
  | free name base =>
    refine hon name _ fun x => ?_
    split
    · exact hw
    · next l _ => exact h.call hr b (.deallocate base l) (g := fun _ => .done) rfl hw _ _ _ _
  | clear name =>
    refine hon name _ fun x => ?_
    split
    · exact h.call hr b .clear (g := fun _ => .done) rfl hw _ _ _ _
    · exact hw
  | features name => exact hon name _ fun x => hw
  | print name =>
    cases name with
    | none =>
      show P (s.printAll b).2.world
      unfold Shell.printAll
      split
      · exact hw
      · exact htext _
    | some name => exact hon name _ fun x => htext _
  | exit => exact hw

/-- What a line finds true, the shell after it finds true. -/
theorem line (h : Closed P) (hr : KeptByRuns P) (b : Build) (hw : P s.world) (text : String) :
    P (s.line b text).shell.world := by
  cases hc : Command.ofLine text with
  | error r =>
    simp only [Shell.line, hc]
    exact hw
  | ok cmd =>
    rw [Shell.shell_line hc]
    exact h.execute hr b hw cmd

/-- **Every prompt finds it true.** -/
theorem track (h : Closed P) (hr : KeptByRuns P) (b : Build) (hw : P s.world)
    {lines : List String} (ht : s.track b roll lines = some (s', roll')) : P s'.world := by
  induction lines generalizing s roll with
  | nil =>
    cases ht
    exact hw
  | cons text rest ih =>
    rw [Shell.track_cons] at ht
    obtain ⟨⟨u, roll₁⟩, hu, ht⟩ := Option.bind_eq_some_iff.1 ht
    refine ih ?_ ht
    obtain ⟨step, hl⟩ := Shell.line_of_track hu
    have hline := h.line hr b hw text
    rw [hl] at hline
    exact hline

/-- **And so does whoever looks when all is over.** -/
theorem runFrom (h : Closed P) (hr : KeptByRuns P) (b : Build) (hw : P s.world)
    (lines : List String) : P (s.runFrom b lines).world := by
  induction lines generalizing s with
  | nil => exact h.closeAll hr b _ hw
  | cons text rest ih =>
    have hline := h.line hr b hw text
    unfold Shell.runFrom
    rcases hl : s.line b text with ⟨step, u⟩ | ⟨step, faulted, u⟩
    · rw [hl] at hline
      exact ih hline
    · rw [hl] at hline
      exact h.closeAll hr b _ hline

end World.Closed

/-! ## What has happened -/

namespace Shell

variable [Resource ρ] (b : Build) (s : Shell ρ)

/-- What has happened before the lines is on record at every prompt, -/
theorem suffix_track {roll roll' : Roll} {lines : List String} {s' : Shell ρ}
    (ht : s.track b roll lines = some (s', roll')) : s.world.events <:+ s'.world.events :=
  (World.closed_suffix _).track (World.suffix_keptByRuns _) b List.suffix_rfl ht

/-- and when all is over. -/
theorem suffix_runFrom (lines : List String) :
    s.world.events <:+ (s.runFrom b lines).world.events :=
  (World.closed_suffix _).runFrom (World.suffix_keptByRuns _) b List.suffix_rfl lines

/-- What has happened after a line is on record then too. -/
theorem suffix_line (text : String) (rest : List String) :
    (s.line b text).shell.world.events <:+ (s.runFrom b (text :: rest)).world.events := by
  unfold runFrom
  rcases s.line b text with ⟨step, u⟩ | ⟨step, faulted, u⟩
  · exact u.suffix_runFrom b rest
  · exact (World.closed_suffix _).closeAll (World.suffix_keptByRuns _) b _ List.suffix_rfl

/-- If the resource has kept its part after a line, it had before. -/
theorem honoured_of_line {b : Build} {s : Shell ρ} {text : String}
    (hg : Honoured (s.line b text).shell.world.events) : Honoured s.world.events := by
  obtain ⟨new, hnew⟩ : s.world.events <:+ (s.line b text).shell.world.events :=
    (World.closed_suffix _).line (World.suffix_keptByRuns _) b List.suffix_rfl text
  rw [← hnew] at hg
  exact hg.of_append

end Shell

/-! ## Shells over a pool -/

namespace Pool

variable {p : Pool} {b : Build} {lines : List String}

/-- **Over a pool every prompt finds an ordinary history.** -/
theorem Seated.ordinary_track (h : p.Seated) {s : Shell Pool} {roll : Roll}
    (ht : (Shell.start p).track b .empty lines = some (s, roll)) : Ordinary s.world.events :=
  (closed_sound.track keptByRuns_sound b h.sound_start ht).ordinary

/-- And so does whoever looks when all is over. -/
theorem Seated.ordinary_run (h : p.Seated) : Ordinary (Shell.run b p lines).world.events :=
  (closed_sound.runFrom keptByRuns_sound b h.sound_start lines).ordinary

end Pool

end Allocators
