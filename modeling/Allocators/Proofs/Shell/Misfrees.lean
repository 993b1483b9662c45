import Allocators.Proofs.Shell.Books
/-!
# What ends a shell

A command that a session's allocator is not able to carry out is to be
declined. A resize is, by the allocator, and the shell itself asks before it
clears. Before it frees a block it asks nothing, and passes the block to an
arena, which frees none, or to a stack, which frees the latest only. That is
what ends a shell with a fault, and nothing else does
(`Shell.faulted_iff_someMisfree`).
-/

namespace Allocators

open Trace

namespace Shell

variable {ρ : Type} [Resource ρ] {s : Shell ρ} {roll : Roll} {r : ρ} {lines : List String}

/-- Some line of these is to free a block that its session's allocator cannot
free. -/
def SomeMisfree (s : Shell ρ) (roll : Roll) (lines : List String) : Prop :=
  ∃ before text after s' roll', lines = before ++ text :: after ∧
    s.track .debug roll before = some (s', roll') ∧ s'.MisfreesBy roll' text

/-- It is the first, or one after it. -/
theorem SomeMisfree.cons {text : String} {s' : Shell ρ} {roll' : Roll}
    (h : s'.SomeMisfree roll' lines) (ht : s.track .debug roll [text] = some (s', roll')) :
    s.SomeMisfree roll (text :: lines) := by
  obtain ⟨before, text', after, s'', roll'', rfl, hb, hm⟩ := h
  refine ⟨text :: before, text', after, s'', roll'', rfl, ?_, hm⟩
  rw [track_cons, ht]
  exact hb

/-- No fault ended the lines, and each was rejected or answered by a text. -/
structure Smooth (t : Transcript ρ) : Prop where
  faulted : t.faulted = false
  answered : ∀ step ∈ t.steps, step.Answered

/-- **A run from a shell in order is smooth**, or some line is to free a block
that its session's allocator cannot free. -/
theorem InOrder.smooth_or_someMisfree (h : s.InOrder roll)
    (ho : Ordinary (s.runFrom .debug lines).world.events) :
    Smooth (s.runFrom .debug lines) ∨ s.SomeMisfree roll lines := by
  have hend : ∀ s : Shell ρ, Smooth (s.finish .debug [.printed "" .done] false) := by
    refine fun s => ⟨rfl, fun step hstep => ?_⟩
    rw [List.mem_singleton.1 hstep]
    trivial
  induction lines generalizing s roll with
  | nil => exact Or.inl (hend s)
  | cons text rest ih =>
    have hline := ho.of_suffix (s.suffix_line .debug text rest)
    rcases h.line_cases text hline with ⟨hm, -⟩ | ⟨-, hl | ⟨step, s', roll', hl, ha, ht, hin⟩⟩
    · exact Or.inr ⟨[], text, rest, s, roll, rfl, rfl, hm⟩
    · have hrun : s.runFrom .debug (text :: rest) = s.finish .debug [.printed "" .done] false := by
        simp only [runFrom, hl]
      rw [hrun]
      exact Or.inl (hend s)
    · have hrun : s.runFrom .debug (text :: rest) =
          { s'.runFrom .debug rest with steps := step :: (s'.runFrom .debug rest).steps } := by
        simp only [runFrom, hl]
      rw [hrun] at ho ⊢
      rcases ih hin ho with ⟨hfalse, hsteps⟩ | hm
      · refine Or.inl ⟨hfalse, fun e he => ?_⟩
        rcases List.mem_cons.1 he with rfl | he
        · exact ha
        · exact hsteps e he
      · exact Or.inr (hm.cons ht)

/-- **To free a block that its session's allocator cannot free ends the run with
a fault.** -/
theorem InOrder.faulted_of_someMisfree (h : s.InOrder roll)
    (ho : Ordinary (s.runFrom .debug lines).world.events) (hm : s.SomeMisfree roll lines) :
    (s.runFrom .debug lines).faulted = true := by
  obtain ⟨before, text, after, s', roll', rfl, ht, hm⟩ := hm
  obtain ⟨steps, hrun⟩ := runFrom_of_track ht (text :: after)
  rw [hrun] at ho ⊢
  have hline := ho.of_suffix (s'.suffix_line .debug text after)
  have hin := h.track ht (ho.of_suffix (s'.suffix_runFrom .debug _))
  rcases hin.line_cases text hline with ⟨-, f, u, hl⟩ | ⟨hnot, -⟩
  · simp only [runFrom, hl]
    rfl
  · exact absurd hm hnot

/-- **A run ends with a fault just if some line is to free a block that its
session's allocator cannot free**, if the resource keeps its part; any other
run is smooth. -/
theorem faulted_iff_someMisfree (ho : Ordinary (run .debug r lines).world.events) :
    ((run .debug r lines).faulted = true ↔ (start r).SomeMisfree .empty lines) ∧
      (¬ (start r).SomeMisfree .empty lines → Smooth (run .debug r lines)) := by
  have hin := inOrder_start r
  have hcases := hin.smooth_or_someMisfree ho
  refine ⟨⟨fun hf => ?_, hin.faulted_of_someMisfree ho⟩, fun hm => hcases.resolve_right hm⟩
  rcases hcases with hs | hm
  · cases hf.symm.trans hs.faulted
  · exact hm

/-- A block of an arena, and what frees it. -/
def arenaLines : List String :=
  ["create --name a --kind arena", "alloc --allocator a --size 32",
    "free --allocator a --base 0x100000000"]

/-- Two blocks of a stack, and what frees the lower one. -/
def stackLines : List String :=
  ["create --name s --kind stack", "alloc --allocator s --size 8",
    "alloc --allocator s --size 8", "free --allocator s --base 0x100000010"]

/-- The blocks that these lines are to free cannot be freed; the lines of the
other sample are smooth. -/
theorem someMisfree_arenaLines : (start (Pool.ofSize 0x100000)).SomeMisfree .empty arenaLines ∧
    (start (Pool.ofSize 0x100000)).SomeMisfree .empty stackLines ∧
    Smooth (run .debug (Pool.ofSize 0x100000) sampleLines) :=
  have hp : (Pool.ofSize 0x100000).Seated := by decide +kernel
  ⟨(faulted_iff_someMisfree hp.ordinary_run).1.1 (by decide +kernel),
    (faulted_iff_someMisfree hp.ordinary_run).1.1 (by decide +kernel),
    (faulted_iff_someMisfree hp.ordinary_run).2 fun hm =>
      absurd ((faulted_iff_someMisfree hp.ordinary_run).1.2 hm) (by decide +kernel)⟩

/-- Both are refused by no message: a fault ends the run. -/
theorem faulted_arenaLines : (run .debug (Pool.ofSize 0x100000) arenaLines).faulted = true ∧
    (run .debug (Pool.ofSize 0x100000) stackLines).faulted = true := by
  decide +kernel

end Shell

end Allocators
