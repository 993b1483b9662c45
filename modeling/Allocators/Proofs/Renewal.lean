import Allocators.Proofs.Placement
/-!
# A clear makes an allocator as good as new

A clear that comes through lets go of every block and every callback and
sets both ends of the region back. What the memory held stays in it, old
headers and old entries among the rest, and none of it is read again: from
then on the allocator answers every deed as one just made over the same
region does, and differs from it in bytes that have not been written since
at most. That holds whatever came before, a clear that stopped at a
callback included: `Chronicle.cleared_behaves_as_new`.
-/

namespace Allocators

open Trace

variable {ρ σ : Type} [Resource ρ] [Resource σ] {b : Build} {kind : AllocatorKind}
variable {B : Book ρ} {F : Book σ} {nest : List Restriction} {ds : List (List Restriction × Deed)}

/-- The addresses whose bytes are the same in both runs. -/
def Book.SameBytes (B : Book ρ) (F : Book σ) (a : Nat) : Prop :=
  B.world.memory.byteAt a = F.world.memory.byteAt a

/-- From here on calls come to the same in the first run, after its clear, as in
the second, on a new allocator. -/
structure Book.Renewed (b : Build) (B : Book ρ) (F : Book σ)
    (ds : List (List Restriction × Deed)) : Prop where
  /-- The same calls have the same answers and add the same events. -/
  pages : (B.turns b ds).pages = (F.turns b ds).pages ++ B.pages
  /-- Nothing that can be seen tells the two apart. -/
  looks : (B.turns b ds).LooksLike b (F.turns b ds)
  /-- The bytes are the same that have been written since, or that were the same
  before. -/
  bytes : ∀ a, B.settled b (B.SameBytes F) ds a → (B.turns b ds).SameBytes (F.turns b ds) a

namespace Chronicle

/-- An allocator with a region on which no deed has been done is empty. -/
theorem custody_of_unused (h : Chronicle b Custody.Allows kind F) (hk : kind.isHeap = false)
    (hnew : F.pages = []) : F.custody = .opened F.custody.allocator.emptied := by
  rcases h.last_call hk with ⟨-, hc⟩ | ⟨B₀, nest, call, -, -, he, -⟩
  · exact hc
  · rw [Book.exchanges, hnew] at he
    cases he

/-- A clear that comes through leaves the allocator empty. -/
theorem custody_of_cleared (h : Chronicle b Custody.Allows kind B) (hk : kind.isHeap = false)
    (hn : Restriction.noClear ∉ nest)
    (hdone : (B.turn b nest (.call .clear)).pages.head?.map Page.outcome = some (.ok .done)) :
    (B.turn b nest (.call .clear)).custody = .opened B.custody.allocator.emptied := by
  have hclears := h.clears (AllocatorKind.clears_iff.2 ⟨rfl, hk, hn⟩)
  rcases runOutcome_cases (awaiting kind B.pages) with ⟨hr, -⟩ | ⟨-, x, -, hout⟩
  · exact hclears.completed hr
  · -- a callback that fails would have stopped it
    have hfault := hclears.outcome
    rw [hdone, hout] at hfault
    cases hfault

/-- **A clear makes an allocator as good as new.** After a clear that comes
through, and whatever came before it, deeds with the blocks handed out since
come to the same as on an allocator on which none has been done, over the
same region and under the same label. -/
theorem cleared_behaves_as_new (h : Chronicle b Custody.Allows kind B) (hk : kind.isHeap = false)
    (hn : Restriction.noClear ∉ nest)
    (hdone : (B.turn b nest (.call .clear)).pages.head?.map Page.outcome = some (.ok .done))
    (hF : Chronicle b Custody.Allows kind F) (hnew : F.pages = [])
    (hregion : B.custody.allocator.emptied = F.custody.allocator.emptied)
    (hf : (B.turn b nest (.call .clear)).Fair b Custody.Allows ds) :
    (B.turn b nest (.call .clear)).Renewed b F ds := by
  have hs := h.sound_buffer hk
  have hkept := Book.turn_kept hs.1 hs.2 (d := .call .clear) trivial nest
  have hcleared := h.custody_of_cleared hk hn hdone
  have hunused := hF.custody_of_unused hk hnew
  have hsame : (B.turn b nest (.call .clear)).custody = F.custody := by
    rw [hcleared, hunused, hregion]
  have hkind : (B.turn b nest (.call .clear)).custody.allocator.isHeap = false := by
    rw [hsame]
    exact (hF.sound_buffer hk).2
  have htwins : Book.Twins b (B.turn b nest (.call .clear)) F :=
    ⟨hsame, hkind, hkept.1, (hF.sound_buffer hk).1⟩
  obtain ⟨hlast, new, hp, hp'⟩ := htwins.turns hf
  rw [hnew, List.append_nil] at hp'
  refine ⟨?_, hlast.looksLike, htwins.agreeOn_turns hf fun a ha => ha⟩
  rw [hp, hp']

end Chronicle

/-- A block, and two callbacks of which the second fails in a clear; the block
is still there after that, and another finds no room. -/
def brokenOff : List (List Restriction × Deed) :=
  [([], .call (.allocate Estate.sampleLayout)), ([], .write 0x100000010 24 fun _ _ => 3),
    ([], .call (.register 1 .returns)), ([], .call (.register 2 .fails)), ([], .call .clear),
    ([], .call (.allocate Estate.sampleLayout))]

/-- A block that is partly written and loses its front, a callback, and another
block on top that is freed. -/
def startAfresh : List (List Restriction × Deed) :=
  [([], .call (.allocate Estate.sampleLayout)), ([], .write 0x100000018 8 fun _ _ => 5),
    ([], .call (.reallocate ((Resize.ofBlock 0x100000010 24 16).edit (.shrinkFront 8)))),
    ([], .call (.register 4 .returns)), ([], .call (.allocate Estate.sampleLayout)),
    ([], .call (.deallocate 0x100000030 Estate.sampleLayout))]

/-- The next clear comes through, and the stack is as good as new. -/
theorem cleared_behaves_as_new_brokenOff :
    ((newStack.turns .debug brokenOff).pages.map fun p => p.outcome.isOk) =
      [false, false, true, true, true, true] ∧
    (((newStack.turns .debug brokenOff).turn .debug [] (.call .clear)).turns .debug
      startAfresh).pages.length = 13 ∧
    ((newStack.turns .debug brokenOff).turn .debug [] (.call .clear)).Renewed .debug newStack
      startAfresh := by
  have hmade := chronicle_newStack .debug Custody.Allows
  have hfair : newStack.Fair .debug Custody.Allows brokenOff := by decide +kernel
  have hkept := Book.turns_kept (hmade.sound_buffer rfl).1 rfl hfair
  exact ⟨by decide +kernel, by decide +kernel,
    (hmade.turns hfair).cleared_behaves_as_new rfl (by decide) (by decide +kernel) hmade rfl hkept.2
      (by decide +kernel)⟩

end Allocators
