import Allocators.Build
import Allocators.Flags.Resize
/-!
# Resize requests and their plans

A `Resize` names a block and says what should happen to its two sides:
each may grow, by at least a required and at most a preferred amount, or
shrink by exactly the required amount. `Resize.plan` checks the request
and works out the movement of bytes it asks for; it touches nothing, so a
request that is refused leaves the block as it was. `plan_sizes` says how
the sizes of a plan fit together.
-/

namespace Allocators

/-- The amounts asked for at one side. -/
structure Amounts where
  required : Nat
  preferred : Nat
deriving DecidableEq, Repr

/-- A request to resize the block at `address`. -/
structure Resize where
  address : Nat
  size : Nat
  align : Nat
  front : Amounts
  back : Amounts
  flags : ResizeFlags

/-- One step in describing a request. -/
inductive Edit where
  | flags (f : ResizeFlags)
  | requiredFront (n : Nat)
  | requiredBack (n : Nat)
  | preferredFront (n : Nat)
  | preferredBack (n : Nat)
  | expandFront (required preferred : Nat)
  | expandBack (required preferred : Nat)
  | shrinkFront (n : Nat)
  | shrinkBack (n : Nat)
  | keepOldNocopy
  | tryDefragment

/-- A checked request. The bytes that survive are `kept` bytes, which
start `source` bytes into the old block and `target` bytes into the new
one. -/
structure Plan where
  source : Nat
  target : Nat
  addedBack : Nat
  spareBack : Nat
  kept : Nat
  newSize : Nat
  nocopy : Bool
deriving DecidableEq, Repr

/-- What becomes of one side: bytes dropped, bytes added, and bytes it
would like beyond those. -/
structure SideChange where
  dropped : Nat
  added : Nat
  spare : Nat
deriving DecidableEq, Repr

namespace Resize

/-! ## Describing a request -/

/-- The block as it is, to be given another place. -/
def ofBlock (address size align : Nat) : Resize :=
  ⟨address, size, align, ⟨0, 0⟩, ⟨0, 0⟩, Flags.empty⟩

/-- Asks for one thing more. -/
def withFlag (r : Resize) (f : ResizeFlag) : Resize :=
  { r with flags := r.flags.union (Flags.single f) }

/-- One step of the description. The shorthands for a side set its flag and
both of its amounts; a side that shrinks prefers nothing. -/
def edit (r : Resize) : Edit → Resize
  | .flags f => { r with flags := f }
  | .requiredFront n => { r with front := { r.front with required := n } }
  | .requiredBack n => { r with back := { r.back with required := n } }
  | .preferredFront n => { r with front := { r.front with preferred := n } }
  | .preferredBack n => { r with back := { r.back with preferred := n } }
  | .expandFront n p => { r.withFlag .expandFront with front := ⟨n, p⟩ }
  | .expandBack n p => { r.withFlag .expandBack with back := ⟨n, p⟩ }
  | .shrinkFront n => { r.withFlag .shrinkFront with front := ⟨n, 0⟩ }
  | .shrinkBack n => { r.withFlag .shrinkBack with back := ⟨n, 0⟩ }
  | .keepOldNocopy => r.withFlag .keepOldNocopy
  | .tryDefragment => r.withFlag .tryDefragment

/-- A whole description, step by step. -/
def edits (r : Resize) (es : List Edit) : Resize := es.foldl edit r

/-! ## Planning -/

/-- What becomes of one side. A side that is to shrink has nothing to
prefer, which is checked; one that is to grow may not prefer less than it
requires. -/
def side (b : Build) (flags : ResizeFlags) (shrink expand : ResizeFlag) (a : Amounts) :
    Except Failure SideChange :=
  match flags.has shrink, flags.has expand with
  | true, true => .error (.refused .conflictingFlags)
  | true, false => do
    b.require (a.preferred = 0) (.preferredOnShrink a.preferred)
    return ⟨a.required, 0, 0⟩
  | false, true =>
    if a.preferred < a.required then
      .error (.refused .infeasibleResize)
    else
      .ok ⟨0, a.required, a.preferred - a.required⟩
  | false, false => .ok ⟨0, 0, 0⟩

/-- The plan made of what becomes of the two sides: something has to be
left of the block, and the new size has to be one a block can have. -/
def join (r : Resize) (front back : SideChange) : Except Failure Plan :=
  let dropped := front.dropped + back.dropped
  let kept := r.size - dropped
  let newSize := kept + front.added + back.added
  if r.size ≤ dropped then
    .error (.refused .infeasibleResize)
  else if maxSize r.align < newSize then
    .error (.refused .infeasibleResize)
  else
    .ok ⟨front.dropped, front.added, back.added, back.spare, kept, newSize,
      r.flags.has .keepOldNocopy⟩

/-- The plan of a request: the alignment is looked at first, then the front,
the back, and the sizes. -/
def plan (b : Build) (r : Resize) : Except Failure Plan :=
  if r.align.isPowerOfTwo then do
    let front ← side b r.flags .shrinkFront .expandFront r.front
    let back ← side b r.flags .shrinkBack .expandBack r.back
    join r front back
  else
    .error (.refused .invalidAlignment)

/-- **The sizes of a plan.** The new block is the bytes that survive with
what is added at either side, something survives, and a block of the
request's alignment can have the new size. -/
theorem plan_sizes {b : Build} {r : Resize} {p : Plan} (h : r.plan b = .ok p) :
    p.newSize = p.target + p.kept + p.addedBack ∧ 0 < p.kept ∧ p.source + p.kept ≤ r.size ∧
      p.newSize ≤ maxSize r.align := by
  unfold plan at h
  split at h
  · simp only [bind, Except.bind] at h
    split at h
    · cases h
    · split at h
      · cases h
      · unfold join at h
        simp only at h
        split at h
        · cases h
        · split at h
          · cases h
          · cases h
            refine ⟨?_, ?_, ?_, ?_⟩ <;> simp only <;> omega
  · cases h

/-! ## Text -/

/-- The request's text. -/
def text (r : Resize) : String :=
  Fields.render "ReallocateOptions"
    [("data", Hex.number r.address), ("size", toString r.size), ("align", toString r.align),
      ("required_front", toString r.front.required), ("required_back", toString r.back.required),
      ("preferred_front", toString r.front.preferred),
      ("preferred_back", toString r.back.preferred), ("flags", r.flags.text)]

end Resize

namespace Plan

/-- Where the first byte of the old block is found in a new block at
`base`: nowhere, if it was dropped. -/
def oldStart (p : Plan) (base : Nat) : Option Nat :=
  if p.source = 0 then some (base + p.target) else none

/-- The plan's text. -/
def text (p : Plan) : String :=
  Fields.render "ResizePlan"
    [("shrink_front", toString p.source), ("expand_front", toString p.target),
      ("expand_back", toString p.addedBack), ("spare_back", toString p.spareBack),
      ("kept_len", toString p.kept), ("new_size", toString p.newSize),
      ("nocopy", Fields.bool p.nocopy)]

end Plan

end Allocators
