import Allocators.Layout
import Allocators.Text.Hex
/-!
# Failures — refusals and faults

A call can end without an answer in two ways. A `Refusal` is part of the
agreement between an allocator and its caller: the call is declined and
reported as a value. A `Fault` is a breach of it, found by a check, or a
destruction callback that fails: the call stops where it is.
`message` is the wording of each.
-/

namespace Allocators

/-- Why a call was declined. -/
inductive Refusal where
  /-- There is no room. -/
  | outOfMemory
  /-- There is no room for what the allocator has to remember. -/
  | bookkeeping
  /-- The size asked for is zero. -/
  | zeroSize
  /-- The alignment is not a power of two. -/
  | invalidAlignment
  /-- A side was asked both to grow and to shrink. -/
  | conflictingFlags
  /-- The request contradicts itself or leaves no possible block. -/
  | infeasibleResize
  /-- The allocator does not do this. -/
  | unsupported
  /-- The block is not the one on top. -/
  | notStackTop
deriving DecidableEq, Repr

/-- What a check found, or which callback failed. -/
inductive Fault where
  /-- A side that only shrinks was given a preferred amount. -/
  | preferredOnShrink (preferred : Nat)
  /-- A block does not start at a multiple of its alignment. -/
  | misaligned (label : String) (address : Nat) (align : Nat)
  /-- A block freed on a stack is not the one on top. -/
  | notTop (label : String) (address : Nat)
  /-- A block was freed on an arena. -/
  | cannotFree (label : String) (address : Nat)
  /-- A system allocator was cleared. -/
  | cannotClear (label : String)
  /-- The resource gave out a block that is still live. -/
  | handedOutTwice (address : Nat)
  /-- A block is not live. -/
  | notLive (address : Nat)
  /-- A live block was described with another layout than its own. -/
  | otherLayout (address : Nat) (live given : Layout)
  /-- A region's cursor was moved past its tail. -/
  | cursorPastTail
  /-- A sum is no word. -/
  | sumOverflow
  /-- A difference is below zero. -/
  | differenceOverflow
  /-- The callback registered with this data failed. -/
  | callback (data : Nat)
deriving DecidableEq

/-- A call that ended without an answer. -/
inductive Failure where
  | refused (r : Refusal)
  | fault (f : Fault)
deriving DecidableEq

namespace Refusal

/-- The wording of a refusal. -/
def message : Refusal → String
  | outOfMemory => "out of memory"
  | bookkeeping => "could not allocate allocator bookkeeping"
  | zeroSize => "attempted to allocate a zero-sized block"
  | invalidAlignment => "the alignment was not a power of two"
  | conflictingFlags => "expand and shrink were both requested for one side"
  | infeasibleResize => "the resize request cannot be satisfied"
  | unsupported => "the allocator does not support this operation"
  | notStackTop => "the block is not the top of the stack"

end Refusal

namespace Fault

/-- The wording of two values that should have been equal. -/
def unequal (reason left right : String) : String :=
  "assertion `left == right` failed: " ++ reason ++ "\n  left: " ++ left ++ "\n right: " ++ right

/-- The wording of a fault. -/
def message : Fault → String
  | preferredOnShrink preferred =>
    unequal "preferred bytes make no sense when shrinking" (toString preferred) "0"
  | misaligned label address align =>
    label ++ ": " ++ Hex.number address ++ " is not aligned to " ++ Hex.number align
  | notTop label address => label ++ ": " ++ Hex.number address ++ " is not the top of the stack"
  | cannotFree label address =>
    label ++ ": an arena cannot free " ++ Hex.number address ++ " on its own"
  | cannotClear label => label ++ ": a system allocator cannot be cleared"
  | handedOutTwice address => Hex.number address ++ " was handed out twice"
  | notLive address => Hex.number address ++ " is not a live allocation"
  | otherLayout address live given =>
    unequal (Hex.number address ++ " was allocated with a different size or alignment")
      live.text given.text
  | cursorPastTail => "assertion failed: offset <= self.tail"
  | sumOverflow => "attempt to add with overflow"
  | differenceOverflow => "attempt to subtract with overflow"
  | callback data => "callback " ++ toString data ++ " failed"

/-- Whether a registered callback, and not the allocator, is at fault. -/
def isCallback : Fault → Bool
  | callback _ => true
  | _ => false

end Fault

end Allocators
