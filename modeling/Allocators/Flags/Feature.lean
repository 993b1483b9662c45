import Allocators.Flags
/-!
# Features — what an allocator is able to do

Callers are expected to look at an allocator's features before they ask
for more than a block.
-/

namespace Allocators

/-- One ability of an allocator. -/
inductive Feature where
  /-- Blocks can be freed and resized one by one. -/
  | freeAndRealloc
  /-- Clearing releases every block at once. -/
  | clearing
  /-- A resize leaves the block where it is. -/
  | inPlace
  /-- Blocks can grow at the front. -/
  | expandFront
  /-- Blocks can grow at the back. -/
  | expandBack
  /-- Bytes given up by shrinking become free again. -/
  | shrinkReclaims
  /-- A resize can leave out the copy. -/
  | nocopy
  /-- A resize that moves can leave the old block alive. -/
  | keepOld
  /-- Only the most recent live block can be resized or freed. -/
  | stacklike
  /-- Calls from several threads are each safe. -/
  | threadsafe
  /-- Fresh memory is zero. -/
  | zeroInit
  /-- Destruction callbacks can be registered. -/
  | callbacks
  /-- Failures are always reported as values. -/
  | nothrow
deriving DecidableEq, Repr

namespace Feature

/-- The name a feature is shown by. -/
def name : Feature → String
  | freeAndRealloc => "FREE_AND_REALLOC"
  | clearing => "CLEARING"
  | inPlace => "IN_PLACE"
  | expandFront => "EXPAND_FRONT"
  | expandBack => "EXPAND_BACK"
  | shrinkReclaims => "SHRINK_RECLAIMS"
  | nocopy => "NOCOPY"
  | keepOld => "KEEP_OLD"
  | stacklike => "STACKLIKE"
  | threadsafe => "THREADSAFE"
  | zeroInit => "ZERO_INIT"
  | callbacks => "CALLBACKS"
  | nothrow => "NOTHROW"

/-- Every feature, in order. -/
def all : List Feature :=
  [freeAndRealloc, clearing, inPlace, expandFront, expandBack, shrinkReclaims, nocopy, keepOld,
    stacklike, threadsafe, zeroInit, callbacks, nothrow]

instance : FlagKind Feature where
  width := 16
  title := "FeatureFlags"
  all := all
  bit := Feature.ctorIdx
  name := name

/-- Every feature has a bit of the word. -/
theorem bit_lt (f : Feature) : FlagKind.bit f < FlagKind.width Feature := by
  cases f <;> decide

end Feature

/-- A set of features. -/
abbrev Features := Flags Feature

namespace Features

/-- Whether an allocator can keep this promise at all: of two threads, one
can move the top of the stack between the other's calls. -/
def isConsistent (s : Features) : Bool :=
  !s.contains (Flags.ofList [.stacklike, .threadsafe])

end Features

end Allocators
