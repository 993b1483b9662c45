import Allocators.Flags
/-!
# Resize flags — the shape of one resize request
-/

namespace Allocators

/-- One thing a resize request can ask for. -/
inductive ResizeFlag where
  /-- Drop bytes at the end. -/
  | shrinkBack
  /-- Add bytes at the end. -/
  | expandBack
  /-- Drop bytes at the start. -/
  | shrinkFront
  /-- Add bytes before the start. -/
  | expandFront
  /-- Leave the old block alive and copy nothing into the new one. -/
  | keepOldNocopy
  /-- Moving is welcome even where the block could stay. -/
  | tryDefragment
deriving DecidableEq, Repr

namespace ResizeFlag

/-- The name a flag is shown by. -/
def name : ResizeFlag → String
  | shrinkBack => "SHRINK_BACK"
  | expandBack => "EXPAND_BACK"
  | shrinkFront => "SHRINK_FRONT"
  | expandFront => "EXPAND_FRONT"
  | keepOldNocopy => "KEEP_OLD_NOCOPY"
  | tryDefragment => "TRY_DEFRAGMENT"

/-- Every flag, in order. -/
def all : List ResizeFlag :=
  [shrinkBack, expandBack, shrinkFront, expandFront, keepOldNocopy, tryDefragment]

instance : FlagKind ResizeFlag where
  width := 8
  title := "ReallocFlags"
  all := all
  bit := ResizeFlag.ctorIdx
  name := name

/-- Every flag has a bit of the word. -/
theorem bit_lt (f : ResizeFlag) : FlagKind.bit f < FlagKind.width ResizeFlag := by
  cases f <;> decide

end ResizeFlag

/-- A set of resize flags. -/
abbrev ResizeFlags := Flags ResizeFlag

end Allocators
