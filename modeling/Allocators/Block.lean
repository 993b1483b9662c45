import Allocators.Text.Fields
import Allocators.Text.Hex
/-!
# Blocks — what a request is answered with
-/

namespace Allocators

/-- A block that was handed out. -/
structure Allocation where
  address : Nat
  size : Nat
deriving DecidableEq, Repr

/-- A block that was resized. `oldStart` is where the first byte of the old
block now is, if it survived, and `kept` tells whether the old block is
still alive beside the new one. -/
structure Reallocation where
  address : Nat
  size : Nat
  oldStart : Option Nat
  kept : Bool
deriving DecidableEq, Repr

namespace Allocation

/-- The block's text. -/
def text (a : Allocation) : String :=
  Fields.render "Allocation" [("data", Hex.number a.address), ("size", toString a.size)]

end Allocation

namespace Reallocation

/-- The text of the place of the old first byte. -/
def oldStartText (r : Reallocation) : String := Fields.option (r.oldStart.map Hex.number)

/-- The block's text. -/
def text (r : Reallocation) : String :=
  Fields.render "Reallocation"
    [("data", Hex.number r.address), ("size", toString r.size), ("original", r.oldStartText),
      ("kept", Fields.bool r.kept)]

end Reallocation

end Allocators
