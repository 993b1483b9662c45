import Allocators.Layout
import Allocators.Text.Hex
/-!
# Events — what a call does that others can see

A call asks the resource for blocks and gives them back, runs destruction
callbacks, and leaves notices in the log. `Event` lists them as data;
`text` is their wording.
-/

namespace Allocators

/-- How much a notice matters. -/
inductive Level where
  | trace
  | debug
  | warn
deriving DecidableEq, Repr

/-- One remark in the log. -/
inductive Notice where
  /-- A block was put on top of a stack. -/
  | pushed (size address : Nat)
  /-- A stack has no room for a block. -/
  | noRoom (size : Nat)
  /-- The top block of a stack was resized. -/
  | resized (size address newSize : Nat)
  /-- The top block of a stack was freed. -/
  | popped (size address : Nat)
  /-- A block below the top was not freed. -/
  | freeBelowTop (address : Nat)
  /-- A block was taken from an arena. -/
  | bumped (size address : Nat)
  /-- An arena does not resize. -/
  | resizeRefused (address : Nat)
  /-- An arena does not free. -/
  | freeIgnored (address : Nat)
  /-- A region was cleared after so many callbacks. -/
  | cleared (callbacks : Nat)
  /-- An allocator ended after so many callbacks. -/
  | ended (callbacks : Nat)
  /-- The resource declined a block. -/
  | resourceEmpty (size : Nat)
  /-- A block was taken from the resource. -/
  | allocated (size address : Nat)
  /-- A block was moved to another place. -/
  | moved (size address newSize newAddress : Nat) (kept : Bool)
  /-- A block was given back to the resource. -/
  | freed (size address : Nat)
  /-- A system allocator does not clear. -/
  | clearIgnored
  /-- A restriction kept a clear from its allocator. -/
  | clearSuppressed
  /-- A restriction kept a free from its allocator. -/
  | freeSuppressed (address : Nat)
deriving DecidableEq, Repr

/-- One thing that happened. -/
inductive Event where
  /-- The resource was asked for a block, and answered. -/
  | taken (layout : Layout) (address : Option Nat)
  /-- A block was given back to the resource. -/
  | given (address : Nat) (layout : Layout)
  /-- A destruction callback ran with its data. -/
  | ran (data : Nat)
  /-- A notice was left, by the allocator of this label if it has one. -/
  | noted (label : Option String) (notice : Notice)

namespace Level

/-- The name a level is shown by. -/
def name : Level → String
  | trace => "TRACE"
  | debug => "DEBUG"
  | warn => "WARN"

end Level

namespace Notice

/-- How much each notice matters: what a caller could not know is a
warning, what was declined or summed up is for debugging. -/
def level : Notice → Level
  | noRoom _ | cleared _ | ended _ | resourceEmpty _ => .debug
  | freeBelowTop _ | freeIgnored _ | clearIgnored => .warn
  | _ => .trace

/-- A size in words. -/
def sized (size : Nat) : String := Hex.number size ++ " bytes"

/-- A block in words. -/
def placed (size address : Nat) : String := sized size ++ " at " ++ Hex.number address

/-- The wording of a notice. -/
def text : Notice → String
  | pushed size address => "pushed " ++ placed size address
  | noRoom size => "no room for " ++ sized size
  | resized size address newSize => "resized " ++ placed size address ++ " to " ++ sized newSize
  | popped size address => "popped " ++ placed size address
  | freeBelowTop address => "ignoring free of " ++ Hex.number address ++ " below the top"
  | bumped size address => "bumped " ++ placed size address
  | resizeRefused address => "refusing to resize " ++ Hex.number address
  | freeIgnored address => "ignoring free of " ++ Hex.number address
  | cleared n => "cleared, ran " ++ toString n ++ " destruction callbacks"
  | ended n => "ran " ++ toString n ++ " destruction callbacks"
  | resourceEmpty size => "resource could not provide " ++ sized size
  | allocated size address => "allocated " ++ placed size address
  | moved size address newSize newAddress kept =>
    "moved " ++ placed size address ++ " to " ++ placed newSize newAddress ++
      if kept then " (old block kept)" else ""
  | freed size address => "freed " ++ placed size address
  | clearIgnored => "ignoring clear, which is not supported"
  | clearSuppressed => "clear suppressed"
  | freeSuppressed address => "free of " ++ Hex.number address ++ " suppressed"

end Notice

namespace Event

/-- A layout as the resource names it. -/
def layoutText (l : Layout) : String := toString l.size ++ " align " ++ toString l.align

/-- The wording of an event. -/
def text : Event → String
  | taken l address =>
    "resource alloc " ++ layoutText l ++ " -> " ++ (address.map Hex.number).getD "none"
  | given address l => "resource free " ++ Hex.number address ++ " " ++ layoutText l
  | ran data => "callback " ++ toString data
  | noted label notice =>
    notice.level.name ++ " " ++ (label.map (· ++ ": ")).getD "" ++ notice.text

/-- Whether the event is a notice, and not something done. -/
def isNotice : Event → Bool
  | noted _ _ => true
  | _ => false

end Event

end Allocators
