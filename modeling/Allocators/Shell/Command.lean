import Allocators.Shell.Option
/-!
# Commands — what a line asks for

A line is cut at every blank. Its first word names the command, the others
are the command's options. `Command.ofLine` is the command, or the reason
why there is none.

The grammar is the one that the parsing module of the shell declares for its
argument parser: the commands, the options of each, which of them take a
value, and what stands in for one that is left out. The theorems about lines
use the result of `Command.ofLine` only, and hold whatever it is.
-/

namespace Allocators

/-- The changes a resize command asks for. -/
structure Changes where
  expandFront : Option Nat
  shrinkFront : Option Nat
  expandBack : Option Nat
  shrinkBack : Option Nat
  preferredFront : Option Nat
  preferredBack : Option Nat
  keepOld : Bool
  defragment : Bool
deriving DecidableEq, Repr

/-- One command. -/
inductive Command where
  | create (name : String) (kind : KindChoice) (capacity : Nat) (zeroed : Bool)
  | delete (allocator : String)
  | alloc (allocator : String) (size align : Nat)
  | realloc (allocator : String) (base : Nat) (changes : Changes)
  | free (allocator : String) (base : Nat)
  | clear (allocator : String)
  | features (allocator : String)
  | print (allocator : Option String)
  | exit
deriving DecidableEq, Repr

/-- The first word of a line. -/
inductive Verb where
  | create
  | delete
  | alloc
  | realloc
  | free
  | clear
  | features
  | print
  | exit
  | help
deriving DecidableEq, Repr

namespace Changes

/-- The changes as steps of a resize description, each side's growth before
its shrinking. A side that grows prefers what it requires, unless told
otherwise. -/
def edits (c : Changes) : List Edit :=
  (c.expandFront.map fun n => Edit.expandFront n (c.preferredFront.getD n)).toList ++
    (c.shrinkFront.map Edit.shrinkFront).toList ++
    (c.expandBack.map fun n => Edit.expandBack n (c.preferredBack.getD n)).toList ++
    (c.shrinkBack.map Edit.shrinkBack).toList ++
    (if c.keepOld then [Edit.keepOldNocopy] else []) ++
    if c.defragment then [Edit.tryDefragment] else []

end Changes

namespace Verb

/-- The verb a word names. -/
def ofWord? : String → Option Verb
  | "create" => some create
  | "delete" => some delete
  | "alloc" => some alloc
  | "realloc" => some realloc
  | "free" => some free
  | "clear" => some clear
  | "features" => some features
  | "print" => some print
  | "exit" => some exit
  | "help" => some help
  | _ => none

/-- The options of a command. -/
def switches : Verb → List Switch
  | create => [.name, .kind, .capacity, .zeroed]
  | alloc => [.allocator, .size, .align]
  | realloc =>
    [.allocator, .base, .expandFront, .shrinkFront, .expandBack, .shrinkBack, .preferredFront,
      .preferredBack, .keepOld, .defragment]
  | free => [.allocator, .base]
  | delete | clear | features | print => [.allocator]
  | exit | help => []

/-- The changes that were read. -/
def changes (r : Reading) : Changes where
  expandFront := r.number? .expandFront
  shrinkFront := r.number? .shrinkFront
  expandBack := r.number? .expandBack
  shrinkBack := r.number? .shrinkBack
  preferredFront := r.number? .preferredFront
  preferredBack := r.number? .preferredBack
  keepOld := r.has .keepOld
  defragment := r.has .defragment

/-- The command made of what was read, if all it needs is there. -/
def command? (v : Verb) (r : Reading) : Option Command :=
  match v with
  | create => do
    let name ← r.text? .name
    return .create name ((r.kind? .kind).getD .system) ((r.number? .capacity).getD 0x1000)
      (r.has .zeroed)
  | delete => return .delete (← r.text? .allocator)
  | alloc => do
    let allocator ← r.text? .allocator
    let size ← r.number? .size
    return .alloc allocator size ((r.number? .align).getD defaultAlign)
  | realloc => do
    let allocator ← r.text? .allocator
    let base ← r.number? .base
    return .realloc allocator base (changes r)
  | free => do
    let allocator ← r.text? .allocator
    let base ← r.number? .base
    return .free allocator base
  | clear => return .clear (← r.text? .allocator)
  | features => return .features (← r.text? .allocator)
  | print => some (.print (r.text? .allocator))
  | exit => some .exit
  | help => none

end Verb

namespace Command

/-- Why a request for help, about these words, is no command: it is
answered by the usage, unless a word names nothing. A command has no
commands below it. -/
def helpOn : List String → Rejection
  | [] => .usage
  | w :: ws =>
    match Verb.ofWord? w, ws with
    | none, _ => .unknownCommand w
    | some _, [] => .usage
    | some _, w' :: _ => .unknownCommand w'

/-- Why a line that starts with two dashes alone is no command. -/
def afterStop : List String → Rejection
  | [] => .usage
  | w :: _ => if (Verb.ofWord? w).isSome then .unexpectedArgument w else .unknownCommand w

/-- The command the words of a line make up. -/
def ofWords : List String → Except Rejection Command
  | [] => .error .usage
  | w :: ws =>
    match Verb.ofWord? w with
    | some .help => .error (helpOn ws)
    | some v => do
      let r ← Reading.read v.switches false Reading.start ws
      match v.command? r with
      | some c => .ok c
      | none => .error .missingArguments
    | none =>
      match Token.ofWord w with
      | .stop => .error (afterStop ws)
      | .short c => .error (.unexpectedArgument ("-" ++ c.toString))
      | .long name _ => .error (.unexpectedArgument ("--" ++ name))
      | .word w => .error (.unknownCommand w)

/-- The command of a line, by the grammar that the shell declares for its
argument parser. The theorems about lines use only what it comes to: a
command, or a rejection. -/
def ofLine (line : String) : Except Rejection Command :=
  ofWords ((line.toList.splitOn ' ').map String.ofList)

end Command

end Allocators
