import Allocators.Allocator
import Allocators.Shell.Number
import Allocators.Text.Plain
/-!
# Options — what can follow a command word

An option is a word with two dashes in front. Some options only stand
there, the others take a value, either as the next word or after an
equals sign. `Reading.read` goes through the words of a line once, from the
left, and reports the first thing it cannot accept. A value given as a word
of its own is looked at when the next option or the end of the line is
reached, so a mistake in between is reported first.

The options are those that the parsing module of the shell declares for its
argument parser, and words are matched against them as that parser does it.
The theorems about lines use only what comes of it in the end, the result of
`Command.ofLine`.
-/

namespace Allocators

/-- The kinds of allocator that can be asked for by name. -/
inductive KindChoice where
  | system
  | stack
  | arena
deriving DecidableEq, Repr

namespace KindChoice

/-- The kind a word names. -/
def ofWord? : String → Option KindChoice
  | "system" => some system
  | "stack" => some stack
  | "arena" => some arena
  | _ => none

/-- The kind as it is shown. -/
def title : KindChoice → String
  | system => "System"
  | stack => "Stack"
  | arena => "Arena"

/-- The kind of allocator to make. Only a heap can be asked to zero. -/
def toKind (zeroed : Bool) : KindChoice → AllocatorKind
  | system => if zeroed then .zeroed else .heap
  | stack => .stack
  | arena => .arena

end KindChoice

/-- What an option takes. -/
inductive OptionForm where
  /-- Nothing. -/
  | flag
  | text
  | number
  | kind
deriving DecidableEq, Repr

/-- The options of all commands. -/
inductive Switch where
  | name
  | kind
  | capacity
  | zeroed
  | allocator
  | size
  | align
  | base
  | expandFront
  | shrinkFront
  | expandBack
  | shrinkBack
  | preferredFront
  | preferredBack
  | keepOld
  | defragment
deriving DecidableEq, Repr

/-- The value an option was given. -/
inductive OptionValue where
  | flag
  | text (s : String)
  | number (n : Nat)
  | kind (k : KindChoice)
deriving DecidableEq, Repr

/-- Why a line is no command. -/
inductive Rejection where
  /-- The line asks for help, or for nothing. -/
  | usage
  | unknownCommand (word : String)
  | unexpectedArgument (word : String)
  /-- A value for an option that takes none. -/
  | unexpectedValue (value option : String)
  | missingValue (option : String)
  | repeated (option : String)
  | invalidNumber (value option : String) (e : NumberError)
  | invalidChoice (value option : String)
  | missingArguments
deriving DecidableEq, Repr

namespace Rejection

/-- The text up to the end of its first line. -/
def firstLine : List Char → List Char
  | [] => []
  | '\n' :: _ => []
  | '\r' :: '\n' :: _ => []
  | c :: cs => c :: firstLine cs

/-- The wording of a rejection, on any number of lines. What was typed is
shown without terminal control. -/
def wording : Rejection → String
  | usage => "usage"
  | unknownCommand word => "unrecognized subcommand '" ++ Plain.text word ++ "'"
  | unexpectedArgument word => "unexpected argument '" ++ Plain.text word ++ "' found"
  | unexpectedValue value option =>
    "unexpected value '" ++ Plain.text value ++ "' for '" ++ option ++
      "' found; no more were expected"
  | missingValue option => "a value is required for '" ++ option ++ "' but none was supplied"
  | repeated option => "the argument '" ++ option ++ "' cannot be used multiple times"
  | invalidNumber value option e =>
    "invalid value '" ++ Plain.text value ++ "' for '" ++ option ++ "': " ++ e.message
  | invalidChoice value option =>
    "invalid value '" ++ Plain.text value ++ "' for '" ++ option ++ "'"
  | missingArguments => "the following required arguments were not provided:"

/-- The wording of a rejection, on one line. -/
def message (r : Rejection) : String := String.ofList (firstLine r.wording.toList)

end Rejection

namespace Switch

/-- The word of an option, without its dashes. -/
def word : Switch → String
  | name => "name"
  | kind => "kind"
  | capacity => "capacity"
  | zeroed => "zeroed"
  | allocator => "allocator"
  | size => "size"
  | align => "align"
  | base => "base"
  | expandFront => "expand-front"
  | shrinkFront => "shrink-front"
  | expandBack => "expand-back"
  | shrinkBack => "shrink-back"
  | preferredFront => "preferred-front"
  | preferredBack => "preferred-back"
  | keepOld => "keep-old"
  | defragment => "defragment"

/-- What an option takes. -/
def form : Switch → OptionForm
  | name | allocator => .text
  | kind => .kind
  | zeroed | keepOld | defragment => .flag
  | _ => .number

/-- The name of an option's value. -/
def placeholder (s : Switch) : String :=
  s.word.map fun c => if c = '-' then '_' else c.toUpper

/-- An option as it is written, with the name of its value. -/
def usage (s : Switch) : String :=
  "--" ++ s.word ++ if s.form = .flag then "" else " <" ++ s.placeholder ++ ">"

/-- Reads a value for an option. -/
def convert (s : Switch) (v : String) : Except Rejection OptionValue :=
  match s.form with
  | .flag => .ok .flag
  | .text => .ok (.text v)
  | .number =>
    match Number.ofChars v.toList with
    | .ok n => .ok (.number n)
    | .error e => .error (.invalidNumber v s.usage e)
  | .kind =>
    match KindChoice.ofWord? v with
    | some k => .ok (.kind k)
    | none =>
      if v.isEmpty then .error (.missingValue s.usage) else .error (.invalidChoice v s.usage)

end Switch

/-- One word of a line, by how it starts. -/
inductive Token where
  /-- Two dashes alone: no options follow. -/
  | stop
  /-- Two dashes and a name, with the value after an equals sign. -/
  | long (name : String) (value : Option String)
  /-- One dash and a letter. -/
  | short (letter : Char)
  /-- Anything else. -/
  | word (w : String)
deriving DecidableEq, Repr

namespace Token

/-- The token a word is. -/
def ofWord (w : String) : Token :=
  match w.toList with
  | ['-', '-'] => stop
  | '-' :: '-' :: cs =>
    let name := String.ofList (cs.takeWhile (· ≠ '='))
    match cs.dropWhile (· ≠ '=') with
    | [] => long name none
    | _ :: v => long name (some (String.ofList v))
  | '-' :: c :: _ => short c
  | _ => word w

end Token

/-- How far a line has been read: the options with their values, the latest
first, and the option whose value has not been looked at, with that value
if it has come. -/
structure Reading where
  given : List (Switch × OptionValue)
  pending : Option (Switch × Option String)

namespace Reading

/-- Nothing has been read. -/
def start : Reading := ⟨[], none⟩

/-- The value an option was given. -/
def value? (r : Reading) (s : Switch) : Option OptionValue :=
  (r.given.find? fun g => g.1 = s).map (·.2)

/-- Takes an option with its value. An option that needs a value has one,
no option is given twice, and the value is one the option can take; they
are looked at in this order. -/
def accept (r : Reading) (s : Switch) (v : Option String) : Except Rejection Reading :=
  match v with
  | none => .error (.missingValue s.usage)
  | some v =>
    if (r.value? s).isSome then
      .error (.repeated s.usage)
    else do
      let x ← s.convert v
      return { r with given := (s, x) :: r.given }

/-- Takes the option that is waiting. -/
def settle (r : Reading) : Except Rejection Reading :=
  match r.pending with
  | none => .ok r
  | some (s, v) => { r with pending := none }.accept s v

/-- Takes an option, with the value attached to it. -/
def takeOption (r : Reading) (s : Switch) (attached : Option String) :
    Except Rejection Reading :=
  match s.form, attached with
  | .flag, some v => .error (.unexpectedValue v s.usage)
  | .flag, none => do (← r.settle).accept s (some "")
  | _, some v => do (← r.settle).accept s (some v)
  | _, none => do return { (← r.settle) with pending := some (s, none) }

/-- Reads the words of a line. The options are those in `allowed`; `stopped`
tells that no options follow. A word that is neither an option nor a value
has no place. -/
def read (allowed : List Switch) : Bool → Reading → List String → Except Rejection Reading
  | _, r, [] => r.settle
  | true, _, w :: _ => .error (.unexpectedArgument w)
  | false, r, w :: ws =>
    match Token.ofWord w with
    | .stop => read allowed true r ws
    | .short c => .error (.unexpectedArgument ("-" ++ c.toString))
    | .long name attached =>
      match allowed.find? fun s => s.word = name with
      | none => .error (.unexpectedArgument ("--" ++ name))
      | some s => do read allowed false (← r.takeOption s attached) ws
    | .word w =>
      match r.pending with
      | some (s, none) => read allowed false { r with pending := some (s, some w) } ws
      | _ => .error (.unexpectedArgument w)

/-! ## Values -/

/-- The text an option was given. -/
def text? (r : Reading) (s : Switch) : Option String :=
  match r.value? s with
  | some (.text t) => some t
  | _ => none

/-- The number an option was given. -/
def number? (r : Reading) (s : Switch) : Option Nat :=
  match r.value? s with
  | some (.number n) => some n
  | _ => none

/-- The kind an option was given. -/
def kind? (r : Reading) (s : Switch) : Option KindChoice :=
  match r.value? s with
  | some (.kind k) => some k
  | _ => none

/-- Whether an option is there. -/
def has (r : Reading) (s : Switch) : Bool := (r.value? s).isSome

end Reading

end Allocators
