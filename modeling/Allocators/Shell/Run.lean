import Allocators.Shell.Command
import Allocators.Shell.Session
import Allocators.Text.Quoted
/-!
# The shell — commands over named sessions

The shell keeps sessions by name, all over one resource. `execute` is one
command: what it prints, the fault that ended it if one did, and the shell
after it. `run` goes through the lines until one says `exit`, a command is
ended by a fault, or the lines end; then every session is closed.
-/

namespace Allocators

/-- The sessions by name, the earliest first, and the world they share. -/
structure Shell (ρ : Type) where
  sessions : List (String × Session)
  world : World ρ

/-- How a command ended. -/
inductive Ending where
  | done
  | fault (f : Fault)
deriving DecidableEq

/-- What a line came to: it was no command, or it printed a text and ended. -/
inductive ShellStep where
  | rejected (r : Rejection)
  | printed (out : String) (ending : Ending)

/-- What became of all the lines: a step for each line read, whether a fault
ended them, and the world when every session is closed. -/
structure Transcript (ρ : Type) where
  steps : List ShellStep
  faulted : Bool
  world : World ρ

/-- How it goes on after a line: with the shell as it is then, or not, be it
for `exit` or for a fault. -/
inductive Progress (ρ : Type) where
  | more (step : ShellStep) (s : Shell ρ)
  | over (step : ShellStep) (faulted : Bool) (s : Shell ρ)

namespace Shell

variable {ρ : Type}

/-- A shell without sessions. -/
def start (r : ρ) : Shell ρ := ⟨[], World.start r⟩

/-! ## Sessions by name -/

/-- The session of a name. -/
def session? (s : Shell ρ) (name : String) : Option Session :=
  (s.sessions.find? fun e => e.1 = name).map (·.2)

/-- Adds a session under a name that has none. -/
def addSession (s : Shell ρ) (name : String) (x : Session) (w : World ρ) : Shell ρ :=
  ⟨s.sessions ++ [(name, x)], w⟩

/-- Puts another session in the place of a name's. -/
def setSession (s : Shell ρ) (name : String) (x : Session) (w : World ρ) : Shell ρ :=
  ⟨s.sessions.map fun e => if e.1 = name then (name, x) else e, w⟩

/-- The shell without a name's session. -/
def removeSession (s : Shell ρ) (name : String) (w : World ρ) : Shell ρ :=
  ⟨s.sessions.filter fun e => e.1 ≠ name, w⟩

/-! ## Texts -/

/-- What is printed when a call is declined. -/
def explain : Refusal → String
  | .outOfMemory => "The allocator is out of memory!\n"
  | .conflictingFlags => "A side cannot both grow and shrink!\n"
  | .infeasibleResize =>
    "That resize would leave nothing behind, or preferred is below required!\n"
  | .unsupported => "This allocator cannot do that!\n"
  | .notStackTop => "Only the top of the stack can be resized!\n"
  | .zeroSize => "The capacity must not be zero!\n"
  | r => r.message ++ "\n"

/-- What is printed for a name without a session. -/
def noSession (name : String) : String :=
  "There is no allocator named " ++ Quoted.text name ++ " :(\n"

/-- What is printed for an address without a block. -/
def noBlock (base : Nat) : String := "There is no allocation at " ++ Hex.number base ++ "\n"

/-- What is printed for a new block. -/
def allocatedText (a : Allocation) : String :=
  "Allocated " ++ Hex.number a.size ++ " bytes at " ++ Hex.number a.address ++ "\n"

/-- What is printed for a resized block. -/
def resizedText (r : Reallocation) : String :=
  "Resized to " ++ Hex.number r.size ++ " bytes at " ++ Hex.number r.address ++
    " (original start: " ++ r.oldStartText ++ ", kept: " ++ Fields.bool r.kept ++ ")\n"

/-- What is printed for a block in a list. -/
def blockLine (e : Nat × Layout) : String :=
  "  Block at " ++ Hex.number e.1 ++ " (len: " ++ Hex.number e.2.size ++ ")\n"

/-! ## Commands -/

/-- A text was printed and the command is done. -/
def printing (s : Shell ρ) (out : String) : ShellStep × Shell ρ := (.printed out .done, s)

/-- Makes a call on a session's allocator. A call that is declined is
explained, and one that finds fault ends the command with nothing printed;
either leaves the session's blocks as they are. -/
def call {α : Type} (s : Shell ρ) (name : String) (x : Session) (c : Action Allocator ρ α)
    (blocks : α → Ledger) (out : α → String) : ShellStep × Shell ρ :=
  match c ⟨x.allocator, s.world⟩ with
  | .ok a t => (s.setSession name ⟨t.allocator, blocks a⟩ t.world).printing (out a)
  | .error (.refused r) t =>
    (s.setSession name ⟨t.allocator, x.blocks⟩ t.world).printing (explain r)
  | .error (.fault f) t =>
    (.printed "" (.fault f), s.setSession name ⟨t.allocator, x.blocks⟩ t.world)

/-- The blocks after a resize: the old one goes unless it was kept, and the
new one comes with the old one's alignment. -/
def blocksAfterResize (blocks : Ledger) (base align : Nat) (r : Reallocation) : Ledger :=
  let left := if r.kept then blocks else blocks.erase base
  match Layout.ofSizeAlign? r.size align with
  | none => left
  | some l => left.insert r.address l

/-- The text of an allocator on lines of its own. -/
def allocatorText (b : Build) (w : World ρ) (a : Allocator) : Except Failure String := do
  return (← a.text b w.memory) ++ "\n"

/-- Prints a text, or ends with what was wrong with making it. -/
def printingText (s : Shell ρ) (out : Except Failure String) : ShellStep × Shell ρ :=
  match out with
  | .ok t => s.printing t
  | .error (.fault f) => (.printed "" (.fault f), s)
  | .error (.refused r) => s.printing (explain r)

/-- Does something with a name's session. -/
def onSession (s : Shell ρ) (name : String) (f : Session → ShellStep × Shell ρ) :
    ShellStep × Shell ρ :=
  match s.session? name with
  | none => s.printing (noSession name)
  | some x => f x

variable [Resource ρ]

/-- Makes an allocator under a name that has none. -/
def create (s : Shell ρ) (name : String) (kind : KindChoice) (capacity : Nat) (zeroed : Bool) :
    ShellStep × Shell ρ :=
  match s.session? name with
  | some _ => s.printing ("There is already an allocator named " ++ Quoted.text name ++ "\n")
  | none =>
    match Allocator.create (kind.toKind zeroed) name capacity s.world with
    | (.error r, w) => ({ s with world := w } : Shell ρ).printing (explain r)
    | (.ok a, w) =>
      (s.addSession name ⟨a, Ledger.empty⟩ w).printing
        ("Created " ++ kind.title ++ " allocator " ++ Quoted.text name ++ "\n")

/-- Ends a session. -/
def delete (b : Build) (s : Shell ρ) (name : String) : ShellStep × Shell ρ :=
  s.onSession name fun x =>
    let out := "Deleted allocator " ++ Quoted.text name ++ "!\n"
    match x.close b s.world with
    | (none, w) => (s.removeSession name w).printing out
    | (some f, w) => (.printed out (.fault f), s.removeSession name w)

/-- Takes a block. -/
def alloc (b : Build) (s : Shell ρ) (name : String) (size align : Nat) : ShellStep × Shell ρ :=
  s.onSession name fun x =>
    match Layout.ofSizeAlign? size align with
    | none =>
      s.printing "The size must be non-zero and the alignment must be a power of two!\n"
    | some l =>
      s.call name x (Allocator.allocate b l)
        (fun a => x.blocks.insert a.address ((Layout.ofSizeAlign? a.size align).getD l))
        allocatedText

/-- Resizes a block. -/
def realloc (b : Build) (s : Shell ρ) (name : String) (base : Nat) (c : Changes) :
    ShellStep × Shell ρ :=
  s.onSession name fun x =>
    match x.blocks.find? base with
    | none => s.printing (noBlock base)
    | some l =>
      s.call name x (Allocator.reallocate b ((Resize.ofBlock base l.size l.align).edits c.edits))
        (blocksAfterResize x.blocks base l.align) resizedText

/-- Frees a block. It is no longer remembered from the moment the call is
made. -/
def free (b : Build) (s : Shell ρ) (name : String) (base : Nat) : ShellStep × Shell ρ :=
  s.onSession name fun x =>
    match x.blocks.find? base with
    | none => s.printing (noBlock base)
    | some l =>
      let left := x.blocks.erase base
      s.call name { x with blocks := left } (Allocator.deallocate b base l) (fun _ => left)
        fun _ => "Freed " ++ Hex.number base ++ "\n"

omit [Resource ρ] in
/-- Clears an allocator that can be cleared. -/
def clear (b : Build) (s : Shell ρ) (name : String) : ShellStep × Shell ρ :=
  s.onSession name fun x =>
    if x.allocator.features.has .clearing then
      s.call name x (Allocator.clear b) (fun _ => Ledger.empty)
        fun _ => "Cleared " ++ Quoted.text name ++ "\n"
    else
      s.printing (Quoted.text name ++ " cannot be cleared!\n")

omit [Resource ρ] in
/-- Prints what an allocator is able to do. -/
def features (s : Shell ρ) (name : String) : ShellStep × Shell ρ :=
  s.onSession name fun x => s.printing (x.allocator.features.text ++ "\n")

omit [Resource ρ] in
/-- Prints an allocator and its blocks. -/
def printOne (b : Build) (s : Shell ρ) (name : String) : ShellStep × Shell ρ :=
  s.onSession name fun x => s.printingText do
    let t ← allocatorText b s.world x.allocator
    return "\n" ++ t ++ String.join (x.sortedBlocks.map blockLine)

omit [Resource ρ] in
/-- Prints all allocators. -/
def printAll (b : Build) (s : Shell ρ) : ShellStep × Shell ρ :=
  if s.sessions.isEmpty then
    s.printing "There are no allocators to print!\n"
  else
    s.printingText do
      let ts ← s.sessions.mapM fun e => allocatorText b s.world e.2.allocator
      return "\n" ++ String.join ts

/-- Carries out a command. -/
def execute (b : Build) (s : Shell ρ) : Command → ShellStep × Shell ρ
  | .create name kind capacity zeroed => s.create name kind capacity zeroed
  | .delete name => s.delete b name
  | .alloc name size align => s.alloc b name size align
  | .realloc name base changes => s.realloc b name base changes
  | .free name base => s.free b name base
  | .clear name => s.clear b name
  | .features name => s.features name
  | .print none => s.printAll b
  | .print (some name) => s.printOne b name
  | .exit => s.printing ""

/-! ## Lines -/

/-- Closes sessions one after another. -/
def closeAll (b : Build) (w : World ρ) (xs : List (String × Session)) : World ρ :=
  xs.foldl (fun w e => (e.2.close b w).2) w

/-- One line: its step, and whether the lines go on after it. -/
def line (b : Build) (s : Shell ρ) (text : String) : Progress ρ :=
  match Command.ofLine text with
  | .error r => .more (.rejected r) s
  | .ok .exit => .over (.printed "" .done) false s
  | .ok c =>
    match s.execute b c with
    | (.printed out (.fault f), s') => .over (.printed out (.fault f)) true s'
    | (step, s') => .more step s'

/-- The end of the lines: the steps, with the world when every session is
closed. -/
def finish (b : Build) (s : Shell ρ) (steps : List ShellStep) (faulted : Bool) : Transcript ρ :=
  ⟨steps, faulted, closeAll b s.world s.sessions⟩

/-- Goes through the lines. The end of the lines is a step of its own, which
prints nothing. -/
def runFrom (b : Build) (s : Shell ρ) : List String → Transcript ρ
  | [] => s.finish b [.printed "" .done] false
  | text :: rest =>
    match s.line b text with
    | .over step faulted s' => s'.finish b [step] faulted
    | .more step s' =>
      let t := runFrom b s' rest
      { t with steps := step :: t.steps }

/-- Goes through the lines, starting without sessions. -/
def run (b : Build) (r : ρ) (lines : List String) : Transcript ρ := runFrom b (start r) lines

end Shell

end Allocators
