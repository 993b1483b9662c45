import Allocators.Resource.Pool
import Allocators.Shell.Run
/-!
# The shell's command line

Reads commands from the standard input, line by line, after a prompt, and
prints what they print. Rejections and faults go to the standard error; a
fault ends the program.
-/

namespace Allocators

namespace Prompt

/-- What stands in front of each line. -/
def text : String := "[∴] "

/-- The exit code after a fault. -/
def faultCode : UInt32 := 101

/-- Single blocks of this size and more are declined. -/
def quota : Nat := 0x10000000000

/-- Shows a step. -/
def print (step : ShellStep) : IO Unit :=
  match step with
  | .rejected r => do
    IO.println ""
    IO.eprintln r.message
    IO.println ""
  | .printed out ending => do
    IO.print out
    match ending with
    | .done => pure ()
    | .fault f => IO.eprintln f.message

/-- Goes through the lines of the input. -/
partial def loop (input output : IO.FS.Stream) (s : Shell Pool) : IO UInt32 := do
  output.putStr text
  output.flush
  let line ← input.getLine
  if line.isEmpty then
    return 0
  match s.line .debug (line.dropEndWhile (· == '\n')).toString with
  | .more step s' => do
    print step
    loop input output s'
  | .over step faulted _ => do
    print step
    return if faulted then faultCode else 0

end Prompt

end Allocators

/-- The shell. -/
def main : IO UInt32 := do
  Allocators.Prompt.loop (← IO.getStdin) (← IO.getStdout)
    (Allocators.Shell.start (Allocators.Pool.ample Allocators.Prompt.quota))
