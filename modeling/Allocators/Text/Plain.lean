/-!
# Plain text — what is left without terminal control

A text can hold characters that steer a terminal: single control characters,
and control functions, which start with an escape character. `Plain.text`
drops them and keeps tabs, line feeds, form feeds and carriage returns. A
control string swallows these too, but in an escape sequence or a control
sequence they open a stretch of plain text, up to the next control character;
there the sequence goes on, unless a character beyond ASCII in the stretch has
ended it.
-/

namespace Allocators

namespace Plain

/-- A tab, a line feed, a form feed or a carriage return. -/
def isSpacing (c : Char) : Bool := c = '\t' || c = '\n' || c = '\x0c' || c = '\r'

/-- A blank or a visible character of ASCII. -/
def isGraphic (c : Char) : Bool := 0x20 ≤ c.toNat && c.toNat < 0x7f

/-- A character beyond ASCII. -/
def isWide (c : Char) : Bool := 0x80 ≤ c.toNat

/-- Whether a character is part of a plain text. -/
def isPlain (c : Char) : Bool := isWide c || isGraphic c || isSpacing c

/-- Whether one of the bytes of a character is the string terminator, which
ends a control string wherever it stands. -/
def holdsTerminator (c : Char) : Bool := (String.utf8EncodeChar c).contains 0x9c

/-- How far a control function has come. -/
inductive Function where
  /-- The escape character alone. -/
  | escape
  /-- An escape character and intermediate characters. -/
  | intermediate
  /-- A control sequence, before its last character. -/
  | sequence
  /-- A device control string, before its parameters. -/
  | device
  /-- A device control string in its parameters. -/
  | deviceParameters
  /-- A device control string in its intermediate characters. -/
  | deviceIntermediate
  /-- The content of a control string. -/
  | string
  /-- A command to the operating system, which a bell ends. -/
  | command
deriving DecidableEq, Repr

/-- Where a text has come to. -/
inductive State where
  /-- In plain text, with the control function that it interrupts. -/
  | text (interrupted : Option Function)
  /-- In a control function. -/
  | control (f : Function)
deriving DecidableEq, Repr

namespace Function

/-- Whether spacing opens plain text in a control function. -/
def keepsSpacing : Function → Bool
  | escape | intermediate | sequence => true
  | device | deviceParameters | deviceIntermediate | string | command => false

/-- The state after a blank or a visible character of ASCII. -/
def advance (f : Function) (c : Char) : State :=
  match f with
  | escape =>
    if c < '0' then .control intermediate
    else if c = '[' then .control sequence
    else if c = ']' then .control command
    else if c = 'P' then .control device
    else if c = 'X' ∨ c = '^' ∨ c = '_' then .control string
    else .text none
  | intermediate => if c < '0' then .control intermediate else .text none
  | sequence => if c < '@' then .control sequence else .text none
  | device =>
    if c < '0' then .control deviceIntermediate
    else if c < '@' then .control deviceParameters
    else .control string
  | deviceParameters =>
    if c < '0' then .control deviceIntermediate
    else if c < '<' then .control deviceParameters
    else .control string
  | deviceIntermediate => if c < '0' then .control deviceIntermediate else .control string
  | string => .control string
  | command => .control command

/-- The state after a character that is neither an escape character nor a
cancel character. -/
def next (f : Function) (c : Char) : State :=
  if isGraphic c then f.advance c
  else if f.keepsSpacing && isSpacing c then .text (some f)
  else if f = string ∧ holdsTerminator c then .text none
  else if f = command ∧ c = '\x07' then .text none
  else .control f

end Function

namespace State

/-- Outside of control functions. -/
def ground : State := text none

/-- Whether a character is shown. -/
def shows (s : State) (c : Char) : Bool :=
  match s with
  | text _ => isPlain c
  | control f => f.keepsSpacing && isSpacing c

/-- The state after a character. -/
def next (s : State) (c : Char) : State :=
  if c = '\x1b' then control .escape
  else if c = '\x18' ∨ c = '\x1a' then ground
  else
    match s with
    | text none => ground
    | text (some f) =>
      if isWide c then ground
      else if isPlain c then text (some f)
      else control f
    | control f => f.next c

end State

/-- The plain text in what follows. -/
def visible : State → List Char → List Char
  | _, [] => []
  | s, c :: cs => if s.shows c then c :: visible (s.next c) cs else visible (s.next c) cs

/-- A text without terminal control. -/
def text (s : String) : String := String.ofList (visible .ground s.toList)

end Plain

end Allocators
