import Allocators.Word
/-!
# Numbers as they are typed

Decimal digits, or hexadecimal ones after the mark `0x`; a plus sign may
stand in front of the digits. A number that is no word is an error.
-/

namespace Allocators

/-- What is wrong with a typed number. -/
inductive NumberError where
  /-- There are no digits. -/
  | empty
  /-- A character is no digit. -/
  | invalidDigit
  /-- The number is no word. -/
  | tooLarge
deriving DecidableEq, Repr

namespace NumberError

/-- The wording of the error. -/
def message : NumberError → String
  | empty => "cannot parse integer from empty string"
  | invalidDigit => "invalid digit found in string"
  | tooLarge => "number too large to fit in target type"

end NumberError

namespace Number

/-- The value of a digit. -/
def digitValue? (c : Char) : Option Nat :=
  if '0' ≤ c ∧ c ≤ '9' then some (c.toNat - '0'.toNat)
  else if 'a' ≤ c ∧ c ≤ 'z' then some (c.toNat - 'a'.toNat + 10)
  else if 'A' ≤ c ∧ c ≤ 'Z' then some (c.toNat - 'A'.toNat + 10)
  else none

/-- The value of a digit of the radix. -/
def digit? (radix : Nat) (c : Char) : Option Nat := (digitValue? c).filter (· < radix)

/-- Reads digits from the left, after those whose value is `acc`. The first
thing that goes wrong is reported; a character that is no digit is so
before its place is looked at. -/
def ofDigits (radix acc : Nat) : List Char → Except NumberError Nat
  | [] => .ok acc
  | c :: cs =>
    match digit? radix c with
    | none => .error .invalidDigit
    | some d =>
      let n := acc * radix + d
      if n < Word.size then ofDigits radix n cs else .error .tooLarge

/-- Reads digits with a plus sign in front of them or not. -/
def ofSigned (radix : Nat) : List Char → Except NumberError Nat
  | [] => .error .empty
  | ['+'] => .error .invalidDigit
  | '+' :: cs => ofDigits radix 0 cs
  | cs => ofDigits radix 0 cs

/-- Reads a typed number. -/
def ofChars : List Char → Except NumberError Nat
  | '0' :: 'x' :: cs => ofSigned 16 cs
  | '0' :: 'X' :: cs => ofSigned 16 cs
  | cs => ofSigned 10 cs

end Number

end Allocators
