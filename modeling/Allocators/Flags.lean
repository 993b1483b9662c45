import Allocators.Text.Hex
/-!
# Flag sets

A kind of flag lists its flags in order; flag number `i` of the list is
bit `i` of a set's word. The word may be wider than the list: bits beyond
it belong to no flag, a set read from a raw word can carry them, and
`truncate` drops them. `has_union`, `has_single` and `has_difference` say
what the set operations do to membership.
-/

namespace Allocators

/-- A kind of flag: the width of its word, its flags in order with their
names, and the name of the set. -/
class FlagKind (φ : Type) where
  width : Nat
  title : String
  all : List φ
  bit : φ → Nat
  name : φ → String

/-- A set of flags, as the word that carries them. -/
structure Flags (φ : Type) [FlagKind φ] where
  bits : BitVec (FlagKind.width φ)

namespace Flags

variable {φ : Type} [FlagKind φ]

instance : DecidableEq (Flags φ) := fun a b =>
  if h : a.bits = b.bits then
    isTrue (by cases a; cases b; cases h; rfl)
  else
    isFalse fun e => h (e ▸ rfl)

/-- No flag. -/
def empty : Flags φ := ⟨0⟩

/-- One flag. -/
def single (f : φ) : Flags φ := ⟨BitVec.twoPow _ (FlagKind.bit f)⟩

/-! ## Set operations -/

/-- The flags of either set. -/
def union (a b : Flags φ) : Flags φ := ⟨a.bits ||| b.bits⟩

/-- The flags of both sets. -/
def intersection (a b : Flags φ) : Flags φ := ⟨a.bits &&& b.bits⟩

/-- The flags of the first set that are not in the second. -/
def difference (a b : Flags φ) : Flags φ := ⟨a.bits &&& ~~~b.bits⟩

/-- The flags of exactly one of the sets. -/
def symmetricDifference (a b : Flags φ) : Flags φ := ⟨a.bits ^^^ b.bits⟩

/-- The set of these flags. -/
def ofList (fs : List φ) : Flags φ := fs.foldl (fun s f => s.union (single f)) empty

/-- Every flag there is. -/
def all : Flags φ := ofList (FlagKind.all (φ := φ))

/-- The set without the bits that belong to no flag. -/
def truncate (a : Flags φ) : Flags φ := a.intersection all

/-- The flags that are not in the set. -/
def complement (a : Flags φ) : Flags φ := (⟨~~~a.bits⟩ : Flags φ).truncate

/-! ## Questions -/

/-- Whether the flag is in the set. -/
def has (a : Flags φ) (f : φ) : Bool := a.bits.getLsbD (FlagKind.bit f)

/-- Whether every flag of the second set is in the first. -/
def contains (a b : Flags φ) : Bool := decide (a.intersection b = b)

/-- Whether the sets share a flag. -/
def intersects (a b : Flags φ) : Bool := decide (a.intersection b ≠ empty)

/-- Whether the set has no flag. -/
def isEmpty (a : Flags φ) : Bool := decide (a = empty)

/-- Whether the set has every flag. -/
def isAll (a : Flags φ) : Bool := a.contains all

/-- The flags of the set, in order. -/
def toList (a : Flags φ) : List φ := (FlagKind.all (φ := φ)).filter a.has

/-- The set's word as a number. -/
def toNat (a : Flags φ) : Nat := a.bits.toNat

/-! ## Reading and text -/

/-- The set a raw word carries, bits of no flag included. -/
def ofRaw (n : Nat) : Flags φ := ⟨BitVec.ofNat _ n⟩

/-- The set a word carries, if all its bits belong to flags. -/
def ofBits? (n : Nat) : Option (Flags φ) :=
  let raw : Flags φ := ofRaw n
  if raw.truncate = raw then some raw else none

/-- The set of the one flag with this name. -/
def ofName? (name : String) : Option (Flags φ) :=
  ((FlagKind.all (φ := φ)).find? fun f => FlagKind.name f = name).map single

/-- The names of the flags in the set, in order. -/
def names (a : Flags φ) : List String := a.toList.map FlagKind.name

/-- The set's text: its flags in order, then what belongs to no flag, with
bars between; zero where there is nothing to show. -/
def text (a : Flags φ) : String :=
  let rest := a.difference all
  let parts := a.names ++ if rest.isEmpty then [] else [Hex.number rest.toNat]
  let body := if parts.isEmpty then Hex.number 0 else " | ".intercalate parts
  FlagKind.title φ ++ "(" ++ body ++ ")"

/-! ## Membership -/

/-- A flag is in a union when it is in a side. -/
@[simp] theorem has_union (a b : Flags φ) (f : φ) : (a.union b).has f = (a.has f || b.has f) := by
  simp [has, union]

/-- A flag is in an intersection when it is in both sides. -/
@[simp] theorem has_intersection (a b : Flags φ) (f : φ) :
    (a.intersection b).has f = (a.has f && b.has f) := by
  simp [has, intersection]

/-- The empty set has no flag. -/
@[simp] theorem has_empty (f : φ) : (empty : Flags φ).has f = false := by
  simp [has, empty]

/-- A single flag's set has that flag and no flag of another bit. -/
theorem has_single {f : φ} (h : FlagKind.bit f < FlagKind.width φ) (g : φ) :
    (single f).has g = decide (FlagKind.bit f = FlagKind.bit g) := by
  simp [has, single, h]

/-- A flag of the word is in a difference when it is in the first side only. -/
theorem has_difference (a b : Flags φ) {f : φ} (h : FlagKind.bit f < FlagKind.width φ) :
    (a.difference b).has f = (a.has f && !b.has f) := by
  simp [has, difference, h]

end Flags

end Allocators
