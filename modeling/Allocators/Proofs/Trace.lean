import Allocators.Resource
import Allocators.Proofs.Block
/-!
# Traces — what a history of calls says about the resource

What has happened in a world, latest first, tells which blocks are
outstanding: taken from the resource and not given back. It tells whether
the resource kept its part of the agreement (`Honoured`: every block it
hands out is aligned, in the address space, and apart from every block
that is outstanding) and whether its users kept theirs (`Balanced`: every
block given back is outstanding, with the layout it was taken with).
Only the calls on the resource matter to either; `calls` picks them out.
-/

namespace Allocators

/-- Whether the event is a call on the resource. -/
def Event.isCall : Event → Bool
  | .taken _ _ => true
  | .given _ _ => true
  | _ => false

/-- What has happened, latest first. -/
abbrev Trace := List Event

namespace Trace

/-- The calls on the resource. -/
def calls (es : Trace) : Trace := es.filter Event.isCall

/-- The blocks taken from the resource and not given back. -/
def outstanding : Trace → List Block
  | [] => []
  | .taken l (some a) :: es => Block.of a l :: outstanding es
  | .given a l :: es => (outstanding es).erase (Block.of a l)
  | .taken _ none :: es => outstanding es
  | .ran _ :: es => outstanding es
  | .noted _ _ :: es => outstanding es

/-- What a block handed out has to be, beside those that are outstanding. -/
structure Grantable (x : Block) (others : List Block) : Prop where
  pos : 0 < x.address
  aligned : x.Aligned
  lt_size : x.address + x.size < Word.size
  apart : ∀ y ∈ others, x.Apart y

instance (x : Block) (others : List Block) : Decidable (Grantable x others) :=
  decidable_of_iff (0 < x.address ∧ x.Aligned ∧ x.address + x.size < Word.size ∧
    ∀ y ∈ others, x.Apart y)
    ⟨fun h => ⟨h.1, h.2.1, h.2.2.1, h.2.2.2⟩, fun h => ⟨h.pos, h.aligned, h.lt_size, h.apart⟩⟩

/-- The resource kept its part: every block it handed out was one it could. -/
def Honoured : Trace → Prop
  | [] => True
  | .taken l (some a) :: es => Grantable (Block.of a l) (outstanding es) ∧ Honoured es
  | .taken _ none :: es => Honoured es
  | .given _ _ :: es => Honoured es
  | .ran _ :: es => Honoured es
  | .noted _ _ :: es => Honoured es

/-- Its users kept theirs: every block given back was outstanding. -/
def Balanced : Trace → Prop
  | [] => True
  | .given a l :: es => Block.of a l ∈ outstanding es ∧ Balanced es
  | .taken _ _ :: es => Balanced es
  | .ran _ :: es => Balanced es
  | .noted _ _ :: es => Balanced es

instance decidableHonoured : (es : Trace) → Decidable (Honoured es)
  | [] => .isTrue trivial
  | .taken _ (some _) :: es => @instDecidableAnd _ _ inferInstance (decidableHonoured es)
  | .taken _ none :: es => decidableHonoured es
  | .given _ _ :: es => decidableHonoured es
  | .ran _ :: es => decidableHonoured es
  | .noted _ _ :: es => decidableHonoured es

/-! ## Only calls matter -/

/-- The calls alone leave the same blocks outstanding. -/
theorem outstanding_calls (es : Trace) : outstanding (calls es) = outstanding es := by
  induction es with
  | nil => rfl
  | cons e es ih =>
    cases e with
    | taken l a =>
      cases a with
      | none => exact ih
      | some a => exact congrArg (Block.of a l :: ·) ih
    | given a l => exact congrArg (List.erase · (Block.of a l)) ih
    | ran _ => exact ih
    | noted _ _ => exact ih

/-- The calls alone tell whether the resource kept its part. -/
theorem honoured_calls (es : Trace) : Honoured (calls es) ↔ Honoured es := by
  induction es with
  | nil => rfl
  | cons e es ih =>
    cases e with
    | taken l a =>
      cases a with
      | none => exact ih
      | some a =>
        show Grantable (Block.of a l) (outstanding (calls es)) ∧ Honoured (calls es) ↔ _
        rw [outstanding_calls, ih]
        rfl
    | given a l => exact ih
    | ran _ => exact ih
    | noted _ _ => exact ih

/-- The calls alone tell whether the users kept theirs. -/
theorem balanced_calls (es : Trace) : Balanced (calls es) ↔ Balanced es := by
  induction es with
  | nil => rfl
  | cons e es ih =>
    cases e with
    | taken l a => exact ih
    | given a l =>
      show Block.of a l ∈ outstanding (calls es) ∧ Balanced (calls es) ↔ _
      rw [outstanding_calls, ih]
      rfl
    | ran _ => exact ih
    | noted _ _ => exact ih

variable {es es' : Trace}

/-- Traces with the same calls leave the same blocks outstanding. -/
theorem outstanding_congr (h : calls es' = calls es) : outstanding es' = outstanding es := by
  rw [← outstanding_calls es', h, outstanding_calls]

/-- Traces with the same calls are honoured together. -/
theorem honoured_congr (h : calls es' = calls es) : Honoured es' ↔ Honoured es := by
  rw [← honoured_calls es', h, honoured_calls]

/-- Traces with the same calls are balanced together. -/
theorem balanced_congr (h : calls es' = calls es) : Balanced es' ↔ Balanced es := by
  rw [← balanced_calls es', h, balanced_calls]

/-! ## What an honoured trace leaves outstanding -/

/-- A block that has a place: not at zero, aligned, in the address space,
and not empty. -/
structure Placed (x : Block) : Prop where
  pos : 0 < x.address
  aligned : x.Aligned
  lt_size : x.address + x.size < Word.size
  size_pos : 0 < x.size

/-- Every outstanding block has its place. -/
theorem Honoured.placed (h : Honoured es) : ∀ x ∈ outstanding es, Placed x := by
  induction es with
  | nil => simp [outstanding]
  | cons e es ih =>
    rcases e with ⟨l, _ | a⟩ | ⟨a, l⟩ | _ | _
    · exact ih h
    · intro x hx
      rcases List.mem_cons.1 hx with rfl | hx
      · exact ⟨h.1.pos, h.1.aligned, h.1.lt_size, l.size_pos⟩
      · exact ih h.2 x hx
    · exact fun x hx => ih h x (List.mem_of_mem_erase hx)
    · exact ih h
    · exact ih h

/-- **Outstanding blocks are apart.** -/
theorem Honoured.pairwise (h : Honoured es) : (outstanding es).Pairwise Block.Apart := by
  -- a block enters apart from the others, and to leave takes none of that away
  induction es with
  | nil => exact List.Pairwise.nil
  | cons e es ih =>
    rcases e with ⟨l, _ | a⟩ | ⟨a, l⟩ | _ | _
    · exact ih h
    · exact List.pairwise_cons.2 ⟨h.1.apart, ih h.2⟩
    · exact (ih h).sublist List.erase_sublist
    · exact ih h
    · exact ih h

/-! ## Who holds what -/

/-- Both kept their part, and the outstanding blocks are the ones that are
held, in any order. -/
structure Accounts (es : Trace) (held : List Block) : Prop where
  honoured : Honoured es
  balanced : Balanced es
  perm : (outstanding es).Perm held

namespace Accounts

variable {held held' : List Block} {l : Layout} {a : Nat}

/-- Before anything has happened nothing is held. -/
theorem nil : Accounts [] [] := ⟨trivial, trivial, .nil⟩

/-- The order of the blocks that are held does not matter. -/
theorem reorder (h : Accounts es held) (hp : held.Perm held') : Accounts es held' :=
  ⟨h.honoured, h.balanced, h.perm.trans hp⟩

/-- Only calls on the resource matter. -/
theorem congr (h : Accounts es held) (hc : calls es' = calls es) : Accounts es' held :=
  ⟨(honoured_congr hc).2 h.honoured, (balanced_congr hc).2 h.balanced,
    (outstanding_congr hc).symm ▸ h.perm⟩

/-- A request that is declined leaves the blocks that are held. -/
theorem declined (h : Accounts es held) (l : Layout) : Accounts (.taken l none :: es) held :=
  ⟨h.honoured, h.balanced, h.perm⟩

/-- A block handed out by a resource that keeps its part is held. -/
theorem taken (h : Accounts es held) (hg : Honoured (.taken l (some a) :: es)) :
    Accounts (.taken l (some a) :: es) (Block.of a l :: held) :=
  ⟨hg, h.balanced, h.perm.cons _⟩

/-- Such a block is apart from the blocks that were held before. -/
theorem apart (h : Accounts es held) (hg : Honoured (.taken l (some a) :: es)) :
    ∀ y ∈ held, (Block.of a l).Apart y := fun y hy => hg.1.apart y (h.perm.mem_iff.2 hy)

/-- A block that is held may be given back, and is not held any more. -/
theorem given (h : Accounts es (Block.of a l :: held)) : Accounts (.given a l :: es) held := by
  refine ⟨h.honoured, ⟨h.perm.mem_iff.2 List.mem_cons_self, h.balanced⟩, ?_⟩
  have he := h.perm.erase (Block.of a l)
  rw [List.erase_cons_head] at he
  exact he

/-- What only a block just handed out may change leaves the others alone. -/
theorem keeps_of_taken (h : Accounts es held) (hg : Honoured (.taken l (some a) :: es))
    {m m' : Memory} (hm : m.ChangedIn m' a (a + l.size)) : ∀ y ∈ held, m.Keeps m' y := fun y hy =>
  hm y (h.apart hg y hy).symm

/-- Blocks that are held are apart. -/
theorem pairwise (h : Accounts es held) : held.Pairwise Block.Apart :=
  (h.perm.pairwise_iff fun hxy => hxy.symm).1 h.honoured.pairwise

/-- So are those in the middle of them. -/
theorem pairwise_middle {xs ys zs : List Block} (h : Accounts es (xs ++ ys ++ zs)) :
    ys.Pairwise Block.Apart :=
  (List.pairwise_append.1 (List.pairwise_append.1 h.pairwise).1).2.1

/-- The first of them is apart from the others. -/
theorem apart_head {x : Block} (h : Accounts es (x :: held)) : ∀ y ∈ held, x.Apart y :=
  (List.pairwise_cons.1 h.pairwise).1

/-- Blocks that are held have their places. -/
theorem placed (h : Accounts es held) : ∀ x ∈ held, Placed x := fun x hx =>
  h.honoured.placed x (h.perm.mem_iff.2 hx)

/-- **What is held fits in a word**: fewer bytes, and fewer blocks, than the
address space has addresses. -/
theorem total_lt (h : Accounts es held) : Block.total held < Word.size := by
  have ht := Block.total_le_of_apart h.pairwise 1 Word.size fun x hx =>
    ⟨(h.placed x hx).pos, (h.placed x hx).lt_size.le⟩
  have : Word.size = 0x10000000000000000 := rfl
  omega

end Accounts

end Trace

/-! ## What a call on the resource changes -/

namespace World

variable {ρ : Type} [Resource ρ]

/-- **A request is declined or granted**, and changes nothing but the block
that is granted. -/
theorem take_cases (w : World ρ) (l : Layout) :
    (∃ w', w.take l = (none, w') ∧ w'.memory = w.memory ∧
      w'.events = .taken l none :: w.events) ∨
    ∃ a w', w.take l = (some a, w') ∧ w.memory.ChangedIn w'.memory a (a + l.size) ∧
      w'.events = .taken l (some a) :: w.events := by
  unfold take
  rcases Resource.take w.resource l with ⟨_ | g, r⟩
  · exact Or.inl ⟨_, rfl, rfl, rfl⟩
  · exact Or.inr ⟨g.address, _, rfl, w.memory.changedIn_update g.address l.size g.contents, rfl⟩

/-- Giving a block back changes its own bytes only. -/
theorem changedIn_give (w : World ρ) (a : Nat) (l : Layout) :
    w.memory.ChangedIn (w.give a l).memory a (a + l.size) := by
  unfold give
  exact w.memory.changedIn_update a l.size _

end World

end Allocators
