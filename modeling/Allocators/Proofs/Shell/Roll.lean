import Allocators.Proofs.Shell.Listing
/-!
# Shells in order

Someone who sees the calls that a shell makes, and their answers, can tell for
each session the live blocks and the callbacks of its allocator: a roll. `Shell.request?` is the
call that a command comes to, `Shell.rollAfter` the roll after it, and
`Shell.track` reads lines and keeps the roll beside the shell. The shell is
in order beside a roll (`Shell.InOrder`) if every session lists the live
blocks of its allocator and the allocators are in a state that a run within
the agreement leads to. `InOrder.focus` takes one session out of the
others, and `Others.put` and `Others.drop` put it back or leave it out.
-/

namespace Allocators

open Trace

/-! ## Rolls -/

/-- For each name the allocator of its session, with the live blocks and the
callbacks. -/
def Roll := String → Option Custody

namespace Roll

/-- No session. -/
def empty : Roll := fun _ => none

/-- The roll with this for a name. -/
def set (roll : Roll) (name : String) (c : Option Custody) : Roll := fun n =>
  if n = name then c else roll n

/-- What has been set is found. -/
@[simp] theorem set_self (roll : Roll) (name : String) (c : Option Custody) :
    roll.set name c name = c := if_pos rfl

/-- Other names are as before. -/
theorem set_of_ne {roll : Roll} {n name : String} (h : n ≠ name) (c : Option Custody) :
    roll.set name c n = roll n := if_neg h

/-- To set what is there changes nothing. -/
theorem set_eq_self {roll : Roll} {name : String} {c : Option Custody} (h : roll name = c) :
    roll.set name c = roll := by
  funext n
  unfold set
  split
  · next hn => rw [hn, h]
  · rfl

/-- The roll after a call in a world, if there was one: the allocator that was
called is as the call leaves it, and so are its live blocks. -/
def called {ρ : Type} [Resource ρ] (b : Build) (w : World ρ) (roll : Roll) :
    Option (String × Call) → Roll
  | none => roll
  | some (name, call) =>
    roll.set name ((roll name).map fun c =>
      (Action.ended (Custody.act b (.call call) ⟨c, w⟩)).2.allocator)

end Roll

namespace Shell

variable {ρ : Type}

/-- The call that a command comes to, and the session it is made in. -/
def request? (s : Shell ρ) : Command → Option (String × Call)
  | .alloc name size align => do
    let _ ← s.session? name
    let l ← Layout.ofSizeAlign? size align
    return (name, .allocate l)
  | .realloc name base changes => do
    let x ← s.session? name
    let l ← x.blocks.find? base
    return (name, .reallocate ((Resize.ofBlock base l.size l.align).edits changes.edits))
  | .free name base => do
    let x ← s.session? name
    let l ← x.blocks.find? base
    return (name, .deallocate base l)
  | .clear name => do
    let x ← s.session? name
    if x.allocator.features.has .clearing then some (name, .clear) else none
  | _ => none

variable [Resource ρ]

/-- The roll after a command: an allocator that was made is entered, one that
ended is struck out, and a call is followed. -/
def rollAfter (b : Build) (s : Shell ρ) (roll : Roll) (cmd : Command) : Roll :=
  match cmd with
  | .create name kind capacity zeroed =>
    match s.session? name with
    | some _ => roll
    | none =>
      let made := (Allocator.create (kind.toKind zeroed) name capacity s.world).1
      roll.set name (made.toOption.map Custody.opened)
  | .delete name => roll.set name none
  | cmd => roll.called b s.world (s.request? cmd)

/-- The shell and the roll after these lines, if the shell goes on after each. -/
def track (b : Build) (s : Shell ρ) (roll : Roll) : List String → Option (Shell ρ × Roll)
  | [] => some (s, roll)
  | text :: rest =>
    match s.line b text with
    | .over _ _ _ => none
    | .more _ s' =>
      match Command.ofLine text with
      | .error _ => track b s' roll rest
      | .ok cmd => track b s' (s.rollAfter b roll cmd) rest

end Shell

/-! ## Shells in order -/

/-- The session has this allocator, on which no callback is registered, and
lists its live blocks. -/
structure Session.Booked (x : Session) (c : Custody) : Prop where
  allocator : x.allocator = c.allocator
  pending : c.pending = []
  lists : x.blocks.Lists c.blocks

namespace Shell

variable {ρ : Type}

section Sessions

variable {name : String} {x y : Session} {as bs : List (String × Session)} {w w' : World ρ}

/-- A name that no session has. -/
theorem session?_eq_none_iff {s : Shell ρ} :
    s.session? name = none ↔ ∀ e ∈ s.sessions, e.1 ≠ name := by
  unfold session?
  rw [Option.map_eq_none_iff, List.find?_eq_none]
  simp

/-- The session of a name is one of the sessions. -/
theorem mem_of_session? {s : Shell ρ} (h : s.session? name = some x) :
    (name, x) ∈ s.sessions := by
  unfold session? at h
  obtain ⟨e, hf, rfl⟩ := Option.map_eq_some_iff.1 h
  have hn : e.1 = name := by simpa using List.find?_some hf
  subst hn
  exact List.mem_of_find?_eq_some hf

/-- One session among others is replaced. -/
theorem setSession_split (hne : ∀ e ∈ as ++ bs, e.1 ≠ name) (y : Session) (w' : World ρ) :
    setSession ⟨as ++ (name, x) :: bs, w⟩ name y w' = ⟨as ++ (name, y) :: bs, w'⟩ := by
  have hid : ∀ es : List (String × Session), (∀ e ∈ es, e.1 ≠ name) →
      (es.map fun e => if e.1 = name then (name, y) else e) = es := by
    intro es hes
    rw [List.map_congr_left fun e he => if_neg (hes e he), List.map_id']
  unfold setSession
  rw [List.map_append, List.map_cons, if_pos rfl,
    hid as fun e he => hne e (List.mem_append_left _ he),
    hid bs fun e he => hne e (List.mem_append_right _ he)]

/-- Or left out. -/
theorem removeSession_split (hne : ∀ e ∈ as ++ bs, e.1 ≠ name) (w' : World ρ) :
    removeSession ⟨as ++ (name, x) :: bs, w⟩ name w' = ⟨as ++ bs, w'⟩ := by
  have hid : ∀ es : List (String × Session), (∀ e ∈ es, e.1 ≠ name) →
      es.filter (fun e => e.1 ≠ name) = es := by
    intro es hes
    exact List.filter_eq_self.2 fun e he => by simpa using hes e he
  unfold removeSession
  rw [List.filter_append, List.filter_cons_of_neg (by simp),
    hid as fun e he => hne e (List.mem_append_left _ he),
    hid bs fun e he => hne e (List.mem_append_right _ he)]

end Sessions

variable [Resource ρ]

/-- The shell is in order beside the roll: what has happened is ordinary, names
are not used twice, every session lists the live blocks of its allocator, and the
allocators are in a state that calls within the agreement lead to. -/
structure InOrder (s : Shell ρ) (roll : Roll) : Prop where
  ordinary : Ordinary s.world.events
  named : (s.sessions.map Prod.fst).Nodup
  known : ∀ name, (∀ e ∈ s.sessions, e.1 ≠ name) → roll name = none
  booked : ∀ e ∈ s.sessions, ∃ c, roll e.1 = some c ∧ e.2.Booked c
  estate : ∃ tenants : List Tenant, Estate.Reachable .debug ⟨s.world, tenants, []⟩ ∧
    (tenants.map fun t => some t.toCustody).Perm (s.sessions.map fun e => roll e.1)

/-- A shell without sessions is in order. -/
theorem inOrder_start (r : ρ) : (start r).InOrder .empty where
  ordinary := ⟨trivial, nofun⟩
  named := List.nodup_nil
  known _ _ := rfl
  booked := nofun
  estate := ⟨[], .start r _, .nil⟩

/-- A name without a session is not on the roll. -/
theorem InOrder.roll_eq_none {s : Shell ρ} {roll : Roll} {name : String} (h : s.InOrder roll)
    (hx : s.session? name = none) : roll name = none :=
  h.known name (session?_eq_none_iff.1 hx)

/-- The order of the sessions does not matter. -/
theorem InOrder.reorder {s : Shell ρ} {roll : Roll} (h : s.InOrder roll)
    {sessions : List (String × Session)} (hp : s.sessions.Perm sessions) :
    InOrder ⟨sessions, s.world⟩ roll := by
  obtain ⟨tenants, hr, ht⟩ := h.estate
  exact ⟨h.ordinary, (hp.map Prod.fst).nodup_iff.1 h.named,
    fun name hn => h.known name fun e he => hn e (hp.mem_iff.1 he),
    fun e he => h.booked e (hp.mem_iff.2 he), tenants, hr, ht.trans (hp.map _)⟩

/-! ## One session among the others -/

/-- The sessions beside a name's are in order, and so are their allocators. -/
structure Others (roll : Roll) (name : String) (as bs : List (String × Session))
    (before after : List Tenant) : Prop where
  apart : ∀ e ∈ as ++ bs, e.1 ≠ name
  named : ((as ++ bs).map Prod.fst).Nodup
  known : ∀ n, n ≠ name → (∀ e ∈ as ++ bs, e.1 ≠ n) → roll n = none
  booked : ∀ e ∈ as ++ bs, ∃ c, roll e.1 = some c ∧ e.2.Booked c
  tenants : ((before ++ after).map fun t => some t.toCustody).Perm
    ((as ++ bs).map fun e => roll e.1)

section Focus

variable {s : Shell ρ} {roll : Roll} {name : String} {x : Session}
variable {as bs : List (String × Session)} {before after : List Tenant} {w : World ρ}

/-- **A session is one among others**, and so is its allocator. -/
theorem InOrder.focus_split (h : InOrder ⟨as ++ (name, x) :: bs, w⟩ roll) :
    ∃ before after t, Others roll name as bs before after ∧
      Estate.Reachable .debug ⟨w, before ++ t :: after, []⟩ ∧ roll name = some t.toCustody ∧
      x.Booked t.toCustody := by
  have hmem : (name, x) ∈ as ++ (name, x) :: bs := by simp
  obtain ⟨c, hc, hbook⟩ := h.booked _ hmem
  obtain ⟨tenants, hr, hp⟩ := h.estate
  -- the tenant is the one that the roll tells
  have htenant : some c ∈ tenants.map fun t => some t.toCustody := by
    rw [hp.mem_iff]
    exact List.mem_map.2 ⟨(name, x), hmem, hc⟩
  obtain ⟨t, ht, htc⟩ := List.mem_map.1 htenant
  obtain rfl : t.toCustody = c := Option.some.inj htc
  obtain ⟨before, after, rfl⟩ := List.append_of_mem ht
  have hsplit : ((as ++ (name, x) :: bs).map Prod.fst).Perm (name :: (as ++ bs).map Prod.fst) :=
    List.perm_middle.map Prod.fst
  obtain ⟨hnot, hnodup⟩ := List.nodup_cons.1 (hsplit.nodup_iff.1 h.named)
  refine ⟨before, after, t, ⟨fun e he heq => ?_, hnodup, fun n hn hne => h.known n fun e he => ?_,
    fun e he => ?_, ?_⟩, hr, hc, hbook⟩
  · exact hnot (heq ▸ List.mem_map_of_mem he)
  · rcases List.mem_cons.1 (List.perm_middle.mem_iff.1 he) with rfl | he
    · exact hn.symm
    · exact hne e he
  · exact h.booked e (List.perm_middle.mem_iff.2 (List.mem_cons_of_mem _ he))
  · have hleft : ((before ++ t :: after).map fun t : Tenant => some t.toCustody).Perm
        (some t.toCustody :: (before ++ after).map fun t => some t.toCustody) :=
      List.perm_middle.map _
    have hright : ((as ++ (name, x) :: bs).map fun e => roll e.1).Perm
        (roll name :: (as ++ bs).map fun e => roll e.1) := List.perm_middle.map _
    rw [hc] at hright
    exact (hleft.symm.trans (hp.trans hright)).cons_inv

/-- In particular the session of a name. -/
theorem InOrder.focus (h : s.InOrder roll) (hx : s.session? name = some x) :
    ∃ as bs w before after t, s = ⟨as ++ (name, x) :: bs, w⟩ ∧
      Others roll name as bs before after ∧
      Estate.Reachable .debug ⟨w, before ++ t :: after, []⟩ ∧
      roll name = some t.toCustody ∧ x.Booked t.toCustody := by
  obtain ⟨as, bs, hs⟩ := List.append_of_mem (mem_of_session? hx)
  obtain ⟨sessions, w⟩ := s
  obtain rfl : sessions = as ++ (name, x) :: bs := hs
  obtain ⟨before, after, t, hfocus⟩ := h.focus_split
  exact ⟨as, bs, w, before, after, t, rfl, hfocus⟩

/-- What the roll tells of the others does not depend on the name. -/
theorem Others.roll_set (h : Others roll name as bs before after) (c : Option Custody) :
    ∀ e ∈ as ++ bs, roll.set name c e.1 = roll e.1 := fun e he => Roll.set_of_ne (h.apart e he) c

/-- **The session is put back**, with its allocator as it is now. -/
theorem Others.put (h : Others roll name as bs before after) {t : Tenant}
    (ho : Ordinary w.events) (hr : Estate.Reachable .debug ⟨w, before ++ t :: after, []⟩)
    (hx : x.Booked t.toCustody) :
    InOrder ⟨as ++ (name, x) :: bs, w⟩ (roll.set name (some t.toCustody)) := by
  have hset := h.roll_set (some t.toCustody)
  refine ⟨ho, ?_, fun n hn => ?_, fun e he => ?_, before ++ t :: after, hr, ?_⟩
  · have hsplit : ((as ++ (name, x) :: bs).map Prod.fst).Perm (name :: (as ++ bs).map Prod.fst) :=
      List.perm_middle.map Prod.fst
    refine hsplit.nodup_iff.2 (List.nodup_cons.2 ⟨fun hm => ?_, h.named⟩)
    obtain ⟨e, he, heq⟩ := List.mem_map.1 hm
    exact h.apart e he heq
  · have hne : n ≠ name := (hn (name, x) (by simp)).symm
    rw [Roll.set_of_ne hne]
    exact h.known n hne fun e he => hn e (List.perm_middle.mem_iff.2 (List.mem_cons_of_mem _ he))
  · rcases List.mem_cons.1 (List.perm_middle.mem_iff.1 he) with rfl | he
    · exact ⟨t.toCustody, roll.set_self name _, hx⟩
    · rw [hset e he]
      exact h.booked e he
  · refine (List.perm_middle.map _).trans (.trans ?_ (List.perm_middle.map _).symm)
    rw [List.map_cons, List.map_cons, Roll.set_self, List.map_congr_left hset]
    exact h.tenants.cons _

/-- **The session is left out**, and its allocator with it. -/
theorem Others.drop (h : Others roll name as bs before after) (ho : Ordinary w.events)
    (hr : Estate.Reachable .debug ⟨w, before ++ after, []⟩) :
    InOrder ⟨as ++ bs, w⟩ (roll.set name none) := by
  have hset := h.roll_set none
  refine ⟨ho, h.named, fun n hn => ?_, fun e he => ?_, before ++ after, hr, ?_⟩
  · by_cases hne : n = name
    · rw [hne, Roll.set_self]
    · rw [Roll.set_of_ne hne]
      exact h.known n hne hn
  · rw [hset e he]
    exact h.booked e he
  · rw [List.map_congr_left hset]
    exact h.tenants

/-- The sessions are beside one that does not exist yet. -/
theorem InOrder.others (h : s.InOrder roll) (hx : s.session? name = none) :
    ∃ tenants, Others roll name s.sessions [] [] tenants ∧
      Estate.Reachable .debug ⟨s.world, tenants, []⟩ := by
  obtain ⟨tenants, hr, hp⟩ := h.estate
  refine ⟨tenants, ⟨?_, ?_, ?_, ?_, ?_⟩, hr⟩
  · rw [List.append_nil]
    exact session?_eq_none_iff.1 hx
  · rw [List.append_nil]
    exact h.named
  · rw [List.append_nil]
    exact fun n _ hn => h.known n hn
  · rw [List.append_nil]
    exact h.booked
  · rw [List.append_nil]
    exact hp

end Focus

end Shell

end Allocators
