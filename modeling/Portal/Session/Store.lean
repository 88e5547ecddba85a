/-
# Session.Store — the sessions of the proxy, by UUID and by name

`Store.Store` writes a session under its UUID and under its lower-cased display
name.  `Store.Delete` checks the first index only: nothing happens unless the
session is the one under its UUID, and then both keys are deleted, whatever
stands under the name.

The two indexes are overwritten independently, so they come apart when a `Store`
replaces a session in one of them and not in the other: a UUID that comes back
under another name leaves its old session under the old name for ever
(`renamed_session_stays`), and a second UUID with the same name loses its entry
when the first one leaves.  A `Store` that finds under the name nobody or its own
UUID, and under the UUID nobody or its own name (`Paired`), keeps the indexes
mirror images of each other (`Mirrored`).  `store_indexes_agree` says that this is
exactly what the three guarantees of the store need.

`New` stores the session before it asks for a server, and undoes this with `Delete`
when there is none.  That empties the two keys, whoever stood under them before
(`rejected_join_restores`, `rejected_join_evicts`).
-/
import Portal.Theory.PartialMap
import Portal.Theory.Transition
import Portal.Server.Registry

namespace Portal

open Portal.Theory.PartialMap
open Portal.Theory.Transition

set_option autoImplicit false

/-- `uuid.UUID`: sixteen bytes. -/
abbrev UUID := BitVec 128

/-- What the store reads of a session, and the identity of the object. -/
structure StoredSession where
  ptr : Nat
  uuid : UUID
  displayName : String
  deriving DecidableEq, Repr

structure Store where
  sessions : UUID → Option StoredSession
  sessionNames : String → Option StoredSession

namespace Store

/-- `NewDefaultStore`. -/
def newDefault : Store := ⟨fun _ => none, fun _ => none⟩

def load (st : Store) (x : UUID) : Option StoredSession := st.sessions x

variable (lib : Library)

def loadFromName (st : Store) (x : String) : Option StoredSession :=
  st.sessionNames (lib.toLower x)

def store (st : Store) (x : StoredSession) : Store where
  sessions := Function.update st.sessions x.uuid (some x)
  sessionNames := Function.update st.sessionNames (lib.toLower x.displayName) (some x)

def delete (st : Store) (x : StoredSession) : Store :=
  if st.sessions x.uuid ≠ some x then st
  else
    { sessions := Function.update st.sessions x.uuid none
      sessionNames := Function.update st.sessionNames (lib.toLower x.displayName) none }

/-- The calls that change the store; each holds `mu` from its first statement to its
last. -/
inductive Op where
  | store (x : StoredSession)
  | delete (x : StoredSession)

def machine : Machine Store Op where
  start := newDefault
  next := fun st op =>
    match op with
    | .store x => some (st.store lib x)
    | .delete x => some (st.delete lib x)

/-- What users of the store rely on. -/
structure Sound (st : Store) : Prop where
  /-- who is found by name is the session of its UUID, and has that name -/
  found : ∀ name x, st.loadFromName lib name = some x →
    st.load x.uuid = some x ∧ lib.toLower x.displayName = lib.toLower name
  /-- `Delete(x)` leaves everybody else's entries alone -/
  spared : ∀ x y, y ≠ x →
    (∀ id, st.load id = some y → (st.delete lib x).load id = some y) ∧
      ∀ name, st.loadFromName lib name = some y → (st.delete lib x).loadFromName lib name = some y
  /-- and after it nobody finds `x` -/
  gone : ∀ x, (∀ id, (st.delete lib x).load id ≠ some x) ∧
    ∀ name, (st.delete lib x).loadFromName lib name ≠ some x

/-- Under the name stands nobody or the same UUID, under the UUID nobody or the same
name: what `Store(x)` replaces, it replaces in both indexes. -/
def Paired (st : Store) (x : StoredSession) : Prop :=
  (∀ y ∈ st.sessionNames (lib.toLower x.displayName), y.uuid = x.uuid) ∧
    ∀ y ∈ st.sessions x.uuid, lib.toLower y.displayName = lib.toLower x.displayName

instance (st : Store) (x : StoredSession) : Decidable (Paired lib st x) :=
  inferInstanceAs (Decidable (_ ∧ _))

/-- The two indexes hold the same sessions, each under its own keys. -/
structure Mirrored (st : Store) : Prop where
  sessions : ∀ id x, st.sessions id = some x →
    x.uuid = id ∧ st.sessionNames (lib.toLower x.displayName) = some x
  names : ∀ name x, st.sessionNames name = some x →
    lib.toLower x.displayName = name ∧ st.sessions x.uuid = some x

variable {lib} {st : Store}

/-! ## One call -/

theorem mirrored_newDefault : Mirrored lib newDefault where
  sessions := by simp [newDefault]
  names := by simp [newDefault]

theorem load_store_self (x : StoredSession) : (st.store lib x).load x.uuid = some x :=
  Function.update_self ..

theorem loadFromName_store_self (x : StoredSession) :
    (st.store lib x).loadFromName lib x.displayName = some x :=
  Function.update_self ..

theorem Mirrored.store (m : Mirrored lib st) {x : StoredSession} (paired : Paired lib st x) :
    Mirrored lib (st.store lib x) where
  sessions := by
    intro id y found
    rcases update_some found with ⟨rfl, same⟩ | ⟨apart, before⟩
    · cases same
      exact ⟨rfl, Function.update_self ..⟩
    · obtain ⟨rfl, named⟩ := m.sessions id y before
      refine ⟨rfl, (Function.update_of_ne ?_ ..).trans named⟩
      intro same
      exact apart (paired.1 y (same ▸ named))
  names := by
    intro name y found
    rcases update_some found with ⟨rfl, same⟩ | ⟨apart, before⟩
    · cases same
      exact ⟨rfl, Function.update_self ..⟩
    · obtain ⟨rfl, listed⟩ := m.names name y before
      refine ⟨rfl, (Function.update_of_ne ?_ ..).trans listed⟩
      intro same
      exact apart (paired.2 y (same ▸ listed))

theorem delete_of_ne {x : StoredSession} (other : st.sessions x.uuid ≠ some x) :
    st.delete lib x = st := by
  unfold delete
  exact if_pos other

theorem delete_of_eq {x : StoredSession} (current : st.sessions x.uuid = some x) :
    st.delete lib x =
      { sessions := Function.update st.sessions x.uuid none
        sessionNames := Function.update st.sessionNames (lib.toLower x.displayName) none } := by
  unfold delete
  exact if_neg (not_not_intro current)

theorem Mirrored.delete (m : Mirrored lib st) (x : StoredSession) : Mirrored lib (st.delete lib x) := by
  by_cases current : st.sessions x.uuid = some x
  · have named := (m.sessions x.uuid x current).2
    rw [delete_of_eq current]
    constructor
    · intro id y found
      obtain ⟨apart, before⟩ := erase_some found
      obtain ⟨rfl, here⟩ := m.sessions id y before
      refine ⟨rfl, (Function.update_of_ne ?_ ..).trans here⟩
      intro same
      rw [same] at here
      cases named.symm.trans here
      exact apart rfl
    · intro name y found
      obtain ⟨apart, before⟩ := erase_some found
      obtain ⟨rfl, listed⟩ := m.names name y before
      refine ⟨rfl, (Function.update_of_ne ?_ ..).trans listed⟩
      intro same
      rw [same] at listed
      cases current.symm.trans listed
      exact apart rfl
  · rw [delete_of_ne current]
    exact m

/-- What a mirrored store guarantees. -/
theorem Mirrored.sound (m : Mirrored lib st) : Sound lib st where
  found := by
    intro name x found
    obtain ⟨named, listed⟩ := m.names _ x found
    exact ⟨listed, named⟩
  spared := by
    intro x y other
    by_cases current : st.sessions x.uuid = some x
    · rw [delete_of_eq current]
      constructor
      · intro id found
        refine (Function.update_of_ne ?_ ..).trans found
        rintro rfl
        exact other (Option.some.inj (found.symm.trans current))
      · intro name found
        refine (Function.update_of_ne ?_ ..).trans found
        intro same
        have named := (m.sessions x.uuid x current).2
        rw [← same] at named
        exact other (Option.some.inj (found.symm.trans named))
    · rw [delete_of_ne current]
      exact ⟨fun _ found => found, fun _ found => found⟩
  gone := by
    intro x
    by_cases current : st.sessions x.uuid = some x
    · rw [delete_of_eq current]
      constructor
      · intro id found
        obtain ⟨apart, before⟩ := erase_some found
        exact apart (m.sessions id x before).1.symm
      · intro name found
        obtain ⟨apart, before⟩ := erase_some found
        exact apart (m.names _ x before).1.symm
    · rw [delete_of_ne current]
      constructor
      · intro id found
        obtain ⟨rfl, -⟩ := m.sessions id x found
        exact current found
      · intro name found
        exact current (m.names _ x found).2

/-- A `Store` that overwrites a session in one index only breaks a guarantee. -/
theorem Mirrored.paired_of_sound (m : Mirrored lib st) {x : StoredSession}
    (sound : Sound lib (st.store lib x)) : Paired lib st x := by
  constructor
  · intro y named
    -- otherwise `y` stays under its UUID, and its `Delete` takes the name entry of `x`
    obtain ⟨same, listed⟩ := m.names _ y named
    apply Classical.byContradiction
    intro apart
    have stays : (st.store lib x).sessions y.uuid = some y :=
      (Function.update_of_ne apart ..).trans listed
    have other : x ≠ y := fun same => apart (same ▸ rfl)
    have kept := (sound.spared y x other).2 x.displayName (loadFromName_store_self x)
    rw [delete_of_eq stays] at kept
    exact (erase_some kept).1 same.symm
  · intro y listed
    -- otherwise `y` is still found by name, and `x` stands under its UUID
    obtain ⟨same, named⟩ := m.sessions _ y listed
    apply Classical.byContradiction
    intro apart
    have stays : (st.store lib x).loadFromName lib y.displayName = some y :=
      (Function.update_of_ne apart ..).trans named
    have current := (sound.found _ y stays).1
    rw [same] at current
    rw [load_store_self, Option.some.injEq] at current
    exact apart (current ▸ rfl)

/-! ## Every sequence of calls -/

/-- Every `Store` of the run is paired where it is made. -/
def orderly (lib : Library) (st : Store) : Op → Prop
  | .store x => Paired lib st x
  | .delete _ => True

instance (st : Store) (op : Op) : Decidable (orderly lib st op) := by
  cases op <;> unfold orderly <;> infer_instance

theorem mirrored (reached : (machine lib).Reach (orderly lib) st) : Mirrored lib st := by
  refine reached.invariant mirrored_newDefault ?_
  intro st st' op _ m ok taken
  cases op with
  | store x =>
      cases taken
      exact m.store ok
  | delete x =>
      cases taken
      exact m.delete x

/-- **The two indexes agree.**  In every sequence of calls in which each `Store(x)`
finds nobody or its own UUID under its name, and nobody or its own name under its
UUID, the store is sound in every state.  And no more can be allowed: a `Store(x)`
made in such a state leaves the store sound exactly if it is of that kind. -/
theorem store_indexes_agree (reached : (machine lib).Reach (orderly lib) st) :
    Sound lib st ∧ ∀ x, Sound lib (st.store lib x) ↔ Paired lib st x := by
  have m := mirrored reached
  exact ⟨m.sound, fun x => ⟨m.paired_of_sound, fun paired => (m.store paired).sound⟩⟩

/-- Two sessions of one player, the second after a rename. -/
def steve : StoredSession := ⟨0, 1, "Steve"⟩

def renamed : StoredSession := ⟨1, 1, "Alex"⟩

/-- Another player whose name differs in case only. -/
def double : StoredSession := ⟨2, 2, "STEVE"⟩

/-- A player reconnects before the old session is deleted. -/
theorem store_indexes_agree_reconnect :
    ∃ st, (machine .ascii).Reach (orderly .ascii) st ∧
      st.loadFromName .ascii "steve" = some ⟨3, 1, "Steve"⟩ ∧ Sound .ascii st := by
  have reached : (machine .ascii).Reach (orderly .ascii) _ :=
    Machine.exec_reach [.store steve, .store ⟨3, 1, "Steve"⟩, .delete steve] rfl
  exact ⟨_, reached, rfl, (store_indexes_agree reached).1⟩

/-- A player comes back under another name: the old session is found by its old name
for ever.  A player with the same name in other letters comes and the first one leaves:
the second cannot be found by name. -/
theorem renamed_session_stays :
    (∃ st, (machine .ascii).Reachable st ∧ st.load 1 = some renamed ∧
      (st.delete .ascii steve).loadFromName .ascii "Steve" = some steve) ∧
    ∃ st, (machine .ascii).Reachable st ∧ st.loadFromName .ascii "steve" = some double ∧
      (st.delete .ascii steve).load 2 = some double ∧
      (st.delete .ascii steve).loadFromName .ascii "steve" = none :=
  ⟨⟨_, Machine.exec_reach (m := machine .ascii) [.store steve, .store renamed] rfl, rfl, rfl⟩,
    _, Machine.exec_reach (m := machine .ascii) [.store steve, .store double] rfl, rfl, rfl, rfl⟩

/-! ## A join that is rejected -/

/-- `New`, as far as the store goes: the session is stored before the load balancer
is asked, and the deferred function deletes it again if there is an error. -/
def sessionNew (lib : Library) (st : Store) (x : StoredSession)
    (findServer : StoredSession → Option Server) : Store × Except String Server :=
  let stored := st.store lib x
  match findServer x with
  | none =>
      (stored.delete lib x,
        .error "load balancer did not return a server for the player to join")
  | some srv => (stored, .ok srv)

/-- What a rejected join leaves: both keys are free, the others as they were. -/
theorem delete_store (x : StoredSession) :
    (st.store lib x).delete lib x =
      { sessions := Function.update st.sessions x.uuid none
        sessionNames := Function.update st.sessionNames (lib.toLower x.displayName) none } := by
  rw [delete_of_eq (Function.update_self ..)]
  simp only [store, Function.update_idem]

/-- **A rejected join.**  When the load balancer finds no server, the store answers
every `Load` and every `LoadFromName` as before exactly if nobody stood under the
player's UUID and nobody under their name. -/
theorem rejected_join_restores (x : StoredSession) (findServer : StoredSession → Option Server)
    (rejected : findServer x = none) :
    ((∀ id, (sessionNew lib st x findServer).1.load id = st.load id) ∧
      ∀ name, (sessionNew lib st x findServer).1.loadFromName lib name =
        st.loadFromName lib name) ↔
    st.load x.uuid = none ∧ st.loadFromName lib x.displayName = none := by
  have left : (sessionNew lib st x findServer).1 = (st.store lib x).delete lib x := by
    simp only [sessionNew, rejected]
  rw [left, delete_store]
  constructor
  · rintro ⟨loads, names⟩
    refine ⟨(loads x.uuid).symm.trans ?_, (names x.displayName).symm.trans ?_⟩
    · exact Function.update_self ..
    · exact Function.update_self ..
  · rintro ⟨unlisted, unnamed⟩
    constructor
    · intro id
      show Function.update st.sessions x.uuid none id = st.sessions id
      rw [← show st.sessions x.uuid = none from unlisted, Function.update_eq_self]
    · intro name
      show Function.update st.sessionNames (lib.toLower x.displayName) none (lib.toLower name) =
        st.sessionNames (lib.toLower name)
      rw [← show st.sessionNames (lib.toLower x.displayName) = none from unnamed,
        Function.update_eq_self]

/-- A new player is rejected while another one is online. -/
theorem rejected_join_restores_stranger :
    ((newDefault.store .ascii steve).loadFromName .ascii "alex" = none) ∧
      (sessionNew .ascii (newDefault.store .ascii steve) ⟨4, 3, "Alex"⟩ fun _ => none).1.load 1 =
        some steve :=
  ⟨rfl, ((rejected_join_restores ⟨4, 3, "Alex"⟩ (fun _ => none) rfl).mpr ⟨rfl, rfl⟩).1 1⟩

/-- A second login of a player who is online is rejected: the open session is gone
from both indexes.  So is the name of a player that differs in case only. -/
theorem rejected_join_evicts :
    let online := newDefault.store .ascii steve
    let second := (sessionNew .ascii online ⟨3, 1, "Steve"⟩ fun _ => none).1
    let other := (sessionNew .ascii online double fun _ => none).1
    online.load 1 = some steve ∧ second.load 1 = none ∧
      second.loadFromName .ascii "Steve" = none ∧ other.load 1 = some steve ∧
      other.loadFromName .ascii "Steve" = none :=
  ⟨rfl, rfl, rfl, rfl, rfl⟩

end Store

end Portal
