/-
# Control.Operation — what requests and commands ask of the proxy

Backends send requests over the socket and operators type commands.  Their handlers look into
the registry and the store, ask sessions for their server, wait for logins and act on what
they found, one call after the other; between two of them everything else goes on.  A handler
is a `Program`: the calls it makes, as questions to a changing `World`.

A session is used through what its `StoredSession` says about it.  `s.Conn()` and `s.Server()`
return once the login is over.
-/
import Portal.Theory.Dialogue
import Portal.Session.Store
import Portal.Socket.Wire

namespace Portal.Control

open Portal.Socket Portal.Theory

set_option autoImplicit false

/-- A call of a handler. -/
inductive Operation where
  /-- `Registry.Server(name)` -/
  | server (name : String)
  /-- `Registry.Servers()` -/
  | servers
  | playerCount (srv : Server)
  | draining (srv : Server)
  | healthy (srv : Server)
  | setDraining (srv : Server) (draining : Bool)
  /-- `Store.Load(uuid)` -/
  | load (uuid : UUID)
  /-- `Store.LoadFromName(name)` -/
  | loadFromName (name : String)
  /-- `Store.All()` -/
  | all
  /-- `s.Conn()` -/
  | conn (s : StoredSession)
  /-- `s.Server()` -/
  | serverOf (s : StoredSession)
  | transfer (s : StoredSession) (srv : Server)
  | disconnect (s : StoredSession) (message : String)
  /-- `Lookup(name)` of the cluster backend -/
  | lookup (name : String)
  /-- `c.WritePacket(pk)` -/
  | write (pk : Wire.Packet)
  deriving DecidableEq

/-- What a call returns.  `Transfer` and `WritePacket` return an error or `nil`, and `Lookup`
an error, or the proxy and the server of a player who is online. -/
abbrev Operation.Answer : Operation → Type
  | .server _ => Option Server
  | .servers => List Server
  | .playerCount _ => Int
  | .draining _ => Bool
  | .healthy _ => Bool
  | .setDraining _ _ => Unit
  | .load _ => Option StoredSession
  | .loadFromName _ => Option StoredSession
  | .all => List StoredSession
  | .conn _ => Unit
  | .serverOf _ => Option Server
  | .transfer _ _ => Option String
  | .disconnect _ _ => Unit
  | .lookup _ => Except String (Option (String × String))
  | .write _ => Option String

/-- A handler, or what is left of it. -/
abbrev Program := Query Operation Operation.Answer

def ask (q : Operation) : Program q.Answer := Query.load q

/-- How a handler ends. -/
inductive Ending where
  /-- it returns an error or `nil` -/
  | returned (err : Option String)
  /-- it calls a method of a nil server -/
  | panicked
  deriving DecidableEq

/-- What handlers can see of the proxy. -/
structure World where
  registry : Registry
  draining : Server → Bool
  healthy : Server → Bool
  playerCount : Server → Int
  store : Store
  /-- `s.server`; `none` is nil -/
  serverOf : StoredSession → Option Server
  /-- `loginMu` is held -/
  loggingIn : StoredSession → Bool

/-- The values of a map, in some order. -/
def Enumerates {κ ν : Type} (map : κ → Option ν) (values : List ν) : Prop :=
  values.Nodup ∧ ∀ value, value ∈ values ↔ ∃ key, map key = some value

/-- What `Servers()` can return is what a range over the registry produces, in any order of
its keys. -/
theorem enumerates_servers {lib : Library} {r : Registry} (keyed : r.Keyed lib)
    {found : List Server} :
    Enumerates r found ↔ ∃ keys, r.Iterates keys ∧ r.servers keys = found := by
  constructor
  · rintro ⟨nodup, mem⟩
    have stored : ∀ srv ∈ found, r (lib.toLower srv.name) = some srv := by
      intro srv member
      obtain ⟨key, here⟩ := (mem srv).mp member
      rw [keyed key srv here]
      exact here
    refine ⟨found.map fun srv => lib.toLower srv.name, ⟨?_, fun key => ?_⟩, ?_⟩
    · refine nodup.map_on fun srv member srv' member' same => ?_
      have here := stored srv member
      rw [same, stored srv' member'] at here
      exact (Option.some.inj here).symm
    · rw [List.mem_map]
      constructor
      · rintro ⟨srv, member, rfl⟩
        rw [stored srv member]
        rfl
      · intro some_
        obtain ⟨srv, here⟩ := Option.isSome_iff_exists.mp some_
        exact ⟨srv, (mem srv).mpr ⟨key, here⟩, keyed key srv here⟩
    · calc (found.map fun srv => lib.toLower srv.name).filterMap r
          = found.filterMap fun srv => r (lib.toLower srv.name) := List.filterMap_map
        _ = found.filterMap some := List.filterMap_congr stored
        _ = found := List.filterMap_some
  · rintro ⟨keys, iterates, rfl⟩
    refine ⟨iterates.nodup.filterMap fun key key' srv here there => ?_, fun srv => ?_⟩
    · exact (keyed key srv here).symm.trans (keyed key' srv there)
    · exact Registry.mem_servers iterates

/-- The call can return this now. -/
def World.Returns (lib : Library) (w : World) : (q : Operation) → q.Answer → Prop
  | .server name, found => found = w.registry.server lib name
  | .servers, found => Enumerates w.registry found
  | .playerCount srv, n => n = w.playerCount srv
  | .draining srv, b => b = w.draining srv
  | .healthy srv, b => b = w.healthy srv
  | .load uuid, found => found = w.store.load uuid
  | .loadFromName name, found => found = w.store.loadFromName lib name
  | .all, found => Enumerates w.store.sessions found
  | .conn s, _ => w.loggingIn s = false
  | .serverOf s, found => w.loggingIn s = false ∧ found = w.serverOf s
  | _, _ => True

/-- What a call returns now, where that is one value. -/
def World.returnsNow (lib : Library) (w : World) : (q : Operation) → q.Answer → Bool
  | .server name, found => found = w.registry.server lib name
  | .load uuid, found => found = w.store.load uuid
  | .serverOf s, found => !w.loggingIn s && decide (found = w.serverOf s)
  | .transfer _ _, _ => true
  | .setDraining _ _, _ => true
  | .write _, _ => true
  | _, _ => false

theorem World.returns_of_now {lib : Library} {w : World} {q : Operation} {answer : q.Answer}
    (now : w.returnsNow lib q answer = true) : w.Returns lib q answer := by
  cases q with
  | server name | load uuid =>
      simp only [World.returnsNow, decide_eq_true_eq] at now
      exact now
  | serverOf s =>
      simp only [World.returnsNow, Bool.and_eq_true, Bool.not_eq_true', decide_eq_true_eq] at now
      exact now
  | transfer s srv => trivial
  | setDraining srv draining => trivial
  | write pk => trivial
  | _ => cases now

/-- All that a handler hears. -/
abbrev Hearing := List (Query.Heard World Operation Operation.Answer)

namespace Hearing

/-- This was so at some moment of it. -/
def Saw (hearing : Hearing) (P : World → Prop) : Prop := ∃ heard ∈ hearing, P heard.moment

theorem saw_here {heard : Query.Heard World Operation Operation.Answer} {hearing : Hearing}
    {P : World → Prop} (now : P heard.moment) : Saw (heard :: hearing) P :=
  ⟨heard, List.mem_cons_self .., now⟩

theorem Saw.mono {hearing hearing' : Hearing} {P : World → Prop} (saw : hearing.Saw P)
    (more : hearing ⊆ hearing') : hearing'.Saw P := by
  obtain ⟨heard, member, then_⟩ := saw
  exact ⟨heard, more member, then_⟩

theorem Saw.later {heard : Query.Heard World Operation Operation.Answer} {hearing : Hearing}
    {P : World → Prop} (saw : hearing.Saw P) : Saw (heard :: hearing) P :=
  saw.mono (List.subset_cons_self ..)

/-- The packet a call writes. -/
def written (heard : Query.Heard World Operation Operation.Answer) : Option Wire.Packet :=
  match heard with
  | ⟨_, .write pk, _⟩ => some pk
  | _ => none

/-- The packets that were written, in order. -/
def writes (hearing : Hearing) : List Wire.Packet := hearing.filterMap written

theorem writes_append (hearing more : Hearing) :
    writes (hearing ++ more) = hearing.writes ++ more.writes :=
  List.filterMap_append

/-- The transfer a call starts, with the error it returns. -/
def transferred (heard : Query.Heard World Operation Operation.Answer) :
    Option (StoredSession × Server × Option String) :=
  match heard with
  | ⟨_, .transfer s srv, err⟩ => some (s, srv, err)
  | _ => none

/-- The transfers that were started, in order. -/
def transfers (hearing : Hearing) : List (StoredSession × Server × Option String) :=
  hearing.filterMap transferred

/-- The player a call looks up in the cluster, and what is found. -/
def lookedUp (heard : Query.Heard World Operation Operation.Answer) :
    Option (String × Except String (Option (String × String))) :=
  match heard with
  | ⟨_, .lookup name, found⟩ => some (name, found)
  | _ => none

/-- The lookups in the cluster, in order. -/
def lookups (hearing : Hearing) : List (String × Except String (Option (String × String))) :=
  hearing.filterMap lookedUp

theorem lookups_append (hearing more : Hearing) :
    lookups (hearing ++ more) = hearing.lookups ++ more.lookups :=
  List.filterMap_append

end Hearing

end Portal.Control
