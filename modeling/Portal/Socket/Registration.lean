/-
# Socket.Registration — registrations, re-registrations and the counts they carry over

The socket side of the proxy with the sessions reduced to the server each is on.
A backend authenticates a connection under a name and registers itself; a second
`RegisterServer` puts a new `Server` object in the place of the old one, with its
count copied once; a disconnect removes the entry.  Sessions keep the object they
joined or were transferred to, whatever the registry does.

`Accurate` says that the registered object of every name counts the open sessions
on that name.  Registering again keeps it.  What loses it is the traffic of
sessions that still hold a replaced object, and a first registration under a name
that has sessions left from an earlier connection.  `Careful` is the condition on
a step, and it is exact (`registry_counts_accurate`).
-/
import Portal.Theory.Tally
import Portal.Theory.Transition
import Portal.Server.Registry
import Portal.Socket.Wire

namespace Portal.Socket

open Portal.Theory Portal.Theory.Transition

set_option autoImplicit false

/-! ## The socket server -/

/-- A connection to the socket. -/
abbrev ClientID := Nat

/-- `socket.Client`, as far as handlers read it. -/
structure Client where
  name : String
  authenticated : Bool
  deriving DecidableEq, Repr

/-- `Client.Authenticate`. -/
def Client.authenticate (client : Client) (name : String) : Client :=
  if client.authenticated then client else ⟨name, true⟩

/-- `parseTransport` and `validateAddress` accept the packet. -/
def RegisterServer.valid (lib : Library) (pk : RegisterServer) : Bool :=
  match parseTransport lib pk.transport with
  | .error _ => false
  | .ok transport =>
      match validateAddress lib transport pk.address with
      | .error _ => false
      | .ok () => true

/-- The packets that change what the registry and the counts say. -/
inductive Packet where
  | authRequest (pk : AuthRequest)
  | registerServer (pk : RegisterServer)
  | setServerDraining (draining : Bool)

/-- `PacketHandler.RequiresAuth`. -/
def Packet.requiresAuth : Packet → Bool
  | .authRequest _ => false
  | _ => true

/-- The statuses of an `AuthResponse`. -/
inductive AuthStatus where
  | success
  | unsupportedProtocol
  | incorrectSecret
  | alreadyConnected
  | unauthenticated
  deriving DecidableEq, Repr

/-- What handling a packet comes to. -/
inductive Reply where
  | done
  | auth (status : AuthStatus)
  | error (err : String)
  deriving DecidableEq, Repr

/-- The registry, the counters and flags of every `Server` object, the socket
connections, and the server of every session. -/
structure Proxy where
  registry : Registry
  draining : Server → Bool
  healthy : Server → Bool
  playerCount : Server → Int
  /-- The `Server` objects made so far; the next one gets the identity `made.length`. -/
  made : List Server
  /-- The connections `handleClient` is serving. -/
  conns : ClientID → Option Client
  /-- `DefaultServer.clients`, by lower-cased name. -/
  clients : String → Option ClientID
  /-- The server of each session, `none` once it is closed. -/
  sessions : List (Option Server)

namespace Proxy

def initial : Proxy where
  registry := .empty
  draining := fun _ => false
  healthy := fun _ => false
  playerCount := fun _ => 0
  made := []
  conns := fun _ => none
  clients := fun _ => none
  sessions := []

section Handlers

variable (lib : Library) (secret : String)

/-- `DefaultServer.TryAuthenticate`; `none` is false. -/
def tryAuthenticate (p : Proxy) (c : ClientID) (client : Client) (name : String) : Option Proxy :=
  match p.clients (lib.toLower name) with
  | some _ => none
  | none =>
      some { p with
        clients := Function.update p.clients (lib.toLower name) (some c)
        conns := Function.update p.conns c (some (client.authenticate name)) }

/-- `AuthRequestHandler.Handle`. -/
def handleAuthRequest (p : Proxy) (c : ClientID) (client : Client) (pk : AuthRequest) :
    Proxy × Reply :=
  if client.authenticated then (p, .done)
  else if pk.protocol ≠ protocolVersion then (p, .auth .unsupportedProtocol)
  else if secret = "" ∨ pk.secret ≠ secret then (p, .auth .incorrectSecret)
  else
    match p.tryAuthenticate lib c client pk.name with
    | none => (p, .auth .alreadyConnected)
    | some p => (p, .auth .success)

/-- `server.New`, as the counters and flags see it. -/
def make (p : Proxy) (srv : Server) : Proxy :=
  { p with
    made := p.made ++ [srv]
    draining := Function.update p.draining srv false
    healthy := Function.update p.healthy srv true
    playerCount := Function.update p.playerCount srv 0 }

/-- `SetDraining`, `SetHealthy` and `SetPlayerCount` with the values of `old`. -/
def carryOver (p : Proxy) (old srv : Server) : Proxy :=
  { p with
    draining := Function.update p.draining srv (p.draining old)
    healthy := Function.update p.healthy srv (p.healthy old)
    playerCount := Function.update p.playerCount srv (p.playerCount old) }

/-- The `Server` object a registration makes. -/
def newServer (p : Proxy) (client : Client) (pk : RegisterServer) (transport : Transport) :
    Server :=
  .new p.made.length client.name pk.address transport pk.group pk.weight pk.legacyAuth

/-- `RegisterServerHandler.Handle`. -/
def handleRegisterServer (p : Proxy) (client : Client) (pk : RegisterServer) : Proxy × Reply :=
  match parseTransport lib pk.transport with
  | .error err => (p, .error err)
  | .ok transport =>
      match validateAddress lib transport pk.address with
      | .error err => (p, .error err)
      | .ok () =>
          let newSrv := p.newServer client pk transport
          let p := p.make newSrv
          let p :=
            match p.registry.server lib client.name with
            | some old => p.carryOver old newSrv
            | none => p
          ({ p with registry := p.registry.addServer lib newSrv }, .done)

/-- `SetServerDrainingHandler.Handle`. -/
def handleSetServerDraining (p : Proxy) (client : Client) (draining : Bool) : Proxy × Reply :=
  match p.registry.server lib client.name with
  | none => (p, .done)
  | some srv => ({ p with draining := Function.update p.draining srv draining }, .done)

/-- One round of the loop of `handleClient`. -/
def handle (p : Proxy) (c : ClientID) (client : Client) (pk : Packet) : Proxy × Reply :=
  if !client.authenticated && pk.requiresAuth then (p, .auth .unauthenticated)
  else
    match pk with
    | .authRequest pk => p.handleAuthRequest lib secret c client pk
    | .registerServer pk => p.handleRegisterServer lib client pk
    | .setServerDraining draining => p.handleSetServerDraining lib client draining

/-- `handleClientDisconnect`. -/
def handleClientDisconnect (p : Proxy) (c : ClientID) (client : Client) : Proxy :=
  let p := { p with conns := Function.update p.conns c none }
  let key := lib.toLower client.name
  if client.name ≠ "" ∧ p.clients key = some c then
    let srv := p.registry.server lib client.name
    let p := { p with clients := Function.update p.clients key none }
    match srv with
    | none => p
    | some srv => { p with registry := p.registry.removeServer lib srv }
  else p

end Handlers

/-! ## Runs -/

inductive Action where
  /-- a connection is accepted -/
  | accept (c : ClientID)
  /-- a connection sends a packet -/
  | packet (c : ClientID) (pk : Packet)
  /-- a connection ends -/
  | disconnect (c : ClientID)
  /-- a session joins a server out of the registry -/
  | join (srv : Server)
  /-- a session completes a transfer to a server that was once in the registry -/
  | transfer (k : Nat) (target : Server)
  /-- a session is closed -/
  | close (k : Nat)

variable (lib : Library) (secret : String)

def next (p : Proxy) : Action → Option Proxy
  | .accept c =>
      match p.conns c with
      | some _ => none
      | none => some { p with conns := Function.update p.conns c (some ⟨"", false⟩) }
  | .packet c pk =>
      match p.conns c with
      | none => none
      | some client => some (p.handle lib secret c client pk).1
  | .disconnect c =>
      match p.conns c with
      | none => none
      | some client => some (p.handleClientDisconnect lib c client)
  | .join srv =>
      if p.registry.server lib srv.name = some srv then
        some { p with
          sessions := p.sessions ++ [some srv]
          playerCount := [(srv, 1)].foldl credit p.playerCount }
      else none
  | .transfer k target =>
      match p.sessions[k]? with
      | some (some current) =>
          if target ∈ p.made then
            some { p with
              sessions := p.sessions.set k (some target)
              playerCount := [(current, -1), (target, 1)].foldl credit p.playerCount }
          else none
      | _ => none
  | .close k =>
      match p.sessions[k]? with
      | some (some current) =>
          some { p with
            sessions := p.sessions.set k none
            playerCount := [(current, -1)].foldl credit p.playerCount }
      | _ => none

def machine : Machine Proxy Action where
  start := initial
  next := next lib secret

/-- The name, up to case, of the server a session is on. -/
def on (session : Option Server) : Option String := session.map fun srv => lib.toLower srv.name

/-- The open sessions whose server has the name, up to case. -/
def playersOn (p : Proxy) (name : String) : Nat :=
  p.sessions.countP fun session => decide (on lib session = some (lib.toLower name))

/-- The registered object of every name counts the players on that name. -/
def Accurate (p : Proxy) : Prop :=
  ∀ name srv, p.registry.server lib name = some srv → p.playerCount srv = p.playersOn lib name

/-- No other object stands in the registry under the name of `srv`. -/
def Current (p : Proxy) (srv : Server) : Prop :=
  ∀ found ∈ p.registry.server lib srv.name, found = srv

instance (p : Proxy) (srv : Server) : Decidable (Current lib p srv) :=
  inferInstanceAs (Decidable (∀ found ∈ p.registry.server lib srv.name, found = srv))

/-- The step's count changes reach the registered objects: a session leaves and
enters objects that are current (or, within one name, two that are both not), and
a name is registered for the first time only with nobody on it. -/
def Careful (p : Proxy) : Action → Prop
  | .packet c (.registerServer pk) =>
      ∀ client ∈ p.conns c, client.authenticated = true → pk.valid lib = true →
        p.registry.server lib client.name = none → p.playersOn lib client.name = 0
  | .transfer k target =>
      ∀ session ∈ p.sessions[k]?, ∀ current ∈ session,
        if lib.toLower current.name = lib.toLower target.name then
          Current lib p current ↔ Current lib p target
        else Current lib p current ∧ Current lib p target
  | .close k => ∀ session ∈ p.sessions[k]?, ∀ current ∈ session, Current lib p current
  | _ => True

instance (p : Proxy) (a : Action) : Decidable (Careful lib p a) := by
  cases a with
  | packet c pk => cases pk <;> dsimp only [Careful] <;> infer_instance
  | _ => dsimp only [Careful]; infer_instance

/-! ## What a step does to the registry -/

/-- Entries stand under their own names and were made before. -/
structure Sound (p : Proxy) : Prop where
  keyed : p.registry.Keyed lib
  made : ∀ key srv, p.registry key = some srv → srv.ptr < p.made.length

theorem handleAuthRequest_frame (p : Proxy) (c : ClientID) (client : Client) (pk : AuthRequest) :
    ∃ clients conns, (p.handleAuthRequest lib secret c client pk).1 =
      { p with clients := clients, conns := conns } := by
  unfold handleAuthRequest
  split
  · exact ⟨_, _, rfl⟩
  split
  · exact ⟨_, _, rfl⟩
  split
  · exact ⟨_, _, rfl⟩
  split
  · exact ⟨_, _, rfl⟩
  · rename_i authenticated
    unfold tryAuthenticate at authenticated
    split at authenticated <;> cases authenticated
    exact ⟨_, _, rfl⟩

theorem handleSetServerDraining_frame (p : Proxy) (client : Client) (value : Bool) :
    ∃ draining, (p.handleSetServerDraining lib client value).1 =
      { p with draining := draining } := by
  unfold handleSetServerDraining
  split <;> exact ⟨_, rfl⟩

theorem handleClientDisconnect_spec (p : Proxy) (c : ClientID) (client : Client) :
    ∃ registry conns clients, (p.handleClientDisconnect lib c client) = { p with
      registry := registry, conns := conns, clients := clients } ∧
      ∀ key srv, registry key = some srv → p.registry key = some srv := by
  unfold handleClientDisconnect
  dsimp only
  split
  · split
    · exact ⟨_, _, _, rfl, fun _ _ found => found⟩
    · exact ⟨_, _, _, rfl, fun _ _ found => Registry.removeServer_some found⟩
  · exact ⟨_, _, _, rfl, fun _ _ found => found⟩

variable {lib} {secret} {p p' : Proxy}

theorem initial_sound : Sound lib initial where
  keyed := Registry.keyed_empty
  made := by simp [initial, Registry.empty]

/-- A step that only loses entries. -/
theorem Sound.of_subset (sound : Sound lib p)
    (subset : ∀ key srv, p'.registry key = some srv → p.registry key = some srv)
    (made : p'.made = p.made) : Sound lib p' where
  keyed := fun key srv found => sound.keyed key srv (subset key srv found)
  made := fun key srv found => made ▸ sound.made key srv (subset key srv found)

/-- An accepted registration puts a new object in the registry, which takes over
the count of the object it replaces; a rejected one changes nothing. -/
theorem handleRegisterServer_spec (sound : Sound lib p) (client : Client) (pk : RegisterServer) :
    (pk.valid lib = false ∧ (p.handleRegisterServer lib client pk).1 = p) ∨
      pk.valid lib = true ∧
      ∃ srv draining healthy, srv.name = client.name ∧ srv.ptr = p.made.length ∧
        (p.handleRegisterServer lib client pk).1 = { p with
          registry := p.registry.addServer lib srv
          made := p.made ++ [srv]
          draining := draining
          healthy := healthy
          playerCount := Function.update p.playerCount srv
            (((p.registry.server lib client.name).map p.playerCount).getD 0) } := by
  unfold handleRegisterServer RegisterServer.valid
  split
  · exact .inl ⟨rfl, rfl⟩
  split
  · exact .inl ⟨rfl, rfl⟩
  rename_i transport _ _ _
  refine .inr ⟨rfl, p.newServer client pk transport, ?_⟩
  cases found : p.registry.server lib client.name with
  | none =>
      simp only [make, found, Option.map_none, Option.getD_none]
      exact ⟨_, _, rfl, rfl, rfl⟩
  | some old =>
      -- the new object is not the old one, so the copied count is the old one's
      have earlier : old ≠ p.newServer client pk transport := by
        intro same
        have bound := sound.made _ old found
        rw [same] at bound
        simp [newServer, Server.new] at bound
      simp only [make, carryOver, found, Function.update_of_ne earlier, Function.update_idem,
        Option.map_some, Option.getD_some]
      exact ⟨_, _, rfl, rfl, rfl⟩

theorem Sound.registered (sound : Sound lib p) {srv : Server} (new : srv.ptr = p.made.length) :
    Sound lib { p with registry := p.registry.addServer lib srv, made := p.made ++ [srv] } where
  keyed := sound.keyed.addServer srv
  made := by
    intro key found stored
    rw [List.length_append, List.length_singleton]
    obtain ⟨-, rfl⟩ | before := Registry.addServer_some stored
    · omega
    · have bound := sound.made key found before
      omega

theorem next_sound {a : Action} (sound : Sound lib p) (taken : p.next lib secret a = some p') :
    Sound lib p' := by
  cases a with
  | accept c =>
      simp only [next] at taken
      split at taken <;> cases taken
      exact sound.of_subset (fun _ _ found => found) rfl
  | packet c pk =>
      simp only [next] at taken
      split at taken <;> cases taken
      rename_i client _
      unfold handle
      split
      · exact sound
      split
      · rename_i pk _
        obtain ⟨_, _, same⟩ := handleAuthRequest_frame lib secret p c client pk
        rw [same]
        exact sound.of_subset (fun _ _ found => found) rfl
      · rename_i pk _
        obtain ⟨-, same⟩ | ⟨-, srv, _, _, -, new, registered⟩ :=
          handleRegisterServer_spec sound client pk
        · rwa [same]
        · rw [registered]
          exact { sound.registered new with }
      · rename_i value _
        obtain ⟨_, same⟩ := handleSetServerDraining_frame lib p client value
        rw [same]
        exact sound.of_subset (fun _ _ found => found) rfl
  | disconnect c =>
      simp only [next] at taken
      split at taken <;> cases taken
      rename_i client _
      obtain ⟨_, _, _, same, subset⟩ := handleClientDisconnect_spec lib p c client
      rw [same]
      exact sound.of_subset subset rfl
  | join srv =>
      simp only [next] at taken
      split at taken <;> cases taken
      exact sound.of_subset (fun _ _ found => found) rfl
  | transfer k target =>
      simp only [next] at taken
      split at taken
      · split at taken <;> cases taken
        exact sound.of_subset (fun _ _ found => found) rfl
      · cases taken
  | close k =>
      simp only [next] at taken
      split at taken <;> cases taken
      exact sound.of_subset (fun _ _ found => found) rfl

/-! ## What a step does to the counts -/

/-- Entry by entry: the registered object under a key counts the sessions on it. -/
theorem accurate_iff (keyed : p.registry.Keyed lib) :
    Accurate lib p ↔
      ∀ key srv, p.registry key = some srv → p.playerCount srv = tally (on lib) p.sessions key := by
  constructor
  · intro accurate key srv found
    have named := keyed key srv found
    subst named
    exact accurate srv.name srv found
  · intro counted name srv found
    exact counted _ srv found

/-- A step that loses entries at most, and moves no player. -/
theorem Accurate.of_subset (accurate : Accurate lib p)
    (subset : ∀ key srv, p'.registry key = some srv → p.registry key = some srv)
    (count : p'.playerCount = p.playerCount) (sessions : p'.sessions = p.sessions) :
    Accurate lib p' := by
  intro name srv found
  rw [count, playersOn, sessions]
  exact accurate name srv (subset _ srv found)

/-- A session that moves from `o` to `o'` keeps the counts accurate exactly when
each registered object is charged with what the sessions on its name change by. -/
theorem accurate_moved {k : Nat} {o o' : Option Server} {ds : List (Server × Int)}
    (sound : Sound lib p) (accurate : Accurate lib p) (found : p.sessions[k]? = some o) :
    Accurate lib { p with
        sessions := p.sessions.set k o', playerCount := ds.foldl credit p.playerCount } ↔
      ∀ key srv, p.registry key = some srv →
        total ds srv = unit (on lib o') key - unit (on lib o) key := by
  rw [accurate_iff (by exact sound.keyed)]
  have before := (accurate_iff sound.keyed).mp accurate
  refine forall_congr' fun key => forall_congr' fun srv => imp_congr_right fun stored => ?_
  dsimp only
  rw [foldl_credit, tally_set _ found, before key srv stored]
  omega

/-- Whether the registered object under a key is `srv` is whether the key is the
name of `srv`, for a `srv` that is current. -/
theorem current_iff (sound : Sound lib p) (srv : Server) :
    Current lib p srv ↔ ∀ key found, p.registry key = some found →
      (srv = found ↔ lib.toLower srv.name = key) := by
  constructor
  · intro current key found stored
    constructor
    · rintro rfl
      exact sound.keyed key srv stored
    · rintro rfl
      exact (current found stored).symm
  · intro all found stored
    exact ((all _ found stored).mpr rfl).symm

theorem current_iff_eq (srv : Server) {found : Server}
    (stored : p.registry.server lib srv.name = some found) :
    Current lib p srv ↔ srv = found := by
  simp only [Current, stored, Option.mem_some_iff, forall_eq']
  exact eq_comm

theorem Current.of_absent {srv : Server} (absent : p.registry.server lib srv.name = none) :
    Current lib p srv := by
  intro found stored
  rw [absent] at stored
  cases stored

theorem accurate_close {k : Nat} {current : Server} (sound : Sound lib p) (accurate : Accurate lib p)
    (found : p.sessions[k]? = some (some current)) :
    Accurate lib { p with
        sessions := p.sessions.set k none
        playerCount := [(current, -1)].foldl credit p.playerCount } ↔ Current lib p current := by
  rw [accurate_moved sound accurate found, current_iff sound]
  refine forall_congr' fun key => forall_congr' fun srv => imp_congr_right fun _ => ?_
  by_cases charged : current = srv <;> by_cases named : lib.toLower current.name = key <;>
    simp [total, unit, on, charged, named]

theorem accurate_transfer {k : Nat} {current target : Server} (sound : Sound lib p)
    (accurate : Accurate lib p) (found : p.sessions[k]? = some (some current)) :
    Accurate lib { p with
        sessions := p.sessions.set k (some target)
        playerCount := [(current, -1), (target, 1)].foldl credit p.playerCount } ↔
      if lib.toLower current.name = lib.toLower target.name then
        Current lib p current ↔ Current lib p target
      else Current lib p current ∧ Current lib p target := by
  have charge : ∀ srv, total [(current, -1), (target, 1)] srv =
      (if target = srv then 1 else 0) - (if current = srv then 1 else 0) := by
    intro srv
    by_cases leaves : current = srv <;> by_cases enters : target = srv <;>
      simp [total, leaves, enters]
  rw [accurate_moved sound accurate found]
  simp only [charge, unit, on, Option.map_some, Option.some.injEq]
  split
  · rename_i named
    -- within one name nobody comes or goes: both objects are charged or neither is
    simp only [named, sub_self]
    constructor
    · intro even
      cases stored : p.registry.server lib target.name with
      | none =>
          exact iff_of_true (.of_absent (by rw [Registry.server, named]; exact stored))
            (.of_absent stored)
      | some srv =>
          have balance := even _ srv stored
          rw [current_iff_eq target stored,
            current_iff_eq current (by rw [Registry.server, named]; exact stored)]
          by_cases leaves : current = srv <;> by_cases enters : target = srv <;>
            simp [leaves, enters] at balance ⊢
    · intro agree key srv stored
      by_cases here : lib.toLower target.name = key
      · subst here
        rw [current_iff_eq target stored,
          current_iff_eq current (by rw [Registry.server, named]; exact stored)] at agree
        simp [agree]
      · have enters : target ≠ srv := by
          rintro rfl
          exact here (sound.keyed key _ stored)
        have leaves : current ≠ srv := by
          rintro rfl
          exact here (named ▸ sound.keyed key _ stored)
        simp [enters, leaves]
  · rename_i named
    rw [current_iff sound, current_iff sound]
    constructor
    · intro even
      refine ⟨fun key srv stored => ?_, fun key srv stored => ?_⟩
      · refine ⟨fun leaves => leaves ▸ sound.keyed key srv stored, fun here => ?_⟩
        subst here
        have enters : target ≠ srv := by
          rintro rfl
          exact named (sound.keyed _ _ stored).symm
        have balance := even _ srv stored
        by_contra leaves
        simp [enters, leaves, Ne.symm named] at balance
      · refine ⟨fun enters => enters ▸ sound.keyed key srv stored, fun here => ?_⟩
        subst here
        have leaves : current ≠ srv := by
          rintro rfl
          exact named (sound.keyed _ _ stored)
        have balance := even _ srv stored
        by_contra enters
        simp [enters, leaves, named] at balance
    · rintro ⟨leaving, entering⟩ key srv stored
      simp only [leaving key srv stored, entering key srv stored]

/-- A registration: the object put in the registry counts the players on its name
unless it is the first under a name that has players. -/
theorem accurate_registered {srv : Server} {draining healthy : Server → Bool} {made : List Server}
    (sound : Sound lib p) (accurate : Accurate lib p) :
    Accurate lib { p with
        registry := p.registry.addServer lib srv
        made := made
        draining := draining
        healthy := healthy
        playerCount := Function.update p.playerCount srv
          (((p.registry.server lib srv.name).map p.playerCount).getD 0) } ↔
      (p.registry.server lib srv.name = none → p.playersOn lib srv.name = 0) := by
  have before := (accurate_iff sound.keyed).mp accurate
  have keyed := sound.keyed.addServer srv
  rw [accurate_iff (by exact keyed)]
  have own : p.registry.addServer lib srv (lib.toLower srv.name) = some srv := by
    simp [Registry.addServer]
  constructor
  · intro counted absent
    have none_on := counted _ srv own
    simp only [absent, Function.update_self, Option.map_none, Option.getD_none] at none_on
    exact Int.natCast_eq_zero.mp none_on.symm
  · intro first key found stored
    by_cases here : key = lib.toLower srv.name
    · subst here
      have same : srv = found := Option.some.inj (own.symm.trans stored)
      subst same
      simp only [Function.update_self]
      cases old : p.registry.server lib srv.name with
      | none => exact (Int.natCast_eq_zero.mpr (first old)).symm
      | some old' => exact before _ old' old
    · have other : found ≠ srv := by
        rintro rfl
        exact here (keyed key found stored).symm
      simp only [Function.update_of_ne other]
      simp only [Registry.addServer, Function.update_of_ne here] at stored
      exact before key found stored

theorem accurate_join {srv : Server} (sound : Sound lib p) (accurate : Accurate lib p)
    (registered : p.registry.server lib srv.name = some srv) :
    Accurate lib { p with
      sessions := p.sessions ++ [some srv]
      playerCount := [(srv, 1)].foldl credit p.playerCount } := by
  rw [accurate_iff (by exact sound.keyed)]
  intro key found stored
  have before := (accurate_iff sound.keyed).mp accurate key found stored
  have charged := (current_iff sound srv).mp ((current_iff_eq srv registered).mpr rfl) key found stored
  dsimp only
  rw [foldl_credit, tally_append, before]
  simp [total, unit, on, charged]

/-- **The step rule of the counts**: a step keeps them accurate exactly when it is
careful. -/
theorem next_accurate {a : Action} (sound : Sound lib p) (accurate : Accurate lib p)
    (taken : p.next lib secret a = some p') : Accurate lib p' ↔ Careful lib p a := by
  cases a with
  | accept c =>
      simp only [next] at taken
      split at taken <;> cases taken
      exact iff_of_true (accurate.of_subset (fun _ _ found => found) rfl rfl) trivial
  | packet c pk =>
      simp only [next] at taken
      split at taken
      · cases taken
      rename_i client served
      cases taken
      unfold handle
      cases pk with
      | authRequest pk =>
          obtain ⟨_, _, same⟩ := handleAuthRequest_frame lib secret p c client pk
          simp only [Packet.requiresAuth, Bool.and_false, Bool.false_eq_true, if_false, same]
          exact iff_of_true (accurate.of_subset (fun _ _ found => found) rfl rfl) trivial
      | setServerDraining value =>
          refine iff_of_true ?_ trivial
          split
          · exact accurate
          · obtain ⟨_, same⟩ := handleSetServerDraining_frame lib p client value
            simp only [same]
            exact accurate.of_subset (fun _ _ found => found) rfl rfl
      | registerServer pk =>
          simp only [Packet.requiresAuth, Bool.and_true, Bool.not_eq_true', Careful, served,
            Option.mem_some_iff, forall_eq']
          split
          · rename_i unauthenticated
            simp [accurate, unauthenticated]
          · rename_i authenticated
            obtain ⟨rejected, same⟩ | ⟨accepted, srv, _, _, named, -, registered⟩ :=
              handleRegisterServer_spec sound client pk
            · simp [same, accurate, rejected]
            · have authenticated : client.authenticated = true := by simpa using authenticated
              simp only [accepted, authenticated, true_implies]
              rw [registered, ← named]
              exact accurate_registered sound accurate
  | disconnect c =>
      simp only [next] at taken
      split at taken <;> cases taken
      rename_i client _
      obtain ⟨_, _, _, same, subset⟩ := handleClientDisconnect_spec lib p c client
      rw [same]
      exact iff_of_true (accurate.of_subset subset rfl rfl) trivial
  | join srv =>
      simp only [next] at taken
      split at taken <;> cases taken
      rename_i registered
      exact iff_of_true (accurate_join sound accurate registered) trivial
  | transfer k target =>
      simp only [next] at taken
      split at taken
      · rename_i current found
        split at taken <;> cases taken
        rw [accurate_transfer sound accurate found]
        simp [Careful, found]
      · cases taken
  | close k =>
      simp only [next] at taken
      split at taken <;> cases taken
      rename_i current found
      rw [accurate_close sound accurate found]
      simp [Careful, found]

/-- **Registry counts.**  In every run of careful steps, whatever is registered,
registered again, disconnected and reconnected in between, the registered object
of every name counts the open sessions on that name.  Carefulness is also
necessary: the first step that is not careful leaves some count wrong. -/
theorem registry_counts_accurate (reached : (machine lib secret).Reach (Careful lib) p) :
    Accurate lib p ∧
      ∀ a p', p.next lib secret a = some p' → (Accurate lib p' ↔ Careful lib p a) := by
  have both : Sound lib p ∧ Accurate lib p := by
    refine reached.invariant (I := fun p => Sound lib p ∧ Accurate lib p) ?_ ?_
    · refine ⟨initial_sound, ?_⟩
      intro name srv found
      cases found
    · rintro p p' a - ⟨sound, accurate⟩ careful taken
      exact ⟨next_sound sound taken, (next_accurate sound accurate taken).mpr careful⟩
  exact ⟨both.2, fun a p' taken => next_accurate both.1 both.2 taken⟩

end Proxy

/-! ### Runs of one backend -/

/-- The object that registration number `ptr` makes in the runs below. -/
def backend (ptr : Nat) (name address : String) : Server :=
  .new ptr name address .rakNet "" 1 false

namespace Proxy

def lobby : RegisterServer := ⟨"a:1", "raknet", false, "", 1⟩

/-- A backend connects, registers, gets a player and registers again. -/
def reregistration : List Action :=
  [.accept 0, .packet 0 (.authRequest ⟨3, "secret", "Lobby"⟩), .packet 0 (.registerServer lobby),
    .join (backend 0 "Lobby" "a:1"), .packet 0 (.registerServer lobby)]

theorem registry_counts_accurate_reregistered :
    ∃ p, (machine .ascii "secret").Reach (Careful .ascii) p ∧
      p.registry.server .ascii "lobby" = some (backend 1 "Lobby" "a:1") ∧
      p.playerCount (backend 1 "Lobby" "a:1") = p.playersOn .ascii "lobby" := by
  have reached : (machine .ascii "secret").Reach (Careful .ascii) _ :=
    Machine.exec_reach reregistration rfl
  exact ⟨_, reached, rfl, (registry_counts_accurate reached).1 "lobby" _ rfl⟩

/-- The player leaves: the session decrements the object it joined, not the one
that has taken its place. -/
theorem reregistration_loses_quit :
    ∃ p, (machine .ascii "secret").Reachable p ∧
      p.registry.server .ascii "lobby" = some (backend 1 "Lobby" "a:1") ∧
      p.playerCount (backend 1 "Lobby" "a:1") = 1 ∧ p.playersOn .ascii "lobby" = 0 :=
  ⟨_, Machine.exec_reach (m := machine .ascii "secret") (reregistration ++ [Action.close 0]) rfl,
    rfl, rfl, rfl⟩

end Proxy

end Portal.Socket
