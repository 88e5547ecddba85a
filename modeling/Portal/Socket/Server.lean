/-
# Socket.Server — every interleaving of the connections of the socket server

Each accepted connection has its own goroutine, `handleClient`.  `Connection` is what
belongs to it: the `Client`, the statement it executes next and, for the record, the
packets it has read and the `Server` objects it has added.  `Shared` is what all of
them work on.  A step of one connection changes its own record and the shared part
(`Connection.step`); so any interleaving leaves the other records alone.

`Effect` lists what a step can do to the maps, the registry and the bus, and
`step_effect` that it can do no more; what holds in every run is read off from it.

A critical section is one step.  `handleClient` checks `AuthBlocked`, waits in
`ReadPacket` and handles what it read in separate steps; `RegisterServerHandler` looks
the old object up, copies its flags one by one and adds the new object in separate
steps; `handleClientDisconnect` is its `clientsMu` section, the removal and the event.

Sessions, health checks and the admin interface also write the flags and the counts of
servers: `Action.others` stands for anything they do.
-/
import Portal.Theory.Transition
import Portal.Session.Transfer
import Portal.Socket.Registration
import Portal.Socket.Throttle

namespace Portal.Socket

open Portal.Theory.Transition

set_option autoImplicit false

/-- A `net.Addr`: map keys compare the pointer. -/
structure Addr where
  ptr : Nat
  text : String
  deriving DecidableEq, Repr

/-- What does not change while the server runs. -/
structure Config where
  lib : Library
  /-- `net.SplitHostPort`: the host; `none` is an error -/
  splitHostPort : String → Option String
  secret : String
  remoteAddr : ClientID → Addr

namespace Config

variable (cfg : Config)

/-- `hostOf`. -/
def hostOf (addr : Addr) : String := (cfg.splitHostPort addr.text).getD addr.text

/-- The host a connection comes from. -/
def host (c : ClientID) : String := cfg.hostOf (cfg.remoteAddr c)

end Config

/-- The status byte of an `AuthResponse`. -/
def AuthStatus.byte : AuthStatus → UInt8
  | success => 0
  | unsupportedProtocol => 1
  | incorrectSecret => 2
  | alreadyConnected => 3
  | unauthenticated => 4

/-- The topics of the event bus that concern the registry, with their payload. -/
inductive Event where
  | serverRegistered (name address : String)
  | serverUnregistered (name address : String)
  deriving DecidableEq, Repr

/-- The name an event is about. -/
def Event.name : Event → String
  | serverRegistered name _ => name
  | serverUnregistered name _ => name

def Event.isRegistered : Event → Bool
  | serverRegistered _ _ => true
  | serverUnregistered _ _ => false

/-- The handlers `init` registers: whether each requires authentication. -/
def handlers : Wire.Kind → Option Bool
  | .authRequest => some false
  | .registerServer => some true
  | .transferRequest => some true
  | .playerInfoRequest => some true
  | .serverListRequest => some true
  | .findPlayerRequest => some true
  | .setServerDraining => some true
  | _ => none

/-! ## Control points -/

/-- `handleClient`, at the statement it executes next. -/
inductive ConnState where
  /-- the first `s.AuthBlocked(…)` -/
  | admitting
  /-- the `clientsMu` section that fills `unconnectedClients` -/
  | entering
  /-- `!c.Authenticated() && s.AuthBlocked(…)` -/
  | checking
  /-- `c.ReadPacket()` -/
  | reading
  /-- `handlers[pk.ID()]` and `h.RequiresAuth()` -/
  | dispatching (pk : Wire.Packet)
  /-- `AuthRequestHandler`: the first two checks -/
  | requesting (pk : AuthRequest)
  /-- the comparison of the secrets -/
  | comparing (pk : AuthRequest)
  /-- `RecordFailure`: `now := time.Now()` -/
  | recording
  /-- `RecordFailure`: the section under `mu` -/
  | failing (now : Time)
  /-- `srv.TryAuthenticate(c, pk.Name)` -/
  | claiming (pk : AuthRequest)
  /-- `RegisterServerHandler`: `parseTransport`, `validateAddress` and `server.New` -/
  | validating (pk : RegisterServer)
  /-- `srv.ServerRegistry().Server(c.Name())` -/
  | looking (srv : Server)
  /-- `newSrv.SetDraining(old.Draining())` -/
  | copyingDraining (srv old : Server)
  /-- `newSrv.SetHealthy(old.Healthy())` -/
  | copyingHealthy (srv old : Server)
  /-- `newSrv.SetPlayerCount(old.PlayerCount())` -/
  | copyingPlayerCount (srv old : Server)
  /-- `srv.ServerRegistry().AddServer(newSrv)` -/
  | adding (srv : Server)
  /-- `events.Publish(event.TopicServerRegistered, …)` -/
  | announcing (srv : Server)
  /-- `SetServerDrainingHandler`: the lookup -/
  | finding (draining : Bool)
  /-- `s.SetDraining(pk.Draining)` -/
  | settingDraining (srv : Server) (draining : Bool)
  /-- one of the handlers that only ask and answer -/
  | serving (k : Wire.Kind)
  /-- `handleClientDisconnect`: the `clientsMu` section -/
  | cleaning
  /-- `s.serverRegistry.RemoveServer(srv)` -/
  | removing (srv : Server)
  /-- `s.events.Publish(event.TopicServerUnregistered, …)` -/
  | unpublishing (srv : Server)
  | ended
  deriving DecidableEq

/-- The first statement of the handler of a packet. -/
def ConnState.handle : Wire.Packet → ConnState
  | ⟨.authRequest, pk⟩ => .requesting pk
  | ⟨.registerServer, pk⟩ => .validating pk
  | ⟨.setServerDraining, pk⟩ => .finding pk.draining
  | ⟨k, _⟩ => .serving k

/-- What belongs to one connection. -/
structure Connection where
  client : Client
  state : ConnState
  /-- The proxy has closed the connection. -/
  closed : Bool
  /-- The `AuthResponse` packets sent to it, in order. -/
  sent : List AuthResponse
  /-- The packets read from it, in order. -/
  received : List Wire.Packet
  /-- The `Server` objects it has added to the registry, in order. -/
  registered : List Server

namespace Connection

/-- `NewClient`, at the start of `handleClient`. -/
def new : Connection where
  client := ⟨"", false⟩
  state := .admitting
  closed := false
  sent := []
  received := []
  registered := []

def goto (conn : Connection) (state : ConnState) : Connection := { conn with state := state }

/-- Answer an `AuthRequest` and go on with the loop; the handlers set no `Protocol`. -/
def reply (conn : Connection) (status : AuthStatus) : Connection :=
  { conn with sent := conn.sent ++ [⟨0, status.byte⟩], state := .checking }

end Connection

/-- What the connections share. -/
structure Shared where
  registry : Registry
  draining : Server → Bool
  healthy : Server → Bool
  playerCount : Server → Int
  /-- The number of `Server` objects made so far: the identity of the next one. -/
  made : Nat
  /-- `DefaultServer.clients`, by lower-cased name. -/
  clients : String → Option ClientID
  unconnectedClients : Addr → Option ClientID
  authThrottle : AuthThrottle
  now : Time
  /-- What was published on the bus, in order. -/
  events : List Event

def Shared.initial : Shared where
  registry := .empty
  draining := fun _ => false
  healthy := fun _ => false
  playerCount := fun _ => 0
  made := 0
  clients := fun _ => none
  unconnectedClients := fun _ => none
  authThrottle := .new
  now := 0
  events := []

/-- `DefaultServer.AuthBlocked`. -/
def Shared.authBlocked (sh : Shared) (cfg : Config) (c : ClientID) : Bool :=
  sh.authThrottle.blocked (cfg.host c) sh.now

/-- What a statement learns from outside. -/
inductive Input where
  | go
  /-- `ReadPacket` returned a packet -/
  | packet (pk : Wire.Packet)
  /-- `ReadPacket` returned an error -/
  | failed (err : String) (timeout : Bool)

/-- `containsAny`. -/
def containsAny (s : String) (subs : List String) : Bool := subs.any (Session.containsText s)

/-! ## The statements -/

/-- The `clientsMu` section of `TryAuthenticate`, once the name is free. -/
def Shared.claim (sh : Shared) (cfg : Config) (c : ClientID) (name : String) : Shared :=
  { sh with
    unconnectedClients := Function.update sh.unconnectedClients (cfg.remoteAddr c) none
    clients := Function.update sh.clients (cfg.lib.toLower name) (some c) }

/-- `server.New`: the server starts out healthy. -/
def Shared.create (sh : Shared) (srv : Server) : Shared :=
  { sh with
    made := sh.made + 1
    draining := Function.update sh.draining srv false
    healthy := Function.update sh.healthy srv true
    playerCount := Function.update sh.playerCount srv 0 }

/-- The `clientsMu` section of `handleClientDisconnect`: the client is the one in
`clients`. -/
def Shared.owned (sh : Shared) (cfg : Config) (c : ClientID) (name : String) : Bool :=
  name ≠ "" ∧ sh.clients (cfg.lib.toLower name) = some c

/-- The same section: what is deleted. -/
def Shared.release (sh : Shared) (cfg : Config) (c : ClientID) (name : String) : Shared :=
  { sh with
    clients :=
      if sh.owned cfg c name then Function.update sh.clients (cfg.lib.toLower name) none
      else sh.clients
    unconnectedClients := Function.update sh.unconnectedClients (cfg.remoteAddr c) none }

/-- The same section: the server found under the name. -/
def Shared.ownServer (sh : Shared) (cfg : Config) (c : ClientID) (name : String) : Option Server :=
  if sh.owned cfg c name then sh.registry.server cfg.lib name else none

/-- The next statement of `handleClient` for `c`; `none` where it waits. -/
def Connection.step (cfg : Config) (sh : Shared) (c : ClientID) (input : Input)
    (conn : Connection) : ConnState → Option (Shared × Connection)
  | .admitting =>
      if sh.authBlocked cfg c then some (sh, { conn with closed := true, state := .ended })
      else some (sh, conn.goto .entering)
  | .entering =>
      some ({ sh with
        unconnectedClients :=
          Function.update sh.unconnectedClients (cfg.remoteAddr c) (some c) },
        conn.goto .checking)
  | .checking =>
      if !conn.client.authenticated && sh.authBlocked cfg c then
        some (sh, { conn with closed := true, state := .cleaning })
      else some (sh, conn.goto .reading)
  | .reading =>
      match input with
      | .packet pk =>
          some (sh, { conn with received := conn.received ++ [pk], state := .dispatching pk })
      | .failed err timeout =>
          if containsAny err ["EOF", "closed"] then some (sh, conn.goto .cleaning)
          else if timeout then some (sh, { conn with closed := true, state := .cleaning })
          else some (sh, conn.goto .checking)
      | .go => none
  | .dispatching pk =>
      match handlers pk.1 with
      | none => some (sh, conn.goto .checking)
      | some requiresAuth =>
          if !conn.client.authenticated && requiresAuth then
            some (sh, conn.reply .unauthenticated)
          else some (sh, conn.goto (.handle pk))
  | .requesting pk =>
      if conn.client.authenticated then some (sh, conn.goto .checking)
      else if pk.protocol ≠ protocolVersion then some (sh, conn.reply .unsupportedProtocol)
      else some (sh, conn.goto (.comparing pk))
  | .comparing pk =>
      if cfg.secret = "" ∨ pk.secret ≠ cfg.secret then some (sh, conn.goto .recording)
      else some (sh, conn.goto (.claiming pk))
  | .recording => some (sh, conn.goto (.failing sh.now))
  | .failing now =>
      some ({ sh with authThrottle := sh.authThrottle.recordFailure (cfg.host c) now },
        conn.reply .incorrectSecret)
  | .claiming pk =>
      match sh.clients (cfg.lib.toLower pk.name) with
      | some _ => some (sh, conn.reply .alreadyConnected)
      | none =>
          some (sh.claim cfg c pk.name,
            { conn.reply .success with client := conn.client.authenticate pk.name })
  | .validating pk =>
      match parseTransport cfg.lib pk.transport with
      | .error _ => some (sh, conn.goto .checking)
      | .ok transport =>
          match validateAddress cfg.lib transport pk.address with
          | .error _ => some (sh, conn.goto .checking)
          | .ok () =>
              let srv := Server.new sh.made conn.client.name pk.address transport pk.group
                pk.weight pk.legacyAuth
              some (sh.create srv, conn.goto (.looking srv))
  | .looking srv =>
      match sh.registry.server cfg.lib conn.client.name with
      | none => some (sh, conn.goto (.adding srv))
      | some old => some (sh, conn.goto (.copyingDraining srv old))
  | .copyingDraining srv old =>
      some ({ sh with draining := Function.update sh.draining srv (sh.draining old) },
        conn.goto (.copyingHealthy srv old))
  | .copyingHealthy srv old =>
      some ({ sh with healthy := Function.update sh.healthy srv (sh.healthy old) },
        conn.goto (.copyingPlayerCount srv old))
  | .copyingPlayerCount srv old =>
      some ({ sh with playerCount := Function.update sh.playerCount srv (sh.playerCount old) },
        conn.goto (.adding srv))
  | .adding srv =>
      some ({ sh with registry := sh.registry.addServer cfg.lib srv },
        { conn with registered := conn.registered ++ [srv], state := .announcing srv })
  | .announcing srv =>
      some ({ sh with events := sh.events ++ [.serverRegistered conn.client.name srv.address] },
        conn.goto .checking)
  | .finding draining =>
      match sh.registry.server cfg.lib conn.client.name with
      | none => some (sh, conn.goto .checking)
      | some srv => some (sh, conn.goto (.settingDraining srv draining))
  | .settingDraining srv draining =>
      some ({ sh with draining := Function.update sh.draining srv draining }, conn.goto .checking)
  | .serving _ => some (sh, conn.goto .checking)
  | .cleaning =>
      some (sh.release cfg c conn.client.name,
        conn.goto (match sh.ownServer cfg c conn.client.name with
          | none => .ended
          | some srv => .removing srv))
  | .removing srv =>
      some ({ sh with registry := sh.registry.removeServer cfg.lib srv },
        conn.goto (.unpublishing srv))
  | .unpublishing srv =>
      some ({ sh with events := sh.events ++ [.serverUnregistered srv.name srv.address] },
        conn.goto .ended)
  | .ended => none

/-! ## The machine -/

/-- The socket server. -/
structure DefaultServer where
  shared : Shared
  conns : ClientID → Option Connection

/-- What happens next. -/
inductive Action where
  /-- the listener accepts a connection -/
  | accept (c : ClientID)
  /-- one statement of `handleClient` -/
  | step (c : ClientID) (input : Input)
  | tick (duration : Nat)
  /-- `authThrottle.cleanup`, with the time it has read -/
  | cleanup (now : Time)
  /-- sessions, health checks and the admin interface -/
  | others (draining healthy : Server → Bool) (playerCount : Server → Int)

namespace DefaultServer

def initial : DefaultServer := ⟨.initial, fun _ => none⟩

def next (cfg : Config) (s : DefaultServer) : Action → Option DefaultServer
  | .accept c =>
      match s.conns c with
      | none => some { s with conns := Function.update s.conns c (some .new) }
      | some _ => none
  | .step c input =>
      match s.conns c with
      | none => none
      | some conn =>
          (conn.step cfg s.shared c input conn.state).map fun (shared, conn) =>
            ⟨shared, Function.update s.conns c (some conn)⟩
  | .tick duration => some { s with shared := { s.shared with now := s.shared.now + duration } }
  | .cleanup now =>
      if now ≤ s.shared.now then
        some { s with
          shared := { s.shared with authThrottle := s.shared.authThrottle.cleanup now } }
      else none
  | .others draining healthy playerCount =>
      some { s with
        shared := { s.shared with
          draining := draining, healthy := healthy, playerCount := playerCount } }

def machine (cfg : Config) : Machine DefaultServer Action where
  start := initial
  next := next cfg

end DefaultServer

/-! ### Schedules, for concrete runs -/

/-- Everybody comes from one host. -/
def Config.oneHost : Config where
  lib := .ascii
  splitHostPort := some
  secret := "s"
  remoteAddr := fun c => ⟨c, "h"⟩

namespace Action

/-- Some statements of one connection. -/
def go (c : ClientID) (n : Nat) : List Action := List.replicate n (.step c .go)

/-- A connection comes in and waits for a packet. -/
def arrive (c : ClientID) : List Action := .accept c :: go c 3

/-- A packet is read, and some statements follow. -/
def send (c : ClientID) (pk : Wire.Packet) (n : Nat) : List Action :=
  .step c (.packet pk) :: go c n

def request (c : ClientID) (secret name : String) : List Action :=
  send c ⟨.authRequest, ⟨protocolVersion, secret, name⟩⟩ 2

/-- A connection comes in, authenticates and waits for the next packet. -/
def login (c : ClientID) (name : String) : List Action := arrive c ++ request c "s" name ++ go c 3

/-- A first registration, up to `AddServer`. -/
def register (c : ClientID) (address : String) : List Action :=
  send c ⟨.registerServer, ⟨address, "", false, "", 1⟩⟩ 4

/-- The event of a registration, and on to the next packet: the peer has gone. -/
def hangUp (c : ClientID) : List Action := go c 2 ++ [.step c (.failed "EOF" false)]

end Action

/-! ## What one step can do -/

namespace ConnState

/-- The handler that is running. -/
def handler : ConnState → Option Wire.Kind
  | requesting _ => some .authRequest
  | comparing _ => some .authRequest
  | recording => some .authRequest
  | failing _ => some .authRequest
  | claiming _ => some .authRequest
  | validating _ => some .registerServer
  | looking _ => some .registerServer
  | copyingDraining _ _ => some .registerServer
  | copyingHealthy _ _ => some .registerServer
  | copyingPlayerCount _ _ => some .registerServer
  | adding _ => some .registerServer
  | announcing _ => some .registerServer
  | finding _ => some .setServerDraining
  | settingDraining _ _ => some .setServerDraining
  | serving k => some k
  | _ => none

/-- The `clientsMu` section of `handleClientDisconnect` has not been executed. -/
def served : ConnState → Bool
  | removing _ => false
  | unpublishing _ => false
  | ended => false
  | _ => true

/-- The object a `RegisterServer` has made and not added yet. -/
def pending : ConnState → Option Server
  | looking srv => some srv
  | copyingDraining srv _ => some srv
  | copyingHealthy srv _ => some srv
  | copyingPlayerCount srv _ => some srv
  | adding srv => some srv
  | _ => none

/-- The object whose event is still to be published. -/
def announces : ConnState → Option Server
  | announcing srv => some srv
  | _ => none

end ConnState

/-- A step that touches no map, not the registry and not the bus. -/
structure Quiet (sh sh' : Shared) (conn conn' : Connection) : Prop where
  registry : sh'.registry = sh.registry
  made : sh'.made = sh.made
  clients : sh'.clients = sh.clients
  unconnectedClients : sh'.unconnectedClients = sh.unconnectedClients
  events : sh'.events = sh.events
  client : conn'.client = conn.client
  registered : conn'.registered = conn.registered
  served : conn.state.served = true ∧ conn'.state.served = true
  pending : ∀ srv, conn'.state.pending = some srv → conn.state.pending = some srv
  announces : conn.state.announces = none ∧ conn'.state.announces = none

inductive Effect (cfg : Config) (sh : Shared) (c : ClientID) (conn : Connection) :
    Shared → Connection → Prop
  | quiet {sh' : Shared} {conn' : Connection} (same : Quiet sh sh' conn conn') :
      Effect cfg sh c conn sh' conn'
  /-- turned away before anything was set up -/
  | rejected (at_ : conn.state = .admitting) :
      Effect cfg sh c conn sh { conn with closed := true, state := .ended }
  | entered (at_ : conn.state = .entering) :
      Effect cfg sh c conn
        { sh with
          unconnectedClients := Function.update sh.unconnectedClients (cfg.remoteAddr c) (some c) }
        (conn.goto .checking)
  | claimed {pk : AuthRequest} (at_ : conn.state = .claiming pk)
      (free : sh.clients (cfg.lib.toLower pk.name) = none) :
      Effect cfg sh c conn (sh.claim cfg c pk.name)
        { conn.reply .success with client := conn.client.authenticate pk.name }
  | created {pk : RegisterServer} {transport : Transport} (at_ : conn.state = .validating pk) :
      Effect cfg sh c conn
        (sh.create (.new sh.made conn.client.name pk.address transport pk.group pk.weight
          pk.legacyAuth))
        (conn.goto (.looking (.new sh.made conn.client.name pk.address transport pk.group pk.weight
          pk.legacyAuth)))
  | added {srv : Server} (at_ : conn.state = .adding srv) :
      Effect cfg sh c conn { sh with registry := sh.registry.addServer cfg.lib srv }
        { conn with registered := conn.registered ++ [srv], state := .announcing srv }
  | announced {srv : Server} (at_ : conn.state = .announcing srv) :
      Effect cfg sh c conn
        { sh with events := sh.events ++ [.serverRegistered conn.client.name srv.address] }
        (conn.goto .checking)
  | released (at_ : conn.state = .cleaning) :
      Effect cfg sh c conn (sh.release cfg c conn.client.name)
        (conn.goto (match sh.ownServer cfg c conn.client.name with
          | none => .ended
          | some srv => .removing srv))
  | removed {srv : Server} (at_ : conn.state = .removing srv) :
      Effect cfg sh c conn { sh with registry := sh.registry.removeServer cfg.lib srv }
        (conn.goto (.unpublishing srv))
  | unpublished {srv : Server} (at_ : conn.state = .unpublishing srv) :
      Effect cfg sh c conn
        { sh with events := sh.events ++ [.serverUnregistered srv.name srv.address] }
        (conn.goto .ended)

variable {cfg : Config} {sh sh' : Shared} {c : ClientID} {input : Input} {conn conn' : Connection}

/-- The first statement of a handler has made nothing and waits for nothing. -/
theorem ConnState.handle_quiet (pk : Wire.Packet) :
    (ConnState.handle pk).served = true ∧ (ConnState.handle pk).pending = none ∧
      (ConnState.handle pk).announces = none := by
  obtain ⟨k, pk⟩ := pk
  cases k <;> exact ⟨rfl, rfl, rfl⟩

theorem Quiet.of_state {state : ConnState} (at_ : conn.state = state) {closed : Bool}
    {sent : List AuthResponse} {received : List Wire.Packet} {state' : ConnState}
    (served : state.served = true ∧ state'.served = true)
    (pending : ∀ srv, state'.pending = some srv → state.pending = some srv)
    (announces : state.announces = none ∧ state'.announces = none) {draining healthy : Server → Bool}
    {playerCount : Server → Int} {throttle : AuthThrottle} :
    Quiet sh
      { sh with
        draining := draining, healthy := healthy, playerCount := playerCount
        authThrottle := throttle }
      conn { conn with closed := closed, sent := sent, received := received, state := state' } where
  registry := rfl
  made := rfl
  clients := rfl
  unconnectedClients := rfl
  events := rfl
  client := rfl
  registered := rfl
  served := at_ ▸ served
  pending := at_ ▸ pending
  announces := at_ ▸ announces

/-- **A step does one of these.** -/
theorem step_effect (taken : conn.step cfg sh c input conn.state = some (sh', conn')) :
    Effect cfg sh c conn sh' conn' := by
  cases at_ : conn.state with
  | admitting =>
      simp only [at_, Connection.step] at taken
      split at taken <;> cases taken
      · exact .rejected at_
      · exact .quiet (.of_state at_ ⟨rfl, rfl⟩ (by simp [ConnState.pending]) ⟨rfl, rfl⟩)
  | entering =>
      simp only [at_, Connection.step] at taken
      cases taken
      exact .entered at_
  | dispatching pk =>
      obtain ⟨served, pending, announces⟩ := ConnState.handle_quiet pk
      simp only [at_, Connection.step] at taken
      split at taken
      · cases taken
        exact .quiet (.of_state at_ ⟨rfl, rfl⟩ (by simp [ConnState.pending]) ⟨rfl, rfl⟩)
      · split at taken <;> cases taken
        · exact .quiet (.of_state at_ ⟨rfl, rfl⟩ (by simp [ConnState.pending]) ⟨rfl, rfl⟩)
        · exact .quiet (.of_state at_ ⟨rfl, served⟩ (by simp [pending]) ⟨rfl, announces⟩)
  | claiming pk =>
      simp only [at_, Connection.step] at taken
      split at taken <;> cases taken
      · exact .quiet (.of_state at_ ⟨rfl, rfl⟩ (by simp [ConnState.pending]) ⟨rfl, rfl⟩)
      · exact .claimed at_ ‹_›
  | validating pk =>
      simp only [at_, Connection.step] at taken
      split at taken
      · cases taken
        exact .quiet (.of_state at_ ⟨rfl, rfl⟩ (by simp [ConnState.pending]) ⟨rfl, rfl⟩)
      · split at taken <;> cases taken
        · exact .quiet (.of_state at_ ⟨rfl, rfl⟩ (by simp [ConnState.pending]) ⟨rfl, rfl⟩)
        · exact .created at_
  | adding srv =>
      simp only [at_, Connection.step] at taken
      cases taken
      exact .added at_
  | announcing srv =>
      simp only [at_, Connection.step] at taken
      cases taken
      exact .announced at_
  | cleaning =>
      simp only [at_, Connection.step] at taken
      cases taken
      exact .released at_
  | removing srv =>
      simp only [at_, Connection.step] at taken
      cases taken
      exact .removed at_
  | unpublishing srv =>
      simp only [at_, Connection.step] at taken
      cases taken
      exact .unpublished at_
  | _ =>
      simp only [at_, Connection.step] at taken
      (repeat' split at taken) <;> cases taken
      all_goals exact .quiet (.of_state at_ ⟨rfl, rfl⟩ (by simp [ConnState.pending]) ⟨rfl, rfl⟩)

/-- What the clock, the cleanup of the throttle and the rest of the proxy leave alone:
everything here, and they block nobody. -/
structure Ambient (sh sh' : Shared) : Prop where
  registry : sh'.registry = sh.registry
  made : sh'.made = sh.made
  clients : sh'.clients = sh.clients
  unconnectedClients : sh'.unconnectedClients = sh.unconnectedClients
  events : sh'.events = sh.events
  blocked : ∀ host, sh'.authThrottle.blocked host sh'.now = true →
    sh.authThrottle.blocked host sh.now = true

namespace DefaultServer

variable {s s' : DefaultServer}

/-- **The step rule.** -/
theorem next_elim {a : Action} {motive : Prop} (taken : s.next cfg a = some s')
    (accept : ∀ c, s.conns c = none →
      s' = { s with conns := Function.update s.conns c (some .new) } → motive)
    (step : ∀ c input conn sh' conn', a = .step c input → s.conns c = some conn →
      conn.step cfg s.shared c input conn.state = some (sh', conn') →
      s' = ⟨sh', Function.update s.conns c (some conn')⟩ → motive)
    (ambient : s'.conns = s.conns → Ambient s.shared s'.shared → motive) : motive := by
  cases a with
  | accept c =>
      simp only [next] at taken
      split at taken <;> cases taken
      exact accept c ‹_› rfl
  | step c input =>
      simp only [next] at taken
      split at taken
      · cases taken
      · rename_i conn found
        simp only [Option.map_eq_some_iff] at taken
        obtain ⟨⟨sh', conn'⟩, stepped, rfl⟩ := taken
        exact step c input conn sh' conn' rfl found stepped rfl
  | tick duration =>
      cases taken
      exact ambient rfl ⟨rfl, rfl, rfl, rfl, rfl,
        fun host => AuthThrottle.blocked_of_later (Nat.le_add_right _ _)⟩
  | cleanup now =>
      simp only [next] at taken
      split at taken <;> cases taken
      exact ambient rfl ⟨rfl, rfl, rfl, rfl, rfl, fun host => AuthThrottle.blocked_of_cleanup⟩
  | others draining healthy playerCount =>
      cases taken
      exact ambient rfl ⟨rfl, rfl, rfl, rfl, rfl, fun _ blocked => blocked⟩

end DefaultServer

end Portal.Socket
