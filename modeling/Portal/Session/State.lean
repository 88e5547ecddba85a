/-
# Session.State — one session and every goroutine that works on it

`Session` holds the fields of the Go struct that goroutines share, the control
point of each goroutine that works on the session, and what the outside can see
of it.  A control point names the statement the goroutine executes next, with
the local variables that are still needed.

* `NewState`, `LoginState`: `session.New` and the goroutine it starts;
* `Call`: one call of `Transfer` (any number may run at once);
* `TimerState`: the confirmation timer of a transfer and, once it has fired,
  its `abortStuckTransfer`;
* `ClientState`, `ServerState`: the two loops of `handlePackets`;
* `CloseState`: the body of `Close`, which `once` lets run a single time;
* `RequestState`: a socket or admin request that took the session from the store.

`serverMu` is held over several steps only by `finishTransferDimensionChange`;
every other critical section is one step.  So it is held exactly while the
client loop stands inside that function (`serverMuHeld`).
-/
import Mathlib.Data.Finset.Basic
import Portal.Server.Object
import Portal.Session.Translator

namespace Portal

set_option autoImplicit false

/-- Names a call of `Transfer`. -/
abbrev TransferID := Nat

/-- Who dialed a backend connection.  A call of `Transfer` gets at most one
connection, so this identifies the connection. -/
inductive Dialer where
  | login
  | transfer (i : TransferID)
  deriving DecidableEq, Repr

/-- A backend connection: who dialed it, the server it was dialed to and the
game data the server sent. -/
structure Conn where
  dialer : Dialer
  server : Server
  gameData : GameData
  deriving DecidableEq, Repr

/-- Which code closed a backend connection. -/
inductive Closer where
  | finish
  | abort
  | spawnFailure
  | close
  deriving DecidableEq, Repr

/-- Which code sent a `ChangeDimension` to the client: a `Transfer` call,
`finishTransferDimensionChange` for the connection of `d`, or the backend. -/
inductive Sender where
  | transfer (i : TransferID)
  | finish (d : Dialer)
  | backend
  deriving DecidableEq, Repr

/-- The `ChangeDimension` packets the proxy itself makes. -/
def Sender.isProxy : Sender → Bool
  | .backend => false
  | _ => true

/-- How a transfer ended, as its publish callback is told. -/
inductive Outcome where
  | switched (c : Conn)
  | cancelled (i : TransferID)
  | failed (i : TransferID) (err : String)
  | timedOut (i : TransferID) (target : Server)
  | closed
  deriving DecidableEq, Repr

namespace Outcome

/-- The error passed to the callback. -/
def err : Outcome → Option String
  | .switched _ => none
  | .cancelled _ => some "transfer cancelled"
  | .failed _ err => some err
  | .timedOut _ target =>
      some ("transfer to " ++ target.name ++ " timed out waiting for client confirmation")
  | .closed => some "session closed during transfer"

/-- The transfer whose outcome this is; closing the session is no transfer's. -/
def dialer : Outcome → Option Dialer
  | .switched c => some c.dialer
  | .cancelled i => some (.transfer i)
  | .failed i _ => some (.transfer i)
  | .timedOut i _ => some (.transfer i)
  | .closed => none

end Outcome

/-- What the event bus sees of the session. -/
inductive BusEvent where
  | playerJoin
  | playerQuit
  | transfer (i : TransferID) (outcome : Outcome)
  deriving DecidableEq, Repr

/-! ## Control points -/

/-- `session.New`. -/
inductive NewState where
  /-- `store.Store(s)` -/
  | storing
  /-- `loadBalancer.FindServer(s)` -/
  | finding
  /-- `srv.IncrementPlayerCount()` -/
  | incrementing (srv : Server)
  /-- `s.server = srv` -/
  | assigning (srv : Server)
  /-- `s.loginMu.Lock()`, then `go func()` -/
  | locking (srv : Server)
  /-- the deferred `store.Delete(s)` of the error path -/
  | deleting
  | returned (ok : Bool)
  deriving DecidableEq

/-- How the login goroutine ended its login. -/
inductive LoginResult where
  | joined
  | notSpawned
  | notDialed
  deriving DecidableEq

/-- The login goroutine. -/
inductive LoginState where
  | unstarted
  /-- `s.dial(srv)` -/
  | dialing (srv : Server)
  /-- `s.serverConn = srvConn` -/
  | assigning (c : Conn)
  /-- `s.login()` -/
  | spawning (c : Conn)
  /-- `s.translator = newTranslator(srvConn.GameData())` -/
  | translating (c : Conn)
  /-- `unlock()` -/
  | unlocking (r : LoginResult)
  /-- `s.bus.Publish(event.TopicPlayerJoin, …)` -/
  | publishing
  /-- `handlePackets(s)` -/
  | starting
  /-- `s.Close()` of a failed login -/
  | closing (r : LoginResult)
  | done (r : LoginResult)
  deriving DecidableEq

/-- A call of `Transfer`, at the statement it executes next. -/
inductive CallState where
  /-- `s.waitForLogin()` -/
  | waiting
  /-- `s.transferring.CompareAndSwap(false, true)` -/
  | comparing
  /-- returned "already being transferred" -/
  | rejected
  /-- `s.postTransfer.Store(false)` -/
  | clearing
  /-- the `waitForLogin` of `s.Server()` -/
  | awaiting
  /-- the read of `s.Server()` and its `Name()` -/
  | reading
  /-- `s.transferDone = publishTransfer` -/
  | installing
  /-- `s.handler().HandleTransfer(ctx, srv)` -/
  | handling
  /-- `s.dead.CompareAndSwap(true, false)` and the `Respawn` -/
  | respawning
  /-- `s.dial(srv)`; `retried` at the second attempt -/
  | dialing (retried : Bool)
  /-- `conn.DoSpawnTimeout(time.Minute)` -/
  | spawning (c : Conn)
  /-- the `serverMu` section that sets `tempServerConn` -/
  | publishing (c : Conn)
  /-- `selectProxyDimension(s.serverConn.GameData().Dimension, …)` -/
  | selecting (c : Conn)
  /-- `s.changeDimension(proxyDimension, pos)` and the empty chunks -/
  | changing (c : Conn) (dimension : Int32)
  /-- `s.setTransferring(false)` of a failure path -/
  | resetting (o : Outcome)
  /-- the `transferMu` section of `completeTransfer` -/
  | taking (o : Outcome)
  /-- `done(err)` -/
  | running (o : Outcome) (done : Option TransferID)
  | returned (err : Option String)
  deriving DecidableEq

/-- A call of `Transfer`: its argument and where it stands. -/
structure Call where
  target : Server
  state : CallState
  deriving DecidableEq

/-- A confirmation timer, and the `abortStuckTransfer(srv)` it runs. -/
inductive TimerState where
  | unarmed
  | armed (srv : Server)
  | stopped
  /-- fired; next the `serverMu` section of `abortStuckTransfer` -/
  | fired (srv : Server)
  /-- `conn.Close()` -/
  | closing (srv : Server) (c : Conn)
  /-- `s.setTransferring(false)` -/
  | resetting (srv : Server)
  /-- the `transferMu` section of `completeTransfer` -/
  | taking (srv : Server)
  /-- `done(err)` -/
  | running (srv : Server) (done : Option TransferID)
  /-- `s.Disconnect(…)` -/
  | disconnecting
  | done
  deriving DecidableEq

/-- Armed, or fired and waiting for `serverMu`: it will look at `tempServerConn`. -/
def TimerState.looks : TimerState → Bool
  | .armed _ => true
  | .fired _ => true
  | _ => false

/-- A packet the client loop is working on: as it was read, and the
`ChangeDimension` it acknowledges. -/
structure Inbound where
  read : Packet
  ack : Option Sender

/-- The client->server loop of `handlePackets`. -/
inductive ClientState where
  | unstarted
  /-- `s.conn.ReadPacket()` -/
  | reading
  /-- `s.translatePacket(pk)` -/
  | translating (f : Inbound) (rest : Loads Packet)
  /-- `clearLegacyIdentity(pk, s.currentServer().LegacyAuth())` -/
  | clearing (f : Inbound) (pk : Packet)
  /-- `s.transferring.Load()` -/
  | loading (f : Inbound) (pk : Packet)
  /-- `finishTransferDimensionChange`: `serverMu.Lock()`, the check of
  `tempServerConn` and the stop of the timer -/
  | locking (f : Inbound) (pk : Packet)
  /-- `s.changeDimension(gameData.Dimension, …)` -/
  | announcing (f : Inbound) (c : Conn)
  /-- `clearEntities` … `clearScoreboard` -/
  | wiping (f : Inbound) (c : Conn)
  /-- `s.dead.CompareAndSwap(true, false)` and the `Respawn` -/
  | reviving (f : Inbound) (c : Conn)
  /-- the `Disconnect` to the old server and `s.serverConn.Close()` -/
  | dropping (f : Inbound) (c : Conn)
  /-- the switch of `serverConn` and `server`, and the unlock -/
  | switching (f : Inbound) (c : Conn)
  /-- `t.currentRuntimeID.Store(…)` -/
  | storingRuntimeID (c : Conn)
  /-- `t.currentUniqueID.Store(…)` -/
  | storingUniqueID (c : Conn)
  /-- `s.transferring.Store(false)` -/
  | lowering (c : Conn)
  /-- `s.postTransfer.Store(true)` -/
  | raising (c : Conn)
  /-- the log line's `s.currentServer().Name()` -/
  | logging (c : Conn)
  /-- the `transferMu` section of `completeTransfer` -/
  | taking (c : Conn)
  /-- `done(nil)` -/
  | running (c : Conn) (done : Option TransferID)
  /-- `s.postTransfer.CompareAndSwap(true, false)` -/
  | swapping (f : Inbound) (pk : Packet)
  /-- `s.Transferring()` -/
  | checking (f : Inbound) (pk : Packet)
  /-- `s.handler().HandleServerBoundPacket(ctx, pk)` -/
  | handling (f : Inbound) (pk : Packet)
  /-- `s.currentServerConn()` -/
  | picking (f : Inbound) (pk : Packet)
  /-- `WritePacket(pk)` on the connection picked -/
  | writing (f : Inbound) (pk : Packet) (c : Conn)
  | exited

/-- Inside the critical section of `finishTransferDimensionChange`, the
connection it is switching to. -/
def ClientState.finishing : ClientState → Option Conn
  | .announcing _ c => some c
  | .wiping _ c => some c
  | .reviving _ c => some c
  | .dropping _ c => some c
  | .switching _ c => some c
  | _ => none

/-- The server->client loop of `handlePackets`. -/
inductive ServerState where
  | unstarted
  /-- `conn := s.currentServerConn()` -/
  | picking
  /-- `conn.ReadPacket()` -/
  | reading (c : Conn)
  /-- the read failed; next `conn != s.currentServerConn()` -/
  | comparing (c : Conn)
  /-- `s.handler().HandleServerDisconnect(ctx, err)` is running -/
  | notifying (c : Conn)
  /-- `s.Close()`, then return -/
  | closing
  /-- `s.translatePacket(pk)` -/
  | translating (c : Conn) (read : Packet) (rest : Loads Packet)
  /-- the switch over the packet type -/
  | tracking (c : Conn) (read pk : Packet)
  /-- `s.postTransfer.Load()` after a `Respawn{SearchingForSpawn}` -/
  | loading (c : Conn) (read pk : Packet)
  /-- `s.handler().HandleClientBoundPacket(ctx, pk)` -/
  | handling (c : Conn) (read pk : Packet)
  /-- `s.conn.WritePacket(pk)` -/
  | writing (c : Conn) (read pk : Packet)
  | exited

/-- The body of `Close`. -/
inductive CloseState where
  | unstarted
  /-- `s.transferring.CompareAndSwap(true, false)` -/
  | comparing
  /-- `s.postTransfer.Store(false)` -/
  | clearing
  /-- the `transferMu` section of `completeTransfer` -/
  | taking
  /-- `done(err)` -/
  | running (done : Option TransferID)
  /-- `s.handler().HandleQuit()` -/
  | quitting
  /-- `s.Handle(NopHandler{})` -/
  | unhandling
  /-- `s.bus.Publish(event.TopicPlayerQuit, …)` -/
  | publishing
  /-- `s.store.Delete(s)` -/
  | deleting
  /-- `s.conn.Close()` -/
  | closingClient
  /-- `if s.serverConn != nil` … `Close()` -/
  | closingServer
  /-- `if s.tempServerConn != nil` … `Close()` -/
  | closingTemp
  /-- `if s.server != nil` … `DecrementPlayerCount()` -/
  | decrementing
  | done
  deriving DecidableEq

/-- The requests that take a session from the store and use it. -/
inductive Request where
  | findPlayer
  | listPlayers
  | transferRequest (target : Server)
  | adminTransfer (target : Server)
  deriving DecidableEq

/-- A request, at the statement it executes next. -/
inductive RequestState where
  | unstarted
  /-- the `waitForLogin` of `s.Conn()` -/
  | connecting (r : Request)
  /-- the `waitForLogin` of `s.Server()` -/
  | awaiting (r : Request)
  /-- the read of `s.Server()` and its `Name()` or `Address()` -/
  | reading (r : Request)
  /-- `s.Transfer(target)` -/
  | calling (target : Server)
  | done
  deriving DecidableEq

/-! ## The session -/

/-- The sets the server->client loop keeps of what the client was shown. -/
structure Tracked where
  entities : Finset Int64
  playerList : Finset Nat
  effects : Finset Int32
  bossBars : Finset Int64
  scoreboards : Finset String

def Tracked.empty : Tracked := ⟨∅, ∅, ∅, ∅, ∅⟩

structure Session where
  translator : Option Translator
  server : Option Server
  serverConn : Option Conn
  tempServerConn : Option Conn
  pendingServer : Option Server
  /-- The transfer whose timer `transferConfirmTimer` points to. -/
  transferConfirmTimer : Option TransferID
  /-- The transfer whose publish callback `transferDone` holds. -/
  transferDone : Option TransferID
  tracked : Tracked
  transferring : Bool
  postTransfer : Bool
  dead : Bool
  /-- `loginMu` is held by the login goroutine. -/
  loginMu : Bool
  new : NewState
  login : LoginState
  calls : TransferID → Option Call
  timers : TransferID → TimerState
  client : ClientState
  serverLoop : ServerState
  close : CloseState
  requests : Nat → RequestState
  /-- The session is in the store. -/
  stored : Bool
  /-- The `ChangeDimension` packets sent to the client whose acknowledgement the
  client loop has not read yet, oldest first. -/
  unacked : List Sender
  /-- The backend connections closed so far, and by which code. -/
  closed : List (Closer × Dialer)
  /-- The connections `finishTransferDimensionChange` switched to, in order. -/
  switches : List Conn
  /-- The connections `HandleServerDisconnect` was called for, in order. -/
  disconnects : List Conn
  bus : List BusEvent
  /-- A nil pointer was dereferenced. -/
  panicked : Bool

namespace Session

/-- A session at the start of `session.New`. -/
def initial : Session where
  translator := none
  server := none
  serverConn := none
  tempServerConn := none
  pendingServer := none
  transferConfirmTimer := none
  transferDone := none
  tracked := .empty
  transferring := false
  postTransfer := false
  dead := false
  loginMu := false
  new := .storing
  login := .unstarted
  calls := fun _ => none
  timers := fun _ => .unarmed
  client := .unstarted
  serverLoop := .unstarted
  close := .unstarted
  requests := fun _ => .unstarted
  stored := false
  unacked := []
  closed := []
  switches := []
  disconnects := []
  bus := []
  panicked := false

/-- A nil dereference: nothing else changes. -/
def panic (s : Session) : Session := { s with panicked := true }

/-- The client loop stands between the lock and the unlock of
`finishTransferDimensionChange`. -/
def serverMuHeld (s : Session) : Bool := s.client.finishing.isSome

/-- The publish callback taken out of `transferDone`, run with outcome `o`. -/
def publishTransfer (done : Option TransferID) (o : Outcome) : List BusEvent :=
  match done with
  | none => []
  | some i => [.transfer i o]

end Session

end Portal
