/-
# Control.Requests — the requests of backends and their answers

The four handlers of the socket server that only ask and answer: transfers, player infos, the
server list and the search for a player.  They run in the goroutine of their connection,
which dispatches a packet and handles it before it reads the next.  The machine is that of all
connections (`Socket.Server`), with these handlers as programs in place of its one step
`serving`, beside sessions that change as they like.

`requests_answered`: on every connection, in every run, the requests that were dispatched are
answered in the order they were read, each with exactly one packet, or the proxy has
panicked; and what an answer says was so at some moment while the request was handled.
-/
import Mathlib.Data.List.Forall2
import Portal.Control.Operation
import Portal.Socket.Server

namespace Portal.Control

open Portal.Socket Portal.Theory Portal.Theory.Dialogue Portal.Theory.History
open Portal.Theory.Transition Hearing

set_option autoImplicit false

/-! ## The handlers -/

/-- What `IdentityData()` and `RemoteAddr()` of a player's connection say. -/
structure Identities where
  xuid : StoredSession → String
  remoteAddr : StoredSession → String

/-- Write the answer of a handler, and return what `WritePacket` returns. -/
def respond (pk : Wire.Packet) : Program Ending := do
  let err ← ask (.write pk)
  pure (.returned err)

namespace TransferRequestHandler

def success : UInt8 := 0
def serverNotFound : UInt8 := 1
def alreadyOnServer : UInt8 := 2
def playerNotFound : UInt8 := 3

def response (pk : TransferRequest) (status : UInt8) (error : String) : Wire.Packet :=
  ⟨.transferResponse, ⟨pk.playerUUID, status, error⟩⟩

def handle (pk : TransferRequest) : Program Ending := do
  match ← ask (.server pk.server) with
  | none => respond (response pk serverNotFound "")
  | some targetSrv =>
      match ← ask (.load pk.playerUUID) with
      | none => respond (response pk playerNotFound "")
      | some s =>
          match ← ask (.serverOf s) with
          | none => pure .panicked
          | some srv =>
              if srv.address = targetSrv.address then respond (response pk alreadyOnServer "")
              else
                match ← ask (.transfer s targetSrv) with
                | some err => respond (response pk transferResponseError err)
                | none => respond (response pk success "")

end TransferRequestHandler

namespace PlayerInfoRequestHandler

def success : UInt8 := 0
def playerNotFound : UInt8 := 1

def response (pk : PlayerInfoRequest) (status : UInt8) (xuid address : String) : Wire.Packet :=
  ⟨.playerInfoResponse, ⟨pk.playerUUID, status, xuid, address⟩⟩

def handle (ids : Identities) (pk : PlayerInfoRequest) : Program Ending := do
  match ← ask (.load pk.playerUUID) with
  | none => respond (response pk playerNotFound "" "")
  | some s =>
      ask (.conn s)
      ask (.conn s)
      respond (response pk success (ids.xuid s) (ids.remoteAddr s))

end PlayerInfoRequestHandler

namespace FindPlayerRequestHandler

def offline (pk : FindPlayerRequest) : Wire.Packet :=
  ⟨.findPlayerResponse, ⟨pk.playerUUID, pk.playerName, false, "", ""⟩⟩

/-- The search in the store. -/
def search (pk : FindPlayerRequest) : Program (Option StoredSession) := do
  match ← ask (.load pk.playerUUID) with
  | some s => pure (some s)
  | none => ask (.loadFromName pk.playerName)

/-- `cluster`: a cluster backend is set. -/
def handle (cluster : Bool) (pk : FindPlayerRequest) : Program Ending := do
  match ← search pk with
  | some s =>
      ask (.conn s)
      match ← ask (.serverOf s) with
      | none => pure .panicked
      | some srv =>
          respond ⟨.findPlayerResponse, ⟨s.uuid, s.displayName, true, srv.name, ""⟩⟩
  | none =>
      if cluster && pk.playerName ≠ "" then
        match ← ask (.lookup pk.playerName) with
        | .ok (some (proxyID, serverName)) =>
            respond ⟨.findPlayerResponse,
              ⟨pk.playerUUID, pk.playerName, true, serverName, proxyID⟩⟩
        | _ => respond (offline pk)
      else respond (offline pk)

end FindPlayerRequestHandler

namespace ServerListRequestHandler

def entry (srv : Server) : Program ServerEntry := do
  let n ← ask (.playerCount srv)
  pure ⟨srv.name, .ofInt n⟩

def handle : Program Ending := do
  let servers ← ask .servers
  let entries ← servers.mapM entry
  respond ⟨.serverListResponse, ⟨entries⟩⟩

end ServerListRequestHandler

/-- What the handlers are configured with. -/
structure Setup where
  cfg : Config
  ids : Identities
  /-- a cluster backend is set -/
  cluster : Bool

/-- The handlers that only ask and answer. -/
def serve (setup : Setup) : Wire.Packet → Program Ending
  | ⟨.transferRequest, pk⟩ => TransferRequestHandler.handle pk
  | ⟨.playerInfoRequest, pk⟩ => PlayerInfoRequestHandler.handle setup.ids pk
  | ⟨.serverListRequest, _⟩ => ServerListRequestHandler.handle
  | ⟨.findPlayerRequest, pk⟩ => FindPlayerRequestHandler.handle setup.cluster pk
  | _ => pure (.returned none)

/-- The packets with a handler that only asks and answers. -/
def isRequest (pk : Wire.Packet) : Bool :=
  match pk.1 with
  | .transferRequest | .playerInfoRequest | .serverListRequest | .findPlayerRequest => true
  | _ => false

/-! ## The machine -/

/-- What sessions are, besides the socket server. -/
structure Sessions where
  store : Store
  serverOf : StoredSession → Option Server
  loggingIn : StoredSession → Bool

structure Office where
  server : DefaultServer
  sessions : Sessions
  /-- The request a connection handles, and what is left of its handler. -/
  hand : ClientID → Option (Wire.Packet × Program Ending)
  /-- A handler has panicked, and the process is gone. -/
  crashed : Bool

inductive Deed where
  /-- anything but the handlers of requests -/
  | socket (a : Socket.Action)
  /-- the next call of a handler returns -/
  | call (c : ClientID) (q : Operation) (answer : q.Answer)
  /-- a handler returns, or panics -/
  | finish (c : ClientID)
  /-- the sessions change -/
  | others (sessions : Sessions)

/-- The request whose handler begins between two statements. -/
def begun : ConnState → ConnState → Option Wire.Packet
  | .dispatching pk, .serving _ => some pk
  | _, _ => none

namespace Office

variable (setup : Setup)

def initial : Office where
  server := .initial
  sessions := ⟨.newDefault, fun _ => none, fun _ => false⟩
  hand := fun _ => none
  crashed := false

/-- What a handler can see. -/
def world (o : Office) : World where
  registry := o.server.shared.registry
  draining := o.server.shared.draining
  healthy := o.server.shared.healthy
  playerCount := o.server.shared.playerCount
  store := o.sessions.store
  serverOf := o.sessions.serverOf
  loggingIn := o.sessions.loggingIn

/-- The request whose handler begins with this step of a connection. -/
def begins (o : Office) (c : ClientID) (after : DefaultServer) : Option Wire.Packet :=
  match o.server.conns c, after.conns c with
  | some conn, some conn' => begun conn.state conn'.state
  | _, _ => none

def next (o : Office) : Deed → Option Office
  | .socket a =>
      if o.crashed then none
      else
        match a with
        | .step c input =>
            match o.hand c with
            | some _ => none
            | none =>
                (o.server.next setup.cfg (.step c input)).map fun server =>
                  { o with
                    server := server
                    hand := Function.update o.hand c
                      ((o.begins c server).map fun pk => (pk, serve setup pk)) }
        | a => (o.server.next setup.cfg a).map fun server => { o with server := server }
  | .call c q answer =>
      match o.crashed, o.hand c with
      | false, some (pk, .ask q' k) =>
          if same : q = q' then
            some { o with hand := Function.update o.hand c (some (pk, k (same ▸ answer))) }
          else none
      | _, _ => none
  | .finish c =>
      match o.crashed, o.hand c with
      | false, some (_, .pure .panicked) =>
          some { o with hand := Function.update o.hand c none, crashed := true }
      | false, some (_, .pure (.returned _)) =>
          (o.server.next setup.cfg (.step c .go)).map fun server =>
            { o with server := server, hand := Function.update o.hand c none }
      | _, _ => none
  | .others sessions => if o.crashed then none else some { o with sessions := sessions }

def machine : Machine Office Deed where
  start := initial
  next := next setup

/-- A call returns what it can return at this moment. -/
def Truthful (o : Office) : Deed → Prop
  | .call _ q answer => o.world.Returns setup.cfg.lib q answer
  | _ => True

/-- What happens on one connection. -/
def entries (c : ClientID) (o : Office) :
    Deed → List (Entry Wire.Packet World Operation Operation.Answer Ending)
  | .socket (.step c' input) =>
      if c' = c then
        match (o.server.next setup.cfg (.step c input)).bind (o.begins c) with
        | some pk => [.took pk]
        | none => []
      else []
  | .call c' q answer => if c' = c then [.heard ⟨o.world, q, answer⟩] else []
  | .finish c' =>
      if c' = c then
        match o.hand c with
        | some (pk, .pure ending) => [.settled pk ending]
        | _ => []
      else []
  | _ => []

end Office

/-! ## What an answer says -/

section Answers

variable {lib : Library}

/-- The answer was written once, and is all that was written. -/
theorem always_respond {pk : Wire.Packet} {P : Hearing → Ending → Prop}
    (written : ∀ w err, P [⟨w, .write pk, err⟩] (.returned err)) :
    (respond pk).Always (World.Returns lib) P :=
  fun w err _ => written w err

/-- What the answer to a `TransferRequest` says.  `Transfer` is called once at most, and only
if the server and the player were found and the player was on a server of another address. -/
def TransferRequestHandler.Answers (lib : Library) (pk : TransferRequest) (hearing : Hearing) :
    Ending → Prop
  | .panicked =>
      hearing.writes = [] ∧ hearing.transfers = [] ∧
        ∃ s, hearing.Saw (fun w => w.store.load pk.playerUUID = some s) ∧
          hearing.Saw fun w => w.serverOf s = none
  | .returned _ =>
      ∃ status error, hearing.writes = [response pk status error] ∧
        ((status = serverNotFound ∧ error = "" ∧ hearing.transfers = [] ∧
            hearing.Saw fun w => w.registry.server lib pk.server = none) ∨
          ∃ targetSrv, hearing.Saw (fun w => w.registry.server lib pk.server = some targetSrv) ∧
            ((status = playerNotFound ∧ error = "" ∧ hearing.transfers = [] ∧
                hearing.Saw fun w => w.store.load pk.playerUUID = none) ∨
              ∃ s srv, hearing.Saw (fun w => w.store.load pk.playerUUID = some s) ∧
                hearing.Saw (fun w => w.serverOf s = some srv) ∧
                ((status = alreadyOnServer ∧ error = "" ∧ hearing.transfers = [] ∧
                    srv.address = targetSrv.address) ∨
                  srv.address ≠ targetSrv.address ∧
                    ((status = success ∧ error = "" ∧
                        hearing.transfers = [(s, targetSrv, none)]) ∨
                      (status = transferResponseError ∧
                        hearing.transfers = [(s, targetSrv, some error)])))))

theorem TransferRequestHandler.handle_answers (pk : TransferRequest) :
    (handle pk).Always (World.Returns lib) (Answers lib pk) := by
  refine Query.always_load fun w₁ found target => ?_
  cases found with
  | none =>
      refine always_respond fun w err => ⟨_, _, rfl, .inl ⟨rfl, rfl, rfl, ?_⟩⟩
      exact saw_here target.symm
  | some targetSrv =>
      refine Query.always_load fun w₂ found player => ?_
      cases found with
      | none =>
          refine always_respond fun w err => ⟨_, _, rfl, .inr ⟨targetSrv, saw_here target.symm, ?_⟩⟩
          exact .inl ⟨rfl, rfl, rfl, (saw_here player.symm).later⟩
      | some s =>
          refine Query.always_load fun w₃ found ⟨_, current⟩ => ?_
          cases found with
          | none =>
              exact ⟨rfl, rfl, s, (saw_here player.symm).later, (saw_here current.symm).later.later⟩
          | some srv =>
              by_cases same : srv.address = targetSrv.address
              · simp only [if_pos same]
                refine always_respond fun w err =>
                  ⟨_, _, rfl, .inr ⟨targetSrv, saw_here target.symm, .inr ⟨s, srv, ?_⟩⟩⟩
                exact ⟨(saw_here player.symm).later, (saw_here current.symm).later.later,
                  .inl ⟨rfl, rfl, rfl, same⟩⟩
              · simp only [if_neg same]
                refine Query.always_load fun w₄ outcome _ => ?_
                cases outcome with
                | some error =>
                    refine always_respond fun w err =>
                      ⟨_, _, rfl, .inr ⟨targetSrv, saw_here target.symm, .inr ⟨s, srv, ?_⟩⟩⟩
                    exact ⟨(saw_here player.symm).later, (saw_here current.symm).later.later,
                      .inr ⟨same, .inr ⟨rfl, rfl⟩⟩⟩
                | none =>
                    refine always_respond fun w err =>
                      ⟨_, _, rfl, .inr ⟨targetSrv, saw_here target.symm, .inr ⟨s, srv, ?_⟩⟩⟩
                    exact ⟨(saw_here player.symm).later, (saw_here current.symm).later.later,
                      .inr ⟨same, .inl ⟨rfl, rfl, rfl⟩⟩⟩

/-- What the answer to a `PlayerInfoRequest` says. -/
def PlayerInfoRequestHandler.Answers (ids : Identities) (pk : PlayerInfoRequest)
    (hearing : Hearing) : Ending → Prop
  | .panicked => False
  | .returned _ =>
      (hearing.writes = [response pk playerNotFound "" ""] ∧
        hearing.Saw fun w => w.store.load pk.playerUUID = none) ∨
      ∃ s, hearing.writes = [response pk success (ids.xuid s) (ids.remoteAddr s)] ∧
        hearing.Saw (fun w => w.store.load pk.playerUUID = some s) ∧
        hearing.Saw fun w => w.loggingIn s = false

theorem PlayerInfoRequestHandler.handle_answers (ids : Identities) (pk : PlayerInfoRequest) :
    (handle ids pk).Always (World.Returns lib) (Answers ids pk) := by
  refine Query.always_load fun w₁ found player => ?_
  cases found with
  | none => exact always_respond fun w err => .inl ⟨rfl, saw_here player.symm⟩
  | some s =>
      refine Query.always_load fun w₂ _ over_ => ?_
      refine Query.always_load fun w₃ _ _ => ?_
      exact always_respond fun w err => .inr ⟨s, rfl, saw_here player.symm, (saw_here over_).later⟩

/-- The store had this session under the UUID, or else under the name. -/
def FindPlayerRequestHandler.Found (lib : Library) (pk : FindPlayerRequest) (hearing : Hearing)
    (s : StoredSession) : Prop :=
  hearing.Saw (fun w => w.store.load pk.playerUUID = some s) ∨
    hearing.Saw (fun w => w.store.load pk.playerUUID = none) ∧
      hearing.Saw fun w => w.store.loadFromName lib pk.playerName = some s

/-- What the answer to a `FindPlayerRequest` says.  The cluster is asked only about players
with a name that are not on this proxy. -/
def FindPlayerRequestHandler.Answers (lib : Library) (cluster : Bool) (pk : FindPlayerRequest)
    (hearing : Hearing) : Ending → Prop
  | .panicked =>
      hearing.writes = [] ∧ ∃ s, Found lib pk hearing s ∧ hearing.Saw fun w => w.serverOf s = none
  | .returned _ =>
      (∃ s srv, Found lib pk hearing s ∧ hearing.Saw (fun w => w.serverOf s = some srv) ∧
        hearing.writes =
          [⟨.findPlayerResponse, ⟨s.uuid, s.displayName, true, srv.name, ""⟩⟩] ∧
        hearing.lookups = []) ∨
      hearing.Saw (fun w => w.store.load pk.playerUUID = none) ∧
        hearing.Saw (fun w => w.store.loadFromName lib pk.playerName = none) ∧
        ((hearing.writes = [offline pk] ∧ (cluster = false ∨ pk.playerName = "") ∧
            hearing.lookups = []) ∨
          cluster = true ∧ pk.playerName ≠ "" ∧ ∃ found, hearing.lookups = [(pk.playerName, found)] ∧
            ((hearing.writes = [offline pk] ∧ ∀ at_, found ≠ .ok (some at_)) ∨
              ∃ proxyID serverName, found = .ok (some (proxyID, serverName)) ∧
                hearing.writes = [⟨.findPlayerResponse,
                  ⟨pk.playerUUID, pk.playerName, true, serverName, proxyID⟩⟩]))

/-- What the search in the store has found. -/
def FindPlayerRequestHandler.Searched (lib : Library) (pk : FindPlayerRequest)
    (hearing : Hearing) : Option StoredSession → Prop
  | some s => Found lib pk hearing s
  | none => hearing.Saw (fun w => w.store.load pk.playerUUID = none) ∧
      hearing.Saw fun w => w.store.loadFromName lib pk.playerName = none

theorem FindPlayerRequestHandler.search_searched (pk : FindPlayerRequest) :
    (search pk).Always (World.Returns lib) fun (hearing : Hearing) found =>
      hearing.writes = [] ∧ hearing.lookups = [] ∧ Searched lib pk hearing found := by
  refine Query.always_load fun w₁ found player => ?_
  cases found with
  | some s => exact ⟨rfl, rfl, .inl (saw_here player.symm)⟩
  | none =>
      intro w₂ found named
      refine ⟨rfl, rfl, ?_⟩
      cases found with
      | some s => exact .inr ⟨saw_here player.symm, (saw_here named.symm).later⟩
      | none => exact ⟨saw_here player.symm, (saw_here named.symm).later⟩

theorem FindPlayerRequestHandler.Found.append {pk : FindPlayerRequest} {hearing : Hearing}
    {s : StoredSession} (found : Found lib pk hearing s) (more : Hearing) :
    Found lib pk (hearing ++ more) s :=
  found.imp (·.mono (List.subset_append_left ..)) fun ⟨unknown, named⟩ =>
    ⟨unknown.mono (List.subset_append_left ..), named.mono (List.subset_append_left ..)⟩

theorem FindPlayerRequestHandler.handle_answers (cluster : Bool) (pk : FindPlayerRequest) :
    (handle cluster pk).Always (World.Returns lib) (Answers lib cluster pk) := by
  refine Query.always_bind (Query.Always.mono (search_searched pk) ?_)
  rintro hearing found ⟨writes, lookups, searched⟩
  cases found with
  | some s =>
      refine Query.always_load fun w₁ _ _ => ?_
      refine Query.always_load fun w₂ current ⟨_, server⟩ => ?_
      cases current with
      | none =>
          refine ⟨by simp [Hearing.writes_append, writes]; rfl, s, searched.append _, ?_⟩
          exact (saw_here server.symm).later.mono (List.subset_append_right ..)
      | some srv =>
          refine always_respond fun w err => .inl ⟨s, srv, searched.append _, ?_, ?_, ?_⟩
          · exact (saw_here server.symm).later.mono (List.subset_append_right ..)
          · rw [Hearing.writes_append, writes]
            rfl
          · rw [Hearing.lookups_append, lookups]
            rfl
  | none =>
      have store : ∀ more : Hearing,
          Saw (hearing ++ more) (fun w => w.store.load pk.playerUUID = none) ∧
            Saw (hearing ++ more) fun w => w.store.loadFromName lib pk.playerName = none :=
        fun more => ⟨searched.1.mono (List.subset_append_left ..),
          searched.2.mono (List.subset_append_left ..)⟩
      by_cases asks : (cluster && pk.playerName ≠ "") = true
      · have asked : cluster = true ∧ pk.playerName ≠ "" := by simpa using asks
        simp only [if_pos asks]
        refine Query.always_load fun w₁ found _ => ?_
        -- one lookup and one answer, whatever was found
        have told (pk' : Wire.Packet) (w : World) (err : Option String) :
            let hearing' : Hearing :=
              hearing ++ [⟨w₁, .lookup pk.playerName, found⟩, ⟨w, .write pk', err⟩]
            hearing'.writes = [pk'] ∧ hearing'.lookups = [(pk.playerName, found)] := by
          constructor
          · exact (Hearing.writes_append ..).trans (by rw [writes]; rfl)
          · exact (Hearing.lookups_append ..).trans (by rw [lookups]; rfl)
        match found with
        | .error _ | .ok none =>
            refine always_respond fun w err => .inr ⟨(store _).1, (store _).2, .inr ?_⟩
            obtain ⟨written, looked⟩ := told (offline pk) w err
            exact ⟨asked.1, asked.2, _, looked, .inl ⟨written, by simp⟩⟩
        | .ok (some (proxyID, serverName)) =>
            refine always_respond fun w err => .inr ⟨(store _).1, (store _).2, .inr ?_⟩
            obtain ⟨written, looked⟩ := told _ w err
            exact ⟨asked.1, asked.2, _, looked, .inr ⟨proxyID, serverName, rfl, written⟩⟩
      · simp only [if_neg asks]
        refine always_respond fun w err => .inr ⟨(store _).1, (store _).2, .inl ⟨?_, ?_, ?_⟩⟩
        · rw [Hearing.writes_append, writes]
          rfl
        · by_cases named : pk.playerName = ""
          · exact .inr named
          · exact .inl (by simpa [named] using asks)
        · rw [Hearing.lookups_append, lookups]
          rfl

/-- The entries name the servers, each with a count it had. -/
theorem ServerListRequestHandler.entries_true (servers : List Server) :
    (servers.mapM entry).Always (World.Returns lib) fun (hearing : Hearing) entries =>
      hearing.writes = [] ∧ List.Forall₂ (fun srv (e : ServerEntry) => e.name = srv.name ∧
        hearing.Saw fun w => e.playerCount = .ofInt (w.playerCount srv)) servers entries := by
  have each (srv : Server) : (entry srv).Always (World.Returns lib)
      fun (hearing : Hearing) e => (∀ heard ∈ hearing, written heard = none) ∧
        e.name = srv.name ∧ hearing.Saw fun w => e.playerCount = .ofInt (w.playerCount srv) := by
    intro w n count
    refine ⟨?_, rfl, saw_here (congrArg Int64.ofInt count)⟩
    simp [written]
  refine (Query.always_mapM ?_ each servers).mono ?_
  · rintro hearing hearing' srv e more ⟨named, saw⟩
    exact ⟨named, saw.mono more⟩
  · rintro hearing entries ⟨quiet, counts⟩
    exact ⟨List.filterMap_eq_nil_iff.mpr quiet, counts⟩

/-- What the answer to a `ServerListRequest` says: the servers are those of one moment, and
each count is of a moment of its own. -/
def ServerListRequestHandler.Answers (hearing : Hearing) : Ending → Prop
  | .panicked => False
  | .returned _ =>
      ∃ servers entries, hearing.writes = [⟨.serverListResponse, ⟨entries⟩⟩] ∧
        hearing.Saw (fun w => Enumerates w.registry servers) ∧
        List.Forall₂ (fun srv (e : ServerEntry) => e.name = srv.name ∧
          hearing.Saw fun w => e.playerCount = .ofInt (w.playerCount srv)) servers entries

theorem ServerListRequestHandler.handle_answers :
    handle.Always (World.Returns lib) Answers := by
  refine Query.always_load fun w servers listed => ?_
  refine Query.always_bind (Query.Always.mono (entries_true servers) ?_)
  rintro hearing entries ⟨writes, counts⟩
  refine always_respond fun w err => ⟨servers, entries, ?_, saw_here listed, ?_⟩
  · show Hearing.writes (hearing ++ _) = _
    rw [Hearing.writes_append, writes]
    rfl
  · refine counts.imp fun srv e ⟨named, saw⟩ => ⟨named, ?_⟩
    exact (saw.mono (List.subset_append_left ..)).later

/-- What the answer to a request says. -/
def Answered (setup : Setup) : Wire.Packet → Hearing → Ending → Prop
  | ⟨.transferRequest, pk⟩ => TransferRequestHandler.Answers setup.cfg.lib pk
  | ⟨.playerInfoRequest, pk⟩ => PlayerInfoRequestHandler.Answers setup.ids pk
  | ⟨.serverListRequest, _⟩ => ServerListRequestHandler.Answers
  | ⟨.findPlayerRequest, pk⟩ => FindPlayerRequestHandler.Answers setup.cfg.lib setup.cluster pk
  | _ => fun _ _ => True

/-- One packet answers a request, and none if its handler panics. -/
def Ending.answers : Ending → Nat
  | .returned _ => 1
  | .panicked => 0

theorem Answered.once {setup : Setup} {pk : Wire.Packet} {hearing : Hearing} {ending : Ending}
    (answered : Answered setup pk hearing ending) (request : isRequest pk = true) :
    hearing.writes.length = ending.answers := by
  obtain ⟨k, pk⟩ := pk
  cases k with
  | transferRequest =>
      cases ending with
      | panicked => rw [answered.1]; rfl
      | returned err =>
          obtain ⟨status, error, writes, -⟩ := answered
          rw [writes]
          rfl
  | playerInfoRequest =>
      cases ending with
      | panicked => exact answered.elim
      | returned err =>
          obtain ⟨writes, -⟩ | ⟨s, writes, -⟩ := answered
          · rw [writes]; rfl
          · rw [writes]; rfl
  | serverListRequest =>
      cases ending with
      | panicked => exact answered.elim
      | returned err =>
          obtain ⟨servers, entries, writes, -⟩ := answered
          rw [writes]
          rfl
  | findPlayerRequest =>
      cases ending with
      | panicked => rw [answered.1]; rfl
      | returned err =>
          obtain ⟨s, srv, -, -, writes, -⟩ | ⟨-, -, rest⟩ := answered
          · rw [writes]; rfl
          · obtain ⟨writes, -⟩ | ⟨-, -, found, -, ⟨writes, -⟩ | ⟨_, _, -, writes⟩⟩ := rest
            · rw [writes]; rfl
            · rw [writes]; rfl
            · rw [writes]; rfl
  | _ => cases request

theorem serve_answered (setup : Setup) (pk : Wire.Packet) :
    (serve setup pk).Always (World.Returns setup.cfg.lib) (Answered setup pk) := by
  obtain ⟨k, pk⟩ := pk
  cases k with
  | transferRequest => exact TransferRequestHandler.handle_answers pk
  | playerInfoRequest => exact PlayerInfoRequestHandler.handle_answers setup.ids pk
  | serverListRequest => exact ServerListRequestHandler.handle_answers
  | findPlayerRequest => exact FindPlayerRequestHandler.handle_answers setup.cluster pk
  | _ => trivial

end Answers

/-! ## Which packets are requests -/

/-- The packets that only an authenticated client may send. -/
def needsAuth (pk : Wire.Packet) : Bool := handlers pk.1 == some true

/-- The packet that was read and is not yet dispatched. -/
def undispatched : ConnState → List Wire.Packet
  | .dispatching pk => [pk]
  | _ => []

def isServing : ConnState → Bool
  | .serving _ => true
  | _ => false

/-- How often the client was told that it is not authenticated. -/
def refusals (conn : Connection) : Nat :=
  (conn.sent.filter (· = ⟨0, AuthStatus.unauthenticated.byte⟩)).length

/-- What a statement does with the packets of its connection. -/
inductive Dispatch (conn conn' : Connection) : Prop
  | read (pk : Wire.Packet) (at_ : conn.state = .reading)
      (after : conn' =
        { conn with received := conn.received ++ [pk], state := .dispatching pk })
  | ignored (pk : Wire.Packet) (at_ : conn.state = .dispatching pk) (unknown : handlers pk.1 = none)
      (after : conn' = conn.goto .checking)
  | refused (pk : Wire.Packet) (at_ : conn.state = .dispatching pk)
      (needs : handlers pk.1 = some true) (unauthenticated : conn.client.authenticated = false)
      (after : conn' = conn.reply .unauthenticated)
  | handled (pk : Wire.Packet) (requiresAuth : Bool) (at_ : conn.state = .dispatching pk)
      (known : handlers pk.1 = some requiresAuth)
      (may : requiresAuth = true → conn.client.authenticated = true)
      (after : conn' = conn.goto (.handle pk))
  | other (before : undispatched conn.state = []) (after : undispatched conn'.state = [])
      (received : conn'.received = conn.received) (refusals : refusals conn' = refusals conn)
      (authenticated : conn.client.authenticated = true → conn'.client.authenticated = true)
      (serves : isServing conn'.state = false)

theorem step_dispatch {cfg : Config} {sh sh' : Shared} {c : ClientID} {input : Socket.Input}
    {conn conn' : Connection}
    (taken : conn.step cfg sh c input conn.state = some (sh', conn')) : Dispatch conn conn' := by
  cases at_ : conn.state with
  | reading =>
      simp only [at_, Connection.step] at taken
      split at taken
      · cases taken
        exact .read _ at_ rfl
      · split at taken
        · cases taken
          exact .other (by rw [at_]; rfl) rfl rfl rfl id rfl
        · split at taken <;> cases taken
          · exact .other (by rw [at_]; rfl) rfl rfl rfl id rfl
          · exact .other (by rw [at_]; rfl) rfl rfl rfl id rfl
      · cases taken
  | dispatching pk =>
      simp only [at_, Connection.step] at taken
      split at taken
      · cases taken
        exact .ignored pk at_ ‹_› rfl
      · rename_i requiresAuth known
        split at taken <;> cases taken
        · rename_i refused
          simp only [Bool.and_eq_true, Bool.not_eq_true'] at refused
          exact .refused pk at_ (refused.2 ▸ known) refused.1 rfl
        · rename_i admitted
          refine .handled pk requiresAuth at_ known (fun required => ?_) rfl
          simpa [required] using admitted
  | claiming pk =>
      simp only [at_, Connection.step] at taken
      split at taken <;> cases taken
      · refine .other (by rw [at_]; rfl) rfl rfl ?_ id rfl
        simp [refusals, Connection.reply, AuthStatus.byte]
      · refine .other (by rw [at_]; rfl) rfl rfl ?_ (fun already => ?_) rfl
        · simp [refusals, Connection.reply, AuthStatus.byte]
        · simp [Client.authenticate, already]
  | cleaning =>
      simp only [at_, Connection.step] at taken
      cases taken
      refine .other (by rw [at_]; rfl) ?_ rfl rfl id ?_
      · simp only [Connection.goto]
        split <;> rfl
      · simp only [Connection.goto]
        split <;> rfl
  | _ =>
      simp only [at_, Connection.step] at taken
      (repeat' split at taken) <;> cases taken
      all_goals
        refine .other (by rw [at_]; rfl) rfl rfl ?_ id rfl
        simp [refusals, Connection.reply, Connection.goto, AuthStatus.byte]

/-- The packets dispatched so far are those of a client that was not authenticated, and then
those of one that was: of the first, each that needs it was refused once; of the second, the
requests are these. -/
def Parted (conn : Connection) (requests : List Wire.Packet) : Prop :=
  ∃ early late, conn.received = early ++ late ++ undispatched conn.state ∧
    refusals conn = (early.filter needsAuth).length ∧
    requests = late.filter isRequest ∧
    (conn.client.authenticated = false → late = [])

theorem parted_new : Parted .new [] := ⟨[], [], rfl, rfl, rfl, fun _ => rfl⟩

/-- Handlers of requests need an authenticated client. -/
theorem not_isRequest {pk : Wire.Packet} (free : handlers pk.1 ≠ some true) :
    isRequest pk = false := by
  obtain ⟨k, pk⟩ := pk
  cases k <;> first | rfl | exact absurd rfl free

/-- The handler of a packet that has one begins with `serving` if it is a request. -/
theorem begun_handle {pk : Wire.Packet} {requiresAuth : Bool}
    (known : handlers pk.1 = some requiresAuth) :
    (begun (.dispatching pk) (.handle pk)).toList = [pk].filter isRequest ∧
      isServing (.handle pk) = (begun (.dispatching pk) (.handle pk)).isSome ∧
      undispatched (.handle pk) = [] := by
  obtain ⟨k, pk⟩ := pk
  cases k <;> first | exact ⟨rfl, rfl, rfl⟩ | cases known

theorem begun_none {before after : ConnState} (serves : isServing after = false) :
    begun before after = none := by
  cases after with
  | serving k => cases serves
  | _ => cases before <;> rfl

variable {conn conn' : Connection} {asked : List Wire.Packet}

/-- A packet of an authenticated client is dispatched. -/
theorem Parted.late {pk : Wire.Packet} (parted : Parted conn asked)
    (at_ : conn.state = .dispatching pk) (authenticated : conn.client.authenticated = true)
    (client : conn'.client = conn.client) (received : conn'.received = conn.received)
    (sent : conn'.sent = conn.sent) (after : undispatched conn'.state = []) :
    Parted conn' (asked ++ [pk].filter isRequest) := by
  obtain ⟨early, late, split, refused, rfl, _⟩ := parted
  refine ⟨early, late ++ [pk], ?_, ?_, (List.filter_append ..).symm, ?_⟩
  · rw [received, split, at_, after]
    simp [undispatched]
  · simpa only [refusals, sent] using refused
  · rw [client, authenticated]
    rintro ⟨⟩

/-- A packet is dispatched that nobody, or nobody not authenticated, may have answered. -/
theorem Parted.early {pk : Wire.Packet} (parted : Parted conn asked)
    (at_ : conn.state = .dispatching pk) (unauthenticated : conn.client.authenticated = false)
    (received : conn'.received = conn.received) (after : undispatched conn'.state = [])
    (refused : refusals conn' = refusals conn + ([pk].filter needsAuth).length) :
    Parted conn' asked := by
  obtain ⟨early, late, split, before, rfl, none_⟩ := parted
  cases none_ unauthenticated
  refine ⟨early ++ [pk], [], ?_, ?_, rfl, fun _ => rfl⟩
  · rw [received, split, at_, after]
    simp [undispatched]
  · rw [refused, before, List.filter_append, List.length_append]

/-- **A statement** begins the handler of a request, or none. -/
theorem Parted.step (parted : Parted conn asked) (dispatch : Dispatch conn conn') :
    Parted conn' (asked ++ (begun conn.state conn'.state).toList) := by
  cases dispatch with
  | read pk at_ after =>
      obtain ⟨early, late, split, refused, rfl, none_⟩ := parted
      rw [at_] at split ⊢
      subst after
      refine ⟨early, late, ?_, refused, by simp [begun], none_⟩
      simp only [split, undispatched, List.append_nil]
  | ignored pk at_ unknown after =>
      subst after
      have plain : isRequest pk = false := not_isRequest (by simp [unknown])
      rw [begun_none rfl, Option.toList_none, List.append_nil]
      cases authenticated : conn.client.authenticated with
      | true =>
          have later : Parted (conn.goto .checking) (asked ++ [pk].filter isRequest) :=
            parted.late at_ authenticated rfl rfl rfl rfl
          simpa [plain] using later
      | false => exact parted.early at_ authenticated rfl rfl (by simp [needsAuth, unknown]; rfl)
  | refused pk at_ needs unauthenticated after =>
      subst after
      rw [begun_none rfl, Option.toList_none, List.append_nil]
      refine parted.early at_ unauthenticated rfl rfl ?_
      simp [needsAuth, needs, refusals, Connection.reply]
  | handled pk requiresAuth at_ known may after =>
      subst after
      obtain ⟨begins, -, over_⟩ := begun_handle known
      rw [at_]
      show Parted _ (asked ++ (begun (.dispatching pk) (.handle pk)).toList)
      rw [begins]
      cases authenticated : conn.client.authenticated with
      | true => exact parted.late at_ authenticated rfl rfl rfl over_
      | false =>
          have free : requiresAuth = false := by
            cases requiresAuth with
            | true => cases authenticated.symm.trans (may rfl)
            | false => rfl
          subst free
          have plain : isRequest pk = false := not_isRequest (by simp [known])
          have more : Parted (conn.goto (.handle pk)) asked :=
            parted.early at_ authenticated rfl over_ (by simp [needsAuth, known]; rfl)
          simpa [plain] using more
  | other before after received refusals authenticated serves =>
      obtain ⟨early, late, split, refused, rfl, none_⟩ := parted
      rw [begun_none serves]
      refine ⟨early, late, ?_, refusals.trans refused, by simp, fun unauthenticated => ?_⟩
      · rw [received, split, before, after]
      · apply none_
        cases known : conn.client.authenticated with
        | true => exact absurd (authenticated known) (by simp [unauthenticated])
        | false => rfl

/-- A handler of a request is at work exactly if it has begun. -/
theorem Dispatch.serves (dispatch : Dispatch conn conn') :
    isServing conn'.state = (begun conn.state conn'.state).isSome := by
  cases dispatch with
  | read pk at_ after =>
      subst after
      rw [begun_none rfl]
      rfl
  | ignored pk at_ unknown after =>
      subst after
      rw [begun_none rfl]
      rfl
  | refused pk at_ needs unauthenticated after =>
      subst after
      rw [begun_none rfl]
      rfl
  | handled pk requiresAuth at_ known may after =>
      subst after
      rw [at_]
      exact (begun_handle known).2.1
  | other before after received refusals authenticated serves =>
      rw [begun_none serves, serves]
      rfl

/-! ## Every run -/

namespace Office

variable {setup : Setup} {o o' : Office} {c : ClientID}
  {log : List (Entry Wire.Packet World Operation Operation.Answer Ending)}

/-- **The step rule.** -/
theorem next_elim {d : Deed} {motive : Prop} (taken : o.next setup d = some o')
    (socket : ∀ a server, d = .socket a → (∀ c input, a ≠ .step c input) →
      o.server.next setup.cfg a = some server → o' = { o with server := server } → motive)
    (step : ∀ c input server, d = .socket (.step c input) → o.hand c = none →
      o.crashed = false → o.server.next setup.cfg (.step c input) = some server →
      o' = { o with
        server := server
        hand := Function.update o.hand c
          ((o.begins c server).map fun pk => (pk, serve setup pk)) } → motive)
    (call : ∀ c pk q k answer, d = .call c q answer → o.hand c = some (pk, .ask q k) →
      o' = { o with hand := Function.update o.hand c (some (pk, k answer)) } → motive)
    (panic : ∀ c pk, d = .finish c → o.hand c = some (pk, .pure .panicked) →
      o' = { o with hand := Function.update o.hand c none, crashed := true } → motive)
    (finish : ∀ c pk err server, d = .finish c → o.hand c = some (pk, .pure (.returned err)) →
      o.crashed = false → o.server.next setup.cfg (.step c .go) = some server →
      o' = { o with server := server, hand := Function.update o.hand c none } → motive)
    (others : ∀ sessions, d = .others sessions → o' = { o with sessions := sessions } → motive) :
    motive := by
  cases d with
  | socket a =>
      simp only [next] at taken
      split at taken
      · cases taken
      rename_i running
      cases a with
      | step c input =>
          cases hand : o.hand c with
          | some busy => simp [hand] at taken
          | none =>
              simp only [hand, Option.map_eq_some_iff] at taken
              obtain ⟨server, stepped, rfl⟩ := taken
              exact step c input server rfl hand (by simpa using running) stepped rfl
      | _ =>
          simp only [Option.map_eq_some_iff] at taken
          obtain ⟨server, stepped, rfl⟩ := taken
          exact socket _ server rfl (by rintro c input ⟨⟩) stepped rfl
  | call c q answer =>
      simp only [next] at taken
      split at taken
      · rename_i pk q' k running hand
        split at taken
        · rename_i same
          subst same
          cases taken
          exact call c pk q k answer rfl hand rfl
        · cases taken
      · cases taken
  | finish c =>
      simp only [next] at taken
      split at taken
      · rename_i pk running hand
        cases taken
        exact panic c pk rfl hand rfl
      · rename_i pk err running hand
        simp only [Option.map_eq_some_iff] at taken
        obtain ⟨server, stepped, rfl⟩ := taken
        exact finish c pk err server rfl hand running stepped rfl
      · cases taken
  | others sessions =>
      simp only [next] at taken
      split at taken
      · cases taken
      · cases taken
        exact others sessions rfl rfl

/-- A step of one connection is one of its statements. -/
theorem step_conn {s s' : DefaultServer} {cfg : Config} {input : Socket.Input}
    (taken : s.next cfg (.step c input) = some s') :
    ∃ conn conn', s.conns c = some conn ∧ s'.conns = Function.update s.conns c (some conn') ∧
      Dispatch conn conn' := by
  simp only [DefaultServer.next] at taken
  split at taken
  · cases taken
  · rename_i conn found
    simp only [Option.map_eq_some_iff] at taken
    obtain ⟨⟨sh', conn'⟩, stepped, rfl⟩ := taken
    exact ⟨conn, conn', found, rfl, step_dispatch stepped⟩

/-- What holds of one connection, its handler and its log. -/
structure Attended (setup : Setup) (conn : Option Connection)
    (hand : Option (Wire.Packet × Program Ending)) (crashed : Bool)
    (log : List (Entry Wire.Packet World Operation Operation.Answer Ending)) : Prop where
  conversed : Conversed (World.Returns setup.cfg.lib) (Answered setup) log hand
  panicked : ∀ pk, (pk, Ending.panicked) ∈ results log → crashed = true
  absent : conn = none → log = [] ∧ hand = none
  busy : crashed = false → ∀ conn', conn = some conn' → isServing conn'.state = hand.isSome
  parted : ∀ conn', conn = some conn' → Parted conn' (requests log)

variable {conn conn' : Connection} {crashed : Bool} {pk : Wire.Packet}

theorem attended_new : Attended setup (some .new) none crashed [] where
  conversed := conversed_nil
  panicked := by rintro pk ⟨⟩
  absent := by rintro ⟨⟩
  busy := by
    rintro _ conn ⟨⟩
    rfl
  parted := by
    rintro conn ⟨⟩
    exact parted_new

/-- **A statement of the connection**, while it handles no request. -/
theorem Attended.step (attended : Attended setup (some conn) none crashed log)
    (dispatch : Dispatch conn conn') :
    Attended setup (some conn')
      ((begun conn.state conn'.state).map fun pk => (pk, serve setup pk)) crashed
      (log ++ ((begun conn.state conn'.state).map Entry.took).toList) := by
  have parted := (attended.parted conn rfl).step dispatch
  have serves := dispatch.serves
  cases begins : begun conn.state conn'.state with
  | none =>
      simp only [begins, Option.toList_none, List.append_nil] at parted serves
      simp only [Option.map_none, Option.toList_none, List.append_nil]
      refine ⟨attended.conversed, attended.panicked, by rintro ⟨⟩, ?_, ?_⟩
      · rintro _ _ ⟨⟩
        exact serves
      · rintro _ ⟨⟩
        exact parted
  | some pk =>
      rw [begins] at parted serves
      refine ⟨attended.conversed.take (serve_answered setup pk), ?_, by rintro ⟨⟩, ?_, ?_⟩
      · simpa [results_concat, Entry.result?] using attended.panicked
      · rintro _ _ ⟨⟩
        exact serves
      · rintro _ ⟨⟩
        simpa [requests_concat, Entry.request?] using parted

variable {found : Option Connection}

/-- **A call of the handler returns.** -/
theorem Attended.call {q : Operation} {k : q.Answer → Program Ending} {answer : q.Answer}
    {w : World} (attended : Attended setup found (some (pk, .ask q k)) crashed log)
    (returns : w.Returns setup.cfg.lib q answer) :
    Attended setup found (some (pk, k answer)) crashed (log ++ [.heard ⟨w, q, answer⟩]) where
  conversed := attended.conversed.hear returns
  panicked := by simpa [results_concat, Entry.result?] using attended.panicked
  absent := by
    intro gone
    cases (attended.absent gone).2
  busy := attended.busy
  parted := by simpa [requests_concat, Entry.request?] using attended.parted

/-- **The handler panics.** -/
theorem Attended.panic (attended : Attended setup found (some (pk, .pure .panicked)) crashed log) :
    Attended setup found none true (log ++ [.settled pk .panicked]) where
  conversed := attended.conversed.settle
  panicked := fun _ _ => rfl
  absent := by
    intro gone
    cases (attended.absent gone).2
  busy := by rintro ⟨⟩
  parted := by simpa [requests_concat, Entry.request?] using attended.parted

/-- The handler of another connection panics. -/
theorem Attended.crash {hand : Option (Wire.Packet × Program Ending)}
    (attended : Attended setup found hand crashed log) : Attended setup found hand true log :=
  { attended with
    panicked := fun _ _ => rfl
    busy := by rintro ⟨⟩ }

/-- **The handler returns**, and the connection goes on. -/
theorem Attended.finish {err : Option String}
    (attended : Attended setup (some conn) (some (pk, .pure (.returned err))) false log)
    (dispatch : Dispatch conn conn') :
    Attended setup (some conn') none false (log ++ [.settled pk (.returned err)]) := by
  have serving := attended.busy rfl conn rfl
  have quiet : begun conn.state conn'.state = none := by
    cases state : conn.state with
    | dispatching pk =>
        rw [state] at serving
        cases serving
    | _ => rfl
  have parted := (attended.parted conn rfl).step dispatch
  have serves := dispatch.serves
  rw [quiet] at parted serves
  refine ⟨attended.conversed.settle, ?_, by rintro ⟨⟩, ?_, ?_⟩
  · simpa [results_concat, Entry.result?] using attended.panicked
  · rintro _ _ ⟨⟩
    exact serves
  · rintro _ ⟨⟩
    simpa [requests_concat, Entry.request?] using parted

/-- **Every run.** -/
theorem attended
    (reached : ((machine setup).record (entries setup c)).Reach
      (fun p d => Truthful setup p.1 d) (o, log)) :
    Attended setup (o.server.conns c) (o.hand c) o.crashed log := by
  refine reached.invariant
    (I := fun p : Office × _ => Attended setup (p.1.server.conns c) (p.1.hand c) p.1.crashed p.2)
    ⟨conversed_nil, by rintro pk ⟨⟩, fun _ => ⟨rfl, rfl⟩, by rintro _ conn ⟨⟩, by rintro conn ⟨⟩⟩ ?_
  rintro ⟨o, log⟩ ⟨o', log'⟩ d _ before truthful taken
  obtain ⟨taken, rfl⟩ := Machine.record_next taken
  simp only at before taken ⊢
  refine next_elim taken ?socket ?step ?call ?panic ?finish ?others
  case socket =>
    rintro a server rfl free moved rfl
    have silent : entries setup c o (.socket a) = [] := by
      cases a with
      | step c' input => exact absurd rfl (free c' input)
      | _ => rfl
    rw [silent, List.append_nil]
    refine DefaultServer.next_elim moved ?_ ?_ ?_
    · rintro c' fresh rfl
      by_cases same : c' = c
      · subst same
        obtain ⟨rfl, idle⟩ := before.absent fresh
        simp only [Function.update_self, idle]
        exact attended_new
      · simpa only [Function.update_of_ne (Ne.symm same)] using before
    · rintro c' input _ _ _ rfl
      exact absurd rfl (free c' input)
    · intro same _
      simpa only [same] using before
  case step =>
    rintro c' input server rfl idle running moved rfl
    obtain ⟨conn, conn', found, after, dispatch⟩ := step_conn moved
    by_cases same : c' = c
    · subst same
      have now : server.conns c' = some conn' := by simp [after]
      have begins : o.begins c' server = begun conn.state conn'.state := by
        simp [Office.begins, found, now]
      have emitted : entries setup c' o (.socket (.step c' input)) =
          ((begun conn.state conn'.state).map Entry.took).toList := by
        simp only [entries, moved, if_pos, Option.bind_some, begins]
        cases begun conn.state conn'.state <;> rfl
      rw [found, idle] at before
      simp only [emitted, Function.update_self, now, begins]
      exact before.step dispatch
    · simpa only [entries, if_neg same, List.append_nil, after,
        Function.update_of_ne (Ne.symm same)] using before
  case call =>
    rintro c' pk q k answer rfl hand rfl
    by_cases same : c' = c
    · subst same
      rw [hand] at before
      simp only [entries, if_pos, Function.update_self]
      exact before.call truthful
    · simpa only [entries, if_neg same, List.append_nil,
        Function.update_of_ne (Ne.symm same)] using before
  case panic =>
    rintro c' pk rfl hand rfl
    by_cases same : c' = c
    · subst same
      rw [hand] at before
      simp only [entries, if_pos, Function.update_self, hand]
      exact before.panic
    · simpa only [entries, if_neg same, List.append_nil,
        Function.update_of_ne (Ne.symm same)] using before.crash
  case finish =>
    rintro c' pk err server rfl hand running moved rfl
    obtain ⟨conn, conn', found, after, dispatch⟩ := step_conn moved
    by_cases same : c' = c
    · subst same
      have now : server.conns c' = some conn' := by simp [after]
      rw [hand, found, running] at before
      simp only [entries, if_pos, Function.update_self, hand, now, running]
      exact before.finish dispatch
    · simpa only [entries, if_neg same, List.append_nil, after,
        Function.update_of_ne (Ne.symm same)] using before
  case others =>
    rintro sessions rfl rfl
    simpa only [entries, List.append_nil] using before

end Office

def Office.truthfulNow (setup : Setup) (o : Office) : Deed → Bool
  | .call _ q answer => o.world.returnsNow setup.cfg.lib q answer
  | _ => true

theorem Office.truthful_of_now {setup : Setup} {o : Office} {d : Deed}
    (now : o.truthfulNow setup d = true) : Office.Truthful setup o d := by
  cases d with
  | call c q answer => exact World.returns_of_now now
  | _ => trivial

/-- A proxy of one host without a cluster. -/
def Setup.alone : Setup := ⟨.oneHost, ⟨fun _ => "", fun _ => ""⟩, false⟩

/-- A player who is on a server that is gone from the registry. -/
def player : StoredSession := ⟨0, 7, "p"⟩

/-- The server the player comes from, and the one that the backend registers. -/
def lobby : Server := .new 9 "lobby" "l:1" .rakNet "" 1 false
def game : Server := .new 0 "game" "g:1" .rakNet "" 1 false

def Sessions.one : Sessions where
  store := Store.newDefault.store .ascii player
  serverOf := fun _ => some lobby
  loggingIn := fun _ => false

/-- A backend that is not yet authenticated asks for a transfer and is refused; it logs in,
registers and asks again.  The player joins while that request is handled. -/
def transferring : List Deed :=
  (Action.arrive 0 ++ Action.send 0 ⟨.transferRequest, ⟨7, "game"⟩⟩ 2 ++
      Action.request 0 "s" "game" ++ Action.go 0 3 ++ Action.register 0 "g:1" ++ Action.go 0 2 ++
      Action.send 0 ⟨.transferRequest, ⟨7, "game"⟩⟩ 1).map .socket ++
    [.call 0 (.server "game") (some game), .others .one, .call 0 (.load 7) (some player),
      .call 0 (.serverOf player) (some lobby), .call 0 (.transfer player game) none,
      .call 0 (.write (TransferRequestHandler.response ⟨7, "game"⟩ 0 "")) none, .finish 0]

end Portal.Control
