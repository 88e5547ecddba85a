/-
# Session.Transfer — joining, transferring and closing, statement by statement

The goroutines of session.go except the packet loops.  Each `…Step` takes the
control point of its goroutine and executes the one statement that stands
there: an atomic access, a critical section, or a call that leaves the proxy
and whose answer is the `Input`.  `none` is a statement that cannot go on now,
such as a lock that is held.
-/
import Portal.Session.State

namespace Portal

set_option autoImplicit false

/-- What a statement learns from outside the session. -/
inductive Input where
  | go
  /-- the load balancer's choice -/
  | found (srv : Option Server)
  /-- somebody calls `Transfer(srv)` -/
  | transfer (srv : Server)
  /-- a dial succeeded -/
  | dialed (data : GameData)
  /-- a dial, a spawn, a read or a write failed -/
  | failed (err : String)
  /-- a packet was read -/
  | packet (pk : Packet)
  /-- a handler returned, with the context cancelled or not -/
  | verdict (cancel : Bool)
  /-- a socket or admin request starts -/
  | request (r : Request)
  /-- the call of `Transfer` a request makes -/
  | call (i : TransferID)

namespace Session

/-! ## `New` and the login goroutine -/

def newStep (input : Input) (s : Session) : NewState → Option Session
  | .storing => some { s with stored := true, new := .finding }
  | .finding =>
      match input with
      | .found none => some { s with new := .deleting }
      | .found (some srv) => some { s with new := .incrementing srv }
      | _ => none
  -- the increment itself is in `deltas`
  | .incrementing srv => some { s with new := .assigning srv }
  | .assigning srv => some { s with server := some srv, new := .locking srv }
  | .locking srv =>
      some { s with loginMu := true, login := .dialing srv, new := .returned true }
  | .deleting => some { s with stored := false, new := .returned false }
  | .returned _ => none

def loginStep (input : Input) (s : Session) : LoginState → Option Session
  | .unstarted => none
  | .dialing srv =>
      match input with
      | .dialed data => some { s with login := .assigning ⟨.login, srv, data⟩ }
      | .failed _ => some { s with login := .unlocking .notDialed }
      | _ => none
  | .assigning c => some { s with serverConn := some c, login := .spawning c }
  | .spawning c =>
      match input with
      | .go => some { s with login := .translating c }
      | .failed _ => some { s with login := .unlocking .notSpawned }
      | _ => none
  | .translating c =>
      some { s with translator := some (newTranslator c.gameData), login := .unlocking .joined }
  | .unlocking r =>
      some { s with
        loginMu := false
        login := if r = .joined then .publishing else .closing r }
  | .publishing => some { s with bus := s.bus ++ [.playerJoin], login := .starting }
  | .starting =>
      some { s with client := .reading, serverLoop := .picking, login := .done .joined }
  -- `once.Do` returns when the body of `Close` has run, whoever runs it
  | .closing r => if s.close = .done then some { s with login := .done r } else none
  | .done _ => none

/-! ## `Transfer` -/

def setCall (s : Session) (i : TransferID) (target : Server) (state : CallState) : Session :=
  { s with calls := Function.update s.calls i (some ⟨target, state⟩) }

def setTimer (s : Session) (i : TransferID) (state : TimerState) : Session :=
  { s with timers := Function.update s.timers i state }

/-- `strings.Contains`. -/
def containsText (s sub : String) : Bool := decide (sub.toList <:+: s.toList)

/-- `selectProxyDimension`: the first of overworld, nether and end that is
neither of the two. -/
def selectProxyDimension (source target : Int32) : Int32 :=
  (([0, 1, 2] : List Int32).find? fun dimension => dimension ≠ source ∧ dimension ≠ target).getD 0

/-- The first statement of a call of `Transfer`, by anybody who got hold of the
session: it is in the store from the first statement of `New` on. -/
def enter (s : Session) (i : TransferID) (srv : Server) : Option Session :=
  if s.new = .storing then none
  else
    match s.calls i with
    | none => some (s.setCall i srv .waiting)
    | some _ => none

def callStep (i : TransferID) (srv : Server) (input : Input) (s : Session) :
    CallState → Option Session
  | .waiting => if s.loginMu then none else some (s.setCall i srv .comparing)
  | .comparing =>
      if s.transferring then some (s.setCall i srv .rejected)
      else some { s.setCall i srv .clearing with transferring := true }
  | .rejected => none
  | .clearing => some { s.setCall i srv .awaiting with postTransfer := false }
  | .awaiting => if s.loginMu then none else some (s.setCall i srv .reading)
  | .reading =>
      if s.serverMuHeld then none
      else
        match s.server with
        | none => some s.panic
        | some _ => some (s.setCall i srv .installing)
  | .installing => some { s.setCall i srv .handling with transferDone := some i }
  | .handling =>
      match input with
      | .verdict true => some (s.setCall i srv (.resetting (.cancelled i)))
      | .verdict false => some (s.setCall i srv .respawning)
      | _ => none
  | .respawning =>
      if s.dead then
        match s.translator with
        | none => some s.panic
        | some _ => some { s.setCall i srv (.dialing false) with dead := false }
      else some (s.setCall i srv (.dialing false))
  | .dialing retried =>
      match input with
      | .dialed data => some (s.setCall i srv (.spawning ⟨.transfer i, srv, data⟩))
      | .failed err =>
          if !retried && containsText err "already logged in" then
            some (s.setCall i srv (.dialing true))
          else some (s.setCall i srv (.resetting (.failed i err)))
      | _ => none
  | .spawning c =>
      match input with
      | .go => some (s.setCall i srv (.publishing c))
      | .failed err =>
          some { s.setCall i srv (.resetting (.failed i err)) with
            closed := s.closed ++ [(.spawnFailure, c.dialer)] }
      | _ => none
  | .publishing c =>
      if s.serverMuHeld then none
      else
        some { (s.setCall i srv (.selecting c)).setTimer i (.armed srv) with
          tempServerConn := some c
          pendingServer := some srv
          transferConfirmTimer := some i }
  | .selecting c =>
      match s.serverConn with
      | none => some s.panic
      | some current =>
          some (s.setCall i srv
            (.changing c (selectProxyDimension current.gameData.dimension c.gameData.dimension)))
  | .changing _ _ =>
      some { s.setCall i srv (.returned none) with unacked := s.unacked ++ [.transfer i] }
  | .resetting o => some { s.setCall i srv (.taking o) with transferring := false }
  | .taking o => some { s.setCall i srv (.running o s.transferDone) with transferDone := none }
  | .running o done =>
      some { s.setCall i srv (.returned o.err) with bus := s.bus ++ publishTransfer done o }
  | .returned _ => none

/-! ## The confirmation timer and `abortStuckTransfer` -/

def timerStep (i : TransferID) (s : Session) : TimerState → Option Session
  | .unarmed => none
  | .armed srv => some (s.setTimer i (.fired srv))
  | .stopped => none
  | .fired srv =>
      if s.serverMuHeld then none
      else
        some { s.setTimer i (match s.tempServerConn with
            | none => .done
            | some c => .closing srv c) with
          tempServerConn := none
          pendingServer := none
          transferConfirmTimer := none }
  | .closing srv c =>
      some { s.setTimer i (.resetting srv) with closed := s.closed ++ [(.abort, c.dialer)] }
  | .resetting srv => some { s.setTimer i (.taking srv) with transferring := false }
  | .taking srv => some { s.setTimer i (.running srv s.transferDone) with transferDone := none }
  | .running srv done =>
      some { s.setTimer i .disconnecting with
        bus := s.bus ++ publishTransfer done (.timedOut i srv) }
  | .disconnecting => if s.close = .done then some (s.setTimer i .done) else none
  | .done => none

/-! ## `Close` -/

/-- The connections closed when `Close` finds `c` in one of the two fields. -/
def closing (c : Option Conn) : List (Closer × Dialer) :=
  match c with
  | none => []
  | some c => [(.close, c.dialer)]

def closeStep (s : Session) : CloseState → Option Session
  | .unstarted => if s.new = .storing then none else some { s with close := .comparing }
  | .comparing =>
      if s.transferring then some { s with transferring := false, close := .clearing }
      else some { s with close := .quitting }
  | .clearing => some { s with postTransfer := false, close := .taking }
  | .taking => some { s with transferDone := none, close := .running s.transferDone }
  | .running done =>
      some { s with bus := s.bus ++ publishTransfer done .closed, close := .quitting }
  | .quitting => some { s with close := .unhandling }
  | .unhandling => some { s with close := .publishing }
  | .publishing => some { s with bus := s.bus ++ [.playerQuit], close := .deleting }
  | .deleting => some { s with stored := false, close := .closingClient }
  | .closingClient => some { s with close := .closingServer }
  | .closingServer =>
      some { s with closed := s.closed ++ closing s.serverConn, close := .closingTemp }
  | .closingTemp =>
      some { s with closed := s.closed ++ closing s.tempServerConn, close := .decrementing }
  -- the decrement itself is in `deltas`
  | .decrementing => some { s with close := .done }
  | .done => none

/-! ## Requests through the store -/

def setRequest (s : Session) (r : Nat) (state : RequestState) : Session :=
  { s with requests := Function.update s.requests r state }

def requestStep (r : Nat) (input : Input) (s : Session) : RequestState → Option Session
  | .unstarted =>
      if !s.stored then none
      else
        match input with
        | .request .findPlayer => some (s.setRequest r (.connecting .findPlayer))
        | .request .listPlayers => some (s.setRequest r (.connecting .listPlayers))
        | .request (.transferRequest target) =>
            some (s.setRequest r (.awaiting (.transferRequest target)))
        | .request (.adminTransfer target) => some (s.setRequest r (.calling target))
        | _ => none
  | .connecting req => if s.loginMu then none else some (s.setRequest r (.awaiting req))
  | .awaiting req => if s.loginMu then none else some (s.setRequest r (.reading req))
  | .reading req =>
      if s.serverMuHeld then none
      else
        match s.server with
        | none => some s.panic
        | some current =>
            match req with
            | .transferRequest target =>
                some (s.setRequest r
                  (if current.address = target.address then .done else .calling target))
            | _ => some (s.setRequest r .done)
  | .calling target =>
      match input with
      | .call i => (s.enter i target).map fun s' => s'.setRequest r .done
      | _ => none
  | .done => none

end Session

end Portal
