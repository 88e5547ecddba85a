/-
# Session.Loops — the two loops of `handlePackets`

The client->server loop reads, translates and forwards the client's packets and
is the only goroutine that runs `finishTransferDimensionChange`; the
server->client loop does the same for the packets of the current backend.  Each
step is one statement of packet_handler.go, and inside
`finishTransferDimensionChange` one group of statements between two accesses
that another goroutine can see.
-/
import Portal.Session.Transfer

namespace Portal.Session

set_option autoImplicit false

/-! ## client->server -/

/-- `transferConfirmTimer.Stop()`: a timer that has fired is past stopping. -/
def stopTimer (s : Session) : Session :=
  match s.transferConfirmTimer with
  | none => s
  | some i =>
      match s.timers i with
      | .armed _ => { s.setTimer i .stopped with transferConfirmTimer := none }
      | _ => { s with transferConfirmTimer := none }

/-- The first statement of the loop body: the packet is read and its
translation starts.  A `DimensionChangeDone` acknowledges the oldest
`ChangeDimension` not acknowledged yet. -/
def receive (s : Session) (pk : Packet) : Session :=
  match s.translator with
  | none => s.panic
  | some t =>
      if pk.isDimensionChangeDone then
        { s with
          unacked := s.unacked.tail
          client := .translating ⟨pk, s.unacked.head?⟩ (translatePacket t.original pk) }
      else { s with client := .translating ⟨pk, none⟩ (translatePacket t.original pk) }

def clientStep (input : Input) (s : Session) : ClientState → Option Session
  | .unstarted => none
  | .reading =>
      match input with
      | .packet pk => some (s.receive pk)
      | .failed _ => some { s with client := .exited }
      | _ => none
  | .translating f (.pure pk) => some { s with client := .clearing f pk }
  | .translating f (.ask r k) =>
      match s.translator with
      | none => some s.panic
      | some t => some { s with client := .translating f (k (t.current.register r)) }
  | .clearing f pk =>
      match s.server with
      | none => some s.panic
      | some srv =>
          let pk := clearLegacyIdentity pk srv.legacyAuth
          some { s with client := if pk.isDimensionChangeDone then .loading f pk else .checking f pk }
  | .loading f pk =>
      some { s with client := if s.transferring then .locking f pk else .swapping f pk }
  | .locking f pk =>
      match s.tempServerConn with
      | none => some { s with client := .checking f pk }
      | some c => some { s.stopTimer with client := .announcing f c }
  | .announcing f c =>
      some { s with unacked := s.unacked ++ [.finish c.dialer], client := .wiping f c }
  | .wiping f c => some { s with tracked := .empty, client := .reviving f c }
  | .reviving f c =>
      match s.translator with
      | none => some s.panic
      | some _ => some { s with dead := false, client := .dropping f c }
  | .dropping f c =>
      match s.serverConn with
      | none => some s.panic
      | some old =>
          some { s with closed := s.closed ++ [(.finish, old.dialer)], client := .switching f c }
  | .switching _ c =>
      -- the decrement of `server` and the increment of `pending` are in `deltas`
      match s.server, s.pendingServer with
      | some _, some pending =>
          some { s with
            serverConn := s.tempServerConn
            tempServerConn := none
            server := some pending
            pendingServer := none
            switches := s.switches ++ [c]
            client := .storingRuntimeID c }
      | _, _ => some s.panic
  | .storingRuntimeID c =>
      match s.translator with
      | none => some s.panic
      | some t =>
          some { s with
            translator := some (t.storeRuntimeID c.gameData), client := .storingUniqueID c }
  | .storingUniqueID c =>
      match s.translator with
      | none => some s.panic
      | some t =>
          some { s with translator := some (t.storeUniqueID c.gameData), client := .lowering c }
  | .lowering c => some { s with transferring := false, client := .raising c }
  | .raising c => some { s with postTransfer := true, client := .logging c }
  | .logging c =>
      match s.server with
      | none => some s.panic
      | some _ => some { s with client := .taking c }
  | .taking c => some { s with transferDone := none, client := .running c s.transferDone }
  | .running c done =>
      some { s with bus := s.bus ++ publishTransfer done (.switched c), client := .reading }
  | .swapping f pk =>
      if s.postTransfer then some { s with postTransfer := false, client := .reading }
      else some { s with client := .checking f pk }
  | .checking f pk =>
      some { s with client := if s.transferring then .reading else .handling f pk }
  | .handling f pk =>
      match input with
      | .verdict true => some { s with client := .reading }
      | .verdict false => some { s with client := .picking f pk }
      -- a panic of a handler is recovered: the loop ends
      | .failed _ => some { s with client := .exited }
      | _ => none
  | .picking f pk =>
      match s.serverConn with
      | none => some s.panic
      | some c => some { s with client := .writing f pk c }
  | .writing _ _ _ =>
      match input with
      | .go => some { s with client := .reading }
      -- so is a panic while the packet is marshalled
      | .failed _ => some { s with client := .exited }
      | _ => none
  | .exited => none

/-! ## server->client -/

/-- The switch over the packet type: what the client is about to be shown. -/
def track (t : Tracked) : Packet → Tracked
  | .addActor uid _ _ _ => { t with entities := insert uid t.entities }
  | .addItemActor uid _ _ => { t with entities := insert uid t.entities }
  | .addPainting uid _ => { t with entities := insert uid t.entities }
  | .addPlayer uid _ _ _ => { t with entities := insert uid t.entities }
  | .bossEvent uid .show => { t with bossBars := insert uid t.bossBars }
  | .bossEvent uid .hide => { t with bossBars := t.bossBars.erase uid }
  | .mobEffect _ .add effectType => { t with effects := insert effectType t.effects }
  | .mobEffect _ .remove effectType => { t with effects := t.effects.erase effectType }
  | .playerList entries =>
      { t with playerList := entries.foldl (fun list e =>
          if e.add then insert e.uuid list else list.erase e.uuid) t.playerList }
  | .removeActor uid => { t with entities := t.entities.erase uid }
  | .removeObjective name => { t with scoreboards := t.scoreboards.erase name }
  | .setDisplayObjective name => { t with scoreboards := insert name t.scoreboards }
  | _ => t

def serverStep (input : Input) (s : Session) : ServerState → Option Session
  | .unstarted => none
  | .picking =>
      if s.serverMuHeld then none
      else
        match s.serverConn with
        | none => some s.panic
        | some c => some { s with serverLoop := .reading c }
  | .reading c =>
      match input with
      | .packet pk =>
          match s.translator with
          | none => some s.panic
          | some t =>
              some { s with serverLoop := .translating c pk (translatePacket t.original pk) }
      | .failed _ => some { s with serverLoop := .comparing c }
      | _ => none
  | .comparing c =>
      if s.serverMuHeld then none
      else if s.serverConn = some c then
        some { s with disconnects := s.disconnects ++ [c], serverLoop := .notifying c }
      else some { s with serverLoop := .picking }
  | .notifying _ =>
      match input with
      | .verdict true => some { s with serverLoop := .picking }
      | .verdict false => some { s with serverLoop := .closing }
      | .failed _ => some { s with serverLoop := .exited }
      | _ => none
  | .closing => if s.close = .done then some { s with serverLoop := .exited } else none
  | .translating c read (.pure pk) => some { s with serverLoop := .tracking c read pk }
  | .translating c read (.ask r k) =>
      match s.translator with
      | none => some s.panic
      | some t => some { s with serverLoop := .translating c read (k (t.current.register r)) }
  | .tracking c read pk =>
      match pk with
      | .respawn _ .searchingForSpawn =>
          some { s with dead := true, serverLoop := .loading c read pk }
      | .respawn _ .readyToSpawn =>
          some { s with dead := false, serverLoop := .handling c read pk }
      | pk => some { s with tracked := track s.tracked pk, serverLoop := .handling c read pk }
  | .loading c read pk =>
      -- during the post-transfer phase the packet is answered and not forwarded
      some { s with serverLoop := if s.postTransfer then .picking else .handling c read pk }
  | .handling c read pk =>
      match input with
      | .verdict true => some { s with serverLoop := .picking }
      | .verdict false => some { s with serverLoop := .writing c read pk }
      | .failed _ => some { s with serverLoop := .exited }
      | _ => none
  | .writing _ _ pk =>
      match input with
      | .go =>
          some { s with
            unacked := if pk.isChangeDimension then s.unacked ++ [.backend] else s.unacked
            serverLoop := .picking }
      | .failed _ => some { s with serverLoop := .exited }
      | _ => none
  | .exited => none

end Portal.Session
