/-
# Session.Packet — the part of a Bedrock packet the proxy looks at

One constructor for each packet type that `translatePacket`, `clearLegacyIdentity`
or one of the two packet loops names, with the fields they read or rewrite and no
others.  `other` is every remaining type: the loops forward it as it is.
-/
import Mathlib.Init

namespace Portal

set_option autoImplicit false

/-- A dynamically typed entity metadata value: the integer types the translator
recognises, and anything else. -/
inductive MetadataValue where
  | int64 (v : Int64)
  | int32 (v : Int32)
  | int (v : Int64)
  | uint64 (v : UInt64)
  | uint32 (v : UInt32)
  | uint (v : UInt64)
  | other (v : String)
  deriving DecidableEq

/-- `map[uint32]any`. -/
abbrev EntityMetadata := UInt32 → Option MetadataValue

/-- `protocol.EntityLink`. -/
structure EntityLink where
  riddenEntityUniqueID : Int64
  riderEntityUniqueID : Int64
  deriving DecidableEq

/-- `protocol.MapTrackedObject`: `entity` is `Type == MapObjectTypeEntity`. -/
structure MapTrackedObject where
  entity : Bool
  entityUniqueID : Option Int64
  deriving DecidableEq

/-- The payload of `packet.Event`. -/
inductive EventData where
  | mobKilled (killerEntityUniqueID victimEntityUniqueID : Int64)
  | bossKilled (bossEntityUniqueID : Int64)
  | petDied
  | other
  deriving DecidableEq

/-- The payload of `packet.InventoryTransaction`. -/
inductive TransactionData where
  | useItemOnEntity (targetEntityRuntimeID : UInt64)
  | other
  deriving DecidableEq

/-- `protocol.PlayerListEntry`: `add` is `ActionType == PlayerListActionAdd`. -/
structure PlayerListEntry where
  add : Bool
  uuid : Nat
  entityUniqueID : Int64
  deriving DecidableEq

/-- `protocol.ScoreboardEntry`: `fakePlayer` is
`IdentityType == ScoreboardIdentityFakePlayer`. -/
structure ScoreboardEntry where
  fakePlayer : Bool
  entityUniqueID : Int64
  deriving DecidableEq

inductive BossEventType where
  | show
  | hide
  | other
  deriving DecidableEq

inductive MobEffectOperation where
  | add
  | modify
  | remove
  deriving DecidableEq

inductive RespawnState where
  | searchingForSpawn
  | readyToSpawn
  | clientReadyToSpawn
  deriving DecidableEq

inductive PlayerActionType where
  | dimensionChangeDone
  | other
  deriving DecidableEq

/-- `packet.Packet`. -/
inductive Packet where
  | actorEvent (entityRuntimeID : UInt64)
  | actorPickRequest (entityUniqueID : Int64)
  | addActor (entityUniqueID : Int64) (entityRuntimeID : UInt64)
      (entityMetadata : EntityMetadata) (entityLinks : List EntityLink)
  | agentAnimation (entityRuntimeID : UInt64)
  | addItemActor (entityUniqueID : Int64) (entityRuntimeID : UInt64)
      (entityMetadata : EntityMetadata)
  | addPainting (entityUniqueID : Int64) (entityRuntimeID : UInt64)
  | addPlayer (abilityEntityUniqueID : Int64) (entityRuntimeID : UInt64)
      (entityMetadata : EntityMetadata) (entityLinks : List EntityLink)
  | addVolumeEntity (entityRuntimeID : UInt32)
  | adventureSettings (playerUniqueID : Int64)
  | animate (entityRuntimeID : UInt64)
  | animateEntity (entityRuntimeIDs : List UInt64)
  | bossEvent (bossEntityUniqueID : Int64) (eventType : BossEventType)
  | camera (cameraEntityUniqueID targetPlayerUniqueID : Int64)
  | changeMobProperty (entityUniqueID : Int64)
  | clientBoundMapItemData (trackedObjects : Option (List MapTrackedObject))
  | clientboundStonecutterSetRecipe (playerUniqueID : Int64)
  | clientCheatAbility (abilityEntityUniqueID : Int64)
  | commandBlockUpdate (block : Bool) (minecartEntityRuntimeID : UInt64)
  | commandOutput (originPlayerUniqueID : Int64)
  | commandRequest (originPlayerUniqueID : Int64)
  | containerOpen (containerEntityUniqueID : Int64)
  | createPhoto (entityUniqueID : Int64)
  | debugInfo (playerUniqueID : Int64)
  | emote (entityRuntimeID : UInt64)
  | emoteList (playerRuntimeID : UInt64)
  | event (entityRuntimeID : Int64) (data : EventData)
  | interact (targetEntityRuntimeID : UInt64)
  | inventoryTransaction (transactionData : TransactionData)
  | mobArmourEquipment (entityRuntimeID : UInt64)
  | mobEffect (entityRuntimeID : UInt64) (operation : MobEffectOperation) (effectType : Int32)
  | mobEquipment (entityRuntimeID : UInt64)
  | motionPredictionHints (entityRuntimeID : UInt64)
  | moveActorAbsolute (entityRuntimeID : UInt64)
  | moveActorDelta (entityRuntimeID : UInt64)
  | movePlayer (entityRuntimeID riddenEntityRuntimeID : UInt64)
  | npcDialogue (entityUniqueID : UInt64)
  | npcRequest (entityRuntimeID : UInt64)
  | photoTransfer (ownerEntityUniqueID : Int64)
  | playerAction (entityRuntimeID : UInt64) (actionType : PlayerActionType)
  /-- `predicted` is the `InputFlagClientPredictedVehicle` bit of the input data. -/
  | playerAuthInput (predicted : Bool) (clientPredictedVehicle : Option Int64)
  | playerList (entries : List PlayerListEntry)
  | removeActor (entityUniqueID : Int64)
  | removeVolumeEntity (entityRuntimeID : UInt32)
  | respawn (entityRuntimeID : UInt64) (state : RespawnState)
  | setActorData (entityRuntimeID : UInt64) (entityMetadata : EntityMetadata)
  | setActorLink (entityLink : EntityLink)
  | setActorMotion (entityRuntimeID : UInt64)
  | setPassengerOfBlock (passengerUniqueID : Int64)
  | setLocalPlayerAsInitialised (entityRuntimeID : UInt64)
  | setScore (entries : List ScoreboardEntry)
  /-- `clear` is `ActionType == ScoreboardIdentityActionClear`. -/
  | setScoreboardIdentity (clear : Bool) (entityUniqueIDs : List (Option Int64))
  | showCredits (playerRuntimeID : UInt64)
  | spawnParticleEffect (entityUniqueID : Int64)
  | startGame (entityUniqueID : Int64) (entityRuntimeID : UInt64)
  | structureBlockUpdate (lastEditingPlayerUniqueID : Int64)
  | structureTemplateDataRequest (lastEditingPlayerUniqueID : Int64)
  | takeItemActor (itemEntityRuntimeID takerEntityRuntimeID : UInt64)
  | updateAbilities (abilityEntityUniqueID : Int64)
  | updateAttributes (entityRuntimeID : UInt64)
  | updateBlockSynced (entityUniqueID : UInt64)
  | updateEquip (entityUniqueID : Int64)
  | updatePlayerGameType (playerUniqueID : Int64)
  | updateSubChunkBlocks (blocks extra : List UInt64)
  | updateTrade (villagerUniqueID entityUniqueID : Int64)
  | bookEdit (xuid : String)
  | text (xuid : String)
  | removeObjective (objectiveName : String)
  | setDisplayObjective (objectiveName : String)
  | changeDimension (dimension : Int32)
  | other (id : Nat)

namespace Packet

/-- `*packet.PlayerAction` with `ActionType == PlayerActionDimensionChangeDone`. -/
def isDimensionChangeDone : Packet → Bool
  | .playerAction _ .dimensionChangeDone => true
  | _ => false

def isChangeDimension : Packet → Bool
  | .changeDimension _ => true
  | _ => false

/-- The `XUID` of the two packet types that carry one. -/
def xuid? : Packet → Option String
  | .bookEdit xuid => some xuid
  | .text xuid => some xuid
  | _ => none

end Packet

/-- `clearLegacyIdentity`. -/
def clearLegacyIdentity (pk : Packet) (legacyAuth : Bool) : Packet :=
  if !legacyAuth then pk
  else
    match pk with
    | .bookEdit _ => .bookEdit ""
    | .text _ => .text ""
    | pk => pk

/-- After `clearLegacyIdentity` for a legacy server no XUID is left. -/
theorem clearLegacyIdentity_xuid (pk : Packet) {xuid : String}
    (carried : (clearLegacyIdentity pk true).xuid? = some xuid) : xuid = "" := by
  cases pk <;> simp_all [clearLegacyIdentity, Packet.xuid?]

theorem clearLegacyIdentity_isDimensionChangeDone (pk : Packet) (legacyAuth : Bool) :
    (clearLegacyIdentity pk legacyAuth).isDimensionChangeDone = pk.isDimensionChangeDone := by
  cases legacyAuth with
  | false => rfl
  | true => cases pk <;> rfl

end Portal
