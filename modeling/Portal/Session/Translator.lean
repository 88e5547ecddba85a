/-
# Session.Translator — exchanging the player's entity IDs between client and server

The client keeps for ever the IDs it got at login (`original…`); each backend
has its own (`current…`).  `currentRuntimeID` and `currentUniqueID` are two
separate atomics: `updateTranslatorData` stores them one after the other, and
every `translateRuntimeID` or `translateUniqueID` loads one of them anew.  A
translation is therefore a `Loads` program, not a function of one snapshot: the
packet loops run it one load at a time.

`translated original ids pk` is the packet every load of which saw `ids`.
-/
import Mathlib.Logic.Function.Basic
import Portal.Theory.Query
import Portal.Session.Packet

namespace Portal

open Portal.Theory

set_option autoImplicit false

/-- What the session reads of `minecraft.GameData`. -/
structure GameData where
  entityRuntimeID : UInt64
  entityUniqueID : Int64
  dimension : Int32
  deriving DecidableEq, Repr

/-- A pair of entity IDs of the player. -/
structure EntityIDs where
  runtimeID : UInt64
  uniqueID : Int64
  deriving DecidableEq, Repr

/-- The entity IDs a server gave the player. -/
def GameData.ids (data : GameData) : EntityIDs := ⟨data.entityRuntimeID, data.entityUniqueID⟩

/-- The two atomics of a translator. -/
inductive Register where
  | currentRuntimeID
  | currentUniqueID

/-- What an atomic holds. -/
def Register.Value : Register → Type
  | .currentRuntimeID => UInt64
  | .currentUniqueID => Int64

/-- The answers of atomics that hold `ids`. -/
def EntityIDs.register (ids : EntityIDs) : (r : Register) → r.Value
  | .currentRuntimeID => ids.runtimeID
  | .currentUniqueID => ids.uniqueID

/-- A computation with atomic loads of the translator. -/
abbrev Loads := Query Register Register.Value

/-- `translator`: the immutable original IDs and the two atomics. -/
structure Translator where
  original : EntityIDs
  current : EntityIDs
  deriving DecidableEq, Repr

/-- `newTranslator`. -/
def newTranslator (data : GameData) : Translator where
  original := data.ids
  current := data.ids

namespace Translator

/-- First store of `updateTranslatorData`. -/
def storeRuntimeID (t : Translator) (data : GameData) : Translator :=
  { t with current := { t.current with runtimeID := data.entityRuntimeID } }

/-- Second store of `updateTranslatorData`. -/
def storeUniqueID (t : Translator) (data : GameData) : Translator :=
  { t with current := { t.current with uniqueID := data.entityUniqueID } }

/-- `updateTranslatorData`, with nothing between the two stores. -/
def updateTranslatorData (t : Translator) (data : GameData) : Translator :=
  (t.storeRuntimeID data).storeUniqueID data

end Translator

/-! ## Translating one ID -/

variable (original : EntityIDs)

def translateRuntimeID (id : UInt64) : Loads UInt64 := do
  let current : UInt64 ← Query.load Register.currentRuntimeID
  return if original.runtimeID = id then current
    else if current = id then original.runtimeID
    else id

def translateRuntimeID32 (id : UInt32) : Loads UInt32 := do
  return (← translateRuntimeID original id.toUInt64).toUInt32

def translateRuntimeIDInt64 (id : Int64) : Loads Int64 := do
  if id < 0 then return id
  return (← translateRuntimeID original id.toUInt64).toInt64

def translateUniqueID (id : Int64) : Loads Int64 := do
  let current : Int64 ← Query.load Register.currentUniqueID
  return if original.uniqueID = id then current
    else if current = id then original.uniqueID
    else id

/-- `uint64(t.translateUniqueID(int64(id)))`. -/
def translateUniqueIDUInt64 (id : UInt64) : Loads UInt64 := do
  return (← translateUniqueID original id.toInt64).toUInt64

def translateEntityLink (x : EntityLink) : Loads EntityLink := do
  let ridden ← translateUniqueID original x.riddenEntityUniqueID
  let rider ← translateUniqueID original x.riderEntityUniqueID
  return ⟨ridden, rider⟩

/-! ## Entity metadata -/

/-- `int` and `uint` are 64 bits wide here. -/
def translateMetadataUniqueID : MetadataValue → Loads MetadataValue
  | .int64 value => .int64 <$> translateUniqueID original value
  | .int32 value => do return .int32 (← translateUniqueID original value.toInt64).toInt32
  | .int value => .int <$> translateUniqueID original value
  | .uint64 value => .uint64 <$> translateUniqueIDUInt64 original value
  | .uint32 value => do
      return .uint32 (← translateUniqueID original value.toUInt64.toInt64).toUInt64.toUInt32
  | .uint value => .uint <$> translateUniqueIDUInt64 original value
  | .other v => return .other v

def translateMetadataRuntimeID : MetadataValue → Loads MetadataValue
  | .uint64 value => .uint64 <$> translateRuntimeID original value
  | .uint32 value => .uint32 <$> translateRuntimeID32 original value
  | .int64 value => .int64 <$> translateRuntimeIDInt64 original value
  | .int32 value => do
      if value < 0 then return .int32 value
      return .int32 (← translateRuntimeID original value.toInt64.toUInt64).toUInt32.toInt32
  | .int value => do
      if value < 0 then return .int value
      return .int (← translateRuntimeID original value.toUInt64).toInt64
  | .uint v => return .uint v
  | .other v => return .other v

/-- The metadata keys that ever hold a translatable unique ID. -/
def entityMetadataUniqueIDKeys : List UInt32 := [5, 6, 17, 37, 88]

/-- Rewrite the entry under `k`, if there is one. -/
def rewriteMetadata (f : MetadataValue → Loads MetadataValue) (x : EntityMetadata) (k : UInt32) :
    Loads EntityMetadata :=
  match x k with
  | none => return x
  | some v => do return Function.update x k (some (← f v))

def translateEntityMetadata (x : EntityMetadata) : Loads EntityMetadata := do
  let x ← entityMetadataUniqueIDKeys.foldlM
    (rewriteMetadata (translateMetadataUniqueID original)) x
  rewriteMetadata (translateMetadataRuntimeID original) x 124

/-! ## Translating a packet -/

/-- `translateUniqueID` on a `protocol.Optional`. -/
def translateOptional : Option Int64 → Loads (Option Int64)
  | none => return none
  | some id => some <$> translateUniqueID original id

def translateTrackedObject (x : MapTrackedObject) : Loads MapTrackedObject :=
  if x.entity then do
    return { x with entityUniqueID := ← translateOptional original x.entityUniqueID }
  else return x

/-- `translatePacket`. -/
def translatePacket : Packet → Loads Packet
  | .actorEvent rid => .actorEvent <$> translateRuntimeID original rid
  | .actorPickRequest uid => .actorPickRequest <$> translateUniqueID original uid
  | .addActor uid rid metadata links => do
      let uid ← translateUniqueID original uid
      let rid ← translateRuntimeID original rid
      let metadata ← translateEntityMetadata original metadata
      return .addActor uid rid metadata (← links.mapM (translateEntityLink original))
  | .agentAnimation rid => .agentAnimation <$> translateRuntimeID original rid
  | .addItemActor uid rid metadata => do
      let uid ← translateUniqueID original uid
      let rid ← translateRuntimeID original rid
      return .addItemActor uid rid (← translateEntityMetadata original metadata)
  | .addPainting uid rid => do
      let uid ← translateUniqueID original uid
      return .addPainting uid (← translateRuntimeID original rid)
  | .addPlayer uid rid metadata links => do
      let uid ← translateUniqueID original uid
      let rid ← translateRuntimeID original rid
      let metadata ← translateEntityMetadata original metadata
      return .addPlayer uid rid metadata (← links.mapM (translateEntityLink original))
  | .addVolumeEntity rid => .addVolumeEntity <$> translateRuntimeID32 original rid
  | .adventureSettings uid => .adventureSettings <$> translateUniqueID original uid
  | .animate rid => .animate <$> translateRuntimeID original rid
  | .animateEntity rids => .animateEntity <$> rids.mapM (translateRuntimeID original)
  | .bossEvent uid eventType => do
      return .bossEvent (← translateUniqueID original uid) eventType
  | .camera camera target => do
      let camera ← translateUniqueID original camera
      return .camera camera (← translateUniqueID original target)
  | .changeMobProperty uid => .changeMobProperty <$> translateUniqueID original uid
  | .clientBoundMapItemData none => return .clientBoundMapItemData none
  | .clientBoundMapItemData (some objects) => do
      return .clientBoundMapItemData (some (← objects.mapM (translateTrackedObject original)))
  | .clientboundStonecutterSetRecipe uid =>
      .clientboundStonecutterSetRecipe <$> translateUniqueID original uid
  | .clientCheatAbility uid => .clientCheatAbility <$> translateUniqueID original uid
  | .commandBlockUpdate block rid =>
      if block then return .commandBlockUpdate block rid
      else .commandBlockUpdate block <$> translateRuntimeID original rid
  | .commandOutput uid => .commandOutput <$> translateUniqueID original uid
  | .commandRequest uid => .commandRequest <$> translateUniqueID original uid
  | .containerOpen uid => .containerOpen <$> translateUniqueID original uid
  | .createPhoto uid => .createPhoto <$> translateUniqueID original uid
  | .debugInfo uid => .debugInfo <$> translateUniqueID original uid
  | .emote rid => .emote <$> translateRuntimeID original rid
  | .emoteList rid => .emoteList <$> translateRuntimeID original rid
  | .event rid data => do
      let rid ← translateRuntimeIDInt64 original rid
      match data with
      | .mobKilled killer victim => do
          let killer ← translateUniqueID original killer
          return .event rid (.mobKilled killer (← translateUniqueID original victim))
      | .bossKilled boss => do return .event rid (.bossKilled (← translateUniqueID original boss))
      | .petDied => return .event rid .petDied
      | .other => return .event rid .other
  | .interact rid => .interact <$> translateRuntimeID original rid
  | .inventoryTransaction (.useItemOnEntity rid) => do
      return .inventoryTransaction (.useItemOnEntity (← translateRuntimeID original rid))
  | .inventoryTransaction .other => return .inventoryTransaction .other
  | .mobArmourEquipment rid => .mobArmourEquipment <$> translateRuntimeID original rid
  | .mobEffect rid operation effectType => do
      return .mobEffect (← translateRuntimeID original rid) operation effectType
  | .mobEquipment rid => .mobEquipment <$> translateRuntimeID original rid
  | .motionPredictionHints rid => .motionPredictionHints <$> translateRuntimeID original rid
  | .moveActorAbsolute rid => .moveActorAbsolute <$> translateRuntimeID original rid
  | .moveActorDelta rid => .moveActorDelta <$> translateRuntimeID original rid
  | .movePlayer rid ridden => do
      let rid ← translateRuntimeID original rid
      return .movePlayer rid (← translateRuntimeID original ridden)
  | .npcDialogue uid => .npcDialogue <$> translateUniqueIDUInt64 original uid
  | .npcRequest rid => .npcRequest <$> translateRuntimeID original rid
  | .photoTransfer uid => .photoTransfer <$> translateUniqueID original uid
  | .playerAction rid actionType => do
      return .playerAction (← translateRuntimeID original rid) actionType
  | .playerAuthInput predicted vehicle =>
      if predicted then .playerAuthInput predicted <$> translateOptional original vehicle
      else return .playerAuthInput predicted vehicle
  | .playerList entries => .playerList <$> entries.mapM fun e => do
      return { e with entityUniqueID := ← translateUniqueID original e.entityUniqueID }
  | .removeActor uid => .removeActor <$> translateUniqueID original uid
  | .removeVolumeEntity rid => .removeVolumeEntity <$> translateRuntimeID32 original rid
  | .respawn rid state => do return .respawn (← translateRuntimeID original rid) state
  | .setActorData rid metadata => do
      let rid ← translateRuntimeID original rid
      return .setActorData rid (← translateEntityMetadata original metadata)
  | .setActorLink link => .setActorLink <$> translateEntityLink original link
  | .setActorMotion rid => .setActorMotion <$> translateRuntimeID original rid
  | .setPassengerOfBlock uid => .setPassengerOfBlock <$> translateUniqueID original uid
  | .setLocalPlayerAsInitialised rid =>
      .setLocalPlayerAsInitialised <$> translateRuntimeID original rid
  | .setScore entries => .setScore <$> entries.mapM fun e =>
      if e.fakePlayer then return e
      else do return { e with entityUniqueID := ← translateUniqueID original e.entityUniqueID }
  | .setScoreboardIdentity clear ids =>
      if clear then return .setScoreboardIdentity clear ids
      else .setScoreboardIdentity clear <$> ids.mapM (translateOptional original)
  | .showCredits rid => .showCredits <$> translateRuntimeID original rid
  | .spawnParticleEffect uid => .spawnParticleEffect <$> translateUniqueID original uid
  | .startGame uid rid => do
      let uid ← translateUniqueID original uid
      return .startGame uid (← translateRuntimeID original rid)
  | .structureBlockUpdate uid => .structureBlockUpdate <$> translateUniqueID original uid
  | .structureTemplateDataRequest uid =>
      .structureTemplateDataRequest <$> translateUniqueID original uid
  | .takeItemActor item taker => do
      let item ← translateRuntimeID original item
      return .takeItemActor item (← translateRuntimeID original taker)
  | .updateAbilities uid => .updateAbilities <$> translateUniqueID original uid
  | .updateAttributes rid => .updateAttributes <$> translateRuntimeID original rid
  | .updateBlockSynced uid => .updateBlockSynced <$> translateUniqueIDUInt64 original uid
  | .updateEquip uid => .updateEquip <$> translateUniqueID original uid
  | .updatePlayerGameType uid => .updatePlayerGameType <$> translateUniqueID original uid
  | .updateSubChunkBlocks blocks extra => do
      let blocks ← blocks.mapM (translateUniqueIDUInt64 original)
      return .updateSubChunkBlocks blocks (← extra.mapM (translateUniqueIDUInt64 original))
  | .updateTrade villager uid => do
      let villager ← translateUniqueID original villager
      return .updateTrade villager (← translateUniqueID original uid)
  | pk => return pk

/-- A translation rewrites IDs; an acknowledgement stays one. -/
theorem translatePacket_isDimensionChangeDone (pk : Packet) :
    (translatePacket original pk).Every fun pk' =>
      pk'.isDimensionChangeDone = pk.isDimensionChangeDone := by
  unfold translatePacket
  split <;>
    repeat' first
      | rfl
      | exact Query.every_map _ _ fun _ => rfl
      | refine Query.every_bind _ fun _ => ?_
      | split
      | cases ‹PlayerActionType› <;> rfl

/-- The packet `translatePacket` makes when every load sees `ids`. -/
def translated (ids : EntityIDs) (pk : Packet) : Packet :=
  (translatePacket original pk).eval ids.register

end Portal
