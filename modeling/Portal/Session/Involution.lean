/-
# Session.Involution — a translation is undone by translating again

With every load answered from one state of the translator, `translateRuntimeID`
and `translateUniqueID` exchange the player's original ID with the current one:
they are `Equiv.swap` (`eval_translateRuntimeID`, `eval_translateUniqueID`).

`Packet.mapIDs f g` rewrites the translated IDs of a packet, runtime IDs by `f`
and unique IDs by `g`, and is where this module says which fields those are: an
entity ID that a condition excludes (the minecart of a command block update on a
block, the entity of a fake player's score, …) is not one of them.  Outside the
types `reversible` excludes, `translatePacket` is `mapIDs` of the two exchanges
(`translated_eq_mapIDs`).  The excluded types narrow an ID to 32 bits or skip
negative ones, in the packet or in the metadata it carries.

Rewriting twice is rewriting with the composition (`mapIDs_comp`), so that both
halves of `translation_undone` are about compositions with an exchange: an exchange
after itself is nothing, and forgetting the IDs after it is forgetting them.
-/
import Mathlib.Logic.Equiv.Basic
import Portal.Session.Translator

namespace Portal

open Portal.Theory

set_option autoImplicit false

/-! ## The translated IDs of a packet -/

section Rewriting

variable (f : UInt64 → UInt64) (g : Int64 → Int64)

/-- A unique ID that the packet has as a `uint64`. -/
def mapUInt64 (id : UInt64) : UInt64 := (g id.toInt64).toUInt64

def EntityLink.mapIDs (x : EntityLink) : EntityLink :=
  ⟨g x.riddenEntityUniqueID, g x.riderEntityUniqueID⟩

def MapTrackedObject.mapIDs (x : MapTrackedObject) : MapTrackedObject :=
  if x.entity then { x with entityUniqueID := x.entityUniqueID.map g } else x

def PlayerListEntry.mapIDs (x : PlayerListEntry) : PlayerListEntry :=
  { x with entityUniqueID := g x.entityUniqueID }

def ScoreboardEntry.mapIDs (x : ScoreboardEntry) : ScoreboardEntry :=
  if x.fakePlayer then x else { x with entityUniqueID := g x.entityUniqueID }

namespace Packet

/-- The translation of the type neither narrows nor skips an ID. -/
def reversible : Packet → Bool
  | .addActor _ _ _ _ => false
  | .addItemActor _ _ _ => false
  | .addPlayer _ _ _ _ => false
  | .setActorData _ _ => false
  | .addVolumeEntity _ => false
  | .removeVolumeEntity _ => false
  | .event _ _ => false
  | _ => true

/-- Rewrite the translated IDs of a packet of a reversible type. -/
def mapIDs : Packet → Packet
  | .actorEvent rid => .actorEvent (f rid)
  | .actorPickRequest uid => .actorPickRequest (g uid)
  | .agentAnimation rid => .agentAnimation (f rid)
  | .addPainting uid rid => .addPainting (g uid) (f rid)
  | .adventureSettings uid => .adventureSettings (g uid)
  | .animate rid => .animate (f rid)
  | .animateEntity rids => .animateEntity (rids.map f)
  | .bossEvent uid eventType => .bossEvent (g uid) eventType
  | .camera entity player => .camera (g entity) (g player)
  | .changeMobProperty uid => .changeMobProperty (g uid)
  | .clientBoundMapItemData objects =>
      .clientBoundMapItemData (objects.map (List.map (MapTrackedObject.mapIDs g)))
  | .clientboundStonecutterSetRecipe uid => .clientboundStonecutterSetRecipe (g uid)
  | .clientCheatAbility uid => .clientCheatAbility (g uid)
  | .commandBlockUpdate block rid => .commandBlockUpdate block (if block then rid else f rid)
  | .commandOutput uid => .commandOutput (g uid)
  | .commandRequest uid => .commandRequest (g uid)
  | .containerOpen uid => .containerOpen (g uid)
  | .createPhoto uid => .createPhoto (g uid)
  | .debugInfo uid => .debugInfo (g uid)
  | .emote rid => .emote (f rid)
  | .emoteList rid => .emoteList (f rid)
  | .interact rid => .interact (f rid)
  | .inventoryTransaction (.useItemOnEntity rid) => .inventoryTransaction (.useItemOnEntity (f rid))
  | .mobArmourEquipment rid => .mobArmourEquipment (f rid)
  | .mobEffect rid operation effectType => .mobEffect (f rid) operation effectType
  | .mobEquipment rid => .mobEquipment (f rid)
  | .motionPredictionHints rid => .motionPredictionHints (f rid)
  | .moveActorAbsolute rid => .moveActorAbsolute (f rid)
  | .moveActorDelta rid => .moveActorDelta (f rid)
  | .movePlayer rid ridden => .movePlayer (f rid) (f ridden)
  | .npcDialogue uid => .npcDialogue (mapUInt64 g uid)
  | .npcRequest rid => .npcRequest (f rid)
  | .photoTransfer uid => .photoTransfer (g uid)
  | .playerAction rid actionType => .playerAction (f rid) actionType
  | .playerAuthInput predicted vehicle =>
      .playerAuthInput predicted (if predicted then vehicle.map g else vehicle)
  | .playerList entries => .playerList (entries.map (PlayerListEntry.mapIDs g))
  | .removeActor uid => .removeActor (g uid)
  | .respawn rid state => .respawn (f rid) state
  | .setActorLink link => .setActorLink (link.mapIDs g)
  | .setActorMotion rid => .setActorMotion (f rid)
  | .setPassengerOfBlock uid => .setPassengerOfBlock (g uid)
  | .setLocalPlayerAsInitialised rid => .setLocalPlayerAsInitialised (f rid)
  | .setScore entries => .setScore (entries.map (ScoreboardEntry.mapIDs g))
  | .setScoreboardIdentity clear ids =>
      .setScoreboardIdentity clear (if clear then ids else ids.map (Option.map g))
  | .showCredits rid => .showCredits (f rid)
  | .spawnParticleEffect uid => .spawnParticleEffect (g uid)
  | .startGame uid rid => .startGame (g uid) (f rid)
  | .structureBlockUpdate uid => .structureBlockUpdate (g uid)
  | .structureTemplateDataRequest uid => .structureTemplateDataRequest (g uid)
  | .takeItemActor item taker => .takeItemActor (f item) (f taker)
  | .updateAbilities uid => .updateAbilities (g uid)
  | .updateAttributes rid => .updateAttributes (f rid)
  | .updateBlockSynced uid => .updateBlockSynced (mapUInt64 g uid)
  | .updateEquip uid => .updateEquip (g uid)
  | .updatePlayerGameType uid => .updatePlayerGameType (g uid)
  | .updateSubChunkBlocks blocks extra =>
      .updateSubChunkBlocks (blocks.map (mapUInt64 g)) (extra.map (mapUInt64 g))
  | .updateTrade villager uid => .updateTrade (g villager) (g uid)
  | pk => pk

/-- What is left of a packet when its translated IDs are forgotten. -/
def withoutIDs (pk : Packet) : Packet := pk.mapIDs (fun _ => 0) (fun _ => 0)

end Packet

end Rewriting

/-! ## Rewriting is functorial -/

section Composition

variable (f f' : UInt64 → UInt64) (g g' : Int64 → Int64)

theorem mapUInt64_comp : mapUInt64 g ∘ mapUInt64 g' = mapUInt64 (g ∘ g') := by
  funext id
  simp [mapUInt64]

theorem mapUInt64_id : mapUInt64 id = id := by
  funext id
  simp [mapUInt64]

theorem MapTrackedObject.mapIDs_comp :
    MapTrackedObject.mapIDs g ∘ MapTrackedObject.mapIDs g' = MapTrackedObject.mapIDs (g ∘ g') := by
  funext ⟨entity, uid⟩
  cases entity <;> simp [mapIDs]

theorem MapTrackedObject.mapIDs_id : MapTrackedObject.mapIDs id = id := by
  funext ⟨entity, uid⟩
  cases entity <;> simp [mapIDs]

theorem PlayerListEntry.mapIDs_comp :
    PlayerListEntry.mapIDs g ∘ PlayerListEntry.mapIDs g' = PlayerListEntry.mapIDs (g ∘ g') := rfl

theorem PlayerListEntry.mapIDs_id : PlayerListEntry.mapIDs id = id := rfl

theorem ScoreboardEntry.mapIDs_comp :
    ScoreboardEntry.mapIDs g ∘ ScoreboardEntry.mapIDs g' = ScoreboardEntry.mapIDs (g ∘ g') := by
  funext ⟨fakePlayer, uid⟩
  cases fakePlayer <;> simp [mapIDs]

theorem ScoreboardEntry.mapIDs_id : ScoreboardEntry.mapIDs id = id := by
  funext ⟨fakePlayer, uid⟩
  cases fakePlayer <;> simp [mapIDs]

namespace Packet

/-- The rewritten fields are the same ones the second time: no condition reads an
ID, and no field is rewritten twice. -/
theorem mapIDs_comp (pk : Packet) :
    (pk.mapIDs f' g').mapIDs f g = pk.mapIDs (f ∘ f') (g ∘ g') := by
  cases pk with
  | clientBoundMapItemData objects =>
      cases objects <;> simp [mapIDs, ← MapTrackedObject.mapIDs_comp]
  | commandBlockUpdate block rid => cases block <;> rfl
  | inventoryTransaction data => cases data <;> rfl
  | playerAuthInput predicted vehicle => cases predicted <;> simp [mapIDs]
  | setScoreboardIdentity clear ids => cases clear <;> simp [mapIDs]
  | npcDialogue uid | updateBlockSynced uid => simp [mapIDs, ← mapUInt64_comp]
  | updateSubChunkBlocks blocks extra => simp [mapIDs, ← mapUInt64_comp]
  | setScore entries => simp [mapIDs, ← ScoreboardEntry.mapIDs_comp]
  | playerList entries => simp [mapIDs, ← PlayerListEntry.mapIDs_comp]
  | animateEntity rids => simp [mapIDs]
  | _ => rfl

theorem mapIDs_id (pk : Packet) : pk.mapIDs id id = pk := by
  cases pk with
  | clientBoundMapItemData objects => simp [mapIDs, MapTrackedObject.mapIDs_id]
  | commandBlockUpdate block rid => cases block <;> rfl
  | inventoryTransaction data => cases data <;> rfl
  | playerAuthInput predicted vehicle => cases predicted <;> simp [mapIDs]
  | setScoreboardIdentity clear ids => cases clear <;> simp [mapIDs]
  | npcDialogue uid | updateBlockSynced uid => simp [mapIDs, mapUInt64_id]
  | updateSubChunkBlocks blocks extra => simp [mapIDs, mapUInt64_id]
  | setScore entries => simp [mapIDs, ScoreboardEntry.mapIDs_id]
  | playerList entries => simp [mapIDs, PlayerListEntry.mapIDs_id]
  | animateEntity rids => simp [mapIDs]
  | _ => rfl

theorem reversible_mapIDs (pk : Packet) : (pk.mapIDs f g).reversible = pk.reversible := by
  cases pk with
  | inventoryTransaction data => cases data <;> rfl
  | _ => rfl

end Packet

end Composition

/-! ## The translator's two exchanges -/

section Exchange

variable (original ids : EntityIDs)

/-- The exchange `translateRuntimeID` makes in a state of the translator. -/
def EntityIDs.swapRuntimeID : Equiv.Perm UInt64 := Equiv.swap original.runtimeID ids.runtimeID

/-- The exchange `translateUniqueID` makes in a state of the translator. -/
def EntityIDs.swapUniqueID : Equiv.Perm Int64 := Equiv.swap original.uniqueID ids.uniqueID

@[simp] theorem eval_translateRuntimeID (id : UInt64) :
    (translateRuntimeID original id).eval ids.register = original.swapRuntimeID ids id := by
  simp only [translateRuntimeID, EntityIDs.swapRuntimeID, Equiv.swap_apply_def, @eq_comm _ id]
  rfl

@[simp] theorem eval_translateUniqueID (id : Int64) :
    (translateUniqueID original id).eval ids.register = original.swapUniqueID ids id := by
  simp only [translateUniqueID, EntityIDs.swapUniqueID, Equiv.swap_apply_def, @eq_comm _ id]
  rfl

@[simp] theorem eval_translateUniqueIDUInt64 (id : UInt64) :
    (translateUniqueIDUInt64 original id).eval ids.register =
      mapUInt64 (original.swapUniqueID ids) id := by
  simp [translateUniqueIDUInt64, mapUInt64]

@[simp] theorem eval_translateEntityLink (x : EntityLink) :
    (translateEntityLink original x).eval ids.register = x.mapIDs (original.swapUniqueID ids) := by
  simp [translateEntityLink, EntityLink.mapIDs]

@[simp] theorem eval_translateOptional (x : Option Int64) :
    (translateOptional original x).eval ids.register = x.map (original.swapUniqueID ids) := by
  cases x <;> simp [translateOptional]

@[simp] theorem eval_translateTrackedObject (x : MapTrackedObject) :
    (translateTrackedObject original x).eval ids.register =
      x.mapIDs (original.swapUniqueID ids) := by
  unfold translateTrackedObject MapTrackedObject.mapIDs
  split <;> simp

/-- `translatePacket` rewrites exactly the translated IDs. -/
theorem translated_eq_mapIDs (pk : Packet) (reversible : pk.reversible = true) :
    translated original ids pk =
      pk.mapIDs (original.swapRuntimeID ids) (original.swapUniqueID ids) := by
  cases pk with
  | clientBoundMapItemData objects =>
      cases objects <;> simp [translated, translatePacket, Packet.mapIDs]
  | commandBlockUpdate block rid =>
      cases block <;> simp [translated, translatePacket, Packet.mapIDs]
  | inventoryTransaction data =>
      cases data <;> simp [translated, translatePacket, Packet.mapIDs]
  | playerAuthInput predicted vehicle =>
      cases predicted <;> simp [translated, translatePacket, Packet.mapIDs]
  | setScoreboardIdentity clear ids =>
      cases clear <;> simp [translated, translatePacket, Packet.mapIDs]
  | playerList entries =>
      simp [translated, translatePacket, Packet.mapIDs, PlayerListEntry.mapIDs]
  | setScore entries =>
      simp only [translated, translatePacket, Packet.mapIDs, Query.eval_map, Query.eval_mapM,
        Packet.setScore.injEq]
      refine List.map_congr_left fun e _ => ?_
      unfold ScoreboardEntry.mapIDs
      split <;> simp
  | addActor | addItemActor | addPlayer | setActorData | addVolumeEntity | removeVolumeEntity
  | event => cases reversible
  | _ => simp [translated, translatePacket, Packet.mapIDs]

end Exchange

/-! ## Over any number of transfers -/

/-- `f` is its own inverse, exchanges `a` with `b` and fixes everything else. -/
structure Exchanges {α : Type} (f : α → α) (a b : α) : Prop where
  bijective : f.Bijective
  involutive : f.Involutive
  left : f a = b
  right : f b = a
  fixes : ∀ x, x ≠ a → x ≠ b → f x = x

theorem exchanges_swap {α : Type} [DecidableEq α] (a b : α) : Exchanges (Equiv.swap a b) a b where
  bijective := (Equiv.swap a b).bijective
  involutive := Equiv.swap_apply_self a b
  left := Equiv.swap_apply_left a b
  right := Equiv.swap_apply_right a b
  fixes := fun _ ne_left ne_right => Equiv.swap_apply_of_ne_of_ne ne_left ne_right

namespace Translator

variable (t : Translator)

/-- `t.translateRuntimeID(id)`. -/
def runtimeID (id : UInt64) : UInt64 := (translateRuntimeID t.original id).eval t.current.register

/-- `t.translateUniqueID(id)`. -/
def uniqueID (id : Int64) : Int64 := (translateUniqueID t.original id).eval t.current.register

/-- The packet that `t.translatePacket(pk)` makes of `pk`. -/
def packet (pk : Packet) : Packet := translated t.original t.current pk

theorem packet_packet (pk : Packet) (reversible : pk.reversible = true) :
    t.packet (t.packet pk) = pk := by
  have swapped_runtime : t.original.swapRuntimeID t.current ∘ t.original.swapRuntimeID t.current =
      id := funext (Equiv.swap_apply_self _ _)
  have swapped_unique : t.original.swapUniqueID t.current ∘ t.original.swapUniqueID t.current =
      id := funext (Equiv.swap_apply_self _ _)
  have once := translated_eq_mapIDs t.original t.current pk reversible
  unfold packet
  rw [once, translated_eq_mapIDs, Packet.mapIDs_comp, swapped_runtime, swapped_unique,
    Packet.mapIDs_id]
  rw [Packet.reversible_mapIDs]
  exact reversible

theorem withoutIDs_packet (pk : Packet) (reversible : pk.reversible = true) :
    (t.packet pk).withoutIDs = pk.withoutIDs := by
  unfold packet
  rw [translated_eq_mapIDs _ _ pk reversible]
  exact Packet.mapIDs_comp _ _ _ _ pk

/-- `updateTranslatorData` never touches the original IDs, and its last call decides
the current ones. -/
theorem foldl_updateTranslatorData (original : EntityIDs) (data : GameData)
    (updates : List GameData) :
    updates.foldl updateTranslatorData ⟨original, data.ids⟩ =
      ⟨original, (updates.getLastD data).ids⟩ := by
  induction updates generalizing data with
  | nil => rfl
  | cons next updates ih =>
      rw [List.getLastD_cons]
      exact ih next

end Translator

/-- Translating twice gives back every ID and every packet of a reversible type,
whatever the servers the player has been on called them. -/
theorem translation_undone (data : GameData) (updates : List GameData) :
    let t := updates.foldl Translator.updateTranslatorData (newTranslator data)
    let latest := updates.getLastD data
    Exchanges t.runtimeID data.entityRuntimeID latest.entityRuntimeID ∧
      Exchanges t.uniqueID data.entityUniqueID latest.entityUniqueID ∧
      ∀ pk : Packet, pk.reversible = true →
        t.packet (t.packet pk) = pk ∧ (t.packet pk).withoutIDs = pk.withoutIDs := by
  intro t latest
  have state : t = ⟨data.ids, latest.ids⟩ :=
    Translator.foldl_updateTranslatorData data.ids data updates
  refine ⟨?_, ?_, fun pk reversible => ⟨t.packet_packet pk reversible, t.withoutIDs_packet pk reversible⟩⟩
  · have runtimeID : t.runtimeID = Equiv.swap data.entityRuntimeID latest.entityRuntimeID :=
      funext fun id => by rw [state]; exact eval_translateRuntimeID data.ids latest.ids id
    rw [runtimeID]
    exact exchanges_swap _ _
  · have uniqueID : t.uniqueID = Equiv.swap data.entityUniqueID latest.entityUniqueID :=
      funext fun id => by rw [state]; exact eval_translateUniqueID data.ids latest.ids id
    rw [uniqueID]
    exact exchanges_swap _ _

/-- Over two transfers: back to the original name, and on to the second server's. -/
theorem translation_undone_twice :
    let t := [(⟨3, 4, 0⟩ : GameData), ⟨5, 6, 0⟩].foldl Translator.updateTranslatorData
      (newTranslator ⟨1, 2, 0⟩)
    t.packet (.startGame 2 1) = .startGame 6 5 ∧ t.packet (.startGame 4 3) = .startGame 4 3 ∧
      t.packet (t.packet (.setScore [⟨false, 2⟩, ⟨true, 2⟩])) =
        .setScore [⟨false, 2⟩, ⟨true, 2⟩] := by
  obtain ⟨-, -, undone⟩ := translation_undone ⟨1, 2, 0⟩ [⟨3, 4, 0⟩, ⟨5, 6, 0⟩]
  exact ⟨rfl, rfl, (undone (.setScore [⟨false, 2⟩, ⟨true, 2⟩]) rfl).1⟩

end Portal
