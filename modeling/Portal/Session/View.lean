/-
# Session.View — what the client still shows after a transfer

The client's view is what the packets written to it leave there when they are replayed:
entities, entries of the player list, boss bars and objectives.  The server->client loop
writes the packets of the backend, and `finishTransferDimensionChange` the removal of
everything in the tracking sets (`Sweep`).  The other packets of the proxy change nothing in
the view.

A packet changes the tracking sets as it changes the view (`track_view`), only earlier, so
the view is an `Aspect` that the loop tracks (`viewed`): it is within the tracking sets as
long as the loop runs (`Aspect.Covered`), whatever the packets say.  When the loop holds no packet
the removals reach all of the view, and nothing is left (`transfer_leaves_nothing`).
-/
import Portal.Session.Sweep

namespace Portal

open Portal.Theory.Replay Portal.Theory.Transition

set_option autoImplicit false

/-- What a client can show. -/
inductive Shown where
  /-- an entity, of `AddActor`, `AddItemActor`, `AddPainting` or `AddPlayer` -/
  | entity (uniqueID : Int64)
  | player (uuid : Nat)
  | bossBar (uniqueID : Int64)
  | objective (name : String)
  deriving DecidableEq

abbrev View := Shown → Bool

/-- What a packet puts into the view and takes out of it, in order. -/
def Packet.changes : Packet → List (Shown × Bool)
  | .addActor uid _ _ _ => [(.entity uid, true)]
  | .addItemActor uid _ _ => [(.entity uid, true)]
  | .addPainting uid _ => [(.entity uid, true)]
  | .addPlayer uid _ _ _ => [(.entity uid, true)]
  | .removeActor uid => [(.entity uid, false)]
  | .playerList entries => entries.map fun e => (.player e.uuid, e.add)
  | .bossEvent uid .show => [(.bossBar uid, true)]
  | .bossEvent uid .hide => [(.bossBar uid, false)]
  | .setDisplayObjective name => [(.objective name, true)]
  | .removeObjective name => [(.objective name, false)]
  | _ => []

/-- The view of a client to whom these packets were written. -/
def viewOf (written : List Packet) : View :=
  replay (fun _ => false) (written.flatMap Packet.changes)

/-- What the tracking sets say is shown. -/
def Tracked.view (t : Tracked) : View
  | .entity uid => uid ∈ t.entities
  | .player uuid => uuid ∈ t.playerList
  | .bossBar uid => uid ∈ t.bossBars
  | .objective name => name ∈ t.scoreboards

/-! ## Tracking and showing -/

section Sets

variable {α : Type} [DecidableEq α] (x : α) (set : Finset α)

/-- A set that differs from another in one element at most. -/
def Differs (set set' : Finset α) (x : α) (b : Bool) : Prop :=
  decide (x ∈ set') = b ∧ ∀ y, y ≠ x → decide (y ∈ set') = decide (y ∈ set)

theorem differs_insert : Differs set (insert x set) x true :=
  ⟨decide_eq_true (Finset.mem_insert_self x set),
    fun _ other => decide_eq_decide.mpr
      ⟨fun inside => Finset.mem_of_mem_insert_of_ne inside other, Finset.mem_insert_of_mem⟩⟩

theorem differs_erase : Differs set (set.erase x) x false :=
  ⟨decide_eq_false (Finset.notMem_erase x set),
    fun _ other => decide_eq_decide.mpr ⟨Finset.mem_of_mem_erase, Finset.mem_erase_of_ne_of_mem other⟩⟩

end Sets

section OneSet

variable {t t' : Tracked} {b : Bool}

theorem view_eq_update {x : Shown} (here : t'.view x = b)
    (apart : ∀ y, y ≠ x → t'.view y = t.view y) : t'.view = Function.update t.view x b := by
  funext y
  by_cases same : y = x
  · rw [same, Function.update_self, here]
  · rw [Function.update_of_ne same, apart y same]

theorem view_entities {set : Finset Int64} {uid : Int64} (differs : Differs t.entities set uid b) :
    ({ t with entities := set } : Tracked).view = Function.update t.view (.entity uid) b := by
  refine view_eq_update differs.1 fun y other => ?_
  cases y with
  | entity id => exact differs.2 id fun same => other (congrArg _ same)
  | _ => rfl

theorem view_playerList {set : Finset Nat} {uuid : Nat} (differs : Differs t.playerList set uuid b) :
    ({ t with playerList := set } : Tracked).view = Function.update t.view (.player uuid) b := by
  refine view_eq_update differs.1 fun y other => ?_
  cases y with
  | player id => exact differs.2 id fun same => other (congrArg _ same)
  | _ => rfl

theorem view_bossBars {set : Finset Int64} {uid : Int64} (differs : Differs t.bossBars set uid b) :
    ({ t with bossBars := set } : Tracked).view = Function.update t.view (.bossBar uid) b := by
  refine view_eq_update differs.1 fun y other => ?_
  cases y with
  | bossBar id => exact differs.2 id fun same => other (congrArg _ same)
  | _ => rfl

theorem view_scoreboards {set : Finset String} {name : String}
    (differs : Differs t.scoreboards set name b) :
    ({ t with scoreboards := set } : Tracked).view = Function.update t.view (.objective name) b := by
  refine view_eq_update differs.1 fun y other => ?_
  cases y with
  | objective id => exact differs.2 id fun same => other (congrArg _ same)
  | _ => rfl

/-- The loop over the entries of a `PlayerList`, whose actions may be mixed. -/
theorem view_entries (t : Tracked) (entries : List PlayerListEntry) :
    ({ t with playerList := entries.foldl (fun list e =>
        if e.add then insert e.uuid list else list.erase e.uuid) t.playerList } : Tracked).view =
      replay t.view (entries.map fun e => (.player e.uuid, e.add)) := by
  induction entries generalizing t with
  | nil => rfl
  | cons e entries ih =>
      rw [List.foldl_cons, List.map_cons, replay_cons]
      cases e.add with
      | true =>
          rw [← view_playerList (differs_insert e.uuid t.playerList)]
          exact ih { t with playerList := insert e.uuid t.playerList }
      | false =>
          rw [← view_playerList (differs_erase e.uuid t.playerList)]
          exact ih { t with playerList := t.playerList.erase e.uuid }

end OneSet

/-- **A packet changes the tracking sets as it changes the view.** -/
theorem track_view (t : Tracked) (pk : Packet) :
    (Session.track t pk).view = replay t.view pk.changes := by
  cases pk with
  | addActor uid _ _ _ | addItemActor uid _ _ | addPainting uid _ | addPlayer uid _ _ _ =>
      exact view_entities (differs_insert uid t.entities)
  | removeActor uid => exact view_entities (differs_erase uid t.entities)
  | playerList entries => exact view_entries t entries
  | bossEvent uid event =>
      cases event with
      | «show» => exact view_bossBars (differs_insert uid t.bossBars)
      | hide => exact view_bossBars (differs_erase uid t.bossBars)
      | other => rfl
  | mobEffect _ operation _ =>
      funext x
      cases operation <;> cases x <;> rfl
  | setDisplayObjective name => exact view_scoreboards (differs_insert name t.scoreboards)
  | removeObjective name => exact view_scoreboards (differs_erase name t.scoreboards)
  | _ => rfl

/-- The packets of a sweep only take out. -/
theorem Sweep.removals (w : Sweep) (originalRuntimeID : UInt64) {change : Shown × Bool}
    (member : change ∈ (w.packets originalRuntimeID).flatMap Packet.changes) : change.2 = false := by
  obtain ⟨pk, written, inside⟩ := List.mem_flatMap.mp member
  revert pk
  apply Sweep.packets_elim
  · intro id inside
    rw [List.mem_singleton.mp inside]
  · intro effectType inside
    cases inside
  · intro inside
    obtain ⟨e, listed, rfl⟩ := List.mem_map.mp inside
    obtain ⟨uuid, -, rfl⟩ := List.mem_map.mp listed
    rfl
  · intro id inside
    rw [List.mem_singleton.mp inside]
  · intro name inside
    rw [List.mem_singleton.mp inside]

/-- They take out everything in the tracking sets. -/
theorem Sweep.reaches {w : Sweep} {t : Tracked} (walks : w.walks t = true)
    (originalRuntimeID : UInt64) {x : Shown} (tracked : t.view x = true) :
    (x, false) ∈ (w.packets originalRuntimeID).flatMap Packet.changes := by
  obtain ⟨entities, -, playerList, bossBars, scoreboards⟩ := of_decide_eq_true walks
  rw [List.mem_flatMap]
  simp only [Sweep.packets, mem_interleave, List.mem_append, List.mem_cons]
  cases x with
  | entity id =>
      have visited : id ∈ w.entities := List.mem_toFinset.mp (entities ▸ of_decide_eq_true tracked)
      exact ⟨.removeActor id, .inl (.inl (List.mem_map_of_mem visited)), List.mem_singleton_self _⟩
  | player id =>
      have visited : id ∈ w.playerList :=
        List.mem_toFinset.mp (playerList ▸ of_decide_eq_true tracked)
      exact ⟨_, .inr (.inl rfl), List.mem_map.mpr ⟨_, List.mem_map_of_mem visited, rfl⟩⟩
  | bossBar id =>
      have visited : id ∈ w.bossBars := List.mem_toFinset.mp (bossBars ▸ of_decide_eq_true tracked)
      exact ⟨.bossEvent id .hide, .inr (.inr (.inl (List.mem_map.mpr ⟨id, visited, rfl⟩))),
        List.mem_singleton_self _⟩
  | objective name =>
      have visited : name ∈ w.scoreboards :=
        List.mem_toFinset.mp (scoreboards ▸ of_decide_eq_true tracked)
      exact ⟨.removeObjective name, .inr (.inr (.inr (List.mem_map_of_mem visited))),
        List.mem_singleton_self _⟩

/-- **A sweep leaves nothing** of a view that is within the tracking sets. -/
theorem Sweep.clears {w : Sweep} {t : Tracked} {v : View} (walks : w.walks t = true)
    (within : Within v t.view) (originalRuntimeID : UInt64) (x : Shown) :
    replay v ((w.packets originalRuntimeID).flatMap Packet.changes) x = false :=
  replay_cleared (fun _ => w.removals originalRuntimeID)
    (fun x shown => Sweep.reaches walks originalRuntimeID (within x shown)) x

/-! ## Every run -/

namespace Session

variable {s : Session} {packets : List Packet} {w : Sweep} {input : Input}

/-- The view, and what the tracking sets say of it. -/
def viewed : Aspect Shown := ⟨Packet.changes, Tracked.view⟩

theorem viewed_tracks (s : Session) (v : View) : viewed.Tracks s v := by
  intro c read pk _ within
  show Within (replay v pk.changes) (track s.tracked pk).view
  rw [track_view]
  exact replay_mono within pk.changes

/-- The packets that `finishTransferDimensionChange` writes. -/
theorem viewed_clears {f : Inbound} {c : Conn} (at_ : s.client = .wiping f c)
    (shown : s.shows w (.client, input) = some packets) : viewed.Clears s packets := by
  simp only [shows, at_] at shown
  split at shown <;> cases shown
  rename_i walks
  exact fun v within => Sweep.clears walks within _

theorem faced {p : Session × List Packet}
    (reached : watched.Reach (fun p a => p.1.interlude a.1 = true) p) : viewed.Faced p.1 p.2 := by
  refine reached.invariant (I := fun p : Session × List Packet => viewed.Faced p.1 p.2)
    (Aspect.faced_nil rfl rfl) ?_
  rintro p p' ⟨⟨actor, input⟩, w⟩ before faced ok taken
  obtain ⟨packets, stepped, shown, rest⟩ := watched_next taken
  rw [rest]
  refine faced.next (wired (watched_reachable before)) (fun _ _ => rfl)
    (fun _ => viewed_tracks _ _) ?_ ok shown stepped
  rintro rfl f c at_
  exact viewed_clears at_ shown

/-- **A transfer leaves nothing of the old server on the client.**  In every run with a
handler that passes the packets on, and with any number of transfers, each finished between
two packets of the server->client loop: the statement with which
`finishTransferDimensionChange` returns leaves the client with an empty view, whatever the
packets were. -/
theorem transfer_leaves_nothing {s s' : Session} {written written' : List Packet}
    (reached : watched.Reach (fun p a => p.1.interlude a.1 = true) (s, written))
    (inside : s.client.finishing.isSome = true) {input : Input} {w : Sweep}
    (taken : watched.next (s, written) ((.client, input), w) = some (s', written'))
    (returned : s'.client.finishing = none) (x : Shown) : viewOf written' x = false := by
  obtain ⟨packets, stepped, shown, rest⟩ := watched_next taken
  have stepped : s.clientStep input s.client = some s' := ownStep_of_next stepped rfl
  simp only at rest shown
  cases at_ : s.client with
  | switching f c =>
      have quiet : s.shows w (.client, input) = some [] := shows_client (by simp [at_])
      cases quiet.symm.trans shown
      rw [rest, List.append_nil]
      exact (faced reached).swept (by rw [at_]; rfl) x
  | announcing f c | wiping f c =>
      simp only [at_, clientStep] at stepped
      cases stepped
      cases returned
  | reviving f c | dropping f c =>
      simp only [at_, clientStep] at stepped
      split at stepped <;> cases stepped
      · simp [panic, at_, ClientState.finishing] at returned
      · cases returned
  | _ =>
      rw [at_] at inside
      cases inside

/-- The player joins, is shown a painting and is transferred, up to the switch. -/
def departure : List Action :=
  joining lobby lobbyData ++ steps .server 1 ++ ([(.server, .packet addPainting)] : List Action) ++
    steps .server 4 ++ ([(.server, .verdict false)] : List Action) ++ steps .server 1 ++
    transferCall 0 game gameData ++ acknowledging ++ steps .client 5

theorem transfer_leaves_nothing_painting :
    ∃ s s' written input w,
      watched.Reach (fun p a => p.1.interlude a.1 = true) (s, written) ∧
      s.client.finishing.isSome = true ∧
      watched.next (s, written) ((.client, input), w) = some (s', written) ∧
      s'.client.finishing = none ∧
      written = [addPainting, .removeActor 7, .playerList []] ∧
      ∀ x, viewOf written x = false := by
  have reached : watched.Reach (fun p a => p.1.interlude a.1 = true) _ :=
    Machine.exec_reach (departure.map fun a => (a, ⟨[7], [], [], [], [], []⟩)) rfl
  obtain ⟨s, s', written, reached, inside, taken, returned, packets⟩ :
      ∃ s s' written, watched.Reach (fun p a => p.1.interlude a.1 = true) (s, written) ∧
        s.client.finishing.isSome = true ∧
        watched.next (s, written) ((.client, .go), ⟨[], [], [], [], [], []⟩) = some (s', written) ∧
        s'.client.finishing = none ∧ written = [addPainting, .removeActor 7, .playerList []] :=
    ⟨_, _, _, reached, rfl, rfl, rfl, rfl⟩
  exact ⟨s, s', written, .go, _, reached, inside, taken, returned, packets,
    transfer_leaves_nothing reached inside taken returned⟩

end Session

end Portal
