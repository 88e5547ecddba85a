/-
# Session.Effects — the status effects of the player after a transfer

The client keeps the effects of every entity; those of its own entity, which has the
`originalRuntimeID`, outlive the change of server unless they are removed.  `clearEffects`
removes for the player every effect type in `s.effects`.  But the server->client loop keeps
that set by effect type alone, for whatever entity the `MobEffect` is: a mob that loses an
effect takes it out of the set while the player has it still
(`mob_takes_effect_along`).

As long as no other entity loses an effect that is active on the player, the player's effects
are an `Aspect` that the loop tracks, and a transfer removes them all
(`transfer_removes_effects`).
-/
import Portal.Session.Numbering
import Portal.Session.Sweep

namespace Portal

open Portal.Theory.Replay Portal.Theory.Transition

set_option autoImplicit false

/-- What a packet does to the effects of the entity `rid` at the client. -/
def Packet.effectChanges (rid : UInt64) : Packet → List (Int32 × Bool)
  | .mobEffect entity .add effectType => if entity = rid then [(effectType, true)] else []
  | .mobEffect entity .remove effectType => if entity = rid then [(effectType, false)] else []
  | _ => []

/-- The effects of the entity `rid`, and the set of tracked effect types. -/
def effectsOf (rid : UInt64) : Aspect Int32 where
  changes := Packet.effectChanges rid
  tracked := fun t effectType => effectType ∈ t.effects

/-- The effect types that are active on the entity `rid`: the last add or remove was an
add. -/
def activeEffects (rid : UInt64) (written : List Packet) : Int32 → Bool := (effectsOf rid).shown written

/-- Only a `MobEffect` changes the set. -/
theorem track_effects (t : Tracked) (pk : Packet)
    (apart : ∀ rid operation effectType, pk ≠ .mobEffect rid operation effectType) :
    (Session.track t pk).effects = t.effects := by
  cases pk with
  | mobEffect rid operation effectType => exact absurd rfl (apart rid operation effectType)
  | bossEvent uid event => cases event <;> rfl
  | _ => rfl

/-! ## The removals -/

theorem Sweep.effect_removals (w : Sweep) (rid : UInt64) {change : Int32 × Bool}
    (member : change ∈ (w.packets rid).flatMap (Packet.effectChanges rid)) : change.2 = false := by
  obtain ⟨pk, written, inside⟩ := List.mem_flatMap.mp member
  revert pk
  apply Sweep.packets_elim
  · intro id inside
    cases inside
  · intro effectType inside
    simp only [Packet.effectChanges, if_true, List.mem_singleton] at inside
    rw [inside]
  · intro inside
    cases inside
  · intro id inside
    cases inside
  · intro name inside
    cases inside

/-- Every tracked effect type is removed for the player. -/
theorem Sweep.removes_effect {w : Sweep} {t : Tracked} (walks : w.walks t = true) (rid : UInt64)
    {effectType : Int32} (tracked : effectType ∈ t.effects) :
    .mobEffect rid .remove effectType ∈ w.packets rid := by
  obtain ⟨-, effects, -⟩ := of_decide_eq_true walks
  have visited : effectType ∈ w.effects := List.mem_toFinset.mp (effects ▸ tracked)
  rw [Sweep.packets, mem_interleave]
  exact .inl (List.mem_append_right _ (List.mem_map_of_mem visited))

theorem Sweep.clears_effects {w : Sweep} {t : Tracked} {v : Int32 → Bool} (walks : w.walks t = true)
    (rid : UInt64) (within : Within v ((effectsOf rid).tracked t)) (x : Int32) :
    replay v ((w.packets rid).flatMap (Packet.effectChanges rid)) x = false := by
  refine replay_cleared (fun _ => w.effect_removals rid) (fun x shown => ?_) x
  have removed := Sweep.removes_effect walks rid (of_decide_eq_true (within x shown))
  exact List.mem_flatMap.mpr ⟨_, removed, by simp [Packet.effectChanges]⟩

namespace Session

variable {s s' : Session} {written packets : List Packet} {w : Sweep} {a : Action}
  {input : Input} {t : Translator}

/-- A `MobEffect` that takes an effect from another entity is tracked only while the effect
type is not active on the player. -/
def spares (p : Session × List Packet) (a : Action) : Bool :=
  match a.1, p.1.serverLoop, p.1.translator with
  | .server, .tracking _ _ (.mobEffect entity .remove effectType), some t =>
      entity = t.original.runtimeID || !activeEffects t.original.runtimeID p.2 effectType
  | _, _, _ => true

/-- The condition on a statement. -/
def Sparing (p : Session × List Packet) (a : Action × Sweep) : Prop :=
  p.1.interlude a.1 = true ∧ spares p a.1 = true

instance (p : Session × List Packet) (a : Action × Sweep) : Decidable (Sparing p a) :=
  inferInstanceAs (Decidable (_ ∧ _))

/-- An effect is added, for the player or for somebody else. -/
theorem within_add {v : Int32 → Bool} {set : Finset Int32} {rid entity : UInt64} {effectType : Int32}
    (within : Within v fun x => x ∈ set) :
    Within (replay v (Packet.effectChanges rid (.mobEffect entity .add effectType)))
      fun x => x ∈ insert effectType set := by
  intro x shown
  apply decide_eq_true
  by_cases same : x = effectType
  · exact Finset.mem_insert.mpr (.inl same)
  · refine Finset.mem_insert_of_mem (of_decide_eq_true (within x ?_))
    simp only [Packet.effectChanges] at shown
    split at shown
    · rwa [replay_single, Function.update_of_ne same] at shown
    · exact shown

/-- An effect is removed, for the player, or for somebody else while the player does not
have it. -/
theorem within_remove {v : Int32 → Bool} {set : Finset Int32} {rid entity : UInt64}
    {effectType : Int32} (within : Within v fun x => x ∈ set)
    (spared : entity = rid ∨ v effectType = false) :
    Within (replay v (Packet.effectChanges rid (.mobEffect entity .remove effectType)))
      fun x => x ∈ set.erase effectType := by
  intro x shown
  simp only [Packet.effectChanges] at shown
  have kept : x ≠ effectType ∧ v x = true := by
    split at shown
    · have other : x ≠ effectType := by
        rintro rfl
        rw [replay_single, Function.update_self] at shown
        cases shown
      rw [replay_single, Function.update_of_ne other] at shown
      exact ⟨other, shown⟩
    · rename_i apart
      refine ⟨?_, shown⟩
      rintro rfl
      rcases spared with own | inactive
      · exact apart own
      · exact Bool.false_ne_true (inactive.symm.trans shown)
  exact decide_eq_true (Finset.mem_erase.mpr ⟨kept.1, of_decide_eq_true (within x kept.2)⟩)

/-- The loop tracks the player's effects. -/
theorem effectsOf_tracks (spared : spares (s, written) (.server, input) = true)
    (translator : s.translator = some t) :
    (effectsOf t.original.runtimeID).Tracks s (activeEffects t.original.runtimeID written) := by
  intro c read pk at_ within
  by_cases effect : ∃ rid operation effectType, pk = .mobEffect rid operation effectType
  · obtain ⟨rid, operation, effectType, rfl⟩ := effect
    cases operation with
    | add => exact within_add within
    | modify => exact within
    | remove =>
        simp only [spares, at_, translator, Bool.or_eq_true, decide_eq_true_eq, Bool.not_eq_true'] at spared
        exact within_remove within spared
  · have apart : ∀ rid operation effectType, pk ≠ .mobEffect rid operation effectType :=
      fun rid operation effectType same => effect ⟨rid, operation, effectType, same⟩
    have silent : Packet.effectChanges t.original.runtimeID pk = [] := by
      unfold Packet.effectChanges
      split
      · exact absurd rfl (apart _ _ _)
      · exact absurd rfl (apart _ _ _)
      · rfl
    show Within (replay _ (Packet.effectChanges _ pk)) fun x => decide (x ∈ (track s.tracked pk).effects)
    rw [silent, track_effects s.tracked pk apart]
    exact within

/-- The packets that `finishTransferDimensionChange` writes. -/
theorem effectsOf_clears {f : Inbound} {c : Conn} (at_ : s.client = .wiping f c)
    (translator : s.translator = some t) (shown : s.shows w (.client, input) = some packets) :
    (effectsOf t.original.runtimeID).Clears s packets := by
  simp only [shows, at_, translator, Option.map_some, Option.getD_some] at shown
  split at shown <;> cases shown
  rename_i walks
  exact fun v within => Sweep.clears_effects walks _ within

/-- The original IDs are set once, before the loops start. -/
theorem next_original {t' : Translator} (wired : Wired s) (taken : s.next a = some s')
    (set : s'.translator = some t') :
    (∃ t, s.translator = some t ∧ t'.original = t.original) ∨
      (s.login ≠ .done .joined ∧ s'.serverLoop = .unstarted ∧ s'.client = .unstarted) := by
  refine next_elim_loops taken ?_ ?_ ?_ ?_ ?_
  · intro _ stepped
    obtain ⟨_, _, _, _, _, rfl⟩ := newStep_frame stepped
    exact .inl ⟨t', set, rfl⟩
  · intro _ stepped
    have unjoined := loginStep_unjoined stepped
    obtain ⟨client, loop⟩ := wired.loops_unstarted unjoined
    cases at_ : s.login with
    | translating c =>
        simp only [at_, loginStep, Option.some.injEq] at stepped
        subst stepped
        exact .inr ⟨at_ ▸ unjoined, loop, client⟩
    | _ =>
        left
        simp only [at_, loginStep] at stepped
        (repeat' split at stepped) <;> cases stepped <;> exact ⟨t', set, rfl⟩
  · intro _ stepped
    exact .inl (clientStep_original stepped set)
  · intro _ stepped
    obtain ⟨_, _, _, _, _, _, rfl⟩ := serverStep_frame stepped
    exact .inl ⟨t', set, rfl⟩
  · intro same
    exact .inl ⟨t', same.translator ▸ set, rfl⟩

/-- What holds between two statements. -/
structure Afflicted (p : Session × List Packet) : Prop where
  quiet : p.1.login ≠ .done .joined → p.2 = []
  faced : ∀ t, p.1.translator = some t → (effectsOf t.original.runtimeID).Faced p.1 p.2

theorem afflicted_start : Afflicted watched.start where
  quiet := fun _ => rfl
  faced := by
    intro t set
    cases set

/-- A login that has succeeded stays so. -/
theorem next_joined (wired : Wired s) (taken : s.next a = some s')
    (joined : s.login = .done .joined) : s'.login = .done .joined := by
  rcases next_login taken with same | ⟨-, stepped⟩ | ⟨-, stepped⟩
  · rw [same, joined]
  · cases (wired.unstarted_of_new stepped).symm.trans joined
  · exact absurd joined (loginStep_unjoined stepped)

/-- Before the loops run nothing is written. -/
theorem shows_unjoined (wired : Wired s) (unjoined : s.login ≠ .done .joined)
    (shown : s.shows w a = some packets) : packets = [] := by
  obtain ⟨client, loop⟩ := wired.loops_unstarted unjoined
  obtain ⟨actor, input⟩ := a
  have silent : s.shows w (actor, input) = some [] := by
    cases actor with
    | client => exact shows_client (by simp [client])
    | server => exact shows_server (by simp [loop])
    | _ => rfl
  exact Option.some.inj (shown.symm.trans silent)

theorem Afflicted.next {p p' : Session × List Packet} {a : Action × Sweep} (wired : Wired p.1)
    (afflicted : Afflicted p) (sparing : Sparing p a) (taken : watched.next p a = some p') :
    Afflicted p' := by
  obtain ⟨⟨actor, input⟩, w⟩ := a
  obtain ⟨ok, spared⟩ := sparing
  obtain ⟨packets, stepped, shown, rest⟩ := watched_next taken
  constructor
  · intro unjoined
    have before : p.1.login ≠ .done .joined := fun joined =>
      unjoined (next_joined wired stepped joined)
    rw [rest, afflicted.quiet before, shows_unjoined wired before shown]
    rfl
  · intro t' set
    rw [rest]
    rcases next_original wired stepped set with ⟨t, translator, same⟩ | ⟨unjoined, loop, client⟩
    · rw [same]
      refine (afflicted.faced t translator).next wired (fun _ _ => rfl) ?_ ?_ ok shown stepped
      · rintro rfl
        exact effectsOf_tracks spared translator
      · rintro rfl f c at_
        exact effectsOf_clears at_ translator shown
    · rw [afflicted.quiet unjoined, shows_unjoined wired unjoined shown]
      exact Aspect.faced_nil loop client

/-- **A transfer removes the player's effects.**  In every run with a handler that passes the
packets on, in which no other entity loses an effect that is active on the player: when
`finishTransferDimensionChange` clears the sets, it writes for every effect type that is
active on the player's entity a `MobEffect` that removes it. -/
theorem transfer_removes_effects {s s' : Session} {t : Translator} {written written' : List Packet}
    {f : Inbound} {c : Conn} {input : Input} {w : Sweep}
    (reached : watched.Reach Sparing (s, written)) (translator : s.translator = some t)
    (at_ : s.client = .wiping f c)
    (taken : watched.next (s, written) ((.client, input), w) = some (s', written')) :
    ∃ packets, written' = written ++ packets ∧ ∀ effectType,
      activeEffects t.original.runtimeID written effectType = true →
        .mobEffect t.original.runtimeID .remove effectType ∈ packets := by
  have afflicted : Afflicted (s, written) := by
    refine reached.invariant afflicted_start ?_
    intro p p' a before afflicted sparing taken
    exact afflicted.next (wired (watched_reachable before)) sparing taken
  obtain ⟨-, within⟩ := (afflicted.faced t translator).between (by rw [at_]; rfl)
  obtain ⟨packets, -, shown, rest⟩ := watched_next taken
  refine ⟨packets, rest, fun effectType active => ?_⟩
  simp only [shows, at_, translator, Option.map_some, Option.getD_some] at shown
  split at shown <;> cases shown
  rename_i walks
  exact Sweep.removes_effect walks _ (of_decide_eq_true (within effectType active))

/-- The server->client loop takes a packet with one ID in it from the backend to
the client. -/
def passing (pk : Packet) : List Action :=
  [(.server, .go), (.server, .packet pk), (.server, .go), (.server, .go), (.server, .go),
    (.server, .verdict false), (.server, .go)]

/-- The player joins, these packets arrive, and the player is transferred, up to the
clearing of the sets. -/
def afflicting (packets : List Packet) : List Action :=
  joining lobby lobbyData ++ packets.flatMap passing ++ transferCall 0 game gameData ++
    acknowledging ++ steps .client 2

/-- The player has two effects, another entity loses a third one. -/
theorem transfer_removes_effects_two : ∃ s s' t written packets w,
    watched.Reach Sparing (s, written) ∧ s.translator = some t ∧
    watched.next (s, written) ((.client, .go), w) = some (s', written ++ packets) ∧
    .mobEffect t.original.runtimeID .remove 1 ∈ packets ∧
    .mobEffect t.original.runtimeID .remove 5 ∈ packets := by
  have reached : watched.Reach Sparing _ := Machine.exec_reach
    ((afflicting [.mobEffect 1 .add 1, .mobEffect 1 .add 5, .mobEffect 9 .add 3,
      .mobEffect 9 .remove 3]).map fun a => (a, ⟨[], [1, 5], [], [], [], []⟩)) rfl
  obtain ⟨s, s', t, f, c, written, written', reached, translator, at_, taken, first, second⟩ :
      ∃ s s' t f c written written', watched.Reach Sparing (s, written) ∧ s.translator = some t ∧
        s.client = .wiping f c ∧
        watched.next (s, written) ((.client, .go), ⟨[], [1, 5], [], [], [], []⟩) =
          some (s', written') ∧
        activeEffects t.original.runtimeID written 1 = true ∧
        activeEffects t.original.runtimeID written 5 = true :=
    ⟨_, _, _, _, _, _, _, reached, rfl, rfl, rfl, rfl, rfl⟩
  obtain ⟨packets, rfl, removed⟩ := transfer_removes_effects reached translator at_ taken
  exact ⟨s, s', t, written, packets, _, reached, translator, taken, removed 1 first, removed 5 second⟩

/-- **A mob takes the player's effect along.**  The player and a mob have the same effect,
and the mob loses it: nothing is removed for the player, who keeps it. -/
theorem mob_takes_effect_along : ∃ s s' t written packets w,
    watched.Reach (fun p a => p.1.interlude a.1 = true) (s, written) ∧ s.translator = some t ∧
    (∃ f c, s.client = .wiping f c) ∧
    watched.next (s, written) ((.client, .go), w) = some (s', written ++ packets) ∧
    activeEffects t.original.runtimeID written 1 = true ∧
    activeEffects t.original.runtimeID (written ++ packets) 1 = true ∧
    .mobEffect t.original.runtimeID .remove 1 ∉ packets := by
  refine ⟨_, _, _, _, [.playerList []], ⟨[], [], [], [], [], []⟩, Machine.exec_reach
    ((afflicting [.mobEffect 1 .add 1, .mobEffect 9 .add 1, .mobEffect 9 .remove 1]).map fun a =>
      (a, ⟨[], [], [], [], [], []⟩)) rfl, rfl, ⟨_, _, rfl⟩, rfl, rfl, rfl, ?_⟩
  intro removed
  cases List.mem_singleton.mp removed

end Session

end Portal
