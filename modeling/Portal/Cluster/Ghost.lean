/-
# Cluster.Ghost — the record that a player leaves behind

The quit of a player removes their record, but the removal may fail, and a heartbeat that was
on its way may come after it.  Nothing takes such a record back; it is left to expire.
`ghost_expires` says when that is: `D + ttl` after the last tick or announcement for the
player, in runs that are prompt with a delay `D` and with a positive `ttl`, without which a
record stays for ever.
-/
import Portal.Cluster.Heartbeat

namespace Portal.Cluster.Member

open Portal.Theory.PartialMap Portal.Theory.Separator Portal.Theory.Transition

set_option autoImplicit false

variable {site : Site} {m m' : Member} {o : Occurrence} {delay since : Nat}

/-- Something keeps a player's record of this proxy alive: a tick that finds a session of
theirs in the store, an announcement, the end of a login that a goroutine waits for. -/
def revives (site : Site) (key : Text) (m : Member) : Occurrence → Bool
  | .tick => m.stored.any fun s => site.key s = key
  | .login s => site.key s = key
  | .announce s _ _ => site.key s = key
  | _ => false

/-- The moments at which it does. -/
def revivals (site : Site) (key : Text) (m : Member) (o : Occurrence) : List Nat :=
  if revives site key m o then [m.now] else []

/-- A record of this proxy is gone by `until_`. -/
def Bounded (site : Site) (key : Text) (until_ : Nat) (redis : Expiring) : Prop :=
  ∀ value expiry, redis key = some (value, expiry) →
    ∃ owner serverName, value = encode (owner, serverName) ∧ separator ∉ owner ∧
      (owner = site.proxyID → ∃ gone, expiry = some gone ∧ gone ≤ until_)

theorem Bounded.mono {key : Text} {until_ later : Nat} {redis : Expiring}
    (bounded : Bounded site key until_ redis) (le : until_ ≤ later) :
    Bounded site key later redis := by
  intro value expiry found
  obtain ⟨owner, serverName, text, free, bound⟩ := bounded value expiry found
  refine ⟨owner, serverName, text, free, fun own => ?_⟩
  obtain ⟨gone, lasts, before⟩ := bound own
  exact ⟨gone, lasts, Nat.le_trans before le⟩

/-- An announcement of this proxy bounds the record by its own end, one of another proxy has
another owner, and a removal bounds nothing. -/
theorem Bounded.apply {key : Text} {until_ now ttl : Nat} {redis : Expiring} {op : Op}
    (bounded : Bounded site key until_ redis) (free : separator ∉ op.proxyID)
    (within : op.proxyID = site.proxyID → (∃ serverName, op = .announce op.proxyID op.playerName
      serverName) → playerKey site.toLower op.playerName = key → 0 < ttl ∧ now + ttl ≤ until_) :
    Bounded site key until_ (redis.apply site.toLower now ttl op) := by
  by_cases mine : key = playerKey site.toLower op.playerName
  · cases op with
    | announce proxyID playerName serverName =>
        intro value expiry found
        rcases update_some found with ⟨-, written⟩ | ⟨other, -⟩
        · cases written
          refine ⟨proxyID, serverName, rfl, free, fun own => ?_⟩
          obtain ⟨positive, before⟩ := within own ⟨serverName, rfl⟩ mine.symm
          exact ⟨now + ttl, Expiring.expiry_of_pos now positive, before⟩
        · exact absurd mine other
    | remove proxyID playerName =>
        rcases Expiring.apply_remove site.toLower now ttl redis proxyID playerName with same | gone
        · rw [same]
          exact bounded
        · rw [gone]
          intro value expiry found
          obtain ⟨-, before⟩ := erase_some found
          exact bounded value expiry before
  · intro value expiry found
    rw [Expiring.apply_other mine] at found
    exact bounded value expiry found

/-- The other proxies' IDs can be told from this one's. -/
def plain : Occurrence → Bool
  | .foreign op _ => decide (separator ∉ op.proxyID)
  | _ => true

/-- Nothing about the player is going to be announced after `since + delay`. -/
structure Fading (site : Site) (key : Text) (delay since : Nat) (m : Member) : Prop where
  record : Bounded site key (since + delay + site.ttl) m.redis
  beats : ∀ b ∈ m.beats, site.key b.session = key → ∀ over_, m.login b.session = some over_ →
    b.tick ≤ since ∧ over_ ≤ since

/-- What holds between two occurrences: a record that nothing has kept alive since `since` is
fading. -/
structure Haunted (site : Site) (key : Text) (delay since : Nat) (p : Member × List Nat) :
    Prop where
  onTime : OnTime site delay p.1
  unread : ∀ b ∈ p.1.beats, p.1.login b.session = none → b.read = none
  record : Bounded site key (p.1.now + site.ttl) p.1.redis
  fading : (∀ moment ∈ p.2, moment < since) → since ≤ p.1.now → Fading site key delay since p.1

theorem next_unread (unread : ∀ b ∈ m.beats, m.login b.session = none → b.read = none)
    (taken : m.next site o = some m') :
    ∀ b ∈ m'.beats, m'.login b.session = none → b.read = none := by
  cases o with
  | tick =>
      simp only [Member.next] at taken
      split at taken <;> cases taken
      intro b member running
      rcases List.mem_append.mp member with before | started
      · exact unread b before running
      · obtain ⟨s, -, rfl⟩ := List.mem_map.mp started
        rfl
  | read i =>
      simp only [Member.next] at taken
      split at taken
      · rename_i s tick old
        split at taken <;> cases taken
        rename_i over_ ended
        intro b member running
        rcases mem_set_beats old member with ⟨rfl, -⟩ | before
        · cases ended.symm.trans running
        · exact unread b before running
      · cases taken
  | beat i ok =>
      simp only [Member.next] at taken
      split at taken <;> cases taken
      exact fun b member => unread b (List.mem_of_mem_eraseIdx member)
  | login s =>
      simp only [Member.next] at taken
      split at taken <;> cases taken
      rename_i before
      intro b member running
      by_cases same : b.session = s
      · exact unread b member (same ▸ before)
      · exact unread b member ((Function.update_of_ne same ..).symm.trans running)
  | _ =>
      simp only [Member.next] at taken
      repeat' split at taken
      all_goals cases taken
      all_goals exact unread

/-- A step writes nothing that lasts longer than the `ttl` of this proxy, but for what other
proxies write. -/
theorem next_record {key : Text} (free : separator ∉ site.proxyID) (positive : 0 < site.ttl)
    (ok : plain o = true) {until_ : Nat} (bounded : Bounded site key until_ m.redis)
    (beat : ∀ i s tick serverName, o = .beat i true → m.beats[i]? = some ⟨s, tick, some serverName⟩ →
      site.key s = key → m.now + site.ttl ≤ until_)
    (announce : ∀ s serverName, o = .announce s serverName true → site.key s = key →
      m.now + site.ttl ≤ until_)
    (taken : m.next site o = some m') : Bounded site key until_ m'.redis := by
  have own : ∀ {op : Op} {ok : Bool}, op.proxyID = site.proxyID →
      (ok = true → (∃ serverName, op = .announce op.proxyID op.playerName serverName) →
        playerKey site.toLower op.playerName = key → m.now + site.ttl ≤ until_) →
      Bounded site key until_ (m.write site op ok) := by
    intro op ok same within
    unfold write
    split
    · rename_i sent
      exact bounded.apply (same ▸ free) fun _ announced mine =>
        ⟨positive, within sent announced mine⟩
    · exact bounded
  cases o with
  | beat i ok =>
      simp only [Member.next] at taken
      split at taken <;> cases taken
      rename_i s tick serverName at_
      refine own rfl fun sent _ mine => ?_
      subst sent
      exact beat i s tick serverName rfl at_ mine
  | announce s serverName ok =>
      cases taken
      refine own rfl fun sent _ mine => ?_
      subst sent
      exact announce s serverName rfl mine
  | remove s ok =>
      cases taken
      refine own rfl fun _ announced _ => ?_
      obtain ⟨serverName, announced⟩ := announced
      cases announced
  | foreign op ttl =>
      simp only [Member.next] at taken
      split at taken <;> cases taken
      rename_i other
      simp only [plain, decide_eq_true_eq] at ok
      exact bounded.apply ok fun same => absurd same other
  | _ =>
      simp only [Member.next] at taken
      repeat' split at taken
      all_goals cases taken
      all_goals exact bounded

/-- After `since` a step starts no goroutine for the player. -/
theorem Fading.beats_next {key : Text} (f : Fading site key delay since m)
    (quiet : revives site key m o = false) (taken : m.next site o = some m') :
    ∀ b ∈ m'.beats, site.key b.session = key → ∀ over_, m'.login b.session = some over_ →
      b.tick ≤ since ∧ over_ ≤ since := by
  cases o with
  | tick =>
      simp only [Member.next] at taken
      split at taken <;> cases taken
      intro b member mine over_ ended
      rcases List.mem_append.mp member with before | started
      · exact f.beats b before mine over_ ended
      · obtain ⟨s, stored, rfl⟩ := List.mem_map.mp started
        simp only [revives, List.any_eq_false, decide_eq_true_eq] at quiet
        exact absurd mine (quiet s stored)
  | read i =>
      simp only [Member.next] at taken
      split at taken
      · rename_i s tick old
        split at taken <;> cases taken
        intro b member mine over_ ended
        rcases mem_set_beats old member with ⟨rfl, there⟩ | before
        · exact f.beats _ there mine over_ ended
        · exact f.beats b before mine over_ ended
      · cases taken
  | beat i ok =>
      simp only [Member.next] at taken
      split at taken <;> cases taken
      exact fun b member => f.beats b (List.mem_of_mem_eraseIdx member)
  | login s =>
      simp only [revives, decide_eq_false_iff_not] at quiet
      simp only [Member.next] at taken
      split at taken <;> cases taken
      intro b member mine over_ ended
      rcases update_some ended with ⟨same, -⟩ | ⟨-, before⟩
      · exact absurd (same ▸ mine) quiet
      · exact f.beats b member mine over_ before
  | _ =>
      simp only [Member.next] at taken
      repeat' split at taken
      all_goals cases taken
      all_goals exact f.beats

theorem Haunted.next {key : Text} {p p' : Member × List Nat} (free : separator ∉ site.proxyID)
    (positive : 0 < site.ttl) (haunted : Haunted site key delay since p)
    (ok : prompt site delay p.1 o = true ∧ plain o = true)
    (taken : ((machine site).record (revivals site key)).next p o = some p') :
    Haunted site key delay since p' := by
  obtain ⟨stepped, log⟩ := Machine.record_next taken
  have on := haunted.onTime
  have later : p.1.now ≤ p'.1.now := by
    rcases next_now stepped with same | ⟨moved, -⟩ <;> omega
  refine ⟨next_onTime on ok.1 stepped, next_unread haunted.unread stepped, ?_, ?_⟩
  · refine (next_record free positive ok.2 haunted.record ?_ ?_ stepped).mono
      (Nat.add_le_add_right later _)
    · exact fun _ _ _ _ _ _ _ => Nat.le_refl _
    · exact fun _ _ _ _ => Nat.le_refl _
  · intro calm reached
    rw [log] at calm
    have calm' : ∀ moment ∈ p.2, moment < since := fun moment member =>
      calm moment (List.mem_append_left _ member)
    by_cases early : p.1.now < since
    · rcases next_now stepped with same | ⟨-, login, beats, -⟩
      · omega
      · refine ⟨?_, ?_⟩
        · refine (next_record free positive ok.2 haunted.record ?_ ?_ stepped).mono (by omega)
          · exact fun _ _ _ _ _ _ _ => Nat.le_refl _
          · exact fun _ _ _ _ => Nat.le_refl _
        · intro b member _ over_ ended
          rw [beats] at member
          rw [login] at ended
          have tick := on.ticks b member
          have over' := on.logins _ over_ ended
          omega
    · have quiet : revives site key p.1 o = false := by
        by_contra revived
        have moment := calm p.1.now (List.mem_append_right _ (by simp_all [revivals]))
        omega
      have f := haunted.fading calm' (by omega)
      refine ⟨next_record free positive ok.2 f.record ?_ ?_ stepped, f.beats_next quiet stepped⟩
      · rintro i s tick serverName rfl at_ mine
        -- its login is over, and it is not overdue
        have member := List.mem_of_getElem? at_
        obtain ⟨over_, ended⟩ : ∃ over_, p.1.login s = some over_ := by
          cases login : p.1.login s with
          | some over_ => exact ⟨over_, rfl⟩
          | none => cases haunted.unread _ member login
        have within := on.beats _ member over_ ended
        obtain ⟨tick', over'⟩ := f.beats _ member mine over_ ended
        simp only at within tick'
        omega
      · rintro s serverName rfl mine
        simp [revives, mine] at quiet

theorem haunted {key : Text} (since : Nat) {p : Member × List Nat} (free : separator ∉ site.proxyID)
    (positive : 0 < site.ttl) (reached : ((machine site).record (revivals site key)).Reach
      (fun p o => prompt site delay p.1 o = true ∧ plain o = true) p) :
    Haunted site key delay since p := by
  refine reached.invariant (I := Haunted site key delay since) ?_
    fun p p' o _ haunted ok taken => haunted.next free positive ok taken
  refine ⟨start_onTime, ?_, ?_, fun _ _ => ⟨?_, ?_⟩⟩
  · rintro b ⟨⟩
  · rintro value expiry ⟨⟩
  · rintro value expiry ⟨⟩
  · rintro b ⟨⟩

/-- **A player who has left is forgotten.**  In every prompt run in which no proxy ID has a
separator: once nothing has kept the record of a player alive since `since` (no tick has found
a session of theirs in the store, nothing was announced and no login was still to end), no
lookup finds them on this proxy from `D + ttl` on, even if their removal failed or an older
heartbeat came after it. -/
theorem ghost_expires (playerName : Text) (since : Nat) {log : List Nat}
    (free : separator ∉ site.proxyID) (positive : 0 < site.ttl)
    (reached : ((machine site).record (revivals site (playerKey site.toLower playerName))).Reach
      (fun p o => prompt site delay p.1 o = true ∧ plain o = true) (m, log))
    (calm : ∀ moment ∈ log, moment < since) (late : since + delay + site.ttl ≤ m.now)
    (serverName : Text) :
    lookup site.toLower playerName (m.redis.visible m.now) ≠ (site.proxyID, serverName, true) := by
  have fading := (haunted since free positive reached).fading calm (by show since ≤ m.now; omega)
  intro found
  unfold lookup Expiring.visible at found
  cases record : m.redis (playerKey site.toLower playerName) with
  | none => simp [record] at found
  | some pair =>
      obtain ⟨value, expiry⟩ := pair
      obtain ⟨owner, name, rfl, free', bound⟩ := fading.record value expiry record
      cases expiry with
      | none =>
          simp only [record, encode, cut_join free', Prod.mk.injEq, and_true] at found
          obtain ⟨_, lasts, -⟩ := bound found.1
          cases lasts
      | some moment =>
          by_cases alive : m.now < moment
          · simp only [record, if_pos alive, encode, cut_join free', Prod.mk.injEq, and_true]
              at found
            obtain ⟨_, lasts, before⟩ := bound found.1
            cases lasts
            omega
          · simp [record, if_neg alive] at found

/-- The player quits while a heartbeat is on its way: it comes after the removal and leaves a
record behind, which is gone eight seconds later. -/
theorem ghost_expires_late_beat :
    ∃ m log, ((machine siteA).record (revivals siteA (playerKey asciiLower [112]))).Reach
        (fun p o => prompt siteA 1 p.1 o = true ∧ plain o = true) (m, log) ∧ log = [0, 0, 3] ∧
      m.now = 11 ∧
      ∀ serverName, lookup asciiLower [112] (m.redis.visible m.now) ≠ ([97], serverName, true) := by
  obtain ⟨m, log, reached, revived, now⟩ : ∃ m log,
      ((machine siteA).record (revivals siteA (playerKey asciiLower [112]))).Reach
        (fun p o => prompt siteA 1 p.1 o = true ∧ plain o = true) (m, log) ∧ log = [0, 0, 3] ∧
      m.now = 11 := by
    have reached : ((machine siteA).record (revivals siteA (playerKey asciiLower [112]))).Reach
        (fun p o => prompt siteA 1 p.1 o = true ∧ plain o = true) _ :=
      Machine.exec_reach (([.store 0, .login 0, .announce 0 [115] true] : List Occurrence) ++
        List.replicate 3 .pass ++
        ([.tick, .read 0, .remove 0 true, .delete 0, .beat 0 true] : List Occurrence) ++
        List.replicate 3 .pass ++ ([.tick] : List Occurrence) ++ List.replicate 3 .pass ++
        ([.tick] : List Occurrence) ++ List.replicate 2 .pass) rfl
    exact ⟨_, _, reached, rfl, rfl⟩
  refine ⟨m, log, reached, revived, now, fun serverName => ?_⟩
  exact ghost_expires [112] 4 (by decide) (by decide) reached
    (by rw [revived]; decide) (by rw [now]; decide) serverName

end Portal.Cluster.Member
