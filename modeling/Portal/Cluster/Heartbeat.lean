/-
# Cluster.Heartbeat — presence records that expire, and the ticker that renews them

A record in the shared Redis is gone `ttl` after it was written; with a `ttl` of zero it
stays.  What Redis shows at a moment is the store of `Cluster.Presence` (`visible_apply`).
Every proxy with a positive `ttl` has a ticker with a period of `ttl / 2`: at each tick it
starts a goroutine for every session in its store, which waits for the session's login, reads
the name of its server and announces it again.  Time passes in steps of the clock, in between
anything may happen: players join, are transferred and quit, announcements fail, other proxies
write the same keys.

A run is prompt with a delay `D` if every tick is handled, and every goroutine is done,
within `D` of the tick (or of the end of the login it waits for).

`heartbeat_restores`: whatever has happened to the record of a session that is in the store
and logged in, it is right again when nothing has disturbed it for more than
`ttl / 2 + 2 * D`, and stays right; so no record of a player who stays online expires.
-/
import Mathlib.Data.List.Basic
import Portal.Cluster.Presence
import Portal.Theory.PartialMap

namespace Portal.Cluster

open Portal.Theory.PartialMap Portal.Theory.Separator Portal.Theory.Transition

set_option autoImplicit false

/-- Keys with their value and the moment they are gone, if there is one. -/
abbrev Expiring := Text → Option (Text × Option Nat)

namespace Expiring

/-- The keys there are at this moment. -/
def visible (redis : Expiring) (now : Nat) : Redis := fun key =>
  match redis key with
  | none => none
  | some (value, none) => some value
  | some (value, some expiry) => if now < expiry then some value else none

/-- The expiry that `Set` gives a key: none for a `ttl` of zero. -/
def expiry (now ttl : Nat) : Option Nat := if ttl = 0 then none else some (now + ttl)

/-- An operation of a proxy, with the `ttl` of that proxy. -/
def apply (toLower : Text → Text) (now ttl : Nat) (redis : Expiring) : Op → Expiring
  | .announce proxyID playerName serverName =>
      Function.update redis (playerKey toLower playerName)
        (some (encode (proxyID, serverName), expiry now ttl))
  | .remove proxyID playerName =>
      -- what the script leaves of the keys there are
      match remove toLower proxyID playerName (redis.visible now)
          (playerKey toLower playerName) with
      | none => Function.update redis (playerKey toLower playerName) none
      | some _ => redis

theorem expiry_of_pos {ttl : Nat} (now : Nat) (positive : 0 < ttl) :
    expiry now ttl = some (now + ttl) :=
  if_neg (Nat.ne_of_gt positive)

theorem apply_remove (toLower : Text → Text) (now ttl : Nat) (redis : Expiring)
    (proxyID playerName : Text) :
    redis.apply toLower now ttl (.remove proxyID playerName) = redis ∨
      redis.apply toLower now ttl (.remove proxyID playerName) =
        Function.update redis (playerKey toLower playerName) none := by
  simp only [apply]
  split
  · exact .inr rfl
  · exact .inl rfl

/-- An operation leaves the other players alone. -/
theorem apply_other {toLower : Text → Text} {now ttl : Nat} {redis : Expiring} {op : Op} {key : Text}
    (other : key ≠ playerKey toLower op.playerName) :
    redis.apply toLower now ttl op key = redis key := by
  cases op with
  | announce proxyID playerName serverName => exact Function.update_of_ne other ..
  | remove proxyID playerName =>
      rcases apply_remove toLower now ttl redis proxyID playerName with same | gone
      · rw [same]
      · rw [gone]
        exact Function.update_of_ne other ..

theorem visible_congr {redis redis' : Expiring} {now : Nat} {key : Text}
    (same : redis key = redis' key) : redis.visible now key = redis'.visible now key := by
  unfold visible
  rw [same]

/-- **What Redis shows is the store without expiry.**  An operation does to the keys there are
what it does to a store whose keys never expire. -/
theorem visible_apply (toLower : Text → Text) (now ttl : Nat) (redis : Expiring) (op : Op) :
    (redis.apply toLower now ttl op).visible now = op.apply toLower (redis.visible now) := by
  funext key
  by_cases mine : key = playerKey toLower op.playerName
  · subst mine
    cases op with
    | announce proxyID playerName serverName =>
        by_cases zero : ttl = 0
        · simp [apply, visible, expiry, zero, Op.apply, Op.playerName, announce, encode]
        · simp [apply, visible, expiry, zero, Op.apply, Op.playerName, announce, encode,
            Nat.pos_of_ne_zero zero]
    | remove proxyID playerName =>
        show visible (redis.apply toLower now ttl (.remove proxyID playerName)) now
          (playerKey toLower playerName) =
            remove toLower proxyID playerName (redis.visible now) (playerKey toLower playerName)
        simp only [apply]
        split
        · rename_i gone
          rw [gone]
          simp [visible]
        · rename_i value kept
          rcases remove_eq toLower proxyID playerName (redis.visible now) with same | gone
          · rw [same]
          · rw [gone, Function.update_self] at kept
            cases kept
  · rw [visible_congr (apply_other mine)]
    cases op with
    | announce proxyID playerName serverName => exact (Function.update_of_ne mine ..).symm
    | remove proxyID playerName =>
        rcases remove_eq toLower proxyID playerName (redis.visible now) with same | gone
        · exact (congrFun same key).symm
        · exact ((congrFun gone key).trans (Function.update_of_ne mine ..)).symm

end Expiring

/-- A proxy of the cluster: its configuration, and the player of each of its sessions. -/
structure Site where
  toLower : Text → Text
  proxyID : Text
  ttl : Nat
  name : Nat → Text

namespace Site

/-- The key of a session's player. -/
def key (site : Site) (s : Nat) : Text := playerKey site.toLower (site.name s)

/-- `time.NewTicker(ttl / 2)`. -/
def period (site : Site) : Nat := site.ttl / 2

end Site

/-- A goroutine that a tick has started: for which session, the moment the ticker ticked,
and the name of the server once it has read it. -/
structure Beat where
  session : Nat
  tick : Nat
  read : Option Text
  deriving DecidableEq

/-- The shared store and one proxy. -/
structure Member where
  now : Nat
  redis : Expiring
  /-- the sessions in the session store -/
  stored : List Nat
  /-- when the login of a session was over and `loginMu` free -/
  login : Nat → Option Nat
  /-- `s.Server().Name()` -/
  server : Nat → Text
  beats : List Beat
  /-- when the ticker ticks next, or has ticked if that is not handled yet -/
  nextTick : Nat

/-- What can happen next. -/
inductive Occurrence where
  /-- the clock -/
  | pass
  /-- `for range ticker.C`: one goroutine for every session of `All()` -/
  | tick
  /-- the goroutine reads `s.Conn()` and `s.Server().Name()`, which wait for the login -/
  | read (i : Nat)
  /-- its `Announce` returns -/
  | beat (i : Nat) (ok : Bool)
  | store (s : Nat)
  | login (s : Nat)
  /-- the session is switched to another server -/
  | switch (s : Nat) (serverName : Text)
  /-- a subscriber announces a join or a transfer -/
  | announce (s : Nat) (serverName : Text) (ok : Bool)
  /-- the subscriber removes the player of a session that is closed -/
  | remove (s : Nat) (ok : Bool)
  | delete (s : Nat)
  /-- another proxy, with a `ttl` of its own -/
  | foreign (op : Op) (ttl : Nat)

namespace Member

variable (site : Site)

/-- An operation of this proxy, unless it fails. -/
def write (m : Member) (op : Op) (ok : Bool) : Expiring :=
  if ok then m.redis.apply site.toLower m.now site.ttl op else m.redis

def next (m : Member) : Occurrence → Option Member
  | .pass => some { m with now := m.now + 1 }
  -- a `ttl` that is not positive: the heartbeat is skipped
  | .tick =>
      if 0 < site.ttl ∧ m.nextTick ≤ m.now then
        some { m with
          beats := m.beats ++ m.stored.map fun s => ⟨s, m.nextTick, none⟩
          nextTick := m.nextTick + site.period }
      else none
  | .read i =>
      match m.beats[i]? with
      | some ⟨s, tick, none⟩ =>
          match m.login s with
          | none => none
          | some _ => some { m with beats := m.beats.set i ⟨s, tick, some (m.server s)⟩ }
      | _ => none
  | .beat i ok =>
      match m.beats[i]? with
      | some ⟨s, _, some serverName⟩ =>
          some { m with
            beats := m.beats.eraseIdx i
            redis := m.write site (.announce site.proxyID (site.name s) serverName) ok }
      | _ => none
  | .store s => if s ∈ m.stored then none else some { m with stored := s :: m.stored }
  | .login s =>
      match m.login s with
      | none => some { m with login := Function.update m.login s (some m.now) }
      | some _ => none
  | .switch s serverName => some { m with server := Function.update m.server s serverName }
  | .announce s serverName ok =>
      some { m with redis := m.write site (.announce site.proxyID (site.name s) serverName) ok }
  | .remove s ok => some { m with redis := m.write site (.remove site.proxyID (site.name s)) ok }
  | .delete s => some { m with stored := m.stored.erase s }
  | .foreign op ttl =>
      if op.proxyID = site.proxyID then none
      else some { m with redis := m.redis.apply site.toLower m.now ttl op }

/-- The proxy starts its ticker. -/
def machine : Machine Member Occurrence where
  start := ⟨0, fun _ => none, [], fun _ => none, fun _ => [], [], site.period⟩
  next := next site

/-- The clock does not pass the moment by which a tick has to be handled and a goroutine has
to be done. -/
def prompt (delay : Nat) (m : Member) : Occurrence → Bool
  | .pass =>
      (m.beats.all fun b =>
        match m.login b.session with
        | none => true
        | some over_ => m.now < max b.tick over_ + delay) &&
      decide (0 < site.ttl → m.now < m.nextTick + delay)
  | _ => true

/-! ## The clock -/

variable {site} {m m' : Member} {o : Occurrence} {delay : Nat}

/-- Nothing is overdue, and nothing is early. -/
structure OnTime (site : Site) (delay : Nat) (m : Member) : Prop where
  beats : ∀ b ∈ m.beats, ∀ over_, m.login b.session = some over_ → m.now ≤ max b.tick over_ + delay
  next : 0 < site.ttl → m.now ≤ m.nextTick + delay
  last : m.nextTick ≤ m.now + site.period
  ticks : ∀ b ∈ m.beats, b.tick ≤ m.now
  logins : ∀ s over_, m.login s = some over_ → over_ ≤ m.now

theorem OnTime.moves (on : OnTime site delay m) (now : m'.now = m.now) (login : m'.login = m.login)
    (nextTick : m'.nextTick = m.nextTick)
    (beats : ∀ b ∈ m'.beats, ∃ b' ∈ m.beats, b'.session = b.session ∧ b'.tick = b.tick) :
    OnTime site delay m' where
  beats := by
    intro b member over_ ended
    obtain ⟨b', member', session, tick⟩ := beats b member
    rw [login, ← session] at ended
    rw [now, ← tick]
    exact on.beats b' member' over_ ended
  next := by rw [now, nextTick]; exact on.next
  last := by rw [now, nextTick]; exact on.last
  ticks := by
    intro b member
    obtain ⟨b', member', -, tick⟩ := beats b member
    rw [now, ← tick]
    exact on.ticks b' member'
  logins := by rw [now, login]; exact on.logins

theorem mem_set_beats {beats : List Beat} {i s tick : Nat} {read : Option Text} {b : Beat}
    (old : beats[i]? = some ⟨s, tick, none⟩) (member : b ∈ beats.set i ⟨s, tick, read⟩) :
    (b = ⟨s, tick, read⟩ ∧ (⟨s, tick, none⟩ : Beat) ∈ beats) ∨ b ∈ beats := by
  rcases List.mem_or_eq_of_mem_set member with before | rfl
  · exact .inr before
  · exact .inl ⟨rfl, List.mem_of_getElem? old⟩

theorem next_onTime (on : OnTime site delay m) (ok : prompt site delay m o = true)
    (taken : m.next site o = some m') : OnTime site delay m' := by
  cases o with
  | pass =>
      cases taken
      simp only [prompt, Bool.and_eq_true, List.all_eq_true, decide_eq_true_eq] at ok
      refine ⟨?_, ?_, ?_, ?_, ?_⟩
      · intro b member over_ ended
        have early := ok.1 b member
        simp only [show m.login b.session = some over_ from ended, decide_eq_true_eq] at early
        exact early
      · exact ok.2
      · have last := on.last
        show m.nextTick ≤ m.now + 1 + site.period
        omega
      · intro b member
        exact Nat.le_succ_of_le (on.ticks b member)
      · intro s over_ ended
        exact Nat.le_succ_of_le (on.logins s over_ ended)
  | tick =>
      simp only [next] at taken
      split at taken <;> cases taken
      rename_i due
      obtain ⟨positive, due⟩ := due
      have within := on.next positive
      refine ⟨?_, fun _ => ?_, ?_, ?_, on.logins⟩
      · intro b member over_ ended
        rcases List.mem_append.mp member with before | started
        · exact on.beats b before over_ ended
        · obtain ⟨s, -, rfl⟩ := List.mem_map.mp started
          show m.now ≤ max m.nextTick over_ + delay
          omega
      · show m.now ≤ m.nextTick + site.period + delay
        omega
      · show m.nextTick + site.period ≤ m.now + site.period
        omega
      · intro b member
        rcases List.mem_append.mp member with before | started
        · exact on.ticks b before
        · obtain ⟨s, -, rfl⟩ := List.mem_map.mp started
          exact due
  | read i =>
      simp only [next] at taken
      split at taken
      · rename_i s tick old
        split at taken <;> cases taken
        refine on.moves rfl rfl rfl fun b member => ?_
        rcases mem_set_beats old member with ⟨rfl, there⟩ | before
        · exact ⟨_, there, rfl, rfl⟩
        · exact ⟨b, before, rfl, rfl⟩
      · cases taken
  | beat i ok =>
      simp only [next] at taken
      split at taken <;> cases taken
      exact on.moves rfl rfl rfl fun b member => ⟨b, List.mem_of_mem_eraseIdx member, rfl, rfl⟩
  | login s =>
      simp only [next] at taken
      split at taken <;> cases taken
      rename_i running
      refine ⟨?_, on.next, on.last, on.ticks, ?_⟩
      · intro b member over_ ended
        rcases update_some ended with ⟨-, now⟩ | ⟨-, before⟩
        · cases now
          show m.now ≤ max b.tick m.now + delay
          omega
        · exact on.beats b member over_ before
      · intro s' over_ ended
        rcases update_some ended with ⟨-, now⟩ | ⟨-, before⟩
        · cases now
          exact Nat.le_refl _
        · exact on.logins s' over_ before
  | store s =>
      simp only [next] at taken
      split at taken <;> cases taken
      exact on.moves rfl rfl rfl fun b member => ⟨b, member, rfl, rfl⟩
  | foreign op ttl =>
      simp only [next] at taken
      split at taken <;> cases taken
      exact on.moves rfl rfl rfl fun b member => ⟨b, member, rfl, rfl⟩
  | _ =>
      cases taken
      exact on.moves rfl rfl rfl fun b member => ⟨b, member, rfl, rfl⟩

theorem start_onTime : OnTime site delay (machine site).start where
  beats := by rintro b ⟨⟩
  next := fun _ => Nat.zero_le _
  last := by
    show site.period ≤ 0 + site.period
    omega
  ticks := by rintro b ⟨⟩
  logins := by rintro s over_ ⟨⟩

/-! ## A record that is renewed -/

/-- Something other than its own heartbeat happens to the session or to its record. -/
def disturbs (site : Site) (s : Nat) (m : Member) : Occurrence → Bool
  | .pass => false
  | .tick => false
  | .read _ => false
  | .beat i ok =>
      match m.beats[i]? with
      | some b => if b.session = s then !ok else site.key b.session = site.key s
      | none => false
  | .store s' => s' = s
  | .login s' => s' = s
  | .switch s' _ => s' = s
  | .announce s' _ _ => site.key s' = site.key s
  | .remove s' _ => site.key s' = site.key s
  | .delete s' => s' = s
  | .foreign op _ => playerKey site.toLower op.playerName = site.key s

/-- The moments at which the session is disturbed. -/
def disturbances (site : Site) (s : Nat) (m : Member) (o : Occurrence) : List Nat :=
  if disturbs site s m o then [m.now] else []

/-- The record of the session is right, and will be renewed before it expires. -/
def Good (site : Site) (delay s since : Nat) (m : Member) : Prop :=
  ∃ expiry, m.redis (site.key s) = some (encode (site.proxyID, m.server s), some expiry) ∧
    (m.nextTick + delay < expiry ∨
      ∃ b ∈ m.beats, b.session = s ∧ max b.tick since + delay < expiry)

/-- What holds of a session that has been left alone since `since`.  A goroutine that has
read the name of another server was started before; after the first tick at which none of
them is left, the record is right or is about to be. -/
structure Renewed (site : Site) (delay s since : Nat) (m : Member) : Prop where
  login : ∀ over_, m.login s = some over_ → over_ < since
  stale : ∀ b ∈ m.beats, b.session = s → ∀ name, b.read = some name → name ≠ m.server s →
    b.tick < since
  fresh : since + delay + site.period < m.nextTick → ∀ b ∈ m.beats, b.session = s →
    ∀ name, b.read = some name → name = m.server s
  held : since + delay + site.period < m.nextTick → Good site delay s since m ∨
    ∃ b ∈ m.beats, b.session = s ∧ b.tick ≤ since + delay + site.period

variable {s since : Nat}

/-- The clock reaches `since`. -/
theorem OnTime.renewed (on : OnTime site delay m) (here : m.now < since)
    (same : m'.login = m.login ∧ m'.beats = m.beats ∧ m'.nextTick = m.nextTick) :
    Renewed site delay s since m' := by
  obtain ⟨login, beats, nextTick⟩ := same
  have early : ¬ since + delay + site.period < m'.nextTick := by
    have last := on.last
    omega
  refine ⟨?_, ?_, fun late => absurd late early, fun late => absurd late early⟩
  · intro over_ ended
    rw [login] at ended
    exact Nat.lt_of_le_of_lt (on.logins s over_ ended) here
  · intro b member _ _ _ _
    rw [beats] at member
    exact Nat.lt_of_le_of_lt (on.ticks b member) here

/-- A step that touches neither the session nor its record nor the ticker. -/
theorem Renewed.moves (r : Renewed site delay s since m)
    (redis : m'.redis (site.key s) = m.redis (site.key s)) (server : m'.server s = m.server s)
    (login : m'.login s = m.login s) (nextTick : m'.nextTick = m.nextTick)
    (beats : ∀ b, b.session = s → (b ∈ m'.beats ↔ b ∈ m.beats)) :
    Renewed site delay s since m' where
  login := by rw [login]; exact r.login
  stale := by
    rw [server]
    exact fun b member own => r.stale b ((beats b own).mp member) own
  fresh := by
    rw [server, nextTick]
    exact fun late b member own => r.fresh late b ((beats b own).mp member) own
  held := by
    rw [nextTick]
    intro late
    rcases r.held late with ⟨expiry, record, kept⟩ | ⟨b, member, own, tick⟩
    · refine .inl ⟨expiry, by rw [redis, server]; exact record, ?_⟩
      rw [nextTick]
      exact kept.imp_right fun ⟨b, member, own, before⟩ => ⟨b, (beats b own).mpr member, own, before⟩
    · exact .inr ⟨b, (beats b own).mpr member, own, tick⟩

/-- A tick starts a goroutine for the session. -/
theorem Renewed.tick (r : Renewed site delay s since m) (on : OnTime site delay m)
    (stored : s ∈ m.stored) {over_ : Nat} (ended : m.login s = some over_)
    (due : m.nextTick ≤ m.now) :
    Renewed site delay s since { m with
      beats := m.beats ++ m.stored.map fun s => ⟨s, m.nextTick, none⟩
      nextTick := m.nextTick + site.period } := by
  have before := r.login over_ ended
  have started : (⟨s, m.nextTick, none⟩ : Beat) ∈
      m.beats ++ m.stored.map fun s => ⟨s, m.nextTick, none⟩ :=
    List.mem_append_right _ (List.mem_map_of_mem stored)
  have unread : ∀ {b : Beat} {name : Text},
      b ∈ m.beats ++ m.stored.map (fun s => (⟨s, m.nextTick, none⟩ : Beat)) →
      b.read = some name → b ∈ m.beats := by
    intro b name member read
    rcases List.mem_append.mp member with old | new
    · exact old
    · obtain ⟨_, -, rfl⟩ := List.mem_map.mp new
      cases read
  refine ⟨r.login, ?_, ?_, ?_⟩
  · exact fun b member own name read => r.stale b (unread member read) own name read
  · intro late b member own name read
    have late : since + delay + site.period < m.nextTick + site.period := late
    by_contra other
    -- a goroutine that has read another name would be overdue by now
    have tick := r.stale b (unread member read) own name read other
    have within := on.beats b (unread member read) over_ (own ▸ ended)
    omega
  · intro late
    have late : since + delay + site.period < m.nextTick + site.period := late
    by_cases first : m.nextTick ≤ since + delay + site.period
    · exact .inr ⟨_, started, rfl, first⟩
    · rcases r.held (by omega) with ⟨expiry, record, kept⟩ | ⟨b, member, own, tick⟩
      · refine .inl ⟨expiry, record, .inr ?_⟩
        rcases kept with later | ⟨b, member, own, before⟩
        · refine ⟨_, started, rfl, ?_⟩
          show max m.nextTick since + delay < expiry
          omega
        · exact ⟨b, List.mem_append_left _ member, own, before⟩
      · exact .inr ⟨b, List.mem_append_left _ member, own, tick⟩

theorem mem_eraseIdx {beats : List Beat} {i : Nat} {b b' : Beat} (at_ : beats[i]? = some b')
    (other : b ≠ b') : b ∈ beats.eraseIdx i ↔ b ∈ beats := by
  constructor
  · exact List.mem_of_mem_eraseIdx
  · intro member
    rw [List.mem_eraseIdx_iff_getElem?]
    obtain ⟨j, found⟩ := List.getElem?_of_mem member
    refine ⟨j, ?_, found⟩
    rintro rfl
    exact other (Option.some.inj (found.symm.trans at_))

theorem write_other {op : Op} {ok : Bool}
    (other : ¬ playerKey site.toLower op.playerName = site.key s) :
    m.write site op ok (site.key s) = m.redis (site.key s) := by
  unfold write
  split
  · exact Expiring.apply_other (Ne.symm other)
  · rfl

/-- The heartbeat of the session, or that of another player. -/
theorem Renewed.beat (r : Renewed site delay s since m) (on : OnTime site delay m)
    (slack : site.period + delay < site.ttl) {i s' tick : Nat} {name : Text} {ok : Bool}
    (at_ : m.beats[i]? = some ⟨s', tick, some name⟩)
    (undisturbed : disturbs site s m (.beat i ok) = false) :
    Renewed site delay s since { m with
      beats := m.beats.eraseIdx i
      redis := m.write site (.announce site.proxyID (site.name s') name) ok } := by
  simp only [disturbs, at_] at undisturbed
  by_cases own : s' = s
  · subst own
    have sent : ok = true := by simpa using undisturbed
    subst sent
    refine ⟨r.login, ?_, ?_, ?_⟩
    · exact fun b member => r.stale b (List.mem_of_mem_eraseIdx member)
    · exact fun late b member => r.fresh late b (List.mem_of_mem_eraseIdx member)
    · intro late
      -- the record is written anew, and lasts beyond the next tick
      have current := r.fresh late _ (List.mem_of_getElem? at_) rfl name rfl
      refine .inl ⟨m.now + site.ttl, ?_, .inl ?_⟩
      · show Function.update m.redis (site.key s') _ (site.key s') = _
        rw [Function.update_self, current, Expiring.expiry_of_pos _ (by omega)]
      · have last := on.last
        show m.nextTick + delay < m.now + site.ttl
        omega
  · rw [if_neg own, decide_eq_false_iff_not] at undisturbed
    refine r.moves (write_other undisturbed) rfl rfl rfl fun b mine => ?_
    refine mem_eraseIdx at_ ?_
    rintro rfl
    exact own mine

theorem Renewed.next (r : Renewed site delay s since m) (on : OnTime site delay m)
    (slack : site.period + delay < site.ttl) (stored : s ∈ m.stored) {over_ : Nat}
    (ended : m.login s = some over_) (undisturbed : disturbs site s m o = false)
    (taken : m.next site o = some m') : Renewed site delay s since m' := by
  have every : ∀ {m' : Member}, m'.beats = m.beats → ∀ b : Beat, b.session = s →
      (b ∈ m'.beats ↔ b ∈ m.beats) := by
    intro m' same b _
    rw [same]
  cases o with
  | pass =>
      cases taken
      exact r.moves rfl rfl rfl rfl (every rfl)
  | tick =>
      simp only [Member.next] at taken
      split at taken <;> cases taken
      rename_i due
      exact r.tick on stored ended due.2
  | read i =>
      simp only [Member.next] at taken
      split at taken
      · rename_i s' tick old
        split at taken <;> cases taken
        have mine : ∀ b ∈ m.beats.set i ⟨s', tick, some (m.server s')⟩, b.session = s →
            ∀ name, b.read = some name → name = m.server s ∨ b ∈ m.beats := by
          intro b member own name read
          rcases mem_set_beats old member with ⟨rfl, -⟩ | before
          · cases own
            cases read
            exact .inl rfl
          · exact .inr before
        have kept : ∀ b ∈ m.beats, b.session = s → ∃ b' ∈ m.beats.set i ⟨s', tick, some (m.server s')⟩,
            b'.session = s ∧ b'.tick = b.tick := by
          intro b member own
          obtain ⟨j, found⟩ := List.getElem?_of_mem member
          by_cases here : i = j
          · subst here
            cases old.symm.trans found
            refine ⟨_, List.mem_of_getElem? (i := i) (a := ⟨s', tick, some (m.server s')⟩) ?_, own, rfl⟩
            rw [List.getElem?_set_self (List.getElem?_eq_some_iff.mp old).1]
          · refine ⟨b, List.mem_of_getElem? (i := j) ?_, own, rfl⟩
            rwa [List.getElem?_set_ne here]
        refine ⟨r.login, ?_, ?_, ?_⟩
        · intro b member own name read other
          exact r.stale b ((mine b member own name read).resolve_left other) own name read other
        · intro late b member own name read
          exact (mine b member own name read).elim id fun before =>
            r.fresh late b before own name read
        · intro late
          rcases r.held late with ⟨expiry, record, lasts⟩ | ⟨b, member, own, before⟩
          · refine .inl ⟨expiry, record, lasts.imp_right fun ⟨b, member, own, before⟩ => ?_⟩
            obtain ⟨b', member', own', tick'⟩ := kept b member own
            exact ⟨b', member', own', tick' ▸ before⟩
          · obtain ⟨b', member', own', tick'⟩ := kept b member own
            exact .inr ⟨b', member', own', tick' ▸ before⟩
      · cases taken
  | beat i ok =>
      simp only [Member.next] at taken
      split at taken <;> cases taken
      exact r.beat on slack ‹_› undisturbed
  | store s' =>
      simp only [Member.next] at taken
      split at taken <;> cases taken
      exact r.moves rfl rfl rfl rfl (every rfl)
  | login s' =>
      simp only [disturbs, decide_eq_false_iff_not] at undisturbed
      simp only [Member.next] at taken
      split at taken <;> cases taken
      exact r.moves rfl rfl (Function.update_of_ne (Ne.symm undisturbed) ..) rfl (every rfl)
  | switch s' serverName =>
      simp only [disturbs, decide_eq_false_iff_not] at undisturbed
      cases taken
      exact r.moves rfl (Function.update_of_ne (Ne.symm undisturbed) ..) rfl rfl (every rfl)
  | announce s' serverName ok =>
      simp only [disturbs, decide_eq_false_iff_not] at undisturbed
      cases taken
      exact r.moves (write_other undisturbed) rfl rfl rfl (every rfl)
  | remove s' ok =>
      simp only [disturbs, decide_eq_false_iff_not] at undisturbed
      cases taken
      exact r.moves (write_other undisturbed) rfl rfl rfl (every rfl)
  | delete s' =>
      cases taken
      exact r.moves rfl rfl rfl rfl (every rfl)
  | foreign op ttl =>
      simp only [disturbs, decide_eq_false_iff_not] at undisturbed
      simp only [Member.next] at taken
      split at taken <;> cases taken
      exact r.moves (Expiring.apply_other (Ne.symm undisturbed)) rfl rfl rfl (every rfl)

/-- Only the clock moves time, and it moves nothing else. -/
theorem next_now (taken : m.next site o = some m') :
    m'.now = m.now ∨ m'.now = m.now + 1 ∧ m'.login = m.login ∧ m'.beats = m.beats ∧
      m'.nextTick = m.nextTick := by
  cases o with
  | pass =>
      cases taken
      exact .inr ⟨rfl, rfl, rfl, rfl⟩
  | _ =>
      left
      simp only [Member.next] at taken
      repeat' split at taken
      all_goals cases taken
      all_goals rfl

theorem next_stored (undisturbed : disturbs site s m o = false)
    (taken : m.next site o = some m') (stored : s ∈ m'.stored) : s ∈ m.stored := by
  cases o with
  | store s' =>
      simp only [disturbs, decide_eq_false_iff_not] at undisturbed
      simp only [Member.next] at taken
      split at taken <;> cases taken
      exact (List.mem_cons.mp stored).resolve_left (Ne.symm undisturbed)
  | delete s' =>
      cases taken
      exact List.mem_of_mem_erase stored
  | _ =>
      simp only [Member.next] at taken
      repeat' split at taken
      all_goals cases taken
      all_goals exact stored

theorem next_login (undisturbed : disturbs site s m o = false)
    (taken : m.next site o = some m') : m'.login s = m.login s := by
  cases o with
  | login s' =>
      simp only [disturbs, decide_eq_false_iff_not] at undisturbed
      simp only [Member.next] at taken
      split at taken <;> cases taken
      exact Function.update_of_ne (Ne.symm undisturbed) ..
  | _ =>
      simp only [Member.next] at taken
      repeat' split at taken
      all_goals cases taken
      all_goals rfl

/-- What holds between two occurrences: whoever has been left alone since `since` is renewed. -/
structure Beating (site : Site) (delay s since : Nat) (p : Member × List Nat) : Prop where
  onTime : OnTime site delay p.1
  renewed : (∀ moment ∈ p.2, moment < since) → since ≤ p.1.now → s ∈ p.1.stored →
    p.1.login s ≠ none → Renewed site delay s since p.1

theorem Beating.next {p p' : Member × List Nat} (beating : Beating site delay s since p)
    (slack : site.period + delay < site.ttl) (ok : prompt site delay p.1 o = true)
    (taken : ((machine site).record (disturbances site s)).next p o = some p') :
    Beating site delay s since p' := by
  obtain ⟨stepped, log⟩ := Machine.record_next taken
  have on := beating.onTime
  refine ⟨next_onTime on ok stepped, fun calm reached stored ended => ?_⟩
  rw [log] at calm
  have calm' : ∀ moment ∈ p.2, moment < since := fun moment member =>
    calm moment (List.mem_append_left _ member)
  by_cases early : p.1.now < since
  · rcases next_now stepped with same | ⟨-, same⟩
    · omega
    · exact on.renewed early same
  · have undisturbed : disturbs site s p.1 o = false := by
      by_contra disturbed
      have moment := calm p.1.now (List.mem_append_right _ (by simp_all [disturbances]))
      omega
    have stored' := next_stored undisturbed stepped stored
    have login := next_login undisturbed stepped
    obtain ⟨over_, before⟩ := Option.ne_none_iff_exists'.mp (login ▸ ended)
    have renewed := beating.renewed calm' (by omega) stored' (by rw [before]; simp)
    exact renewed.next on slack stored' before undisturbed stepped

theorem beating (since : Nat) {p : Member × List Nat} (slack : site.period + delay < site.ttl)
    (reached : ((machine site).record (disturbances site s)).Reach
      (fun p o => prompt site delay p.1 o = true) p) : Beating site delay s since p := by
  refine reached.invariant (I := Beating site delay s since) ?_
    fun p p' o _ beating ok taken => beating.next slack ok taken
  refine ⟨start_onTime, fun _ _ stored => ?_⟩
  cases stored

/-- **A session that is left alone is seen by the cluster.**  In every prompt run of a proxy
whose ID has no separator: whatever was done to the record of a session before `since` (it was
removed by the quit of another one, overwritten by another proxy or by an older heartbeat, or
its announcement failed), if the session is in the store and logged in and nothing has
disturbed it since, its player is looked up on this proxy and on the server they are on, at
every moment later than `ttl / 2 + 2 * D`. -/
theorem heartbeat_restores (since : Nat) {log : List Nat} (free : separator ∉ site.proxyID)
    (slack : site.period + delay < site.ttl)
    (reached : ((machine site).record (disturbances site s)).Reach
      (fun p o => prompt site delay p.1 o = true) (m, log))
    (calm : ∀ moment ∈ log, moment < since) (stored : s ∈ m.stored) (ended : m.login s ≠ none)
    (late : since + site.period + 2 * delay < m.now) :
    lookup site.toLower (site.name s) (m.redis.visible m.now) =
      (site.proxyID, m.server s, true) := by
  obtain ⟨on, renewed⟩ := beating since slack reached
  have renewed := renewed calm (by show since ≤ m.now; omega) stored ended
  obtain ⟨over_, login⟩ := Option.ne_none_iff_exists'.mp ended
  have before := renewed.login over_ login
  have next_ : m.now ≤ m.nextTick + delay := on.next (by omega)
  have overdue : ∀ b ∈ m.beats, b.session = s → m.now ≤ max b.tick over_ + delay :=
    fun b member own => on.beats b member over_ (own ▸ login)
  have good : Good site delay s since m := by
    rcases renewed.held (by show _ < m.nextTick; omega) with good | ⟨b, member, own, tick⟩
    · exact good
    · have within := overdue b member own
      omega
  obtain ⟨expiry, record, lasts⟩ := good
  have alive : m.now < expiry := by
    rcases lasts with later | ⟨b, member, own, later⟩
    · omega
    · have within := overdue b member own
      omega
  have seen : m.redis.visible m.now (playerKey site.toLower (site.name s)) =
      some (encode (site.proxyID, m.server s)) := by
    unfold Expiring.visible
    rw [show m.redis (playerKey site.toLower (site.name s)) = _ from record]
    exact if_pos alive
  simp only [lookup, seen, encode, cut_join free]

/-- Proxy "a", with a player "P" and records that last six seconds. -/
def siteA : Site := ⟨asciiLower, [97], 6, fun _ => [80]⟩

/-- A tick, and the goroutine it has started. -/
def beatOnce : List Occurrence := [.tick, .read 0, .beat 0 true]

/-- The player's first announcement fails, and proxy "b" announces them a second later; the
next heartbeat puts the record right. -/
theorem heartbeat_restores_overwritten :
    ∃ m log, ((machine siteA).record (disturbances siteA 0)).Reach
        (fun p o => prompt siteA 1 p.1 o = true) (m, log) ∧ log = [0, 0, 0, 0, 1] ∧ m.now = 8 ∧
      lookup asciiLower [112] (m.redis.visible m.now) = ([97], [115], true) := by
  obtain ⟨m, log, reached, disturbed, now, stored, ended, server⟩ : ∃ m log,
      ((machine siteA).record (disturbances siteA 0)).Reach
        (fun p o => prompt siteA 1 p.1 o = true) (m, log) ∧ log = [0, 0, 0, 0, 1] ∧ m.now = 8 ∧
      m.stored = [0] ∧ m.login 0 = some 0 ∧ m.server 0 = [115] := by
    have reached : ((machine siteA).record (disturbances siteA 0)).Reach
        (fun p o => prompt siteA 1 p.1 o = true) _ :=
      Machine.exec_reach (([.store 0, .login 0, .switch 0 [115], .announce 0 [115] false, .pass,
        .foreign (.announce [98] [112] [120]) 6, .pass, .pass] : List Occurrence) ++ beatOnce ++
        List.replicate 3 .pass ++ beatOnce ++ List.replicate 2 .pass) rfl
    exact ⟨_, _, reached, rfl, rfl, rfl, rfl, rfl⟩
  refine ⟨m, log, reached, disturbed, now, ?_⟩
  have found := heartbeat_restores 2 (by decide) (by decide) reached
    (by rw [disturbed]; decide) (by rw [stored]; simp) (by rw [ended]; simp) (by rw [now]; decide)
  rw [server] at found
  exact found

end Member

end Portal.Cluster
