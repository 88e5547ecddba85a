/-
# Cluster.Reconnect — a player who reconnects to the same proxy

Two sessions of one player, the one the player left and the one they came back
with, on one proxy: every interleaving of the goroutines of both, with the store
they share and the subscriptions that mirror presence in Redis.  The bus is
synchronous, so a goroutine that publishes is busy with its subscribers
(`World.busy`) until they return: the join's subscriber loads the session from the
store, asks it for its server and announces; the quit's removes.

`Store.Delete` does nothing for a session that has been replaced, and so the late
`Close` of the old session cannot take the new one out of the store (`Kept.listed`).
The quit is published without such a check, and the record belongs to the proxy, not
to the session: the old session's removal takes the new session offline when it
comes after the new one's announcement (`late_quit_hides_player`).  Without such a
late removal the player is found (`presence_survives`).
-/
import Portal.Cluster.Presence
import Portal.Session.Lifecycle
import Portal.Session.Store

namespace Portal

set_option autoImplicit false

/-- The login goroutine has published the join. -/
def LoginState.welcomed : LoginState → Bool
  | .starting => true
  | .closing r => r = .joined
  | .done r => r = .joined
  | _ => false

/-- `Close` has not executed `s.store.Delete(s)`. -/
def CloseState.stored : CloseState → Bool
  | .closingClient => false
  | .closingServer => false
  | .closingTemp => false
  | .decrementing => false
  | .done => false
  | _ => true

/-- `New`, the login goroutine and `Close` have each ended or not begun. -/
def Session.resting (s : Session) : Bool :=
  (match s.new with
    | .storing => true
    | .returned _ => true
    | _ => false) &&
  (match s.login with
    | .unstarted => true
    | .done _ => true
    | _ => false) &&
  (match s.close with
    | .unstarted => true
    | .done => true
    | _ => false)

/-! ## What a session cannot go back to -/

namespace Session

variable {s s' : Session} {a : Action}

theorem next_unclosed (taken : s.next a = some s') (unstarted : s'.close = .unstarted) :
    s.close = .unstarted := by
  obtain same | ⟨-, taken⟩ := next_close taken
  · rw [← same]
    exact unstarted
  · cases at_ : s.close with
    | unstarted => rfl
    | _ =>
        simp only [at_, closeStep] at taken
        (repeat' split at taken) <;> cases taken <;> cases unstarted

theorem next_undeleted (taken : s.next a = some s') (stored : s'.close.stored = true) :
    s.close.stored = true ∧ ¬ (a.1 = .close ∧ s.close = .deleting) := by
  obtain same | ⟨-, taken⟩ := next_close taken
  · refine ⟨same ▸ stored, ?_⟩
    rintro ⟨actor, at_⟩
    have step : s.closeStep s.close = some s' := ownStep_of_next taken actor
    rw [at_] at step
    cases step
    cases stored
  · cases at_ : s.close with
    | deleting | closingClient | closingServer | closingTemp | decrementing | done =>
        simp only [at_, closeStep] at taken
        cases taken <;> cases stored
    | _ =>
        refine ⟨rfl, ?_⟩
        rintro ⟨-, ⟨⟩⟩

theorem newStep_stored {input : Input} (taken : s.newStep input s.new = some s') :
    s'.new ≠ .storing ∧ (s'.new ≠ .returned false → s.new ≠ .deleting) := by
  revert taken
  fun_cases newStep input s s.new <;> intro taken <;> cases taken <;> simp_all

/-- The join is behind the login goroutine once it has published it. -/
theorem next_welcomed (taken : s.next a = some s') (welcomed : s'.login.welcomed = true) :
    s.login.welcomed = true ∨ (a.1 = .login ∧ s.login = .publishing) := by
  obtain same | ⟨-, taken⟩ | ⟨actor, taken⟩ := next_login taken
  · exact .inl (same ▸ welcomed)
  · -- `New` leaves the login alone or starts it
    revert taken
    fun_cases newStep a.2 s s.new <;> intro taken <;> cases taken <;>
      first
      | exact .inl welcomed
      | cases welcomed
  · cases at_ : s.login with
    | publishing => exact .inr ⟨actor, rfl⟩
    | starting => exact .inl rfl
    | unlocking r =>
        rw [at_] at taken
        cases taken
        cases r <;> cases welcomed
    | closing r =>
        simp only [at_, loginStep] at taken
        split at taken <;> cases taken
        exact .inl welcomed
    | _ =>
        simp only [at_, loginStep] at taken
        (repeat' split at taken) <;> cases taken <;> cases welcomed

end Session

namespace Cluster

open Portal.Theory.Separator Portal.Theory.Transition

/-- The configuration of the proxy, and the player. -/
structure Proxy where
  lib : Library
  /-- the bytes of a string -/
  bytes : String → Text
  /-- `strings.ToLower`, on bytes -/
  toLower : Text → Text
  proxyID : Text
  uuid : UUID
  displayName : String

/-- The two sessions of the player. -/
inductive Side where
  | old
  | new
  deriving DecidableEq

/-- A subscriber, at the statement it executes next. -/
inductive Task where
  /-- `p.SessionStore().Load(pl.UUID)` -/
  | loading
  /-- the `waitForLogin` of `s.Server()` -/
  | awaiting (x : Side)
  /-- the read of `s.Server()` and its `Name()` -/
  | reading (x : Side)
  /-- `clusterBackend.Announce(clusterProxyID, name, serverName)` -/
  | announcing (serverName : Text)
  /-- `clusterBackend.Remove(clusterProxyID, pl.Name)` -/
  | removing
  deriving DecidableEq

/-- On its way to announce the new session. -/
def Task.welcoming : Task → Bool
  | .loading => true
  | .awaiting x => x = .new
  | .reading x => x = .new
  | .announcing _ => true
  | .removing => false

structure World where
  session : Side → Session
  store : Store
  redis : Redis
  /-- The subscriber a goroutine is in the middle of, while it publishes. -/
  busy : Side → Actor → Option Task

namespace Proxy

variable (px : Proxy)

/-- The session as the store has it. -/
def stored : Side → StoredSession
  | .old => ⟨0, px.uuid, px.displayName⟩
  | .new => ⟨1, px.uuid, px.displayName⟩

/-- The session the store returned. -/
def side (x : StoredSession) : Side := if x = px.stored .old then .old else .new

/-- What the next statement of a goroutine does to the store. -/
def filing (x : Side) (s : Session) (store : Store) : Actor → Store
  | .new =>
      match s.new with
      | .storing => store.store px.lib (px.stored x)
      | .deleting => store.delete px.lib (px.stored x)
      | _ => store
  | .close =>
      match s.close with
      | .deleting => store.delete px.lib (px.stored x)
      | _ => store
  | _ => store

/-- The subscriptions of the binary: what an event makes the publishing goroutine do. -/
def subscriber (s : Session) : List BusEvent → Option Task
  | .playerJoin :: _ => some .loading
  | .playerQuit :: _ => some .removing
  | .transfer i o :: _ =>
      if o.err.isSome then none
      else (s.calls i).map fun call => .announcing (px.bytes call.target.name)
  | [] => none

end Proxy

namespace World

variable (px : Proxy)

def setBusy (w : World) (x : Side) (actor : Actor) (task : Option Task) : World :=
  { w with busy := Function.update w.busy x (Function.update (w.busy x) actor task) }

/-- One statement of a subscriber.  The bus recovers from one that panics. -/
def handle (w : World) (x : Side) (actor : Actor) : Task → Option World
  | .loading =>
      match w.store.load px.uuid with
      | none => some (w.setBusy x actor none)
      | some found => some (w.setBusy x actor (some (.awaiting (px.side found))))
  | .awaiting y =>
      if (w.session y).loginMu then none else some (w.setBusy x actor (some (.reading y)))
  | .reading y =>
      if (w.session y).serverMuHeld then none
      else
        match (w.session y).server with
        | none => some (w.setBusy x actor none)
        | some srv => some (w.setBusy x actor (some (.announcing (px.bytes srv.name))))
  | .announcing serverName =>
      some { w.setBusy x actor none with
        redis := announce px.toLower px.proxyID (px.bytes px.displayName) serverName w.redis }
  | .removing =>
      some { w.setBusy x actor none with
        redis := remove px.toLower px.proxyID (px.bytes px.displayName) w.redis }

/-- A goroutine of a session executes its next statement, or one of the subscriber it
is in the middle of. -/
inductive Move where
  | step (x : Side) (a : Action)
  | handle (x : Side) (actor : Actor)

def next (w : World) : Move → Option World
  | .step x a =>
      if (w.busy x a.1).isSome then none
      -- the player comes back after the old session was created
      else if x = .new ∧ (w.session .old).new = .storing then none
      else
        match (w.session x).next a with
        | none => none
        | some s' =>
            some { w.setBusy x a.1 (px.subscriber (w.session x) ((w.session x).announces a.1)) with
              session := Function.update w.session x s'
              store := px.filing x (w.session x) w.store a.1 }
  | .handle x actor =>
      match w.busy x actor with
      | none => none
      | some task => w.handle px x actor task

/-- Both sessions from the start, on a Redis in any state. -/
def machine (redis : Redis) : Machine World Move where
  start := ⟨fun _ => Session.initial, .newDefault, redis, fun _ _ => none⟩
  next := next px

/-- The subscriber of the new session's join has run. -/
def greeted (w : World) : Bool :=
  (w.session .new).login.welcomed && (w.busy .new .login).isNone

/-- The old session's removal is executed only before the new session's announcement. -/
def timely (w : World) : Move → Bool
  | .handle .old actor => !(w.busy .old actor = some .removing && w.greeted)
  | _ => true

/-- No creation, login, `Close` or subscriber of either session is midway. -/
def Quiet (w : World) : Prop :=
  (∀ x, (w.session x).resting = true) ∧ ∀ x actor, w.busy x actor = none

variable {px} {w w' : World} {x : Side} {a : Action} {actor : Actor}

/-! ## What a move can do -/

theorem next_step (taken : w.next px (.step x a) = some w') :
    w.busy x a.1 = none ∧ (x = .new → (w.session .old).new ≠ .storing) ∧
      ∃ s', (w.session x).next a = some s' ∧
        w' = { w.setBusy x a.1 (px.subscriber (w.session x) ((w.session x).announces a.1)) with
          session := Function.update w.session x s'
          store := px.filing x (w.session x) w.store a.1 } := by
  simp only [next] at taken
  split at taken
  · cases taken
  · rename_i idle
    split at taken
    · cases taken
    · rename_i ready
      split at taken <;> cases taken
      rename_i s' step
      exact ⟨by simpa using idle, fun new early => ready ⟨new, early⟩, s', step, rfl⟩

/-- What a subscriber does besides moving on: nothing to the sessions and the store. -/
inductive Effect (px : Proxy) (w : World) : Task → Redis → Prop where
  | announce (name : Text) :
      Effect px w (.announcing name)
        (announce px.toLower px.proxyID (px.bytes px.displayName) name w.redis)
  | remove :
      Effect px w .removing (remove px.toLower px.proxyID (px.bytes px.displayName) w.redis)
  | none (task : Task) (quiet : task ≠ .removing) : Effect px w task w.redis

theorem handle_effect {task : Task} (taken : w.handle px x actor task = some w') :
    ∃ task' redis, w' = { w.setBusy x actor task' with redis := redis } ∧
      task' ≠ some .removing ∧ Effect px w task redis := by
  cases task with
  | loading =>
      simp only [handle] at taken
      split at taken <;> cases taken
      · exact ⟨_, _, rfl, nofun, .none _ nofun⟩
      · exact ⟨_, _, rfl, nofun, .none _ nofun⟩
  | awaiting y =>
      simp only [handle] at taken
      split at taken <;> cases taken
      exact ⟨_, _, rfl, nofun, .none _ nofun⟩
  | reading y =>
      simp only [handle] at taken
      split at taken
      · cases taken
      · split at taken <;> cases taken
        · exact ⟨_, _, rfl, nofun, .none _ nofun⟩
        · exact ⟨_, _, rfl, nofun, .none _ nofun⟩
  | announcing name =>
      cases taken
      exact ⟨_, _, rfl, nofun, .announce name⟩
  | removing =>
      cases taken
      exact ⟨_, _, rfl, nofun, .remove⟩

theorem next_handle (taken : w.next px (.handle x actor) = some w') :
    ∃ task, w.busy x actor = some task ∧ w.handle px x actor task = some w' := by
  simp only [next] at taken
  split at taken
  · cases taken
  · exact ⟨_, ‹_›, taken⟩

/-! ## The new session stays in the store -/

/-- What holds of the two sessions in every run. -/
structure Kept (px : Proxy) (w : World) : Prop where
  wired : ∀ x, (w.session x).Wired
  order : (w.session .new).new ≠ .storing → (w.session .old).new ≠ .storing
  /-- The new session is found under the UUID until its own `Delete`. -/
  listed : (w.session .new).new ≠ .storing → (w.session .new).new ≠ .returned false →
    (w.session .new).close.stored = true → w.store.load px.uuid = some (px.stored .new)
  removing : ∀ x actor, w.busy x actor = some .removing → (w.session x).close ≠ .unstarted

/-- What the old session does to the store does not reach the new one's entry. -/
theorem filing_old {s : Session} {store : Store} (later : s.new ≠ .storing)
    (listed : store.load px.uuid = some (px.stored .new)) :
    px.filing .old s store actor = store := by
  have spared : store.delete px.lib (px.stored .old) = store := by
    refine Store.delete_of_ne fun same => ?_
    cases listed.symm.trans same
  unfold Proxy.filing
  split
  · split
    · exact absurd ‹_› later
    · exact spared
    · rfl
  · split
    · exact spared
    · rfl
  · rfl

/-- The new session's own statements put its entry there and leave it until its
`Delete`. -/
theorem filing_new {s s' : Session} {store : Store} (taken : s.next a = some s')
    (later : s'.new ≠ .storing) (unfailed : s'.new ≠ .returned false)
    (stored : s'.close.stored = true)
    (listed : s.new ≠ .storing → store.load px.uuid = some (px.stored .new)) :
    (px.filing .new s store a.1).load px.uuid = some (px.stored .new) := by
  cases actor : a.1 with
  | new =>
      have step : s.newStep a.2 s.new = some s' := Session.ownStep_of_next taken actor
      have undeleted := (Session.newStep_stored step).2 unfailed
      cases at_ : s.new with
      | storing =>
          simp only [Proxy.filing, at_]
          exact Store.load_store_self (px.stored .new)
      | deleting => exact absurd at_ undeleted
      | _ => simpa [Proxy.filing, at_] using listed (by rw [at_]; exact nofun)
  | close =>
      have undeleted := (Session.next_undeleted taken stored).2
      have same : s'.new = s.new := by
        obtain same | ⟨new, -⟩ := Session.next_new taken
        · exact same
        · cases new.symm.trans actor
      cases at_ : s.close with
      | deleting => exact absurd ⟨actor, at_⟩ undeleted
      | _ => simpa [Proxy.filing, at_] using listed (same ▸ later)
  | _ =>
      have same : s'.new = s.new := by
        obtain same | ⟨new, -⟩ := Session.next_new taken
        · exact same
        · cases new.symm.trans actor
      exact listed (same ▸ later)

theorem subscriber_removing {s : Session} (quit : px.subscriber s (s.announces actor) = some .removing) :
    actor = .close ∧ s.close = .publishing := by
  have published : .playerQuit ∈ s.announces actor := by
    revert quit
    cases s.announces actor with
    | nil => exact nofun
    | cons e rest =>
        cases e with
        | playerJoin => exact nofun
        | playerQuit => exact fun _ => List.mem_cons_self
        | transfer i o =>
            intro quit
            simp only [Proxy.subscriber] at quit
            split at quit
            · cases quit
            · simp at quit
  obtain ⟨impossible, -⟩ | ⟨-, actor, at_⟩ := Session.mem_announces published (.inr rfl)
  · cases impossible
  · exact ⟨actor, at_⟩

theorem setBusy_busy {task : Option Task} {y : Side} {other : Actor} :
    (w.setBusy x actor task).busy y other =
      if y = x ∧ other = actor then task else w.busy y other := by
  simp only [setBusy, Function.update_apply]
  by_cases side : y = x
  · subst side
    simp [Function.update_apply]
  · simp [side]

theorem Kept.step (k : Kept px w) (taken : w.next px (.step x a) = some w') : Kept px w' := by
  obtain ⟨-, created, s', step, rfl⟩ := next_step taken
  refine ⟨?_, ?_, ?_, ?_⟩
  · intro y
    by_cases side : y = x
    · subst side
      simpa using Session.next_wired (k.wired y) step
    · simpa [Function.update_of_ne side] using k.wired y
  · cases x with
    | new => exact fun _ => created rfl
    | old =>
        intro later
        obtain same | ⟨-, step⟩ := Session.next_new step
        · simpa [same] using k.order later
        · simpa using (Session.newStep_stored step).1
  · cases x with
    | new =>
        simp only [Function.update_self]
        intro later unfailed stored
        refine filing_new step later unfailed stored fun before => k.listed before ?_ ?_
        · intro failed
          obtain same | ⟨-, step⟩ := Session.next_new step
          · exact unfailed (same.trans failed)
          · rw [failed] at step
            cases step
        · exact (Session.next_undeleted step stored).1
    | old =>
        intro later unfailed stored
        have listed := k.listed later unfailed stored
        exact (congrArg (Store.load · px.uuid) (filing_old (k.order later) listed)).trans listed
  · intro y other
    simp only [setBusy_busy]
    by_cases here : y = x ∧ other = a.1
    · obtain ⟨rfl, rfl⟩ := here
      simp only [and_self, if_true, Function.update_self]
      intro quit
      obtain ⟨actor, at_⟩ := subscriber_removing quit
      have step : (w.session y).closeStep (w.session y).close = some _ :=
        Session.ownStep_of_next step actor
      rw [at_] at step
      cases step
      exact nofun
    · rw [if_neg here]
      intro before unstarted
      by_cases side : y = x
      · subst side
        simp only [Function.update_self] at unstarted
        exact k.removing y other before (Session.next_unclosed step unstarted)
      · rw [Function.update_of_ne side] at unstarted
        exact k.removing y other before unstarted

theorem Kept.handle (k : Kept px w) (taken : w.next px (.handle x actor) = some w') :
    Kept px w' := by
  obtain ⟨task, -, taken⟩ := next_handle taken
  obtain ⟨task', redis, rfl, unremoving, -⟩ := handle_effect taken
  refine ⟨k.wired, k.order, k.listed, ?_⟩
  intro y other
  simp only [setBusy_busy]
  split
  · exact fun removing => absurd removing unremoving
  · exact k.removing y other

theorem kept {redis : Redis} {ok : World → Move → Prop}
    (reached : (machine px redis).Reach ok w) : Kept px w := by
  refine reached.invariant ?_ ?_
  · exact ⟨fun _ => Session.initial_wired, absurd rfl, absurd rfl, nofun⟩
  · intro w w' move _ k _ taken
    cases move with
    | step x a => exact k.step taken
    | handle x actor => exact k.handle taken

/-! ## The new session's announcement stands -/

/-- The player has a record of this proxy. -/
def Present (px : Proxy) (redis : Redis) : Prop :=
  ∃ serverName, redis (playerKey px.toLower (px.bytes px.displayName)) =
    some (px.proxyID ++ separator :: serverName)

theorem present_announce (redis : Redis) (serverName : Text) :
    Present px (announce px.toLower px.proxyID (px.bytes px.displayName) serverName redis) :=
  ⟨serverName, Function.update_self ..⟩

/-- While the new session is open and has published its join, its announcement stands
or is on its way. -/
def Welcome (px : Proxy) (w : World) : Prop :=
  (w.session .new).close = .unstarted → (w.session .new).login.welcomed = true →
    match w.busy .new .login with
    | none => Present px w.redis
    | some task => task.welcoming = true

theorem Welcome.step (welcome : Welcome px w) (taken : w.next px (.step x a) = some w') :
    Welcome px w' := by
  obtain ⟨idle, -, s', step, rfl⟩ := next_step taken
  unfold Welcome
  simp only [setBusy_busy]
  cases x with
  | old =>
      have before := welcome
      unfold Welcome at before
      simpa [setBusy] using before
  | new =>
      simp only [Function.update_self]
      intro unstarted welcomed
      have unclosed := Session.next_unclosed step unstarted
      obtain before | ⟨actor, at_⟩ := Session.next_welcomed step welcomed
      · have standing := welcome unclosed before
        by_cases actor : a.1 = .login
        · -- the login goroutine is not publishing, and will not publish a join again
          have silent : (w.session .new).announces .login = [] := by
            cases at_ : (w.session .new).login with
            | publishing =>
                rw [at_] at before
                cases before
            | _ => simp [Session.announces, at_]
          rw [actor] at idle
          simpa [actor, silent, idle, Proxy.subscriber, setBusy] using standing
        · simpa [Ne.symm actor, setBusy] using standing
      · simp [actor, Session.announces, at_, Proxy.subscriber, Task.welcoming]

/-- The subscriber of the new session's join finds the session and its server. -/
theorem Welcome.greet (k : Kept px w) {task : Task} (welcoming : task.welcoming = true)
    (unclosed : (w.session .new).close = .unstarted)
    (welcomed : (w.session .new).login.welcomed = true)
    (taken : w.handle px .new .login task = some w') :
    match w'.busy .new .login with
    | none => Present px w'.redis
    | some task => task.welcoming = true := by
  have returned : (w.session .new).new = .returned true := by
    refine (k.wired .new).returned fun unstarted => ?_
    rw [unstarted] at welcomed
    cases welcomed
  cases task with
  | loading =>
      have listed := k.listed (by rw [returned]; exact nofun) (by rw [returned]; exact nofun)
        (by rw [unclosed]; rfl)
      simp only [World.handle, listed] at taken
      cases taken
      rw [setBusy_busy]
      simp [Task.welcoming, Proxy.side, Proxy.stored]
  | awaiting y =>
      simp only [World.handle] at taken
      split at taken <;> cases taken
      rw [setBusy_busy]
      exact welcoming
  | reading y =>
      have new : y = .new := by simpa [Task.welcoming] using welcoming
      subst new
      simp only [World.handle] at taken
      split at taken
      · cases taken
      · split at taken
        · rename_i missing
          exact absurd missing ((k.wired .new).assigned (by rw [returned]; rfl))
        · cases taken
          rw [setBusy_busy]
          rfl
  | announcing name =>
      cases taken
      simp only [setBusy_busy]
      exact present_announce w.redis name
  | removing => cases welcoming

theorem Welcome.handle (welcome : Welcome px w) (k : Kept px w)
    (ok : w.timely (.handle x actor) = true) (taken : w.next px (.handle x actor) = some w') :
    Welcome px w' := by
  obtain ⟨task, running, taken⟩ := next_handle taken
  have sessions : w'.session = w.session := by
    obtain ⟨_, _, rfl, -⟩ := handle_effect taken
    rfl
  unfold Welcome
  rw [sessions]
  intro unclosed welcomed
  have standing := welcome unclosed welcomed
  by_cases here : x = .new ∧ actor = .login
  · obtain ⟨rfl, rfl⟩ := here
    rw [running] at standing
    exact Welcome.greet k standing unclosed welcomed taken
  · obtain ⟨task', redis, rfl, -, effect⟩ := handle_effect taken
    have away : ¬ (Side.new = x ∧ Actor.login = actor) := fun ⟨side, same⟩ =>
      here ⟨side.symm, same.symm⟩
    simp only [setBusy_busy, if_neg away]
    cases busy : w.busy .new .login with
    | some greeting =>
        rw [busy] at standing
        exact standing
    | none =>
        rw [busy] at standing
        cases effect with
        | announce name => exact present_announce w.redis name
        | none task quiet => exact standing
        | remove =>
            -- the new session is not closed, and the old one's removal is too late
            cases x with
            | new => exact absurd unclosed (k.removing .new actor running)
            | old => simp [timely, running, greeted, welcomed, busy] at ok

/-- **Presence survives a reconnect**: in every run in which the old session's removal
does not come after the new session's announcement, a player whose new session is open
is found on this proxy. -/
theorem presence_survives {redis : Redis} (free : separator ∉ px.proxyID)
    (reached : (machine px redis).Reach (fun w move => w.timely move = true) w)
    (quiet : w.Quiet) (joined : (w.session .new).login = .done .joined)
    (unclosed : (w.session .new).close = .unstarted) :
    ∃ serverName, lookup px.toLower (px.bytes px.displayName) w.redis =
      (px.proxyID, serverName, true) := by
  have welcome : Welcome px w := by
    refine reached.invariant (fun _ => nofun) ?_
    intro w w' move before welcome ok taken
    cases move with
    | step x a => exact welcome.step taken
    | handle x actor => exact welcome.handle (kept before) ok taken
  have standing := welcome unclosed (by rw [joined]; rfl)
  rw [quiet.2 .new .login] at standing
  obtain ⟨serverName, record⟩ := standing
  refine ⟨serverName, ?_⟩
  unfold lookup
  simp only [record, cut_join free]

/-- Statements of one session. -/
def acting (x : Side) (actions : List Action) : List Move := actions.map (.step x)

/-- A session is created, logs in and publishes its join, to the start of its loops. -/
def joining (x : Side) : List Move :=
  acting x (Session.joining Session.lobby Session.lobbyData).dropLast ++
    List.replicate 4 (Move.handle x .login) ++ acting x [(.login, .go)]

/-- `Close`, from its first statement to its last. -/
def leaving (x : Side) : List Move :=
  acting x (Session.steps .close 5) ++ [Move.handle x .close] ++ acting x (Session.steps .close 5)

/-- Proxy "a", and a player called "p". -/
def onProxyA : Proxy where
  lib := .ascii
  bytes := fun s => s.toList.map fun c => UInt8.ofNat c.toNat
  toLower := asciiLower
  proxyID := [97]
  uuid := 1
  displayName := "p"

/-- The old session is gone before the player comes back. -/
theorem presence_survives_return : ∃ w,
    (machine onProxyA fun _ => none).Reach (fun w move => w.timely move = true) w ∧
      (w.session .old).close = .done ∧
      ∃ serverName, lookup asciiLower (onProxyA.bytes "p") w.redis = ([97], serverName, true) := by
  have reached : (machine onProxyA fun _ => none).Reach (fun w move => w.timely move = true) _ :=
    Machine.exec_reach (joining .old ++ leaving .old ++ joining .new) rfl
  obtain ⟨w, reached, resting, idle, joined, unclosed, closed⟩ : ∃ w,
      (machine onProxyA fun _ => none).Reach (fun w move => w.timely move = true) w ∧
      (∀ x, (w.session x).resting = true) ∧ (∀ x actor, w.busy x actor = none) ∧
      (w.session .new).login = .done .joined ∧ (w.session .new).close = .unstarted ∧
      (w.session .old).close = .done :=
    ⟨_, reached, by rintro (_ | _) <;> rfl, by rintro (_ | _) (_ | _) <;> rfl, rfl, rfl, rfl⟩
  exact ⟨w, reached, closed,
    presence_survives (by decide) reached ⟨resting, idle⟩ joined unclosed⟩

/-- The player comes back before the old session's `Close` has got to its publish: the
new session is open, nothing is left to do, and the player is offline. -/
theorem late_quit_hides_player : ∃ w, (machine onProxyA fun _ => none).Reachable w ∧ w.Quiet ∧
    (w.session .new).login = .done .joined ∧ (w.session .new).close = .unstarted ∧
    lookup onProxyA.toLower (onProxyA.bytes onProxyA.displayName) w.redis = ([], [], false) := by
  have reached : (machine onProxyA fun _ => none).Reachable _ :=
    Machine.exec_reach (joining .old ++ joining .new ++ leaving .old) rfl
  exact ⟨_, reached, ⟨by rintro (_ | _) <;> rfl, by rintro (_ | _) (_ | _) <;> rfl⟩, rfl, rfl, rfl⟩

end World

end Cluster

end Portal
