/-
# Server.HealthChecker — rounds of health checks, and the registry they run beside

A round takes the servers of the registry, checks each of them in a goroutine of its
own and, when all have returned, drops the failure counts of names that were not among
them.  The counts are kept by name, the healthy flag by object.  Rounds do not overlap;
registrations and removals may fall anywhere.

A registration is here what it does to the registry and to the flags: it makes an
object, may copy the flag of an earlier object of the name, and adds the object.

`Step` says once what each action can do, and `Sound` is what every run keeps of the
objects: a round's servers have different names, and an object that is still being
built is in no round and not in the registry.
-/
import Mathlib
import Portal.Server.Registry
import Portal.Theory.Transition

namespace Portal.Health

open Portal.Theory.Transition

set_option autoImplicit false

/-- `server.HealthChecker`, without what only times its rounds. -/
structure HealthChecker where
  failureThreshold : Nat
  /-- `log` is not nil -/
  log : Bool
  /-- `events` is not nil -/
  events : Bool

/-- `event.ServerHealthPayload`. -/
structure ServerHealthPayload where
  name : String
  address : String
  healthy : Bool
  deriving DecidableEq, Repr

/-- A `checkAll` that has not returned. -/
structure Round where
  /-- The servers it found. -/
  current : List Server
  /-- Those whose check has not returned. -/
  pending : List Server
  deriving DecidableEq

structure State where
  registry : Registry
  /-- The flag of every `Server` object. -/
  healthy : Server → Bool
  /-- The `Server` objects made so far; the next one gets the identity `made.length`. -/
  made : List Server
  /-- Those that their registration has yet to add. -/
  building : List Server
  failures : String → Option Nat
  round : Option Round
  /-- What was published under `TopicServerHealthChanged`. -/
  published : List ServerHealthPayload
  logged : List String

/-- Nobody has registered.  Flags of objects that are not made yet are not read. -/
def initial : State where
  registry := .empty
  healthy := fun _ => true
  made := []
  building := []
  failures := fun _ => none
  round := none
  published := []
  logged := []

namespace HealthChecker

variable (h : HealthChecker) (lib : Library)

/-- `logf`. -/
def logf (s : State) (line : String) : State :=
  if h.log then { s with logged := s.logged ++ [line] } else s

/-- `publish`. -/
def publish (s : State) (srv : Server) (healthy : Bool) : State :=
  if h.events then
    { s with published := s.published ++ [⟨srv.name, srv.address, healthy⟩] }
  else s

/-- `check`, from where it has the result of `ping`. -/
def check (s : State) (srv : Server) : Option String → State
  | some err =>
      let count := (s.failures srv.name).getD 0 + 1
      let s := { s with failures := Function.update s.failures srv.name (some count) }
      if h.failureThreshold ≤ count ∧ s.healthy srv = true then
        let s := { s with healthy := Function.update s.healthy srv false }
        let s := h.logf s ("server " ++ lib.quote srv.name ++ " failed " ++ toString count ++
          " consecutive health checks, marking unhealthy: " ++ err)
        h.publish s srv false
      else s
  | none =>
      let s := { s with failures := Function.update s.failures srv.name (some 0) }
      if s.healthy srv = true then s
      else
        let s := { s with healthy := Function.update s.healthy srv true }
        let s := h.logf s ("server " ++ lib.quote srv.name ++
          " is responding again, marking healthy")
        h.publish s srv true

end HealthChecker

/-- `pruneFailures`. -/
def pruneFailures (current : List Server) (failures : String → Option Nat) :
    String → Option Nat :=
  fun name => if current.any fun srv => srv.name = name then failures name else none

/-! ## Runs -/

inductive Action where
  /-- `server.New` -/
  | new (name address : String) (transport : Transport) (group : String) (weight : UInt32)
      (legacyAuth : Bool)
  /-- `newSrv.SetHealthy(old.Healthy())` -/
  | copyHealthy (newSrv old : Server)
  /-- `AddServer` -/
  | add (srv : Server)
  /-- `RemoveServer` -/
  | remove (srv : Server)
  /-- `checkAll` takes the servers, the keys of the registry in some order -/
  | start (keys : List String)
  /-- a `check` has its result, an error or none -/
  | check (srv : Server) (err : Option String)
  /-- all checks have returned, and `checkAll` prunes -/
  | finish

/-- The server whose check has its result. -/
def Action.checks : Action → Option Server
  | .check srv _ => some srv
  | _ => none

section Machine

variable (lib : Library) (h : HealthChecker)

/-- The keys are those of the registry, each once. -/
def Order (s : State) (keys : List String) : Prop :=
  keys.Nodup ∧ (∀ key ∈ keys, (s.registry key).isSome = true) ∧
    ∀ srv ∈ s.made, s.registry.server lib srv.name = some srv → lib.toLower srv.name ∈ keys

instance (s : State) (keys : List String) : Decidable (Order lib s keys) :=
  inferInstanceAs (Decidable (_ ∧ _ ∧ _))

/-- The object is made, added, and has the name: what a registration may have found. -/
def Older (s : State) (newSrv old : Server) : Prop :=
  old ∈ s.made ∧ old ∉ s.building ∧ lib.toLower old.name = lib.toLower newSrv.name

instance (s : State) (newSrv old : Server) : Decidable (Older lib s newSrv old) :=
  inferInstanceAs (Decidable (_ ∧ _ ∧ _))

def State.make (s : State) (srv : Server) : State :=
  { s with
    made := s.made ++ [srv]
    building := s.building ++ [srv]
    healthy := Function.update s.healthy srv true }

def State.copyHealthy (s : State) (newSrv old : Server) : State :=
  { s with healthy := Function.update s.healthy newSrv (s.healthy old) }

def State.add (s : State) (srv : Server) : State :=
  { s with
    registry := s.registry.addServer lib srv
    building := s.building.filter fun other => other ≠ srv }

def next (s : State) : Action → Option State
  | .new name address transport group weight legacyAuth =>
      some (s.make (.new s.made.length name address transport group weight legacyAuth))
  | .copyHealthy newSrv old =>
      if newSrv ∈ s.building ∧ Older lib s newSrv old then some (s.copyHealthy newSrv old)
      else none
  | .add srv => if srv ∈ s.building then some (s.add lib srv) else none
  | .remove srv => some { s with registry := s.registry.removeServer lib srv }
  | .start keys =>
      if s.round = none ∧ Order lib s keys then
        some { s with round := some ⟨s.registry.servers keys, s.registry.servers keys⟩ }
      else none
  | .check srv err =>
      match s.round with
      | none => none
      | some r =>
          if srv ∈ r.pending then
            some { h.check lib s srv err with
              round := some { r with pending := r.pending.erase srv } }
          else none
  | .finish =>
      match s.round with
      | none => none
      | some r =>
          if r.pending = [] then
            some { s with failures := pruneFailures r.current s.failures, round := none }
          else none

def machine : Machine State Action where
  start := initial
  next := next lib h

/-- What each action can do. -/
inductive Step : State → Action → State → Prop
  | new (s : State) (name address : String) (transport : Transport) (group : String)
      (weight : UInt32) (legacyAuth : Bool) :
      Step s (.new name address transport group weight legacyAuth)
        (s.make (.new s.made.length name address transport group weight legacyAuth))
  | copyHealthy (s : State) (newSrv old : Server) (building : newSrv ∈ s.building)
      (older : Older lib s newSrv old) :
      Step s (.copyHealthy newSrv old) (s.copyHealthy newSrv old)
  | add (s : State) (srv : Server) (building : srv ∈ s.building) :
      Step s (.add srv) (s.add lib srv)
  | remove (s : State) (srv : Server) :
      Step s (.remove srv) { s with registry := s.registry.removeServer lib srv }
  | start (s : State) (keys : List String) (idle : s.round = none) (order : Order lib s keys) :
      Step s (.start keys)
        { s with round := some ⟨s.registry.servers keys, s.registry.servers keys⟩ }
  | check (s : State) (r : Round) (srv : Server) (err : Option String) (running : s.round = some r)
      (pending : srv ∈ r.pending) :
      Step s (.check srv err)
        { h.check lib s srv err with round := some { r with pending := r.pending.erase srv } }
  | finish (s : State) (r : Round) (running : s.round = some r) (done : r.pending = []) :
      Step s .finish { s with failures := pruneFailures r.current s.failures, round := none }

variable {lib h}

theorem next_step {s s' : State} {a : Action} (taken : next lib h s a = some s') :
    Step lib h s a s' := by
  cases a with
  | new =>
      cases taken
      exact .new ..
  | copyHealthy newSrv old =>
      simp only [next, Option.ite_none_right_eq_some, Option.some.injEq] at taken
      obtain ⟨⟨building, older⟩, rfl⟩ := taken
      exact .copyHealthy s newSrv old building older
  | add srv =>
      simp only [next, Option.ite_none_right_eq_some, Option.some.injEq] at taken
      obtain ⟨building, rfl⟩ := taken
      exact .add s srv building
  | remove srv =>
      cases taken
      exact .remove s srv
  | start keys =>
      simp only [next, Option.ite_none_right_eq_some, Option.some.injEq] at taken
      obtain ⟨⟨idle, order⟩, rfl⟩ := taken
      exact .start s keys idle order
  | check srv err =>
      simp only [next] at taken
      split at taken
      · cases taken
      rename_i r running
      simp only [Option.ite_none_right_eq_some, Option.some.injEq] at taken
      obtain ⟨pending, rfl⟩ := taken
      exact .check s r srv err running pending
  | finish =>
      simp only [next] at taken
      split at taken
      · cases taken
      rename_i r running
      simp only [Option.ite_none_right_eq_some, Option.some.injEq] at taken
      obtain ⟨done, rfl⟩ := taken
      exact .finish s r running done

end Machine

/-! ## What a check changes -/

section Check

variable {h : HealthChecker} {lib : Library}

/-- The failures counted under a name; a name without an entry has none. -/
def State.count (s : State) (name : String) : Nat := (s.failures name).getD 0

/-- The count after one more check. -/
def tally (n : Nat) (ok : Bool) : Nat := if ok then 0 else n + 1

/-- The flag a check leaves. -/
def HealthChecker.verdict (h : HealthChecker) (s : State) (srv : Server) (ok : Bool) : Bool :=
  ok || (s.healthy srv && !decide (h.failureThreshold ≤ tally (s.count srv.name) ok))

/-- A check leaves a server unhealthy if it has failed, and the server was unhealthy or
the count has reached the threshold. -/
theorem verdict_eq_false {s : State} {srv : Server} {ok : Bool} :
    h.verdict s srv ok = false ↔
      ok = false ∧ (s.healthy srv = false ∨ h.failureThreshold ≤ s.count srv.name + 1) := by
  cases ok with
  | true => simp [HealthChecker.verdict]
  | false =>
      cases healthy : s.healthy srv with
      | true => simp [HealthChecker.verdict, tally, healthy]
      | false => simp [HealthChecker.verdict, healthy]

/-- What is published with the flag: nothing, if the server has it already. -/
def HealthChecker.news (h : HealthChecker) (s : State) (srv : Server) (value : Bool) :
    List ServerHealthPayload :=
  if value = s.healthy srv then []
  else if h.events then [⟨srv.name, srv.address, value⟩] else []

/-- A check writes the count of one name. -/
theorem count_update {s s' : State} {name : String} {n : Nat}
    (written : s'.failures = Function.update s.failures name (some n)) (other : String) :
    s'.count other = if other = name then n else s.count other := by
  rw [State.count, written]
  split
  · rename_i same
    rw [same, Function.update_self]
    rfl
  · rename_i differs
    rw [Function.update_of_ne differs]
    rfl

/-- Pruning keeps the counts of the names a round has found. -/
theorem count_pruned {s s' : State} {current : List Server}
    (pruned : s'.failures = pruneFailures current s.failures) {srv : Server} (found : srv ∈ current) :
    s'.count srv.name = s.count srv.name := by
  have live : (current.any fun other => other.name = srv.name) = true :=
    List.any_eq_true.mpr ⟨srv, found, decide_eq_true rfl⟩
  rw [State.count, pruned, pruneFailures, if_pos live]
  rfl

/-- A count that is zero stays zero. -/
theorem count_pruned_zero {s s' : State} {current : List Server}
    (pruned : s'.failures = pruneFailures current s.failures) {name : String}
    (zero : s.count name = 0) : s'.count name = 0 := by
  rw [State.count, pruned, pruneFailures]
  split
  · exact zero
  · rfl

theorem logf_eq (s : State) (line : String) : ∃ logged, h.logf s line = { s with logged } := by
  unfold HealthChecker.logf
  split
  · exact ⟨_, rfl⟩
  · exact ⟨s.logged, rfl⟩

theorem publish_eq (s : State) (srv : Server) (value : Bool) :
    h.publish s srv value = { s with
      published := s.published ++ if h.events then [⟨srv.name, srv.address, value⟩] else [] } := by
  unfold HealthChecker.publish
  split
  · rfl
  · rw [List.append_nil]

/-- A check that keeps the flag. -/
theorem update_kept {s : State} {srv : Server} {value : Bool} (kept : value = s.healthy srv) :
    Function.update s.healthy srv value = s.healthy ∧ h.news s srv value = [] := by
  subst kept
  exact ⟨Function.update_eq_self .., if_pos rfl⟩

/-- A check that changes the flag. -/
theorem news_changed {s : State} {srv : Server} {value : Bool} (changed : value ≠ s.healthy srv) :
    h.news s srv value = if h.events then [⟨srv.name, srv.address, value⟩] else [] :=
  if_neg changed

/-- A check writes the count of the server's name and the flag of the object, and
publishes the flag when that changes it. -/
theorem check_eq (h : HealthChecker) (lib : Library) (s : State) (srv : Server) (err : Option String) :
    ∃ logged, h.check lib s srv err = { s with
      failures := Function.update s.failures srv.name
        (some (tally (s.count srv.name) err.isNone))
      healthy := Function.update s.healthy srv (h.verdict s srv err.isNone)
      published := s.published ++ h.news s srv (h.verdict s srv err.isNone)
      logged } := by
  cases err with
  | some err =>
      by_cases marked : h.failureThreshold ≤ s.count srv.name + 1 ∧ s.healthy srv = true
      · have verdict : h.verdict s srv (some err).isNone = false := by
          simp [HealthChecker.verdict, tally, marked]
        rw [verdict, news_changed (by simp [marked])]
        obtain ⟨logged, logs⟩ := logf_eq (h := h)
          { s with
            failures := Function.update s.failures srv.name (some (s.count srv.name + 1))
            healthy := Function.update s.healthy srv false }
          ("server " ++ lib.quote srv.name ++ " failed " ++ toString (s.count srv.name + 1) ++
            " consecutive health checks, marking unhealthy: " ++ err)
        refine ⟨logged, ?_⟩
        unfold HealthChecker.check
        rw [State.count] at marked logs
        simp only [if_pos marked, logs, publish_eq]
        rfl
      · have verdict : h.verdict s srv (some err).isNone = s.healthy srv := by
          cases healthy : s.healthy srv with
          | false => simp [HealthChecker.verdict, healthy]
          | true =>
              simp only [healthy, and_true] at marked
              simp [HealthChecker.verdict, tally, healthy, marked]
        obtain ⟨same, silent⟩ := update_kept (h := h) verdict
        rw [same, silent, List.append_nil]
        exact ⟨s.logged, if_neg marked⟩
  | none =>
      have verdict : h.verdict s srv (none : Option String).isNone = true := rfl
      rw [verdict]
      by_cases healthy : s.healthy srv = true
      · obtain ⟨same, silent⟩ := update_kept (h := h) healthy.symm
        rw [same, silent, List.append_nil]
        exact ⟨s.logged, if_pos healthy⟩
      · rw [news_changed (Ne.symm healthy)]
        obtain ⟨logged, logs⟩ := logf_eq (h := h)
          { s with
            failures := Function.update s.failures srv.name (some 0)
            healthy := Function.update s.healthy srv true }
          ("server " ++ lib.quote srv.name ++ " is responding again, marking healthy")
        refine ⟨logged, ?_⟩
        unfold HealthChecker.check
        simp only [if_neg healthy, logs, publish_eq]
        rfl

end Check

/-! ## The objects of a run -/

section Sound

variable {lib : Library} {h : HealthChecker}

/-- Objects have identities of their own; one that is being built stands in no round
and not in the registry, and a round has one server of each name. -/
structure Sound (lib : Library) (s : State) : Prop where
  keyed : s.registry.Keyed lib
  stored : ∀ key srv, s.registry key = some srv → srv ∈ s.made ∧ srv ∉ s.building
  numbered : ∀ srv ∈ s.made, srv.ptr < s.made.length
  building : ∀ srv ∈ s.building, srv ∈ s.made
  pending : ∀ r, s.round = some r → ∀ srv ∈ r.pending, srv ∈ r.current
  current : ∀ r, s.round = some r → ∀ srv ∈ r.current, srv ∈ s.made ∧ srv ∉ s.building
  alone : ∀ r, s.round = some r → ∀ srv ∈ r.current, ∀ other ∈ r.current,
    lib.toLower srv.name = lib.toLower other.name → srv = other

theorem initial_sound : Sound lib initial where
  keyed := Registry.keyed_empty
  stored := nofun
  numbered := nofun
  building := nofun
  pending := nofun
  current := nofun
  alone := nofun

/-- In a run the orders are those in which the registry can be iterated. -/
theorem order_iff_iterates {s : State} (sound : Sound lib s) (keys : List String) :
    Order lib s keys ↔ s.registry.Iterates keys := by
  constructor
  · rintro ⟨nodup, stored, complete⟩
    refine ⟨nodup, fun key => ⟨stored key, ?_⟩⟩
    intro found
    obtain ⟨srv, its⟩ := Option.isSome_iff_exists.mp found
    obtain rfl := sound.keyed key srv its
    exact complete srv (sound.stored _ srv its).1 its
  · rintro ⟨nodup, mem⟩
    refine ⟨nodup, fun key among => (mem key).mp among, ?_⟩
    intro srv _ its
    apply (mem _).mpr
    rw [Option.isSome_iff_exists]
    exact ⟨srv, its⟩

/-- The servers a round starts with are those in the registry. -/
theorem Sound.mem_servers {s : State} (sound : Sound lib s) {keys : List String}
    (order : Order lib s keys) (srv : Server) :
    srv ∈ s.registry.servers keys ↔ s.registry.server lib srv.name = some srv := by
  rw [Registry.mem_servers ((order_iff_iterates sound keys).mp order)]
  constructor
  · rintro ⟨key, its⟩
    obtain rfl := sound.keyed key srv its
    exact its
  · exact fun its => ⟨_, its⟩

/-- The identity of the next object is new. -/
theorem Sound.fresh {s : State} (sound : Sound lib s) {srv : Server}
    (new : srv.ptr = s.made.length) : srv ∉ s.made := by
  intro among
  have older := sound.numbered srv among
  omega

theorem Sound.make {s : State} (sound : Sound lib s) {srv : Server}
    (new : srv.ptr = s.made.length) : Sound lib (s.make srv) := by
  have fresh := sound.fresh new
  have still (other : Server) (before : other ∈ s.made ∧ other ∉ s.building) :
      other ∈ s.made ++ [srv] ∧ other ∉ s.building ++ [srv] := by
    refine ⟨List.mem_append_left _ before.1, ?_⟩
    intro among
    obtain old | last := List.mem_append.mp among
    · exact before.2 old
    · obtain rfl := List.mem_singleton.mp last
      exact fresh before.1
  exact {
    keyed := sound.keyed
    stored := fun key other its => still other (sound.stored key other its)
    numbered := by
      intro other among
      simp only [State.make, List.length_append, List.length_singleton]
      obtain old | last := List.mem_append.mp among
      · have older := sound.numbered other old
        omega
      · obtain rfl := List.mem_singleton.mp last
        omega
    building := by
      intro other among
      obtain old | last := List.mem_append.mp among
      · exact List.mem_append_left _ (sound.building other old)
      · exact List.mem_append_right _ last
    pending := sound.pending
    current := fun r running other among => still other (sound.current r running other among)
    alone := sound.alone }

theorem Sound.add {s : State} (sound : Sound lib s) {srv : Server} (building : srv ∈ s.building) :
    Sound lib (s.add lib srv) := by
  have still (other : Server) (before : other ∈ s.made ∧ other ∉ s.building) :
      other ∈ s.made ∧ other ∉ s.building.filter fun other => other ≠ srv :=
    ⟨before.1, fun among => before.2 (List.mem_filter.mp among).1⟩
  exact {
    keyed := sound.keyed.addServer srv
    stored := by
      intro key other its
      obtain ⟨-, rfl⟩ | before := Registry.addServer_some its
      · exact ⟨sound.building other building, by simp [State.add]⟩
      · exact still other (sound.stored key other before)
    numbered := sound.numbered
    building := fun other among => sound.building other (List.mem_filter.mp among).1
    pending := sound.pending
    current := fun r running other among => still other (sound.current r running other among)
    alone := sound.alone }

theorem Sound.start {s : State} (sound : Sound lib s) {keys : List String}
    (order : Order lib s keys) :
    Sound lib { s with round := some ⟨s.registry.servers keys, s.registry.servers keys⟩ } where
  keyed := sound.keyed
  stored := sound.stored
  numbered := sound.numbered
  building := sound.building
  pending := by
    rintro r ⟨⟩ srv among
    exact among
  current := by
    rintro r ⟨⟩ srv among
    exact sound.stored _ srv ((sound.mem_servers order srv).mp among)
  alone := by
    rintro r ⟨⟩ srv among other otherAmong named
    have its := (sound.mem_servers order srv).mp among
    have others := (sound.mem_servers order other).mp otherAmong
    rw [Registry.server, named] at its
    exact Option.some.inj (its.symm.trans others)

/-- **Every step keeps the objects sound.** -/
theorem Sound.step {s s' : State} {a : Action} (sound : Sound lib s) (step : Step lib h s a s') :
    Sound lib s' := by
  cases step with
  | new => exact sound.make rfl
  | copyHealthy =>
      exact ⟨sound.keyed, sound.stored, sound.numbered, sound.building, sound.pending,
        sound.current, sound.alone⟩
  | add srv building => exact sound.add building
  | remove srv =>
      exact ⟨sound.keyed.removeServer srv,
        fun key other its => sound.stored key other (Registry.removeServer_some its),
        sound.numbered, sound.building, sound.pending, sound.current, sound.alone⟩
  | start keys idle order => exact sound.start order
  | check r srv err running pending =>
      obtain ⟨logged, checked⟩ := check_eq h lib s srv err
      rw [checked]
      refine ⟨sound.keyed, sound.stored, sound.numbered, sound.building, ?_, ?_, ?_⟩
      · rintro _ ⟨⟩ other among
        exact sound.pending r running other (List.mem_of_mem_erase among)
      · rintro _ ⟨⟩
        exact sound.current r running
      · rintro _ ⟨⟩
        exact sound.alone r running
  | finish => exact ⟨sound.keyed, sound.stored, sound.numbered, sound.building, nofun, nofun, nofun⟩

/-- A server that is not added yet was not before the step, and the step does not check
it. -/
theorem Sound.unadded {s s' : State} {a : Action} (sound : Sound lib s) (step : Step lib h s a s')
    {srv : Server} (early : srv ∈ s'.building ∨ srv ∉ s'.made) :
    (srv ∈ s.building ∨ srv ∉ s.made) ∧ a.checks ≠ some srv := by
  cases step with
  | new name address transport group weight legacyAuth =>
      refine ⟨?_, nofun⟩
      obtain among | missing := early
      · obtain old | last := List.mem_append.mp among
        · exact .inl old
        · obtain rfl := List.mem_singleton.mp last
          exact .inr (sound.fresh rfl)
      · exact .inr fun old => missing (List.mem_append_left _ old)
  | add other building =>
      refine ⟨?_, nofun⟩
      obtain among | missing := early
      · exact .inl (List.mem_filter.mp among).1
      · exact .inr missing
  | check r other err running pending =>
      obtain ⟨logged, checked⟩ := check_eq h lib s other err
      rw [checked] at early
      refine ⟨early, ?_⟩
      intro same
      obtain rfl := Option.some.inj same
      have added := sound.current r running other (sound.pending r running other pending)
      obtain building | missing := early
      · exact added.2 building
      · exact missing added.1
  | copyHealthy | remove | start | finish => exact ⟨early, nofun⟩

theorem reach_sound {s : State} {ok : State → Action → Prop} (reached : (machine lib h).Reach ok s) :
    Sound lib s :=
  reached.invariant initial_sound fun _ _ _ _ sound _ taken => sound.step (next_step taken)

end Sound

/-! ## What a run shows of the checks -/

/-- What the run of a health checker shows. -/
inductive Seen where
  /-- The server was added, with no server of its name in the registry. -/
  | registered (srv : Server)
  /-- A check of the server returned. -/
  | checked (srv : Server) (ok : Bool)
  deriving DecidableEq

def observed (lib : Library) (s : State) : Action → List Seen
  | .add srv => if s.registry.server lib srv.name = none then [.registered srv] else []
  | .check srv err => [.checked srv err.isNone]
  | _ => []

/-- The failed checks of the server since its last successful one. -/
def streak (srv : Server) (log : List Seen) : Nat :=
  log.foldl (fun n seen =>
    match seen with
    | .checked other ok => if other = srv then tally n ok else n
    | .registered _ => n) 0

section Streak

variable {srv : Server} {log : List Seen}

theorem streak_checked (other : Server) (ok : Bool) :
    streak srv (log ++ [.checked other ok]) =
      if other = srv then tally (streak srv log) ok else streak srv log := by
  rw [streak, List.foldl_append]
  rfl

/-- Only its own checks change a server's streak. -/
theorem streak_unchecked {lib : Library} {s : State} {a : Action} (silent : a.checks ≠ some srv) :
    streak srv (log ++ observed lib s a) = streak srv log := by
  cases a with
  | check other err =>
      have differs : other ≠ srv := fun same => silent (congrArg some same)
      rw [observed, streak_checked, if_neg differs]
  | add other =>
      simp only [observed]
      split
      · rw [streak, List.foldl_append]
        rfl
      · rw [List.append_nil]
  | _ => rw [observed, List.append_nil] <;> nofun

/-- A registration is seen at the step that makes it. -/
theorem registered_mem {lib : Library} {s : State} {a : Action}
    (seen : .registered srv ∈ log ++ observed lib s a) :
    .registered srv ∈ log ∨ a = .add srv ∧ s.registry.server lib srv.name = none := by
  obtain before | now := List.mem_append.mp seen
  · exact .inl before
  · right
    cases a with
    | add other =>
        simp only [observed] at now
        split at now
        · rename_i vacant
          obtain ⟨⟩ := List.mem_singleton.mp now
          exact ⟨rfl, vacant⟩
        · cases now
    | check other err => cases List.mem_singleton.mp now
    | _ => cases now

end Streak

end Portal.Health
