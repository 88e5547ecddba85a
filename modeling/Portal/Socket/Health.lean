/-
# Socket.Health — health checks of servers that register and disconnect

A server that keeps its name for itself is unhealthy exactly while its last checks
were failures, as many as the threshold, and every change of the flag is published
(`health_follows_checks`).

The counts are kept by name and are dropped only at the end of a round, for names the
round did not find.  A server that registers under the name of one that has just gone
finds the count that one left.  `StartsClean` is the condition on a registration that
excludes it, and then a server registered anew is unhealthy only for its own failures
(`unhealthy_after_own_failures`).

`proxy_step` connects the runs with the handlers of the socket: whatever those do to the
registry and the flags is a sequence of the actions here, so every state of the socket's
runs is one of these (`proxy_reachable`).
-/
import Portal.Server.HealthChecker
import Portal.Socket.Registration

namespace Portal.Health

open Portal.Theory.Transition
open Portal.Socket (backend)

set_option autoImplicit false

/-! ## The handlers of the socket -/

section Handlers

variable {lib : Library} {h : HealthChecker} {secret : String}

/-- The registry, the objects and their flags are the proxy's. -/
structure Agrees (p : Socket.Proxy) (s : State) : Prop where
  registry : s.registry = p.registry
  made : s.made = p.made
  healthy : ∀ srv ∈ p.made, s.healthy srv = p.healthy srv

/-- The proxy's state after some of the actions, with the checker's own left alone. -/
def Mirrors (lib : Library) (h : HealthChecker) (s : State) (p : Socket.Proxy) : Prop :=
  ∃ actions s', (machine lib h).exec (fun _ _ => True) s actions = some s' ∧ Agrees p s' ∧
    s'.failures = s.failures ∧ s'.round = s.round ∧ s'.published = s.published

theorem Agrees.mirrors {p : Socket.Proxy} {s : State} (agrees : Agrees p s) : Mirrors lib h s p :=
  ⟨[], s, rfl, agrees, rfl, rfl, rfl⟩

/-- Setting the flag of one object to the same value on both sides. -/
theorem update_agrees {f g : Server → Bool} {objects : List Server} {srv : Server}
    {value value' : Bool} (same : value = value')
    (agree : ∀ other ∈ objects, other ≠ srv → f other = g other) :
    ∀ other ∈ objects, Function.update f srv value other = Function.update g srv value' other := by
  intro other among
  by_cases own : other = srv
  · subst own
    rw [Function.update_self, Function.update_self, same]
  · rw [Function.update_of_ne own, Function.update_of_ne own]
    exact agree other among own

theorem Agrees.make {p : Socket.Proxy} {s : State} (agrees : Agrees p s) (srv : Server) :
    Agrees (p.make srv) (s.make srv) := by
  refine ⟨agrees.registry, ?_, ?_⟩
  · show s.made ++ [srv] = p.made ++ [srv]
    rw [agrees.made]
  · apply update_agrees rfl
    intro other among differs
    obtain before | last := List.mem_append.mp among
    · exact agrees.healthy other before
    · exact absurd (List.mem_singleton.mp last) differs

theorem Agrees.carryOver {p : Socket.Proxy} {s : State} (agrees : Agrees p s)
    {old : Server} (made : old ∈ p.made) (srv : Server) :
    Agrees (p.carryOver old srv) (s.copyHealthy srv old) := by
  refine ⟨agrees.registry, agrees.made, ?_⟩
  apply update_agrees (agrees.healthy old made)
  exact fun other among _ => agrees.healthy other among

theorem Agrees.add {p : Socket.Proxy} {s : State} (agrees : Agrees p s) (srv : Server) :
    Agrees { p with registry := p.registry.addServer lib srv } (s.add lib srv) := by
  refine ⟨?_, agrees.made, agrees.healthy⟩
  show s.registry.addServer lib srv = p.registry.addServer lib srv
  rw [agrees.registry]

/-- An accepted registration makes an object, copies the flag of the one it replaces,
if there is one, and adds it. -/
theorem register_mirrors {p : Socket.Proxy} {s : State} (sound : Sound lib s)
    (agrees : Agrees p s) (client : Socket.Client) (pk : Socket.RegisterServer) :
    Mirrors lib h s (p.handleRegisterServer lib client pk).1 := by
  unfold Socket.Proxy.handleRegisterServer
  split
  · exact agrees.mirrors
  split
  · exact agrees.mirrors
  rename_i transport _ _ _
  let newSrv := p.newServer client pk transport
  have made : next lib h s (.new client.name pk.address transport pk.group pk.weight
      pk.legacyAuth) = some (s.make newSrv) := by
    simp only [next, newSrv, Socket.Proxy.newServer, agrees.made]
  have built : newSrv ∈ (s.make newSrv).building :=
    List.mem_append_right _ (List.mem_singleton_self _)
  cases found : (p.make newSrv).registry.server lib client.name with
  | none =>
      refine ⟨[.new client.name pk.address transport pk.group pk.weight pk.legacyAuth,
        .add newSrv], (s.make newSrv).add lib newSrv, ?_, ?_, rfl, rfl, rfl⟩
      · rw [Machine.exec_cons trivial made, Machine.exec_cons trivial (if_pos built)]
        rfl
      · simp only [newSrv] at found
        simp only [found]
        exact (agrees.make newSrv).add newSrv
  | some old =>
      have stored : s.registry (lib.toLower client.name) = some old := by
        rw [agrees.registry]
        exact found
      obtain ⟨oldMade, oldAdded⟩ := sound.stored _ old stored
      have older : Older lib (s.make newSrv) newSrv old := by
        refine ⟨List.mem_append_left _ oldMade, ?_, sound.keyed _ old stored⟩
        intro among
        obtain before | last := List.mem_append.mp among
        · exact oldAdded before
        · -- the new object has an identity of its own
          obtain rfl := List.mem_singleton.mp last
          exact sound.fresh (congrArg List.length agrees.made.symm) oldMade
      refine ⟨[.new client.name pk.address transport pk.group pk.weight pk.legacyAuth,
        .copyHealthy newSrv old, .add newSrv],
        ((s.make newSrv).copyHealthy newSrv old).add lib newSrv, ?_, ?_, rfl, rfl, rfl⟩
      · rw [Machine.exec_cons trivial made, Machine.exec_cons trivial (if_pos ⟨built, older⟩),
          Machine.exec_cons trivial (if_pos built)]
        rfl
      · simp only [newSrv] at found
        simp only [found]
        have oldKnown : old ∈ p.made ++ [newSrv] := List.mem_append_left _ (agrees.made ▸ oldMade)
        exact ((agrees.make newSrv).carryOver oldKnown newSrv).add newSrv

/-- A disconnect removes what its lookup has found. -/
theorem disconnect_mirrors {p : Socket.Proxy} {s : State} (agrees : Agrees p s)
    (c : Socket.ClientID) (client : Socket.Client) :
    Mirrors lib h s (p.handleClientDisconnect lib c client) := by
  unfold Socket.Proxy.handleClientDisconnect
  dsimp only
  split
  · split
    · exact Agrees.mirrors ⟨agrees.registry, agrees.made, agrees.healthy⟩
    · rename_i srv _
      refine ⟨[.remove srv], _, rfl, ⟨?_, agrees.made, agrees.healthy⟩, rfl, rfl, rfl⟩
      show s.registry.removeServer lib srv = p.registry.removeServer lib srv
      rw [agrees.registry]
  · exact Agrees.mirrors ⟨agrees.registry, agrees.made, agrees.healthy⟩

/-- **The socket's steps are the environment of the checks.** -/
theorem proxy_step {p p' : Socket.Proxy} {s : State} (sound : Sound lib s) (agrees : Agrees p s)
    {a : Socket.Proxy.Action} (taken : p.next lib secret a = some p') : Mirrors lib h s p' := by
  have kept : ∀ q : Socket.Proxy, q.registry = p.registry → q.healthy = p.healthy →
      q.made = p.made → Mirrors lib h s q := by
    intro q registry healthy made
    refine Agrees.mirrors ⟨agrees.registry.trans registry.symm, agrees.made.trans made.symm, ?_⟩
    rw [made, healthy]
    exact agrees.healthy
  cases a with
  | accept c =>
      simp only [Socket.Proxy.next] at taken
      split at taken <;> cases taken
      exact kept _ rfl rfl rfl
  | packet c pk =>
      simp only [Socket.Proxy.next] at taken
      split at taken <;> cases taken
      rename_i client _
      unfold Socket.Proxy.handle
      split
      · exact agrees.mirrors
      cases pk with
      | authRequest pk =>
          obtain ⟨clients, conns, frame⟩ :=
            Socket.Proxy.handleAuthRequest_frame lib secret p c client pk
          simp only [frame]
          exact kept _ rfl rfl rfl
      | registerServer pk => exact register_mirrors sound agrees client pk
      | setServerDraining value =>
          obtain ⟨draining, frame⟩ :=
            Socket.Proxy.handleSetServerDraining_frame lib p client value
          simp only [frame]
          exact kept _ rfl rfl rfl
  | disconnect c =>
      simp only [Socket.Proxy.next] at taken
      split at taken <;> cases taken
      exact disconnect_mirrors agrees c _
  | join srv =>
      simp only [Socket.Proxy.next, Option.ite_none_right_eq_some, Option.some.injEq] at taken
      obtain ⟨-, rfl⟩ := taken
      exact kept _ rfl rfl rfl
  | transfer k target =>
      simp only [Socket.Proxy.next] at taken
      split at taken
      · simp only [Option.ite_none_right_eq_some, Option.some.injEq] at taken
        obtain ⟨-, rfl⟩ := taken
        exact kept _ rfl rfl rfl
      · cases taken
  | close k =>
      simp only [Socket.Proxy.next] at taken
      split at taken <;> cases taken
      exact kept _ rfl rfl rfl

/-- Every state of the socket's runs is one that the checks can run beside. -/
theorem proxy_reachable {p : Socket.Proxy}
    (reached : (Socket.Proxy.machine lib secret).Reachable p) :
    ∃ s, (machine lib h).Reachable s ∧ Agrees p s := by
  refine reached.invariant (I := fun p => ∃ s, (machine lib h).Reachable s ∧ Agrees p s)
    ⟨initial, .start, rfl, rfl, fun _ among => absurd among List.not_mem_nil⟩ ?_
  rintro p p' a - ⟨s, before, agrees⟩ - taken
  obtain ⟨actions, s', executed, agrees', -⟩ := proxy_step (reach_sound before) agrees taken
  exact ⟨s', before.exec (fun _ _ meets => meets) actions executed, agrees'⟩

end Handlers

/-! ## A server that keeps its name for itself -/

section Follows

variable {lib : Library} {h : HealthChecker} {srv : Server}

/-- No other object of the server's name is made, and the server is not removed. -/
def Sole (lib : Library) (srv : Server) (s : State) : Action → Prop
  | .new name address transport group weight legacyAuth =>
      lib.toLower name = lib.toLower srv.name →
        Server.new s.made.length name address transport group weight legacyAuth = srv
  | .remove other => other ≠ srv
  | _ => True

instance (s : State) (a : Action) : Decidable (Sole lib srv s a) := by
  cases a <;> dsimp only [Sole] <;> infer_instance

/-- What was published under the server's name. -/
def about (srv : Server) (published : List ServerHealthPayload) : List ServerHealthPayload :=
  published.filter fun payload => payload.name = srv.name

/-- Unhealthy, healthy, unhealthy, and so on. -/
def toggles (n : Nat) : List Bool := (List.range n).map fun i => decide (i % 2 = 1)

/-- The count under the server's name, its flag and its streak go together. -/
structure Follows (lib : Library) (h : HealthChecker) (srv : Server) (s : State)
    (n : Nat) : Prop where
  sole : ∀ other ∈ s.made, lib.toLower other.name = lib.toLower srv.name → other = srv
  /-- It is checked only once it is registered, and from then on it stays. -/
  absent : s.registry.server lib srv.name ≠ some srv → n = 0
  stays : ∀ r, s.round = some r → srv ∈ r.current → s.registry.server lib srv.name = some srv
  /-- A round that began without it began before its first check. -/
  joined : ∀ r, s.round = some r → srv ∉ r.current → n = 0
  count : s.count srv.name = n
  healthy : s.healthy srv = false ↔ h.failureThreshold ≤ n

theorem initial_follows (threshold : 1 ≤ h.failureThreshold) : Follows lib h srv initial 0 where
  sole := nofun
  absent := fun _ => rfl
  stays := nofun
  joined := nofun
  count := rfl
  healthy := by
    show true = false ↔ h.failureThreshold ≤ 0
    simp only [Bool.true_eq_false, false_iff]
    omega

/-- While its streak is empty the server is healthy. -/
theorem Follows.healthy_of_zero {s : State} {n : Nat} (follows : Follows lib h srv s n)
    (threshold : 1 ≤ h.failureThreshold) (zero : n = 0) : s.healthy srv = true := by
  cases flag : s.healthy srv with
  | true => rfl
  | false =>
      have reached := follows.healthy.mp flag
      omega

/-- Only a check of the server changes its flag. -/
theorem Follows.flag {s s' : State} {n : Nat} {a : Action} (sound : Sound lib s)
    (follows : Follows lib h srv s n) (threshold : 1 ≤ h.failureThreshold)
    (step : Step lib h s a s') (silent : a.checks ≠ some srv) :
    s'.healthy srv = s.healthy srv := by
  cases step with
  | new name address transport group weight legacyAuth =>
      by_cases same : srv = .new s.made.length name address transport group weight legacyAuth
      · -- it was not made before, so it has never been checked
        have unmade : srv ∉ s.made := sound.fresh (by rw [same]; rfl)
        have zero : n = 0 :=
          follows.absent fun its => unmade (sound.stored _ srv its).1
        rw [follows.healthy_of_zero threshold zero, State.make, same]
        exact Function.update_self ..
      · exact Function.update_of_ne same ..
  | copyHealthy newSrv old building older =>
      obtain ⟨oldMade, oldAdded, named⟩ := older
      have differs : srv ≠ newSrv := by
        rintro rfl
        obtain rfl := follows.sole old oldMade named
        exact oldAdded building
      exact Function.update_of_ne differs ..
  | check r other err running pending =>
      have differs : srv ≠ other := fun same => silent (congrArg some same.symm)
      obtain ⟨logged, checked⟩ := check_eq h lib s other err
      rw [checked]
      exact Function.update_of_ne differs ..
  | add | remove | start | finish => rfl

/-- A change of the registry that keeps the server's entry. -/
theorem Follows.entry {s : State} {n : Nat} (follows : Follows lib h srv s n) (registry : Registry)
    (building : List Server) (kept : s.registry.server lib srv.name = some srv →
      registry.server lib srv.name = some srv) :
    Follows lib h srv { s with registry, building } n where
  sole := follows.sole
  absent := fun gone => follows.absent fun its => gone (kept its)
  stays := fun r running among => kept (follows.stays r running among)
  joined := follows.joined
  count := follows.count
  healthy := follows.healthy

theorem Follows.add {s : State} {n : Nat} (sound : Sound lib s)
    (follows : Follows lib h srv s n) {other : Server} (building : other ∈ s.building) :
    Follows lib h srv (s.add lib other) n := by
  apply follows.entry
  intro its
  have differs : lib.toLower srv.name ≠ lib.toLower other.name := by
    intro named
    obtain rfl := follows.sole other (sound.building other building) named.symm
    exact (sound.stored _ _ its).2 building
  rw [Registry.server_addServer, if_neg differs]
  exact its

theorem Follows.start {s : State} {n : Nat} (sound : Sound lib s)
    (follows : Follows lib h srv s n) {keys : List String} (order : Order lib s keys) :
    Follows lib h srv
      { s with round := some ⟨s.registry.servers keys, s.registry.servers keys⟩ } n where
  sole := follows.sole
  absent := follows.absent
  stays := by
    rintro r ⟨⟩ among
    exact (sound.mem_servers order srv).mp among
  joined := by
    rintro r ⟨⟩ missing
    exact follows.absent fun its => missing ((sound.mem_servers order srv).mpr its)
  count := follows.count
  healthy := follows.healthy

theorem Follows.finish {s : State} {n : Nat} (follows : Follows lib h srv s n) {r : Round}
    (running : s.round = some r) :
    Follows lib h srv { s with failures := pruneFailures r.current s.failures, round := none }
      n where
  sole := follows.sole
  absent := follows.absent
  stays := nofun
  joined := nofun
  count := by
    by_cases among : srv ∈ r.current
    · rw [count_pruned rfl among]
      exact follows.count
    · have zero := follows.joined r running among
      rw [zero]
      exact count_pruned_zero rfl (follows.count.trans zero)
  healthy := follows.healthy

/-- The flag a check leaves is the one its count asks for. -/
theorem Follows.verdict {s : State} {n : Nat} (follows : Follows lib h srv s n)
    (threshold : 1 ≤ h.failureThreshold) (ok : Bool) :
    h.verdict s srv ok = false ↔ h.failureThreshold ≤ tally n ok := by
  rw [verdict_eq_false, follows.count, follows.healthy]
  cases ok with
  | true =>
      show _ ↔ h.failureThreshold ≤ 0
      simp only [Bool.true_eq_false, false_and, false_iff]
      omega
  | false =>
      show _ ↔ h.failureThreshold ≤ n + 1
      simp only [true_and]
      omega

/-- Its own check counts; that of another server is counted under another name. -/
theorem Follows.check {s : State} {n : Nat} (sound : Sound lib s)
    (follows : Follows lib h srv s n) (threshold : 1 ≤ h.failureThreshold) {r : Round}
    (running : s.round = some r) {other : Server} (pending : other ∈ r.pending)
    (err : Option String) :
    Follows lib h srv
      { h.check lib s other err with round := some { r with pending := r.pending.erase other } }
      (if other = srv then tally n err.isNone else n) := by
  obtain ⟨logged, checked⟩ := check_eq h lib s other err
  rw [checked]
  have among := sound.pending r running other pending
  by_cases same : other = srv
  · subst same
    have its := follows.stays r running among
    rw [if_pos rfl]
    exact {
      sole := follows.sole
      absent := fun gone => absurd its gone
      stays := fun _ _ _ => its
      joined := by
        rintro _ ⟨⟩ missing
        exact absurd among missing
      count := by
        rw [count_update rfl, if_pos rfl, follows.count]
      healthy := by
        rw [← follows.verdict threshold err.isNone]
        exact Eq.congr (Function.update_self ..) rfl }
  · have named : srv.name ≠ other.name := by
      intro equal
      have otherMade := (sound.current r running other among).1
      exact same (follows.sole other otherMade (by rw [equal]))
    rw [if_neg same]
    exact {
      sole := follows.sole
      absent := follows.absent
      stays := by
        rintro _ ⟨⟩
        exact follows.stays r running
      joined := by
        rintro _ ⟨⟩
        exact follows.joined r running
      count := by
        rw [count_update rfl, if_neg named]
        exact follows.count
      healthy := by
        rw [← follows.healthy]
        exact Eq.congr (Function.update_of_ne (Ne.symm same) ..) rfl }

/-- **One step of a run.** -/
theorem Follows.step {s s' : State} {log : List Seen} {a : Action} (sound : Sound lib s)
    (follows : Follows lib h srv s (streak srv log)) (threshold : 1 ≤ h.failureThreshold)
    (sole : Sole lib srv s a) (step : Step lib h s a s') :
    Follows lib h srv s' (streak srv (log ++ observed lib s a)) := by
  have flag := follows.flag sound threshold step
  have unchecked (silent : a.checks = none) :
      streak srv (log ++ observed lib s a) = streak srv log := by
    apply streak_unchecked
    rw [silent]
    exact (Option.some_ne_none srv).symm
  cases step with
  | new name address transport group weight legacyAuth =>
      rw [unchecked rfl]
      refine ⟨?_, follows.absent, follows.stays, follows.joined, follows.count, ?_⟩
      · intro other among named
        obtain before | last := List.mem_append.mp among
        · exact follows.sole other before named
        · obtain rfl := List.mem_singleton.mp last
          exact sole named
      · rw [flag (Option.some_ne_none srv).symm]
        exact follows.healthy
  | copyHealthy newSrv old building older =>
      rw [unchecked rfl]
      refine ⟨follows.sole, follows.absent, follows.stays, follows.joined, follows.count, ?_⟩
      rw [flag (Option.some_ne_none srv).symm]
      exact follows.healthy
  | add other building =>
      rw [unchecked rfl]
      exact follows.add sound building
  | remove other =>
      rw [unchecked rfl]
      exact follows.entry _ s.building fun its =>
        Registry.removeServer_of_other its (Ne.symm sole)
  | start keys idle order =>
      rw [unchecked rfl]
      exact follows.start sound order
  | check r other err running pending =>
      rw [observed, streak_checked]
      exact follows.check sound threshold running pending err
  | finish r running done =>
      rw [unchecked rfl]
      exact follows.finish running

/-! ### What is published -/

theorem about_append (published more : List ServerHealthPayload) :
    about srv (published ++ more) = about srv published ++ about srv more :=
  List.filter_append ..

/-- A check of another name publishes nothing about the server. -/
theorem about_news_other {s : State} {other : Server} (named : other.name ≠ srv.name) (value : Bool) :
    about srv (h.news s other value) = [] := by
  unfold HealthChecker.news
  split
  · rfl
  split
  · simp [about, named]
  · rfl

theorem about_news (s : State) (value : Bool) :
    about srv (h.news s srv value) = h.news s srv value := by
  unfold HealthChecker.news
  split
  · rfl
  split
  · simp [about]
  · rfl

/-- **One step publishes the server's flag when it changes it, and nothing else about it.** -/
theorem Follows.published {s s' : State} {n : Nat} {a : Action} (sound : Sound lib s)
    (follows : Follows lib h srv s n) (threshold : 1 ≤ h.failureThreshold)
    (step : Step lib h s a s') :
    about srv s'.published = about srv s.published ++ h.news s srv (s'.healthy srv) := by
  have flag := follows.flag sound threshold step
  have silent (kept : s'.healthy srv = s.healthy srv) : h.news s srv (s'.healthy srv) = [] :=
    if_pos kept
  cases step with
  | check r other err running pending =>
      obtain ⟨logged, checked⟩ := check_eq h lib s other err
      by_cases same : other = srv
      · subst same
        rw [checked, about_append, about_news]
        show _ = _ ++ h.news s other
          (Function.update s.healthy other (h.verdict s other err.isNone) other)
        rw [Function.update_self]
      · have named : other.name ≠ srv.name := by
          intro equal
          have among := sound.pending r running other pending
          have otherMade := (sound.current r running other among).1
          exact same (follows.sole other otherMade (by rw [equal]))
        have unchecked : (Action.check other err).checks ≠ some srv :=
          fun equal => same (Option.some.inj equal)
        rw [silent (flag unchecked), checked, about_append, about_news_other named]
  | new | copyHealthy | add => rw [silent (flag (Option.some_ne_none srv).symm), List.append_nil]; rfl
  | remove | start | finish => rw [silent (flag (Option.some_ne_none srv).symm), List.append_nil]

/-- The published flags alternate, and the last one is the server's. -/
def Alternates (srv : Server) (s : State) : Prop :=
  ∃ n, (about srv s.published).map ServerHealthPayload.healthy = toggles n ∧
    s.healthy srv = decide (n % 2 = 0)

theorem toggles_succ (n : Nat) : toggles (n + 1) = toggles n ++ [decide (n % 2 = 1)] := by
  rw [toggles, List.range_succ, List.map_append]
  rfl

theorem Alternates.step {s s' : State} (alternates : Alternates srv s) (events : h.events = true)
    (published : about srv s'.published =
      about srv s.published ++ h.news s srv (s'.healthy srv)) : Alternates srv s' := by
  obtain ⟨n, flags, last⟩ := alternates
  by_cases kept : s'.healthy srv = s.healthy srv
  · refine ⟨n, ?_, kept.trans last⟩
    rw [published, HealthChecker.news, if_pos kept, List.append_nil]
    exact flags
  · -- the flag turns over, and so does the parity
    have turned : s'.healthy srv = decide (n % 2 = 1) := by
      have parity : decide (n % 2 = 1) = !decide (n % 2 = 0) := by
        rw [← decide_not, decide_eq_decide]
        omega
      rw [parity, ← last]
      cases before : s.healthy srv <;> cases after : s'.healthy srv <;> simp_all
    refine ⟨n + 1, ?_, ?_⟩
    · rw [published, HealthChecker.news, if_neg kept, if_pos events, List.map_append, flags,
        toggles_succ, turned]
      rfl
    · rw [turned, decide_eq_decide]
      omega

/-- **Health follows consecutive failures.**  In every run in which no other object gets
the server's name and the server is not removed, it is unhealthy exactly while its failed
checks since the last successful one have reached the threshold; every step publishes its
flag when it changes it and publishes nothing else about it; and the published flags
alternate, beginning with unhealthy. -/
theorem health_follows_checks (threshold : 1 ≤ h.failureThreshold) {s : State} {log : List Seen}
    (reached : ((machine lib h).record (observed lib)).Reach
      (fun p a => Sole lib srv p.1 a) (s, log)) :
    (s.healthy srv = false ↔ h.failureThreshold ≤ streak srv log) ∧
      (h.events = true →
        (∃ n, (about srv s.published).map ServerHealthPayload.healthy = toggles n) ∧
        ∀ a s', Sole lib srv s a → next lib h s a = some s' →
          about srv s'.published = about srv s.published ++
            if s'.healthy srv = s.healthy srv then []
            else [⟨srv.name, srv.address, s'.healthy srv⟩]) := by
  have invariant : Follows lib h srv s (streak srv log) ∧
      (h.events = true → Alternates srv s) := by
    refine reached.invariant (I := fun p : State × List Seen =>
      Follows lib h srv p.1 (streak srv p.2) ∧ (h.events = true → Alternates srv p.1))
      ⟨initial_follows threshold, fun _ => ⟨0, rfl, rfl⟩⟩ ?_
    rintro p p' a before ⟨follows, alternates⟩ sole taken
    have sound := reach_sound before.unrecorded
    obtain ⟨taken, logged⟩ := Machine.record_next taken
    have step := next_step taken
    rw [logged]
    refine ⟨follows.step sound threshold sole step, ?_⟩
    intro events
    exact (alternates events).step events (follows.published sound threshold step)
  have sound := reach_sound reached.unrecorded
  obtain ⟨follows, alternates⟩ := invariant
  refine ⟨follows.healthy, ?_⟩
  intro events
  obtain ⟨n, flags, -⟩ := alternates events
  refine ⟨⟨n, flags⟩, ?_⟩
  intro a s' sole taken
  have published := follows.published sound threshold (next_step taken)
  rw [HealthChecker.news, if_pos events] at published
  exact published

end Follows

/-- Two failures mark a server unhealthy, and the events are published. -/
def twice : HealthChecker := ⟨2, true, true⟩

/-- A registration that finds no server of its name. -/
def registration (ptr : Nat) (name : String) : List Action :=
  [.new name "a:1" .rakNet "" 1 false, .add (backend ptr name "a:1")]

/-- Lobby fails twice beside another server, which goes between the rounds, and then
answers again. -/
theorem health_follows_checks_lobby :
    ∃ s log, ((machine .ascii twice).record (observed .ascii)).Reach
        (fun p a => Sole .ascii (backend 0 "Lobby" "a:1") p.1 a) (s, log) ∧
      s.published = [⟨"Lobby", "a:1", false⟩, ⟨"Lobby", "a:1", true⟩] ∧
      (s.healthy (backend 0 "Lobby" "a:1") = false ↔
        2 ≤ streak (backend 0 "Lobby" "a:1") log) ∧
      ∃ n, (about (backend 0 "Lobby" "a:1") s.published).map ServerHealthPayload.healthy =
        toggles n := by
  have reached : ((machine .ascii twice).record (observed .ascii)).Reach
      (fun p a => Sole .ascii (backend 0 "Lobby" "a:1") p.1 a) _ :=
    Machine.exec_reach (registration 0 "Lobby" ++ registration 1 "Arena" ++
      ([.start ["arena", "lobby"], .check (backend 0 "Lobby" "a:1") (some "timeout"),
        .check (backend 1 "Arena" "a:1") none, .finish, .remove (backend 1 "Arena" "a:1"),
        .start ["lobby"], .check (backend 0 "Lobby" "a:1") (some "timeout"), .finish,
        .start ["lobby"], .check (backend 0 "Lobby" "a:1") none, .finish] : List Action)) rfl
  have follows := health_follows_checks (by decide) reached
  exact ⟨_, _, reached, rfl, follows.1, (follows.2 rfl).1⟩

/-! ## Servers that register anew -/

section Clean

variable {lib : Library} {h : HealthChecker}

/-- A server is added under a name that is not in the registry only with a healthy flag,
with no failures counted under exactly that name, and with no check of a server of that
name still to return. -/
def StartsClean (lib : Library) (s : State) : Action → Prop
  | .add srv => s.registry.server lib srv.name = none →
      s.healthy srv = true ∧ s.count srv.name = 0 ∧
        ∀ r ∈ s.round, ∀ other ∈ r.pending, other.name ≠ srv.name
  | _ => True

instance (s : State) (a : Action) : Decidable (StartsClean lib s a) := by
  cases a <;> dsimp only [StartsClean] <;> infer_instance

/-- The server can still be checked: it is registered, or a round has yet to check it. -/
def Live (lib : Library) (s : State) (srv : Server) : Prop :=
  s.registry.server lib srv.name = some srv ∨ ∃ r, s.round = some r ∧ srv ∈ r.pending

/-- The record of one server that was registered anew. -/
structure Record (lib : Library) (h : HealthChecker) (s : State) (srv : Server) (n : Nat) :
    Prop where
  added : srv ∈ s.made ∧ srv ∉ s.building
  count : Live lib s srv → s.count srv.name = n
  /-- Nobody else of its name is about to be checked. -/
  alone : Live lib s srv → ∀ r, s.round = some r → ∀ other ∈ r.pending,
    other.name = srv.name → other = srv
  /-- A round that began without it began before its first check. -/
  joined : s.registry.server lib srv.name = some srv →
    ∀ r, s.round = some r → srv ∉ r.current → n = 0
  healthy : s.healthy srv = false → h.failureThreshold ≤ n

variable {srv : Server} {n : Nat}

/-- A step that lets no check in and changes neither counts nor rounds. -/
theorem Record.frame {s s' : State} (record : Record lib h s srv n)
    (added : srv ∈ s'.made ∧ srv ∉ s'.building)
    (registered : s'.registry.server lib srv.name = some srv →
      s.registry.server lib srv.name = some srv)
    (healthy : s'.healthy srv = s.healthy srv) (failures : s'.failures = s.failures)
    (round : s'.round = s.round) : Record lib h s' srv n := by
  have live (after : Live lib s' srv) : Live lib s srv := by
    obtain its | ⟨r, running, pending⟩ := after
    · exact .inl (registered its)
    · exact .inr ⟨r, round ▸ running, pending⟩
  exact {
    added := added
    count := fun after => by
      rw [State.count, failures]
      exact record.count (live after)
    alone := fun after r running => record.alone (live after) r (round ▸ running)
    joined := fun its r running => record.joined (registered its) r (round ▸ running)
    healthy := fun flag => record.healthy (healthy ▸ flag) }

/-- A server that starts clean has an empty record. -/
theorem Record.of_clean {s : State} (sound : Sound lib s) (building : srv ∈ s.building)
    (vacant : s.registry.server lib srv.name = none) (clean : StartsClean lib s (.add srv)) :
    Record lib h (s.add lib srv) srv 0 := by
  obtain ⟨healthy, count, alone⟩ := clean vacant
  exact {
    added := (sound.add building).stored (lib.toLower srv.name) srv (Function.update_self ..)
    count := fun _ => count
    alone := fun _ r running other pending named => absurd named (alone r running other pending)
    joined := fun _ _ _ _ => rfl
    healthy := fun flag => by
      rw [State.add, healthy] at flag
      cases flag }

theorem Record.start {s : State} (sound : Sound lib s) (record : Record lib h s srv n)
    {keys : List String} (order : Order lib s keys) :
    Record lib h { s with round := some ⟨s.registry.servers keys, s.registry.servers keys⟩ }
      srv n := by
  have registered (live : Live lib
      { s with round := some ⟨s.registry.servers keys, s.registry.servers keys⟩ } srv) :
      s.registry.server lib srv.name = some srv := by
    obtain its | ⟨_, ⟨⟩, pending⟩ := live
    · exact its
    · exact (sound.mem_servers order srv).mp pending
  exact {
    added := record.added
    count := fun live => record.count (.inl (registered live))
    alone := by
      rintro live _ ⟨⟩ other pending named
      have its := registered live
      have others := (sound.mem_servers order other).mp pending
      rw [named, its] at others
      exact (Option.some.inj others).symm
    joined := by
      rintro its _ ⟨⟩ missing
      exact absurd ((sound.mem_servers order srv).mpr its) missing
    healthy := record.healthy }

/-- The server's own check. -/
theorem Record.check_own {s : State} (sound : Sound lib s) (record : Record lib h s srv n)
    {r : Round} (running : s.round = some r) (pending : srv ∈ r.pending) (err : Option String) :
    Record lib h
      { h.check lib s srv err with round := some { r with pending := r.pending.erase srv } }
      srv (tally n err.isNone) := by
  obtain ⟨logged, checked⟩ := check_eq h lib s srv err
  rw [checked]
  have live : Live lib s srv := .inr ⟨r, running, pending⟩
  exact {
    added := record.added
    count := fun _ => by rw [count_update rfl, if_pos rfl, record.count live]
    alone := by
      rintro _ _ ⟨⟩ another remains
      exact record.alone live r running another (List.mem_of_mem_erase remains)
    joined := by
      rintro _ _ ⟨⟩ missing
      exact absurd (sound.pending r running srv pending) missing
    healthy := by
      intro flag
      have verdict : h.verdict s srv err.isNone = false :=
        (Function.update_self ..).symm.trans flag
      obtain ⟨failed, before | reached⟩ := verdict_eq_false.mp verdict
      · have enough := record.healthy before
        rw [failed]
        show h.failureThreshold ≤ n + 1
        omega
      · rw [failed, ← record.count live]
        exact reached }

/-- The check of another server: while this one is live, that one has another name. -/
theorem Record.check_other {s : State} (record : Record lib h s srv n) {r : Round}
    (running : s.round = some r) {other : Server} (pending : other ∈ r.pending)
    (differs : other ≠ srv) (err : Option String) :
    Record lib h
      { h.check lib s other err with round := some { r with pending := r.pending.erase other } }
      srv n := by
  obtain ⟨logged, checked⟩ := check_eq h lib s other err
  rw [checked]
  have live {s' : State} (after : Live lib s' srv) (registry : s'.registry = s.registry)
      (round : s'.round = some { r with pending := r.pending.erase other }) :
      Live lib s srv := by
    obtain its | ⟨r', running', remains⟩ := after
    · exact .inl (registry ▸ its)
    · cases round.symm.trans running'
      exact .inr ⟨r, running, List.mem_of_mem_erase remains⟩
  exact {
    added := record.added
    count := by
      intro after
      have before := live after rfl rfl
      have named : srv.name ≠ other.name := fun equal =>
        differs (record.alone before r running other pending equal.symm)
      rw [count_update rfl, if_neg named]
      exact record.count before
    alone := by
      rintro after _ ⟨⟩ another remains
      exact record.alone (live after rfl rfl) r running another (List.mem_of_mem_erase remains)
    joined := by
      rintro its _ ⟨⟩
      exact record.joined its r running
    healthy := by
      intro flag
      apply record.healthy
      rw [← flag]
      exact (Function.update_of_ne (Ne.symm differs) ..).symm }

theorem Record.finish {s : State} (record : Record lib h s srv n) {r : Round}
    (running : s.round = some r) :
    Record lib h { s with failures := pruneFailures r.current s.failures, round := none } srv
      n where
  added := record.added
  count := by
    intro live
    obtain its | ⟨_, ⟨⟩, _⟩ := live
    have counted := record.count (.inl its)
    by_cases among : srv ∈ r.current
    · rw [count_pruned rfl among]
      exact counted
    · have zero := record.joined its r running among
      rw [zero]
      exact count_pruned_zero rfl (counted.trans zero)
  alone := nofun
  joined := nofun
  healthy := record.healthy

/-- **One step keeps a record**, with the streak of the server. -/
theorem Record.step {s s' : State} {log : List Seen} {a : Action} (sound : Sound lib s)
    (record : Record lib h s srv (streak srv log)) (step : Step lib h s a s') :
    Record lib h s' srv (streak srv (log ++ observed lib s a)) := by
  have unchecked (silent : a.checks = none) :
      streak srv (log ++ observed lib s a) = streak srv log := by
    apply streak_unchecked
    rw [silent]
    exact (Option.some_ne_none srv).symm
  cases step with
  | new name address transport group weight legacyAuth =>
      have differs : srv ≠ .new s.made.length name address transport group weight legacyAuth := by
        intro same
        exact sound.fresh (by rw [same]; rfl) record.added.1
      rw [unchecked rfl]
      refine record.frame ⟨List.mem_append_left _ record.added.1, ?_⟩ id
        (Function.update_of_ne differs ..) rfl rfl
      intro among
      obtain old | last := List.mem_append.mp among
      · exact record.added.2 old
      · exact differs (List.mem_singleton.mp last)
  | copyHealthy newSrv old building older =>
      have differs : srv ≠ newSrv := by
        rintro rfl
        exact record.added.2 building
      rw [unchecked rfl]
      exact record.frame record.added id (Function.update_of_ne differs ..) rfl rfl
  | add other building =>
      rw [unchecked rfl]
      refine record.frame
        ⟨record.added.1, fun among => record.added.2 (List.mem_filter.mp among).1⟩ ?_ rfl rfl rfl
      intro its
      replace its : (s.registry.addServer lib other).server lib srv.name = some srv := its
      rw [Registry.server_addServer] at its
      split at its
      · -- the entry of the name is now `other`, which was still being built
        obtain rfl := Option.some.inj its
        exact absurd building record.added.2
      · exact its
  | remove other =>
      rw [unchecked rfl]
      exact record.frame record.added Registry.removeServer_some rfl rfl rfl
  | start keys idle order =>
      rw [unchecked rfl]
      exact record.start sound order
  | check r other err running pending =>
      rw [observed, streak_checked]
      split
      · rename_i same
        subst same
        exact record.check_own sound running pending err
      · rename_i differs
        exact record.check_other running pending differs err
  | finish r running done =>
      rw [unchecked rfl]
      exact record.finish running

/-- The servers registered anew have their records, and nobody is checked before it is
added. -/
structure Clean (lib : Library) (h : HealthChecker) (s : State) (log : List Seen) : Prop where
  record : ∀ srv, .registered srv ∈ log → Record lib h s srv (streak srv log)
  unchecked : ∀ srv, srv ∈ s.building ∨ srv ∉ s.made → streak srv log = 0

/-- **One step of a run.** -/
theorem Clean.step {s s' : State} {log : List Seen} {a : Action} (sound : Sound lib s)
    (clean : Clean lib h s log) (starts : StartsClean lib s a) (step : Step lib h s a s') :
    Clean lib h s' (log ++ observed lib s a) := by
  refine ⟨?_, ?_⟩
  · intro srv seen
    obtain before | ⟨rfl, vacant⟩ := registered_mem seen
    · exact (clean.record srv before).step sound step
    · cases step with
      | add _ building =>
          have silent : (Action.add srv).checks ≠ some srv := (Option.some_ne_none srv).symm
          rw [streak_unchecked silent, clean.unchecked srv (.inl building)]
          exact .of_clean sound building vacant starts
  · intro srv early
    obtain ⟨before, silent⟩ := sound.unadded step early
    rw [streak_unchecked silent]
    exact clean.unchecked srv before

/-- **A server that registers anew, and starts clean, is unhealthy only for its own
failures.**  In every state of such a run a server that was added while no server of its
name was registered, and is unhealthy, has failed its last checks, as many as the
threshold. -/
theorem unhealthy_after_own_failures {s : State} {log : List Seen}
    (reached : ((machine lib h).record (observed lib)).Reach
      (fun p a => StartsClean lib p.1 a) (s, log))
    {srv : Server} (registered : .registered srv ∈ log) (unhealthy : s.healthy srv = false) :
    h.failureThreshold ≤ streak srv log := by
  have clean : Clean lib h s log := by
    refine reached.invariant (I := fun p : State × List Seen => Clean lib h p.1 p.2)
      ⟨nofun, fun _ _ => rfl⟩ ?_
    intro p p' a before clean starts taken
    obtain ⟨taken, logged⟩ := Machine.record_next taken
    rw [logged]
    exact clean.step (reach_sound before.unrecorded) starts (next_step taken)
  exact (clean.record srv registered).healthy unhealthy

end Clean

/-- Lobby fails once and goes; a round without it drops the count, and the Lobby that
registers then is unhealthy after two failures of its own. -/
theorem unhealthy_after_own_failures_lobby :
    ∃ s log, ((machine .ascii twice).record (observed .ascii)).Reach
        (fun p a => StartsClean .ascii p.1 a) (s, log) ∧
      .registered (backend 1 "Lobby" "a:1") ∈ log ∧
      s.healthy (backend 1 "Lobby" "a:1") = false ∧
      2 ≤ streak (backend 1 "Lobby" "a:1") log := by
  have reached : ((machine .ascii twice).record (observed .ascii)).Reach
      (fun p a => StartsClean .ascii p.1 a) _ :=
    Machine.exec_reach (registration 0 "Lobby" ++
      ([.start ["lobby"], .check (backend 0 "Lobby" "a:1") (some "timeout"), .finish,
        .remove (backend 0 "Lobby" "a:1"), .start [], .finish] : List Action) ++
      registration 1 "Lobby" ++
      ([.start ["lobby"], .check (backend 1 "Lobby" "a:1") (some "timeout"), .finish,
        .start ["lobby"], .check (backend 1 "Lobby" "a:1") (some "timeout"), .finish] :
        List Action)) rfl
  have registered : Seen.registered (backend 1 "Lobby" "a:1") ∈
      [Seen.registered (backend 0 "Lobby" "a:1"), .checked (backend 0 "Lobby" "a:1") false,
        .registered (backend 1 "Lobby" "a:1"), .checked (backend 1 "Lobby" "a:1") false,
        .checked (backend 1 "Lobby" "a:1") false] := by decide
  exact ⟨_, _, reached, registered, rfl, unhealthy_after_own_failures reached registered rfl⟩

/-- Lobby fails once, goes and comes back before the next round: the new object is
unhealthy after its first failure. -/
theorem count_inherited :
    ∃ s log, ((machine .ascii twice).record (observed .ascii)).Reachable (s, log) ∧
      log = [.registered (backend 0 "Lobby" "a:1"), .checked (backend 0 "Lobby" "a:1") false,
        .registered (backend 1 "Lobby" "a:1"), .checked (backend 1 "Lobby" "a:1") false] ∧
      s.healthy (backend 1 "Lobby" "a:1") = false ∧ streak (backend 1 "Lobby" "a:1") log = 1 ∧
      twice.failureThreshold = 2 :=
  have reached : ((machine .ascii twice).record (observed .ascii)).Reach (fun _ _ => True) _ :=
    Machine.exec_reach (registration 0 "Lobby" ++
      ([.start ["lobby"], .check (backend 0 "Lobby" "a:1") (some "timeout"), .finish,
        .remove (backend 0 "Lobby" "a:1")] : List Action) ++
      registration 1 "Lobby" ++
      ([.start ["lobby"], .check (backend 1 "Lobby" "a:1") (some "timeout"), .finish] :
        List Action)) rfl
  ⟨_, _, reached, rfl, rfl, rfl, rfl⟩

end Portal.Health
