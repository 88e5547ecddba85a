/-
# Socket.Events — the registration events against the registry

Events are published outside every lock, after the registry has been changed.  Each of
the fields of `Told` excuses a disagreement by a connection that is still to publish:

* `withdrawn`: a name that was last announced and is not in the registry has its
  `TopicServerUnregistered` still to come.
* `told`: a name in the registry was last announced, or is still to be.
* `replaced`: while a cleanup stands between its removal and its event, whoever has taken
  the name over has not announced it yet.

The last is what the code does not see to.  A replacement that registers and announces
itself before the cleanup of its predecessor publishes is followed by a
`TopicServerUnregistered` that is about the predecessor, and whose removal did nothing
(`replacement_reported_gone`).  In runs in which nobody announces a name while an earlier
cleanup of it is under way, the events and the registry agree (`events_agree`).
-/
import Portal.Socket.Ownership

namespace Portal.Socket

open Portal.Theory.PartialMap Portal.Theory.Transition

set_option autoImplicit false

variable {cfg : Config} {sh sh' : Shared} {c : ClientID} {conn conn' : Connection}
  {s s' : DefaultServer} {a : Action} {key : String}

/-! ## The last event of a name -/

/-- The last event published for a folded name. -/
def Shared.lastEvent (sh : Shared) (cfg : Config) (key : String) : Option Event :=
  (sh.events.filter fun e => cfg.lib.toLower e.name = key).getLast?

theorem Shared.lastEvent_self {event : Event} (events : sh'.events = sh.events ++ [event])
    (name : cfg.lib.toLower event.name = key) : sh'.lastEvent cfg key = some event := by
  simp [Shared.lastEvent, events, List.filter_append, name]

theorem Shared.lastEvent_of_ne {event : Event} (events : sh'.events = sh.events ++ [event])
    (name : cfg.lib.toLower event.name ≠ key) : sh'.lastEvent cfg key = sh.lastEvent cfg key := by
  simp [Shared.lastEvent, events, List.filter_append, name]

/-! ## Who is at work on a name -/

namespace ConnState

/-- The object whose `TopicServerUnregistered` is the next statement. -/
def withdraws : ConnState → Option Server
  | unpublishing srv => some srv
  | _ => none

/-- The object of a cleanup that is under way. -/
def retires : ConnState → Option Server
  | removing srv => some srv
  | unpublishing srv => some srv
  | _ => none

variable {state : ConnState}

theorem retires_eq_none (served : state.served = true) : state.retires = none := by
  cases state with
  | removing srv | unpublishing srv => cases served
  | _ => rfl

theorem announces_eq_none (idle : state.handler = none) : state.announces = none := by
  cases state with
  | announcing srv => cases idle
  | _ => rfl

theorem withdraws_eq_none (idle : state.retires = none) : state.withdraws = none := by
  cases state with
  | unpublishing srv => cases idle
  | _ => rfl

end ConnState

/-- Some connection is, for an object of the folded name, where `stage` says. -/
def Busy (cfg : Config) (s : DefaultServer) (stage : ConnState → Option Server) (key : String) :
    Prop :=
  ∃ c conn srv, s.conns c = some conn ∧ stage conn.state = some srv ∧ cfg.lib.toLower srv.name = key

/-- It still is after a step of another connection. -/
theorem Busy.keep {stage : ConnState → Option Server} (busy : Busy cfg s stage key)
    (found : s.conns c = some conn)
    (other : ∀ srv, stage conn.state = some srv → cfg.lib.toLower srv.name ≠ key) :
    Busy cfg ⟨sh', Function.update s.conns c (some conn')⟩ stage key := by
  obtain ⟨d, busyOne, srv, there, at_, name⟩ := busy
  have ne : d ≠ c := by
    rintro rfl
    cases found.symm.trans there
    exact other srv at_ name
  exact ⟨d, busyOne, srv, (Function.update_of_ne ne ..).trans there, at_, name⟩

theorem Busy.keep_of_none {stage : ConnState → Option Server} (busy : Busy cfg s stage key)
    (found : s.conns c = some conn) (idle : stage conn.state = none) :
    Busy cfg ⟨sh', Function.update s.conns c (some conn')⟩ stage key :=
  busy.keep found fun _ at_ => nomatch idle.symm.trans at_

theorem Busy.here {stage : ConnState → Option Server} {srv : Server}
    (at_ : stage conn'.state = some srv) (name : cfg.lib.toLower srv.name = key) :
    Busy cfg ⟨sh', Function.update s.conns c (some conn')⟩ stage key :=
  ⟨c, conn', srv, Function.update_self .., at_, name⟩

/-! ## Every disagreement has its event still to come -/

structure Told (cfg : Config) (s : DefaultServer) : Prop where
  withdrawn : ∀ key event, s.shared.lastEvent cfg key = some event → event.isRegistered = true →
    s.shared.registry key = none → Busy cfg s ConnState.withdraws key
  told : ∀ key srv, s.shared.registry key = some srv → Busy cfg s ConnState.announces key ∨
    ∃ event, s.shared.lastEvent cfg key = some event ∧ event.isRegistered = true
  replaced : ∀ d other old srv, s.conns d = some other → other.state.retires = some old →
    s.shared.registry (cfg.lib.toLower old.name) = some srv → other.state = .removing srv ∨
      Busy cfg s ConnState.announces (cfg.lib.toLower old.name)

/-- A `TopicServerRegistered` is published only while no cleanup of an object of that folded
name is under way. -/
def DefaultServer.ordered (cfg : Config) (s : DefaultServer) (a : Action) : Prop :=
  ∀ c conn srv input, a = .step c input → s.conns c = some conn → conn.state = .announcing srv →
    ¬ Busy cfg s ConnState.retires (cfg.lib.toLower srv.name)

theorem told_initial : Told cfg .initial :=
  ⟨fun _ _ last => (nomatch last), fun _ _ stored => (nomatch stored),
    fun _ _ _ _ found => (nomatch found)⟩

theorem Told.accept (told : Told cfg s) (free : s.conns c = none) :
    Told cfg { s with conns := Function.update s.conns c (some .new) } := by
  have kept : ∀ stage key, Busy cfg s stage key →
      Busy cfg { s with conns := Function.update s.conns c (some .new) } stage key := by
    rintro stage key ⟨d, conn, srv, there, rest⟩
    exact ⟨d, conn, srv, update_free free there, rest⟩
  refine ⟨?withdrawn, ?told, ?replaced⟩
  case withdrawn =>
    intro key event last registered missing
    exact kept _ _ (told.withdrawn key event last registered missing)
  case told =>
    intro key srv stored
    exact (told.told key srv stored).imp_left (kept _ _)
  case replaced =>
    intro d other old srv there retires stored
    rcases update_some there with ⟨-, new⟩ | ⟨-, before⟩
    · cases new
      cases retires
    · exact (told.replaced d other old srv before retires stored).imp_right (kept _ _)

/-- A step that neither changes the registry nor publishes; a cleanup it begins has the
object that is in the registry. -/
theorem Told.frame (told : Told cfg s) (found : s.conns c = some conn)
    (registry : sh'.registry = s.shared.registry) (events : sh'.events = s.shared.events)
    (announces : conn.state.announces = none) (retires : conn.state.retires = none)
    (begun : ∀ old, conn'.state.retires = some old → conn'.state = .removing old ∧
      s.shared.registry (cfg.lib.toLower old.name) = some old) :
    Told cfg ⟨sh', Function.update s.conns c (some conn')⟩ where
  withdrawn := by
    intro key event last registered missing
    simp only [Shared.lastEvent, events, registry] at last missing
    exact (told.withdrawn key event last registered missing).keep_of_none found
      (ConnState.withdraws_eq_none retires)
  told := by
    intro key srv stored
    simp only [registry] at stored
    simp only [Shared.lastEvent, events]
    exact (told.told key srv stored).imp_left fun busy => busy.keep_of_none found announces
  replaced := by
    intro d other old srv there retiring stored
    simp only [registry] at stored
    rcases update_some there with ⟨-, new⟩ | ⟨-, before⟩
    · cases new
      obtain ⟨at_, its⟩ := begun old retiring
      cases its.symm.trans stored
      exact .inl at_
    · exact (told.replaced d other old srv before retiring stored).imp_right fun busy =>
        busy.keep_of_none found announces

/-- `AddServer`. -/
theorem Told.add (told : Told cfg s) (found : s.conns c = some conn) {srv : Server}
    (at_ : conn.state = .adding srv)
    (registry : sh'.registry = s.shared.registry.addServer cfg.lib srv)
    (events : sh'.events = s.shared.events) (after : conn'.state = .announcing srv) :
    Told cfg ⟨sh', Function.update s.conns c (some conn')⟩ := by
  have here : Busy cfg ⟨sh', Function.update s.conns c (some conn')⟩ ConnState.announces
      (cfg.lib.toLower srv.name) := .here (by rw [after]; rfl) rfl
  refine ⟨?withdrawn, ?told, ?replaced⟩
  case withdrawn =>
    intro key event last registered missing
    simp only [Shared.lastEvent, events, registry, Registry.addServer] at last missing
    have ne : key ≠ cfg.lib.toLower srv.name := by
      rintro rfl
      simp at missing
    rw [Function.update_of_ne ne] at missing
    exact (told.withdrawn key event last registered missing).keep_of_none found (by rw [at_]; rfl)
  case told =>
    intro key stored entry
    simp only [registry] at entry
    simp only [Shared.lastEvent, events]
    rcases update_some entry with ⟨rfl, -⟩ | ⟨-, before⟩
    · exact .inl here
    · exact (told.told key stored before).imp_left fun busy =>
        busy.keep_of_none found (by rw [at_]; rfl)
  case replaced =>
    intro d other old stored there retires entry
    simp only [registry] at entry
    rcases update_some there with ⟨-, new⟩ | ⟨-, before⟩
    · cases new
      rw [after] at retires
      cases retires
    · rcases update_some entry with ⟨same, -⟩ | ⟨-, entry⟩
      · exact .inr (same ▸ here)
      · exact (told.replaced d other old stored before retires entry).imp_right fun busy =>
          busy.keep_of_none found (by rw [at_]; rfl)

/-- `TopicServerRegistered`: the object is in the registry, and nobody is going to take the
event back. -/
theorem Told.announce (told : Told cfg s) (found : s.conns c = some conn) {srv : Server}
    (at_ : conn.state = .announcing srv) (named : srv.name = conn.client.name)
    (stored : s.shared.registry (cfg.lib.toLower srv.name) = some srv)
    (ordered : ¬ Busy cfg s ConnState.retires (cfg.lib.toLower srv.name))
    (registry : sh'.registry = s.shared.registry)
    (events : sh'.events = s.shared.events ++ [.serverRegistered conn.client.name srv.address])
    (after : conn'.state = .checking) :
    Told cfg ⟨sh', Function.update s.conns c (some conn')⟩ := by
  -- another name's announcement is another connection's
  have others : ∀ key, key ≠ cfg.lib.toLower srv.name → Busy cfg s ConnState.announces key →
      Busy cfg ⟨sh', Function.update s.conns c (some conn')⟩ ConnState.announces key := by
    intro key ne busy
    refine busy.keep found fun mine its name => ne ?_
    rw [at_] at its
    cases its
    exact name.symm
  refine ⟨?withdrawn, ?told, ?replaced⟩
  case withdrawn =>
    intro key event last registered missing
    simp only [registry] at missing
    have ne : cfg.lib.toLower conn.client.name ≠ key := by
      rintro rfl
      rw [← named, stored] at missing
      cases missing
    have last := (Shared.lastEvent_of_ne events ne).symm.trans last
    exact (told.withdrawn key event last registered missing).keep_of_none found (by rw [at_]; rfl)
  case told =>
    intro key entry its
    simp only [registry] at its
    by_cases same : cfg.lib.toLower conn.client.name = key
    · exact .inr ⟨_, Shared.lastEvent_self events same, rfl⟩
    · simp only [Shared.lastEvent_of_ne events same]
      exact (told.told key entry its).imp_left (others key (named ▸ Ne.symm same))
  case replaced =>
    intro d other old entry there retires its
    simp only [registry] at its
    rcases update_some there with ⟨-, new⟩ | ⟨-, before⟩
    · cases new
      rw [after] at retires
      cases retires
    · refine (told.replaced d other old entry before retires its).imp_right (others _ ?_)
      exact fun same => ordered ⟨d, other, old, before, retires, same⟩

/-- `RemoveServer`. -/
theorem Told.remove (told : Told cfg s) (keyed : s.shared.registry.Keyed cfg.lib)
    (found : s.conns c = some conn) {srv : Server} (at_ : conn.state = .removing srv)
    (registry : sh'.registry = s.shared.registry.removeServer cfg.lib srv)
    (events : sh'.events = s.shared.events) (after : conn'.state = .unpublishing srv) :
    Told cfg ⟨sh', Function.update s.conns c (some conn')⟩ := by
  have others : ∀ key, Busy cfg s ConnState.announces key →
      Busy cfg ⟨sh', Function.update s.conns c (some conn')⟩ ConnState.announces key :=
    fun _ busy => busy.keep_of_none found (by rw [at_]; rfl)
  refine ⟨?withdrawn, ?told, ?replaced⟩
  case withdrawn =>
    intro key event last registered missing
    simp only [Shared.lastEvent, events, registry] at last missing
    by_cases same : key = cfg.lib.toLower srv.name
    · exact .here (by rw [after]; rfl) same.symm
    · rw [Registry.removeServer_of_ne same] at missing
      exact (told.withdrawn key event last registered missing).keep_of_none found (by rw [at_]; rfl)
  case told =>
    intro key stored entry
    simp only [registry] at entry
    simp only [Shared.lastEvent, events]
    exact (told.told key stored (Registry.removeServer_some entry)).imp_left (others key)
  case replaced =>
    intro d other old stored there retires entry
    simp only [registry] at entry
    have before := Registry.removeServer_some entry
    rcases update_some there with ⟨-, new⟩ | ⟨-, old_⟩
    · cases new
      rw [after] at retires
      cases retires
      rcases told.replaced c conn srv stored found (by rw [at_]; rfl) before with own | busy
      · rw [at_] at own
        cases own
        exact absurd entry (keyed.removeServer_ne srv _)
      · exact .inr (others _ busy)
    · exact (told.replaced d other old stored old_ retires before).imp_right (others _)

/-- `TopicServerUnregistered`: whoever is in the registry is still to announce itself. -/
theorem Told.unpublish (told : Told cfg s) (found : s.conns c = some conn) {srv : Server}
    (at_ : conn.state = .unpublishing srv) (registry : sh'.registry = s.shared.registry)
    (events : sh'.events = s.shared.events ++ [.serverUnregistered srv.name srv.address])
    (after : conn'.state = .ended) :
    Told cfg ⟨sh', Function.update s.conns c (some conn')⟩ := by
  have others : ∀ key, Busy cfg s ConnState.announces key →
      Busy cfg ⟨sh', Function.update s.conns c (some conn')⟩ ConnState.announces key :=
    fun _ busy => busy.keep_of_none found (by rw [at_]; rfl)
  refine ⟨?withdrawn, ?told, ?replaced⟩
  case withdrawn =>
    intro key event last registered missing
    simp only [registry] at missing
    by_cases same : cfg.lib.toLower srv.name = key
    · cases (Shared.lastEvent_self events same).symm.trans last
      cases registered
    · have last := (Shared.lastEvent_of_ne events same).symm.trans last
      refine (told.withdrawn key event last registered missing).keep found fun mine its name => ?_
      rw [at_] at its
      cases its
      exact same name
  case told =>
    intro key stored entry
    simp only [registry] at entry
    by_cases same : cfg.lib.toLower srv.name = key
    · subst same
      rcases told.replaced c conn srv stored found (by rw [at_]; rfl) entry with own | busy
      · cases at_.symm.trans own
      · exact .inl (others _ busy)
    · simp only [Shared.lastEvent_of_ne events same]
      exact (told.told key stored entry).imp_left (others key)
  case replaced =>
    intro d other old stored there retires entry
    simp only [registry] at entry
    rcases update_some there with ⟨-, new⟩ | ⟨-, before⟩
    · cases new
      rw [after] at retires
      cases retires
    · exact (told.replaced d other old stored before retires entry).imp_right (others _)

theorem Told.step (told : Told cfg s) (sane : Sane cfg s) (owned : Owned cfg s)
    (found : s.conns c = some conn) {input : Input} (meets : s.ordered cfg (.step c input))
    (effect : Effect cfg s.shared c conn sh' conn') :
    Told cfg ⟨sh', Function.update s.conns c (some conn')⟩ := by
  have fits := (sane.locals c conn found).fits
  cases effect with
  | quiet same =>
      have none_ := ConnState.retires_eq_none same.served.2
      exact told.frame found same.registry same.events same.announces.1
        (ConnState.retires_eq_none same.served.1) fun old its => nomatch none_.symm.trans its
  | rejected at_ | entered at_ | claimed at_ free | created at_ =>
      exact told.frame found rfl rfl (by rw [at_]; rfl) (by rw [at_]; rfl) fun old its => nomatch its
  | added at_ => exact told.add found at_ rfl rfl rfl
  | @announced srv at_ =>
      rw [at_] at fits
      obtain ⟨-, named, latest⟩ := fits
      have stored := owned.current c conn srv found (by rw [at_]; rfl) latest
      rw [← named] at stored
      exact told.announce found at_ named stored (meets c conn srv input rfl found at_) rfl rfl rfl
  | released at_ =>
      refine told.frame found rfl rfl (by rw [at_]; rfl) (by rw [at_]; rfl) fun old its => ?_
      cases own : s.shared.ownServer cfg c conn.client.name with
      | none =>
          rw [own] at its
          cases its
      | some srv =>
          rw [own] at its
          cases its
          refine ⟨rfl, ?_⟩
          unfold Shared.ownServer at own
          split at own
          · rwa [sane.keyed _ _ own]
          · cases own
  | removed at_ => exact told.remove sane.keyed found at_ rfl rfl rfl
  | unpublished at_ => exact told.unpublish found at_ rfl rfl rfl

theorem Told.next (told : Told cfg s) (sane : Sane cfg s) (owned : Owned cfg s)
    (meets : s.ordered cfg a) (taken : s.next cfg a = some s') : Told cfg s' := by
  refine DefaultServer.next_elim taken ?accept ?step ?ambient
  case accept =>
    rintro c free rfl
    exact told.accept free
  case step =>
    rintro c input conn sh' conn' rfl found stepped rfl
    exact told.step sane owned found meets (step_effect stepped)
  case ambient =>
    intro conns ambient
    constructor
    · simpa only [Shared.lastEvent, Busy, conns, ambient.registry, ambient.events]
        using told.withdrawn
    · simpa only [Shared.lastEvent, Busy, conns, ambient.registry, ambient.events] using told.told
    · simpa only [Busy, conns, ambient.registry] using told.replaced

theorem DefaultServer.told (reached : (machine cfg).Reach (ordered cfg) s) : Told cfg s :=
  reached.invariant (I := Told cfg) told_initial fun _ _ _ before kept meets taken =>
    kept.next (DefaultServer.sane before) (DefaultServer.owned before) meets taken

/-- No handler and no cleanup is midway. -/
def DefaultServer.Idle (s : DefaultServer) : Prop :=
  ∀ c conn, s.conns c = some conn → conn.state.handler = none ∧ conn.state.retires = none

/-- **The events agree with the registry**, in every run that publishes no registration of a
name while an earlier cleanup of that name is under way: whenever nothing is midway, the
last event of a name is `TopicServerRegistered` if and only if the name is in the
registry. -/
theorem events_agree (cfg : Config) (s : DefaultServer)
    (reached : (DefaultServer.machine cfg).Reach (DefaultServer.ordered cfg) s) (idle : s.Idle)
    (key : String) (event : Event) (last : s.shared.lastEvent cfg key = some event) :
    event.isRegistered = true ↔ ∃ srv, s.shared.registry key = some srv := by
  have told := DefaultServer.told reached
  constructor
  · intro registered
    cases stored : s.shared.registry key with
    | some srv => exact ⟨srv, rfl⟩
    | none =>
        obtain ⟨c, conn, srv, found, withdraws, -⟩ :=
          told.withdrawn key event last registered stored
        have none_ := ConnState.withdraws_eq_none (idle c conn found).2
        cases none_.symm.trans withdraws
  · rintro ⟨srv, stored⟩
    rcases told.told key srv stored with ⟨c, conn, _, found, announces, -⟩ | ⟨its, same, registered⟩
    · have none_ := ConnState.announces_eq_none (idle c conn found).1
      cases none_.symm.trans announces
    · cases last.symm.trans same
      exact registered

/-- The step publishes a `TopicServerRegistered`. -/
def DefaultServer.publishes (s : DefaultServer) : Action → Bool
  | .step c _ => ((s.conns c).bind (·.state.announces)).isSome
  | _ => false

/-- A step that publishes no registration meets the condition. -/
theorem DefaultServer.ordered_of_not_publishes (silent : s.publishes a = false) :
    s.ordered cfg a := by
  rintro c conn srv input rfl found at_
  simp [DefaultServer.publishes, found, at_, ConnState.announces] at silent

/-- A backend registers, is announced, and goes. -/
theorem events_agree_gone :
    ∃ s, (DefaultServer.machine .oneHost).Reach (DefaultServer.ordered .oneHost) s ∧ s.Idle ∧
      s.shared.lastEvent .oneHost "lobby" = some (.serverUnregistered "lobby" "a:1") ∧
      ¬ ∃ srv, s.shared.registry "lobby" = some srv := by
  have silent : ∀ s a, DefaultServer.publishes s a = false →
      DefaultServer.ordered .oneHost s a := fun _ _ => DefaultServer.ordered_of_not_publishes
  have reached : (DefaultServer.machine .oneHost).Reach (DefaultServer.ordered .oneHost) _ :=
    Machine.Reach.start.exec silent (Action.login 0 "lobby" ++ Action.register 0 "a:1") rfl
  -- the announcement, with no cleanup under way
  obtain ⟨s, reached, alone, announcing, taken⟩ : ∃ s,
      (DefaultServer.machine .oneHost).Reach (DefaultServer.ordered .oneHost) s ∧
      (∀ c, s.conns (c + 1) = none) ∧
      (s.conns 0).map Connection.state = some (.announcing (backend 0 "lobby" "a:1")) ∧
      s.next .oneHost (.step 0 .go) = some _ := ⟨_, reached, fun _ => rfl, rfl, rfl⟩
  have meets : s.ordered .oneHost (.step 0 .go) := by
    rintro - - - - - - - ⟨d, other, old, there, retires, -⟩
    cases d with
    | zero =>
        rw [there] at announcing
        rw [Option.some.inj announcing] at retires
        cases retires
    | succ d => cases (alone d).symm.trans there
  have announced : (DefaultServer.machine .oneHost).Reach (DefaultServer.ordered .oneHost) _ :=
    .step reached meets taken
  have reached : (DefaultServer.machine .oneHost).Reach (DefaultServer.ordered .oneHost) _ :=
    announced.exec silent (Action.go 0 1 ++ [.step 0 (.failed "EOF" false)] ++ Action.go 0 3) rfl
  obtain ⟨s, reached, alone, ended, events⟩ : ∃ s,
      (DefaultServer.machine .oneHost).Reach (DefaultServer.ordered .oneHost) s ∧
      (∀ c, s.conns (c + 1) = none) ∧ (s.conns 0).map Connection.state = some .ended ∧
      s.shared.events = [.serverRegistered "lobby" "a:1", .serverUnregistered "lobby" "a:1"] :=
    ⟨_, reached, fun _ => rfl, rfl, rfl⟩
  have idle : s.Idle := by
    intro c conn found
    cases c with
    | zero =>
        rw [found] at ended
        rw [Option.some.inj ended]
        exact ⟨rfl, rfl⟩
    | succ c => cases (alone c).symm.trans found
  have last : s.shared.lastEvent .oneHost "lobby" = some (.serverUnregistered "lobby" "a:1") := by
    rw [Shared.lastEvent, events]
    rfl
  refine ⟨s, reached, idle, last, fun stored => ?_⟩
  cases (events_agree .oneHost s reached idle "lobby" _ last).mpr stored

/-- The cleanup of connection 0 has begun when connection 1 takes the name over, registers
and is announced.  The cleanup then removes nothing, and publishes. -/
theorem replacement_reported_gone :
    ∃ s, (DefaultServer.machine .oneHost).Reachable s ∧ s.Idle ∧
      s.shared.lastEvent .oneHost "lobby" = some (.serverUnregistered "lobby" "a:1") ∧
      s.shared.registry "lobby" = some (backend 1 "Lobby" "b:1") := by
  have reached : (DefaultServer.machine .oneHost).Reachable _ :=
    Machine.exec_reach (Action.login 0 "lobby" ++ Action.register 0 "a:1" ++ Action.hangUp 0 ++
      Action.go 0 1 ++ Action.login 1 "Lobby" ++ Action.register 1 "b:1" ++ Action.go 1 5 ++
      Action.go 0 2) rfl
  obtain ⟨s, reached, alone, ended, reading, events, stored⟩ : ∃ s,
      (DefaultServer.machine .oneHost).Reachable s ∧ (∀ c, s.conns (c + 2) = none) ∧
      (s.conns 0).map Connection.state = some .ended ∧
      (s.conns 1).map Connection.state = some .reading ∧
      s.shared.events = [.serverRegistered "lobby" "a:1", .serverRegistered "Lobby" "b:1",
        .serverUnregistered "lobby" "a:1"] ∧
      s.shared.registry "lobby" = some (backend 1 "Lobby" "b:1") :=
    ⟨_, reached, fun _ => rfl, rfl, rfl, rfl, rfl⟩
  refine ⟨s, reached, ?_, ?_, stored⟩
  · intro c conn found
    match c with
    | 0 =>
        rw [found] at ended
        rw [Option.some.inj ended]
        exact ⟨rfl, rfl⟩
    | 1 =>
        rw [found] at reading
        rw [Option.some.inj reading]
        exact ⟨rfl, rfl⟩
    | c + 2 => cases (alone c).symm.trans found
  · rw [Shared.lastEvent, events]
    rfl

end Portal.Socket
