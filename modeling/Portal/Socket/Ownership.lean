/-
# Socket.Ownership — whose objects the registry holds

A client's objects are the ones it has added and the one a `RegisterServer` of it has
made and not added yet.  No two clients have an object in common (`Distinct`): that is
what `RemoveServer` relies on when it compares pointers.

`Owned` says where these objects stand.

* `current`: a client that is served and has registered finds its latest object under its
  name, whatever the cleanup of an earlier connection of that name is at.
* `stale`: what a cleanup removes was added by a connection that is itself cleaned up.
* `last`: an object of a client that is in the registry is its latest while the client is
  served, and the one its cleanup is about to remove after that.

`handleClientDisconnect` takes the empty name for "not authenticated", and `TryAuthenticate`
accepts it.  A client that authenticates with it is never taken out of the map, nor its
object out of the registry (`unnamed_client_stays`); every other client is
(`disconnect_cleans_up`).
-/
import Portal.Socket.Authentication

namespace Portal.Socket

open Portal.Theory.PartialMap Portal.Theory.Transition

set_option autoImplicit false

variable {cfg : Config} {sh sh' : Shared} {c : ClientID} {conn conn' : Connection}
  {s s' : DefaultServer} {a : Action} {ok : DefaultServer → Action → Prop}

/-! ## Objects -/

/-- The objects a connection has made, the one it has not added yet included. -/
def Connection.objects (conn : Connection) : List Server :=
  conn.registered ++ conn.state.pending.toList

/-- The identities are numbers handed out already, and no two connections share one. -/
structure Distinct (s : DefaultServer) : Prop where
  made : ∀ c conn, s.conns c = some conn → ∀ srv ∈ conn.objects, srv.ptr < s.shared.made
  apart : ∀ c d conn other, c ≠ d → s.conns c = some conn → s.conns d = some other →
    ∀ srv ∈ conn.objects, srv ∉ other.objects

theorem Connection.mem_objects {srv : Server} :
    srv ∈ conn.objects ↔ srv ∈ conn.registered ∨ conn.state.pending = some srv := by
  simp [Connection.objects, Option.mem_toList]

/-- A step makes at most one object, with the next number. -/
theorem Effect.objects (effect : Effect cfg sh c conn sh' conn') :
    sh.made ≤ sh'.made ∧ ∀ srv ∈ conn'.objects, srv ∈ conn.objects ∨
      (srv.ptr = sh.made ∧ sh'.made = sh.made + 1) := by
  simp only [Connection.mem_objects]
  cases effect with
  | quiet same =>
      refine ⟨same.made.ge, fun srv member => .inl ?_⟩
      rw [same.registered] at member
      exact member.imp_right (same.pending srv)
  | created at_ =>
      refine ⟨Nat.le_succ _, fun srv member => ?_⟩
      rcases member with old | new
      · exact .inl (.inl old)
      · cases new
        exact .inr ⟨rfl, rfl⟩
  | @added srv at_ =>
      refine ⟨Nat.le_refl _, fun other member => .inl ?_⟩
      rcases member with added | pending
      · rcases List.mem_append.mp added with old | new
        · exact .inl old
        · rw [List.mem_singleton.mp new, at_]
          exact .inr rfl
      · cases pending
  | released at_ =>
      refine ⟨Nat.le_refl _, fun srv member => .inl (member.imp_right fun pending => ?_)⟩
      revert pending
      cases sh.ownServer cfg c conn.client.name <;> exact fun pending => nomatch pending
  | _ =>
      exact ⟨Nat.le_refl _, fun srv member =>
        .inl (member.imp_right fun pending => nomatch pending)⟩

theorem Distinct.next (distinct : Distinct s) (taken : s.next cfg a = some s') : Distinct s' := by
  refine DefaultServer.next_elim taken ?accept ?step ?ambient
  case accept =>
    rintro c - rfl
    constructor
    · intro d conn found
      rcases update_some found with ⟨-, new⟩ | ⟨-, old⟩
      · cases new
        exact fun srv member => nomatch member
      · exact distinct.made d conn old
    · intro d e conn other ne first second srv member member'
      rcases update_some first with ⟨-, new⟩ | ⟨-, first⟩
      · cases new
        cases member
      · rcases update_some second with ⟨-, new⟩ | ⟨-, second⟩
        · cases new
          cases member'
        · exact distinct.apart d e conn other ne first second srv member member'
  case ambient =>
    intro conns ambient
    exact ⟨by simpa only [conns, ambient.made] using distinct.made,
      by simpa only [conns] using distinct.apart⟩
  case step =>
    rintro c input conn sh' conn' - found stepped rfl
    obtain ⟨grows, objects⟩ := (step_effect stepped).objects
    constructor
    · intro d other found' srv member
      rcases update_some found' with ⟨-, new⟩ | ⟨-, old⟩
      · cases new
        rcases objects srv member with before | ⟨number, next⟩
        · exact Nat.lt_of_lt_of_le (distinct.made c conn found srv before) grows
        · simp only [number, next]
          exact Nat.lt_succ_self _
      · exact Nat.lt_of_lt_of_le (distinct.made d other old srv member) grows
    · -- the new object has a number nobody else's object has
      have fresh : ∀ d other, d ≠ c → s.conns d = some other →
          ∀ srv ∈ conn'.objects, srv ∉ other.objects := by
        intro d other ne there srv member member'
        rcases objects srv member with before | ⟨number, -⟩
        · exact distinct.apart c d conn other ne.symm found there srv before member'
        · have below := distinct.made d other there srv member'
          rw [number] at below
          exact Nat.lt_irrefl _ below
      intro d e first second ne found₁ found₂ srv member member'
      rcases update_some found₁ with ⟨rfl, new⟩ | ⟨ne₁, old₁⟩
      · cases new
        rcases update_some found₂ with ⟨rfl, -⟩ | ⟨ne₂, old₂⟩
        · exact ne rfl
        · exact fresh e second ne₂ old₂ srv member member'
      · rcases update_some found₂ with ⟨rfl, new⟩ | ⟨-, old₂⟩
        · cases new
          exact fresh d first ne₁ old₁ srv member' member
        · exact distinct.apart d e first second ne old₁ old₂ srv member member'

theorem DefaultServer.distinct (reached : (machine cfg).Reach ok s) : Distinct s :=
  reached.invariant (I := Distinct)
    ⟨fun _ _ found => (nomatch found), fun _ _ _ _ _ found => (nomatch found)⟩
    fun _ _ _ _ before _ taken => before.next taken

/-- Added by different connections, two objects differ. -/
theorem Distinct.registered (distinct : Distinct s) {d : ClientID} {other : Connection} {srv : Server}
    (first : s.conns c = some conn) (second : s.conns d = some other)
    (mine : srv ∈ conn.registered) (theirs : srv ∈ other.registered) : c = d := by
  by_contra ne
  exact distinct.apart c d conn other ne first second srv (Connection.mem_objects.mpr (.inl mine))
    (Connection.mem_objects.mpr (.inl theirs))

/-! ## Where they stand -/

/-- The object a cleanup is about to remove. -/
def ConnState.removes : ConnState → Option Server
  | removing srv => some srv
  | _ => none

theorem ConnState.removes_eq_none {state : ConnState} (served : state.served = true) :
    state.removes = none := by
  cases state with
  | removing srv => cases served
  | _ => rfl

structure Owned (cfg : Config) (s : DefaultServer) : Prop where
  added : ∀ key srv, s.shared.registry key = some srv →
    ∃ c conn, s.conns c = some conn ∧ srv ∈ conn.registered
  stale : ∀ d conn srv, s.conns d = some conn → conn.state.removes = some srv →
    ∃ e other, s.conns e = some other ∧ other.state.served = false ∧ srv ∈ other.registered
  current : ∀ c conn srv, s.conns c = some conn → conn.state.served = true →
    conn.registered.getLast? = some srv →
    s.shared.registry (cfg.lib.toLower conn.client.name) = some srv
  last : ∀ c conn key srv, s.conns c = some conn → srv ∈ conn.registered →
    s.shared.registry key = some srv →
    (conn.state.served = true ∧ conn.registered.getLast? = some srv) ∨
      conn.state.removes = some srv ∨ conn.client.name = ""

theorem owned_initial : Owned cfg .initial :=
  ⟨fun _ _ stored => (nomatch stored), fun _ _ _ found => (nomatch found),
    fun _ _ _ found => (nomatch found), fun _ _ _ _ found => (nomatch found)⟩

/-- A step that leaves the registry and the objects alone, and the client and its cleanup
too if it has added any. -/
theorem Owned.frame (owned : Owned cfg s) (found : s.conns c = some conn)
    (registry : sh'.registry = s.shared.registry) (registered : conn'.registered = conn.registered)
    (same : conn.registered ≠ [] →
      conn'.client = conn.client ∧ conn'.state.served = conn.state.served)
    (removes : conn.state.removes = none ∧ conn'.state.removes = none) :
    Owned cfg ⟨sh', Function.update s.conns c (some conn')⟩ where
  added := by
    intro key srv stored
    simp only [registry] at stored
    obtain ⟨d, other, there, member⟩ := owned.added key srv stored
    exact ⟨d, update_keep found there member fun before => registered ▸ before⟩
  stale := by
    intro d other srv there removing
    rcases update_some there with ⟨-, new⟩ | ⟨-, old⟩
    · cases new
      cases removes.2.symm.trans removing
    · obtain ⟨e, owner, its, gone⟩ := owned.stale d other srv old removing
      exact ⟨e, update_keep found its gone fun ⟨unserved, member⟩ =>
        ⟨(same (List.ne_nil_of_mem member)).2.trans unserved, registered ▸ member⟩⟩
  current := by
    intro d other srv there served latest
    simp only [registry]
    rcases update_some there with ⟨rfl, new⟩ | ⟨-, old⟩
    · cases new
      rw [registered] at latest
      obtain ⟨client, still⟩ := same (List.ne_nil_of_mem (List.mem_of_getLast? latest))
      rw [client]
      exact owned.current d conn srv found (still.symm.trans served) latest
    · exact owned.current d other srv old served latest
  last := by
    intro d other key srv there member stored
    simp only [registry] at stored
    rcases update_some there with ⟨rfl, new⟩ | ⟨-, old⟩
    · cases new
      rw [registered] at member ⊢
      obtain ⟨client, still⟩ := same (List.ne_nil_of_mem member)
      rw [client, still, removes.2, ← removes.1]
      exact owned.last d conn key srv found member stored
    · exact owned.last d other key srv old member stored

theorem Owned.accept (owned : Owned cfg s) (free : s.conns c = none) :
    Owned cfg { s with conns := Function.update s.conns c (some .new) } := by
  refine ⟨?added, ?stale, ?current, ?last⟩
  case added =>
    intro key srv stored
    obtain ⟨d, conn, there, member⟩ := owned.added key srv stored
    exact ⟨d, conn, update_free free there, member⟩
  case stale =>
    intro d conn srv there removing
    rcases update_some there with ⟨-, new⟩ | ⟨-, old⟩
    · cases new
      cases removing
    · obtain ⟨e, owner, its, rest⟩ := owned.stale d conn srv old removing
      exact ⟨e, owner, update_free free its, rest⟩
  case current =>
    intro d conn srv there served latest
    rcases update_some there with ⟨-, new⟩ | ⟨-, old⟩
    · cases new
      cases latest
    · exact owned.current d conn srv old served latest
  case last =>
    intro d conn key srv there member stored
    rcases update_some there with ⟨-, new⟩ | ⟨-, old⟩
    · cases new
      cases member
    · exact owned.last d conn key srv old member stored

/-- `AddServer`. -/
theorem Owned.add (owned : Owned cfg s) (sane : Sane cfg s) (claimed : Claimed cfg s)
    (distinct : Distinct s) (found : s.conns c = some conn) {srv : Server}
    (at_ : conn.state = .adding srv) :
    Owned cfg ⟨{ s.shared with registry := s.shared.registry.addServer cfg.lib srv },
      Function.update s.conns c
        (some { conn with registered := conn.registered ++ [srv], state := .announcing srv })⟩ := by
  have loc := sane.locals c conn found
  have fits := loc.fits
  rw [at_] at fits
  obtain ⟨authenticated, name⟩ := fits
  have served : conn.state.served = true := by rw [at_]; rfl
  refine ⟨?added, ?stale, ?current, ?last⟩
  case added =>
    intro key stored entry
    rcases update_some entry with ⟨-, new⟩ | ⟨-, old⟩
    · cases new
      exact ⟨c, _, Function.update_self .., List.mem_append_right _ (List.mem_singleton_self srv)⟩
    · obtain ⟨d, other, there, member⟩ := owned.added key stored old
      exact ⟨d, update_keep found there member (List.mem_append_left _)⟩
  case stale =>
    intro d other stored there removing
    rcases update_some there with ⟨-, new⟩ | ⟨-, old⟩
    · cases new
      cases removing
    · obtain ⟨e, owner, its, gone⟩ := owned.stale d other stored old removing
      exact ⟨e, update_keep found its gone fun before => nomatch served.symm.trans before.1⟩
  case current =>
    intro d other stored there still latest
    rcases update_some there with ⟨-, new⟩ | ⟨moved, old⟩
    · cases new
      simp only [List.getLast?_concat, Option.some.injEq] at latest
      subst latest
      simp only [Registry.addServer, name, Function.update_self]
    · have known := (sane.locals d other old).authenticated_of_mem (List.mem_of_getLast? latest)
      have apart : cfg.lib.toLower other.client.name ≠ cfg.lib.toLower srv.name := by
        intro same
        rw [name] at same
        exact moved (claimed.same_name old found ⟨known, authenticated⟩ ⟨still, served⟩ same)
      simp only [Registry.addServer]
      rw [Function.update_of_ne apart]
      exact owned.current d other stored old still latest
  case last =>
    intro d other key stored there member entry
    rcases update_some there with ⟨-, new⟩ | ⟨moved, old⟩
    · cases new
      rcases update_some entry with ⟨-, newest⟩ | ⟨ne, before⟩
      · cases newest
        exact .inl ⟨rfl, List.getLast?_concat⟩
      · -- everything the client has added has the name the new object stands under
        have its : stored.name = srv.name := (loc.add at_).named stored member |>.trans name.symm
        exact absurd ((sane.keyed key stored before).symm.trans (by rw [its])) ne
    · rcases update_some entry with ⟨-, newest⟩ | ⟨-, before⟩
      · cases newest
        have mine : srv ∈ conn.objects := Connection.mem_objects.mpr (.inr (by rw [at_]; rfl))
        exact absurd (Connection.mem_objects.mpr (.inl member))
          (distinct.apart c d conn other (Ne.symm moved) found old srv mine)
      · exact owned.last d other key stored old member before

/-- `RemoveServer`. -/
theorem Owned.remove (owned : Owned cfg s) (sane : Sane cfg s) (distinct : Distinct s)
    (found : s.conns c = some conn) {srv : Server} (at_ : conn.state = .removing srv) :
    Owned cfg ⟨{ s.shared with registry := s.shared.registry.removeServer cfg.lib srv },
      Function.update s.conns c (some (conn.goto (.unpublishing srv)))⟩ := by
  have unserved : conn.state.served = false := by rw [at_]; rfl
  refine ⟨?added, ?stale, ?current, ?last⟩
  case added =>
    intro key stored entry
    obtain ⟨d, other, there, member⟩ := owned.added key stored (Registry.removeServer_some entry)
    exact ⟨d, update_keep found there member id⟩
  case stale =>
    intro d other stored there removing
    rcases update_some there with ⟨-, new⟩ | ⟨-, old⟩
    · cases new
      cases removing
    · obtain ⟨e, owner, its, gone⟩ := owned.stale d other stored old removing
      exact ⟨e, update_keep found its gone fun before => ⟨rfl, before.2⟩⟩
  case current =>
    intro d other stored there served latest
    rcases update_some there with ⟨-, new⟩ | ⟨-, old⟩
    · cases new
      cases served
    · refine Registry.removeServer_of_other (owned.current d other stored old served latest) ?_
      -- the object removed here was added by a connection that is not served
      rintro rfl
      obtain ⟨e, owner, its, gone, member⟩ := owned.stale c conn stored found (by rw [at_]; rfl)
      have same := distinct.registered old its (List.mem_of_getLast? latest) member
      subst same
      cases old.symm.trans its
      cases served.symm.trans gone
  case last =>
    intro d other key stored there member entry
    have before := Registry.removeServer_some entry
    rcases update_some there with ⟨rfl, new⟩ | ⟨-, old⟩
    · cases new
      rcases owned.last d conn key stored found member before with ⟨served, -⟩ | removes | empty
      · cases unserved.symm.trans served
      · rw [at_] at removes
        cases removes
        exact absurd entry (sane.keyed.removeServer_ne srv key)
      · exact .inr (.inr empty)
    · exact owned.last d other key stored old member before

/-- What the cleanup finds is the client's own latest object. -/
theorem Owned.ownServer (owned : Owned cfg s) (claimed : Claimed cfg s)
    (found : s.conns c = some conn) (served : conn.state.served = true)
    (authenticated : conn.client.authenticated = true) (nonempty : conn.client.name ≠ "") {srv : Server}
    (latest : conn.registered.getLast? = some srv) :
    s.shared.ownServer cfg c conn.client.name = some srv := by
  have entry := claimed.held c conn found authenticated (.inl served)
  have own : s.shared.owned cfg c conn.client.name = true := decide_eq_true ⟨nonempty, entry⟩
  rw [Shared.ownServer, if_pos own]
  exact owned.current c conn srv found served latest

/-- What the cleanup finds was added by the client itself, or by one that has been cleaned
up before. -/
theorem Owned.ownServer_stale (owned : Owned cfg s) (sane : Sane cfg s) (claimed : Claimed cfg s)
    {srv : Server} {name : String} (own : s.shared.ownServer cfg c name = some srv) :
    ∃ e other, s.conns e = some other ∧ srv ∈ other.registered ∧
      (e = c ∨ other.state.served = false) := by
  unfold Shared.ownServer at own
  split at own
  · rename_i mine
    obtain ⟨-, entry⟩ := of_decide_eq_true mine
    obtain ⟨e, other, there, member⟩ := owned.added _ srv own
    refine ⟨e, other, there, member, ?_⟩
    cases served : other.state.served with
    | false => exact .inr rfl
    | true =>
        left
        have loc := sane.locals e other there
        have authenticated := loc.authenticated_of_mem member
        have its := claimed.held e other there authenticated (.inl served)
        have key : cfg.lib.toLower other.client.name = cfg.lib.toLower name := by
          rw [← loc.named srv member]
          exact sane.keyed _ srv own
        rw [key] at its
        exact Option.some.inj (its.symm.trans entry)
  · cases own

/-- The `clientsMu` section of `handleClientDisconnect`. -/
theorem Owned.release (owned : Owned cfg s) (sane : Sane cfg s) (claimed : Claimed cfg s)
    (found : s.conns c = some conn) (at_ : conn.state = .cleaning)
    (registered : conn'.registered = conn.registered) (client : conn'.client = conn.client)
    (unserved : conn'.state.served = false)
    (removes : conn'.state.removes = s.shared.ownServer cfg c conn.client.name) :
    Owned cfg ⟨s.shared.release cfg c conn.client.name,
      Function.update s.conns c (some conn')⟩ := by
  have served : conn.state.served = true := by rw [at_]; rfl
  refine ⟨?added, ?stale, ?current, ?last⟩
  case added =>
    intro key srv stored
    obtain ⟨d, other, there, member⟩ := owned.added key srv stored
    exact ⟨d, update_keep found there member fun before => registered ▸ before⟩
  case stale =>
    intro d other srv there removing
    rcases update_some there with ⟨-, new⟩ | ⟨-, old⟩
    · cases new
      obtain ⟨e, owner, its, member, gone⟩ :=
        owned.ownServer_stale sane claimed (removes.symm.trans removing)
      by_cases moved : e = c
      · subst moved
        cases found.symm.trans its
        exact ⟨e, conn', Function.update_self .., unserved, registered ▸ member⟩
      · exact ⟨e, owner, (Function.update_of_ne moved ..).trans its, gone.resolve_left moved, member⟩
    · obtain ⟨e, owner, its, gone, member⟩ := owned.stale d other srv old removing
      exact ⟨e, update_keep found its ⟨gone, member⟩ fun before =>
        nomatch served.symm.trans before.1⟩
  case current =>
    intro d other srv there still latest
    rcases update_some there with ⟨-, new⟩ | ⟨-, old⟩
    · cases new
      cases unserved.symm.trans still
    · exact owned.current d other srv old still latest
  case last =>
    intro d other key srv there member stored
    rcases update_some there with ⟨rfl, new⟩ | ⟨-, old⟩
    · cases new
      rw [registered] at member
      rw [client, removes]
      right
      by_cases nonempty : conn.client.name = ""
      · exact .inr nonempty
      rcases owned.last d conn key srv found member stored with ⟨-, latest⟩ | removing | empty
      · have authenticated := (sane.locals d conn found).authenticated_of_name nonempty
        exact .inl (owned.ownServer claimed found served authenticated nonempty latest)
      · rw [at_] at removing
        cases removing
      · exact .inr empty
    · exact owned.last d other key srv old member stored

theorem Owned.step (owned : Owned cfg s) (sane : Sane cfg s) (claimed : Claimed cfg s)
    (distinct : Distinct s) (found : s.conns c = some conn)
    (effect : Effect cfg s.shared c conn sh' conn') :
    Owned cfg ⟨sh', Function.update s.conns c (some conn')⟩ := by
  have loc := sane.locals c conn found
  have fits := loc.fits
  cases effect with
  | quiet same =>
      exact owned.frame found same.registry same.registered
        (fun _ => ⟨same.client, same.served.2.trans same.served.1.symm⟩)
        ⟨ConnState.removes_eq_none same.served.1, ConnState.removes_eq_none same.served.2⟩
  | added at_ => exact owned.add sane claimed distinct found at_
  | removed at_ => exact owned.remove sane distinct found at_
  | released at_ =>
      refine owned.release sane claimed found at_ rfl rfl ?_ ?_
      all_goals cases s.shared.ownServer cfg c conn.client.name <;> rfl
  | rejected at_ =>
      rw [at_] at fits
      exact owned.frame found rfl rfl (fun any => absurd (loc.unregistered fits) any)
        ⟨by rw [at_]; rfl, rfl⟩
  | claimed at_ free =>
      rw [at_] at fits
      exact owned.frame found rfl rfl (fun any => absurd (loc.unregistered fits.2.2.1) any)
        ⟨by rw [at_]; rfl, rfl⟩
  | entered at_ | created at_ | announced at_ | unpublished at_ =>
      exact owned.frame found rfl rfl (fun _ => ⟨rfl, by rw [at_]; rfl⟩) ⟨by rw [at_]; rfl, rfl⟩

theorem Owned.next (owned : Owned cfg s) (sane : Sane cfg s) (claimed : Claimed cfg s)
    (distinct : Distinct s) (taken : s.next cfg a = some s') : Owned cfg s' := by
  refine DefaultServer.next_elim taken ?accept ?step ?ambient
  case accept =>
    rintro c free rfl
    exact owned.accept free
  case step =>
    rintro c input conn sh' conn' - found stepped rfl
    exact owned.step sane claimed distinct found (step_effect stepped)
  case ambient =>
    intro conns ambient
    constructor
    · simpa only [conns, ambient.registry] using owned.added
    · simpa only [conns, ambient.registry] using owned.stale
    · simpa only [conns, ambient.registry] using owned.current
    · simpa only [conns, ambient.registry] using owned.last

/-- **In every run.** -/
theorem DefaultServer.owned (reached : (machine cfg).Reach ok s) : Owned cfg s :=
  reached.invariant (I := Owned cfg) owned_initial fun _ _ _ before kept _ taken =>
    kept.next (DefaultServer.sane before) (DefaultServer.claimed before)
      (DefaultServer.distinct before) taken

/-- **A live client's registration is never lost.**  A client that has registered and is
not cleaned up finds, under its name, the object its latest `RegisterServer` added. -/
theorem registration_kept (cfg : Config) (s : DefaultServer)
    (reached : (DefaultServer.machine cfg).Reachable s) (c : ClientID) (conn : Connection)
    (found : s.conns c = some conn) (served : conn.state.served = true) (srv : Server)
    (latest : conn.registered.getLast? = some srv) :
    s.shared.registry.server cfg.lib conn.client.name = some srv :=
  (DefaultServer.owned reached).current c conn srv found served latest

/-- The cleanup of connection 0 has looked its object up when connection 1 takes the name
over and registers; then it removes what it found. -/
theorem registration_kept_overlapping :
    ∃ s conn, (DefaultServer.machine .oneHost).Reachable s ∧ s.conns 1 = some conn ∧
      conn.client.name = "LOBBY" ∧
      (s.conns 0).map Connection.state = some (.unpublishing (backend 0 "lobby" "a:1")) ∧
      conn.state.served = true ∧ s.shared.registry.server .ascii "LOBBY" =
        some (backend 1 "LOBBY" "b:1") := by
  have reached : (DefaultServer.machine .oneHost).Reachable _ :=
    Machine.exec_reach (Action.login 0 "lobby" ++ Action.register 0 "a:1" ++ Action.hangUp 0 ++
      Action.go 0 1 ++ Action.login 1 "LOBBY" ++ Action.register 1 "b:1" ++ Action.go 1 3 ++
      Action.go 0 1) rfl
  obtain ⟨s, conn, reached, found, name, at_, served, latest⟩ :
      ∃ s conn, (DefaultServer.machine .oneHost).Reachable s ∧ s.conns 1 = some conn ∧
        conn.client.name = "LOBBY" ∧
        (s.conns 0).map Connection.state = some (.unpublishing (backend 0 "lobby" "a:1")) ∧
        conn.state.served = true ∧
        conn.registered.getLast? = some (backend 1 "LOBBY" "b:1") :=
    ⟨_, _, reached, rfl, rfl, rfl, rfl, rfl⟩
  have kept := registration_kept .oneHost s reached 1 conn found served _ latest
  rw [name] at kept
  exact ⟨s, conn, reached, found, name, at_, served, kept⟩

/-! ## What a cleanup leaves behind -/

theorem step_ne_admitting {input : Input}
    (taken : conn.step cfg sh c input conn.state = some (sh', conn')) :
    conn'.state ≠ .admitting := by
  cases at_ : conn.state with
  | dispatching pk =>
      obtain ⟨k, pk⟩ := pk
      simp only [at_, Connection.step] at taken
      (repeat' split at taken) <;> cases taken
      · rintro ⟨⟩
      · rintro ⟨⟩
      · cases k <;> rintro ⟨⟩
  | cleaning =>
      simp only [at_, Connection.step] at taken
      cases taken
      cases own : sh.ownServer cfg c conn.client.name <;> simp [Connection.goto]
  | _ =>
      simp only [at_, Connection.step] at taken
      (repeat' split at taken) <;> cases taken
      all_goals rintro ⟨⟩

/-- An entry of `unconnectedClients` is a client that is served, under its own address. -/
def Listed (cfg : Config) (s : DefaultServer) : Prop :=
  ∀ addr d, s.shared.unconnectedClients addr = some d → addr = cfg.remoteAddr d ∧
    ∃ conn, s.conns d = some conn ∧ conn.state.served = true ∧ conn.state ≠ .admitting

/-- What a step does to an entry: it is the connection's own, or it was there before and
the connection, if it is the one listed, stays served. -/
theorem Effect.unconnected (effect : Effect cfg sh c conn sh' conn') {addr : Addr} {d : ClientID}
    (entry : sh'.unconnectedClients addr = some d) :
    (d = c ∧ addr = cfg.remoteAddr c ∧ conn'.state.served = true) ∨
      (sh.unconnectedClients addr = some d ∧ (d = c → addr = cfg.remoteAddr c →
        conn.state.served = true → conn.state ≠ .admitting → conn'.state.served = true)) := by
  cases effect with
  | quiet same => exact .inr ⟨same.unconnectedClients ▸ entry, fun _ _ _ _ => same.served.2⟩
  | rejected at_ => exact .inr ⟨entry, fun _ _ _ admitted => absurd at_ admitted⟩
  | entered at_ =>
      rcases update_some entry with ⟨rfl, new⟩ | ⟨-, old⟩
      · cases new
        exact .inl ⟨rfl, rfl, rfl⟩
      · exact .inr ⟨old, fun _ _ _ _ => rfl⟩
  | claimed at_ free => exact .inr ⟨(erase_some entry).2, fun _ _ _ _ => rfl⟩
  | released at_ =>
      obtain ⟨ne, old⟩ := erase_some entry
      exact .inr ⟨old, fun _ own => absurd own ne⟩
  | created at_ | added at_ | announced at_ => exact .inr ⟨entry, fun _ _ _ _ => rfl⟩
  | removed at_ | unpublished at_ =>
      refine .inr ⟨entry, fun _ _ served => ?_⟩
      rw [at_] at served
      cases served

theorem Listed.next (listed : Listed cfg s) (taken : s.next cfg a = some s') : Listed cfg s' := by
  refine DefaultServer.next_elim taken ?accept ?step ?ambient
  case accept =>
    rintro c free rfl addr d entry
    obtain ⟨own, conn, there, rest⟩ := listed addr d entry
    exact ⟨own, conn, update_free free there, rest⟩
  case ambient =>
    intro conns ambient addr d entry
    rw [ambient.unconnectedClients] at entry
    rw [conns]
    exact listed addr d entry
  case step =>
    rintro c input conn sh' conn' - found stepped rfl addr d entry
    have entered := step_ne_admitting stepped
    rcases (step_effect stepped).unconnected entry with ⟨rfl, own, served⟩ | ⟨old, stays⟩
    · exact ⟨own, conn', Function.update_self .., served, entered⟩
    · obtain ⟨own, other, there, served, admitted⟩ := listed addr d old
      refine ⟨own, ?_⟩
      by_cases moved : d = c
      · subst moved
        cases found.symm.trans there
        exact ⟨conn', Function.update_self .., stays rfl own served admitted, entered⟩
      · exact ⟨other, (Function.update_of_ne moved ..).trans there, served, admitted⟩

theorem DefaultServer.listed (reached : (machine cfg).Reach ok s) : Listed cfg s :=
  reached.invariant (I := Listed cfg) (fun _ _ entry => nomatch entry)
    fun _ _ _ _ before _ taken => before.next taken

/-- What the cleanup of a client is to leave behind. -/
structure CleanedUp (cfg : Config) (s : DefaultServer) (c : ClientID) (conn : Connection) :
    Prop where
  clients : ∀ key, s.shared.clients key ≠ some c
  unconnectedClients : ∀ addr, s.shared.unconnectedClients addr ≠ some c
  /-- who claims the name gets it, unless somebody else has it -/
  reusable : ∀ d other pk, s.conns d = some other → other.state = .claiming pk →
    cfg.lib.toLower pk.name = cfg.lib.toLower conn.client.name →
    (∃ e holder, e ≠ c ∧ s.conns e = some holder ∧ holder.client.authenticated = true ∧
      cfg.lib.toLower holder.client.name = cfg.lib.toLower conn.client.name ∧
      (holder.state.served = true ∨ holder.client.name = "")) ∨
    ∃ s' other', s.next cfg (.step d .go) = some s' ∧ s'.conns d = some other' ∧
      other'.client = ⟨pk.name, true⟩
  registry : ∀ key, ∀ srv ∈ conn.registered, s.shared.registry key ≠ some srv

/-- Whoever stands under a name has that name and is served, or has the empty name. -/
theorem Claimed.holder (claimed : Claimed cfg s) {key : String} {e : ClientID}
    (entry : s.shared.clients key = some e) : ∃ holder, s.conns e = some holder ∧
      holder.client.authenticated = true ∧ cfg.lib.toLower holder.client.name = key ∧
      (holder.state.served = true ∨ holder.client.name = "") := by
  obtain ⟨holder, there, authenticated, rfl⟩ := claimed.entry key e entry
  refine ⟨holder, there, authenticated, rfl, ?_⟩
  by_contra neither
  obtain ⟨unserved, nonempty⟩ := not_or.mp neither
  exact claimed.gone e holder there (eq_false_of_ne_true unserved) nonempty entry

/-- A claim of a free name succeeds. -/
theorem claim_succeeds (sane : Sane cfg s) (found : s.conns c = some conn) {pk : AuthRequest}
    (at_ : conn.state = .claiming pk) (free : s.shared.clients (cfg.lib.toLower pk.name) = none) :
    ∃ s' conn', s.next cfg (.step c .go) = some s' ∧ s'.conns c = some conn' ∧
      conn'.client = ⟨pk.name, true⟩ := by
  have fits := (sane.locals c conn found).fits
  rw [at_] at fits
  have fresh := fits.2.2.1
  refine ⟨⟨s.shared.claim cfg c pk.name, Function.update s.conns c
      (some { conn.reply .success with client := conn.client.authenticate pk.name })⟩,
    _, ?_, Function.update_self .., ?_⟩
  · simp only [DefaultServer.next, found, at_, Connection.step, free, Option.map_some]
  · simp [Client.authenticate, fresh]

/-- After its cleanup nothing is left of a client that has a name or never claimed one. -/
theorem DefaultServer.cleanedUp (reached : (DefaultServer.machine cfg).Reachable s)
    (found : s.conns c = some conn) (completed : conn.state = .ended)
    (named : conn.client.authenticated = true → conn.client.name ≠ "") : CleanedUp cfg s c conn := by
  have sane := DefaultServer.sane reached
  have claimed := DefaultServer.claimed reached
  have unserved : conn.state.served = false := by rw [completed]; rfl
  have clients : ∀ key, s.shared.clients key ≠ some c := by
    intro key entry
    obtain ⟨holder, there, authenticated, -, served⟩ := claimed.holder entry
    cases found.symm.trans there
    rcases served with served | empty
    · cases unserved.symm.trans served
    · exact named authenticated empty
  refine ⟨clients, ?unconnected, ?reusable, ?registry⟩
  case unconnected =>
    intro addr entry
    obtain ⟨-, other, there, served, -⟩ := DefaultServer.listed reached addr c entry
    cases found.symm.trans there
    cases unserved.symm.trans served
  case reusable =>
    intro d other pk there at_ same
    cases entry : s.shared.clients (cfg.lib.toLower pk.name) with
    | none => exact .inr (claim_succeeds sane there at_ entry)
    | some e =>
        left
        rw [same] at entry
        obtain ⟨holder, rest⟩ := claimed.holder entry
        refine ⟨e, holder, ?_, rest⟩
        rintro rfl
        exact clients _ entry
  case registry =>
    intro key srv member stored
    rcases (DefaultServer.owned reached).last c conn key srv found member stored with
      ⟨served, -⟩ | removes | empty
    · cases unserved.symm.trans served
    · rw [completed] at removes
      cases removes
    · exact named ((sane.locals c conn found).authenticated_of_mem member) empty

/-- **A cleanup cleans up** what the client owned, in every state reached after it, if and
only if the client has not authenticated under the empty name. -/
theorem disconnect_cleans_up (cfg : Config) (s : DefaultServer)
    (reached : (DefaultServer.machine cfg).Reachable s) (c : ClientID) (conn : Connection)
    (found : s.conns c = some conn) (completed : conn.state = .ended) :
    CleanedUp cfg s c conn ↔ (conn.client.authenticated = true → conn.client.name ≠ "") := by
  constructor
  · intro cleaned authenticated empty
    have held := (DefaultServer.claimed reached).held c conn found authenticated (.inr empty)
    exact cleaned.clients _ held
  · exact DefaultServer.cleanedUp reached found completed

/-- A backend has registered and gone; the next one claims its name. -/
theorem disconnect_cleans_up_reclaimed :
    ∃ s conn other pk, (DefaultServer.machine .oneHost).Reachable s ∧ s.conns 0 = some conn ∧
      conn.state = .ended ∧ conn.registered = [backend 0 "lobby" "a:1"] ∧
      s.conns 1 = some other ∧ other.state = .claiming pk ∧ pk.name = "Lobby" ∧
      CleanedUp .oneHost s 0 conn := by
  have reached : (DefaultServer.machine .oneHost).Reachable _ :=
    Machine.exec_reach (Action.login 0 "lobby" ++ Action.register 0 "a:1" ++ Action.hangUp 0 ++
      Action.go 0 3 ++ Action.arrive 1 ++ Action.request 1 "s" "Lobby" ++ Action.go 1 1) rfl
  obtain ⟨s, conn, other, pk, reached, found, completed, name, registered, rest⟩ :
      ∃ s conn other pk, (DefaultServer.machine .oneHost).Reachable s ∧ s.conns 0 = some conn ∧
        conn.state = .ended ∧ conn.client.name = "lobby" ∧
        conn.registered = [backend 0 "lobby" "a:1"] ∧ s.conns 1 = some other ∧
        other.state = .claiming pk ∧ pk.name = "Lobby" :=
    ⟨_, _, _, _, reached, rfl, rfl, rfl, rfl, rfl, rfl, rfl⟩
  refine ⟨s, conn, other, pk, reached, found, completed, registered, rest.1, rest.2.1, rest.2.2, ?_⟩
  refine (disconnect_cleans_up .oneHost s reached 0 conn found completed).mpr fun _ => ?_
  rw [name]
  decide

/-- A client with the empty name has registered and gone.  It stays in the map, its object
stays in the registry, and the name is refused to the next connection. -/
theorem unnamed_client_stays :
    ∃ s s' conn other other' pk, (DefaultServer.machine .oneHost).Reachable s ∧
      s.conns 0 = some conn ∧ conn.state = .ended ∧ conn.client = ⟨"", true⟩ ∧
      s.shared.clients "" = some 0 ∧ conn.registered = [backend 0 "" "a:1"] ∧
      s.shared.registry "" = some (backend 0 "" "a:1") ∧ s.conns 1 = some other ∧
      other.state = .claiming pk ∧ pk.name = "" ∧ s.next .oneHost (.step 1 .go) = some s' ∧
      s'.conns 1 = some other' ∧ other'.client.authenticated = false ∧
      other'.sent = [⟨0, AuthStatus.alreadyConnected.byte⟩] := by
  have reached : (DefaultServer.machine .oneHost).Reachable _ :=
    Machine.exec_reach (Action.login 0 "" ++ Action.register 0 "a:1" ++ Action.hangUp 0 ++
      Action.go 0 1 ++ Action.arrive 1 ++ Action.request 1 "s" "" ++ Action.go 1 1) rfl
  exact ⟨_, _, _, _, _, _, reached, rfl, rfl, rfl, rfl, rfl, rfl, rfl, rfl, rfl, rfl, rfl, rfl, rfl⟩

end Portal.Socket
