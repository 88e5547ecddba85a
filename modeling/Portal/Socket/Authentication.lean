/-
# Socket.Authentication — who is authenticated, under which name, and who is shut out

`Local` is what a connection knows of itself: it is authenticated only after an
`AuthRequest` of its own with the right protocol and secret, and at each statement it
has what the statement relies on (`ConnState.Fits`).  `Claimed` ties
`DefaultServer.clients` to the connections: the entry of a name is an authenticated
client of that name, and every authenticated client that is still served has its entry.
Each is kept by every step, so any number of connections and any interleaving have them
(`authentication_gate`).

The throttle is looked at before `ReadPacket`, and not again before the packet is
handled.  A connection that waits in `ReadPacket` while its host becomes blocked can
still try a secret, and authenticate (`blocked_host_authenticates`).  If no connection of
the host stands there at that moment, it is shut out (`blocked_host_shut_out`).
-/
import Portal.Theory.PartialMap
import Portal.Socket.Server

namespace Portal.Socket

open Portal.Theory.PartialMap Portal.Theory.Transition

set_option autoImplicit false

variable {cfg : Config} {sh sh' : Shared} {c : ClientID} {input : Input} {conn conn' : Connection}

/-! ## One connection -/

/-- Among the packets is an `AuthRequest` with what it takes to be authenticated. -/
def Proved (cfg : Config) (received : List Wire.Packet) : Prop :=
  cfg.secret ≠ "" ∧ ∃ pk : AuthRequest, ⟨.authRequest, pk⟩ ∈ received ∧
    pk.protocol = protocolVersion ∧ pk.secret = cfg.secret

/-- What a statement relies on. -/
def ConnState.Fits (cfg : Config) (client : Client) (received : List Wire.Packet)
    (registered : List Server) : ConnState → Prop
  | admitting => client.authenticated = false
  | entering => client.authenticated = false
  | dispatching pk => pk ∈ received
  | requesting pk => ⟨.authRequest, pk⟩ ∈ received
  | comparing pk =>
      ⟨.authRequest, pk⟩ ∈ received ∧ pk.protocol = protocolVersion ∧ client.authenticated = false
  | recording => client.authenticated = false
  | failing _ => client.authenticated = false
  | claiming pk =>
      ⟨.authRequest, pk⟩ ∈ received ∧ pk.protocol = protocolVersion ∧
        client.authenticated = false ∧ cfg.secret ≠ "" ∧ pk.secret = cfg.secret
  | validating _ => client.authenticated = true
  | looking srv => client.authenticated = true ∧ srv.name = client.name
  | copyingDraining srv _ => client.authenticated = true ∧ srv.name = client.name
  | copyingHealthy srv _ => client.authenticated = true ∧ srv.name = client.name
  | copyingPlayerCount srv _ => client.authenticated = true ∧ srv.name = client.name
  | adding srv => client.authenticated = true ∧ srv.name = client.name
  | announcing srv =>
      client.authenticated = true ∧ srv.name = client.name ∧ registered.getLast? = some srv
  | finding _ => client.authenticated = true
  | settingDraining srv _ =>
      client.authenticated = true ∧ cfg.lib.toLower srv.name = cfg.lib.toLower client.name
  | serving _ => client.authenticated = true
  | removing srv =>
      client.name ≠ "" ∧ cfg.lib.toLower srv.name = cfg.lib.toLower client.name
  | unpublishing srv =>
      client.name ≠ "" ∧ cfg.lib.toLower srv.name = cfg.lib.toLower client.name
  | _ => True

/-- What a connection knows of itself. -/
structure Local (cfg : Config) (conn : Connection) : Prop where
  proved : conn.client.authenticated = true → Proved cfg conn.received
  anonymous : conn.client.authenticated = false → conn.client.name = ""
  unregistered : conn.client.authenticated = false → conn.registered = []
  named : ∀ srv ∈ conn.registered, srv.name = conn.client.name
  fits : conn.state.Fits cfg conn.client conn.received conn.registered

/-- Who has a name is authenticated. -/
theorem Local.authenticated_of_name (loc : Local cfg conn) (nonempty : conn.client.name ≠ "") :
    conn.client.authenticated = true := by
  by_contra anonymous
  exact nonempty (loc.anonymous (eq_false_of_ne_true anonymous))

/-- Who has added an object is authenticated. -/
theorem Local.authenticated_of_mem (loc : Local cfg conn) {srv : Server}
    (member : srv ∈ conn.registered) : conn.client.authenticated = true := by
  by_contra anonymous
  rw [loc.unregistered (eq_false_of_ne_true anonymous)] at member
  cases member

theorem local_new : Local cfg .new where
  proved := by simp [Connection.new]
  anonymous := fun _ => rfl
  unregistered := fun _ => rfl
  named := by simp [Connection.new]
  fits := rfl

/-- **The gate of the dispatch loop**: what it lets through fits the handler. -/
theorem ConnState.fits_handle {client : Client} {received : List Wire.Packet}
    {registered : List Server} {pk : Wire.Packet} {requiresAuth : Bool}
    (handled : handlers pk.1 = some requiresAuth)
    (passed : ¬(!client.authenticated && requiresAuth) = true) (read : pk ∈ received) :
    (ConnState.handle pk).Fits cfg client received registered := by
  obtain ⟨k, pk⟩ := pk
  cases k with
  | authRequest => exact read
  | registerServer | transferRequest | playerInfoRequest | serverListRequest | findPlayerRequest
  | setServerDraining =>
      cases handled
      have authenticated : client.authenticated = true := by simpa using passed
      exact authenticated
  | _ => cases handled

/-- Moving on, with the same packets read and objects added. -/
theorem Local.move (loc : Local cfg conn) {state : ConnState}
    (fits : state.Fits cfg conn.client conn.received conn.registered) {closed : Bool}
    {sent : List AuthResponse} :
    Local cfg { conn with closed := closed, sent := sent, state := state } where
  proved := loc.proved
  anonymous := loc.anonymous
  unregistered := loc.unregistered
  named := loc.named
  fits := fits

theorem Local.read (loc : Local cfg conn) (pk : Wire.Packet) :
    Local cfg { conn with received := conn.received ++ [pk], state := .dispatching pk } where
  proved := fun authenticated =>
    have ⟨secret, request, read, right⟩ := loc.proved authenticated
    ⟨secret, request, List.mem_append_left _ read, right⟩
  anonymous := loc.anonymous
  unregistered := loc.unregistered
  named := loc.named
  fits := List.mem_append_right _ (List.mem_singleton_self pk)

theorem Local.claim (loc : Local cfg conn) {pk : AuthRequest} (at_ : conn.state = .claiming pk) :
    Local cfg { conn.reply .success with client := conn.client.authenticate pk.name } := by
  have fits := loc.fits
  rw [at_] at fits
  obtain ⟨read, protocol, fresh, secret, same⟩ := fits
  have renamed : conn.client.authenticate pk.name = ⟨pk.name, true⟩ := by
    simp [Client.authenticate, fresh]
  rw [renamed]
  have none_ : conn.registered = [] := loc.unregistered fresh
  exact
    { proved := fun _ => ⟨secret, pk, read, protocol, same⟩
      anonymous := by simp
      unregistered := fun _ => none_
      named := by simp [Connection.reply, none_]
      fits := trivial }

theorem Local.add (loc : Local cfg conn) {srv : Server} (at_ : conn.state = .adding srv) :
    Local cfg { conn with registered := conn.registered ++ [srv], state := .announcing srv } := by
  have fits := loc.fits
  rw [at_] at fits
  obtain ⟨authenticated, name⟩ := fits
  exact
    { proved := loc.proved
      anonymous := loc.anonymous
      unregistered := by simp [authenticated]
      named := by
        intro other member
        rcases List.mem_append.mp member with old | new
        · exact loc.named other old
        · exact List.mem_singleton.mp new ▸ name
      fits := ⟨authenticated, name, List.getLast?_concat⟩ }

/-- **A connection's own step keeps what it knows.**  Lookups rely on `Keyed`. -/
theorem Local.step (loc : Local cfg conn) (keyed : sh.registry.Keyed cfg.lib)
    (taken : conn.step cfg sh c input conn.state = some (sh', conn')) : Local cfg conn' := by
  have fits := loc.fits
  cases at_ : conn.state with
  | reading =>
      simp only [at_, Connection.step] at taken
      split at taken
      · cases taken
        exact loc.read _
      · (repeat' split at taken) <;> cases taken <;> exact loc.move (by trivial)
      · cases taken
  | dispatching pk =>
      simp only [at_, Connection.step] at taken fits
      split at taken
      · cases taken
        exact loc.move (by trivial)
      · split at taken <;> cases taken
        · exact loc.move (by trivial)
        · refine loc.move ?_
          exact ConnState.fits_handle ‹_› ‹_› fits
  | requesting pk =>
      simp only [at_, Connection.step] at taken fits
      split at taken
      · cases taken
        exact loc.move (by trivial)
      · rename_i fresh
        split at taken <;> cases taken
        · exact loc.move (by trivial)
        · rename_i protocol
          refine loc.move ?_
          exact ⟨fits, not_not.mp protocol, eq_false_of_ne_true fresh⟩
  | comparing pk =>
      simp only [at_, Connection.step] at taken fits
      obtain ⟨read, protocol, fresh⟩ := fits
      split at taken <;> cases taken
      · refine loc.move ?_
        exact fresh
      · rename_i right
        obtain ⟨secret, same⟩ := not_or.mp right
        refine loc.move ?_
        exact ⟨read, protocol, fresh, secret, not_not.mp same⟩
  | claiming pk =>
      simp only [at_, Connection.step] at taken
      split at taken <;> cases taken
      · exact loc.move (by trivial)
      · exact loc.claim at_
  | adding srv =>
      simp only [at_, Connection.step] at taken
      cases taken
      exact loc.add at_
  | finding draining =>
      simp only [at_, Connection.step] at taken fits
      split at taken <;> cases taken
      · exact loc.move (by trivial)
      · refine loc.move ?_
        exact ⟨fits, keyed _ _ ‹_›⟩
  | cleaning =>
      simp only [at_, Connection.step] at taken
      cases taken
      refine loc.move ?_
      cases own : sh.ownServer cfg c conn.client.name with
      | none => trivial
      | some srv =>
          unfold Shared.ownServer Shared.owned at own
          split at own
          · rename_i owned
            exact ⟨(of_decide_eq_true owned).1, keyed _ _ own⟩
          · cases own
  | _ =>
      simp only [at_, Connection.step] at taken fits
      (repeat' split at taken) <;> cases taken
      all_goals
        apply loc.move
        simp_all [ConnState.Fits, Server.new]

/-! ## All of them -/

/-- The registry is keyed by name and every connection knows what it should. -/
structure Sane (cfg : Config) (s : DefaultServer) : Prop where
  keyed : s.shared.registry.Keyed cfg.lib
  locals : ∀ c conn, s.conns c = some conn → Local cfg conn

theorem Effect.keyed (effect : Effect cfg sh c conn sh' conn')
    (keyed : sh.registry.Keyed cfg.lib) : sh'.registry.Keyed cfg.lib := by
  cases effect with
  | quiet same => exact same.registry ▸ keyed
  | added at_ => exact keyed.addServer _
  | removed at_ => exact keyed.removeServer _
  | _ => exact keyed

variable {s s' : DefaultServer} {a : Action} {ok : DefaultServer → Action → Prop}

theorem Sane.next (sane : Sane cfg s) (taken : s.next cfg a = some s') : Sane cfg s' := by
  refine DefaultServer.next_elim taken ?accept ?step ?ambient
  case accept =>
    rintro c - rfl
    refine ⟨sane.keyed, fun d conn found => ?_⟩
    rcases update_some found with ⟨-, new⟩ | ⟨-, old⟩
    · cases new
      exact local_new
    · exact sane.locals d conn old
  case step =>
    rintro c input conn sh' conn' - found stepped rfl
    refine ⟨(step_effect stepped).keyed sane.keyed, fun d other found' => ?_⟩
    rcases update_some found' with ⟨-, new⟩ | ⟨-, old⟩
    · cases new
      exact (sane.locals c conn found).step sane.keyed stepped
    · exact sane.locals d other old
  case ambient =>
    intro conns ambient
    refine ⟨ambient.registry ▸ sane.keyed, fun d conn found => ?_⟩
    rw [conns] at found
    exact sane.locals d conn found

/-- **In every run** the registry is keyed and every connection is in order. -/
theorem DefaultServer.sane (reached : (machine cfg).Reach ok s) : Sane cfg s :=
  reached.invariant (I := Sane cfg) ⟨Registry.keyed_empty, fun _ _ found => nomatch found⟩
    fun _ _ _ _ before _ taken => before.next taken

/-! ## Names -/

/-- `DefaultServer.clients` against the connections. -/
structure Claimed (cfg : Config) (s : DefaultServer) : Prop where
  entry : ∀ key c, s.shared.clients key = some c → ∃ conn, s.conns c = some conn ∧
    conn.client.authenticated = true ∧ cfg.lib.toLower conn.client.name = key
  /-- a client of the empty name is never deleted -/
  held : ∀ c conn, s.conns c = some conn → conn.client.authenticated = true →
    conn.state.served = true ∨ conn.client.name = "" →
    s.shared.clients (cfg.lib.toLower conn.client.name) = some c
  gone : ∀ c conn, s.conns c = some conn → conn.state.served = false → conn.client.name ≠ "" →
    s.shared.clients (cfg.lib.toLower conn.client.name) ≠ some c

/-! ### The `clientsMu` section of `handleClientDisconnect` -/

theorem Shared.release_some {name key : String} {d : ClientID}
    (left : (sh.release cfg c name).clients key = some d) : sh.clients key = some d := by
  unfold Shared.release at left
  simp only at left
  split at left
  · exact (erase_some left).2
  · exact left

/-- Nobody else's entry is deleted. -/
theorem Shared.release_of_ne {name key : String} {d : ClientID} (other : d ≠ c)
    (entry : sh.clients key = some d) : (sh.release cfg c name).clients key = some d := by
  unfold Shared.release
  simp only
  split
  · rename_i owned
    have own := (of_decide_eq_true owned).2
    have apart : key ≠ cfg.lib.toLower name := by
      rintro rfl
      exact other (Option.some.inj (entry.symm.trans own))
    rw [Function.update_of_ne apart, entry]
  · exact entry

theorem Shared.release_ne {name : String} (nonempty : name ≠ "") :
    (sh.release cfg c name).clients (cfg.lib.toLower name) ≠ some c := by
  unfold Shared.release
  simp only
  split
  · simp
  · rename_i free
    intro own
    exact free (decide_eq_true ⟨nonempty, own⟩)

theorem Shared.release_empty : (sh.release cfg c "").clients = sh.clients := by
  simp [Shared.release, Shared.owned]

/-! ### The other steps -/

theorem claimed_initial : Claimed cfg .initial :=
  ⟨fun _ _ entry => (nomatch entry), fun _ _ found => (nomatch found),
    fun _ _ found => (nomatch found)⟩

/-- A step that leaves the map and the client alone, and cleans up no client that is in
the map. -/
theorem Claimed.frame (claimed : Claimed cfg s) (loc : Local cfg conn)
    (found : s.conns c = some conn) (clients : sh'.clients = s.shared.clients)
    (client : conn'.client = conn.client)
    (served : conn.client.authenticated = true → conn'.state.served = conn.state.served) :
    Claimed cfg ⟨sh', Function.update s.conns c (some conn')⟩ where
  entry := by
    intro key d entry
    simp only [clients] at entry
    obtain ⟨other, there, rest⟩ := claimed.entry key d entry
    exact update_keep found there rest fun before => client ▸ before
  held := by
    intro d other there authenticated still
    simp only [clients]
    rcases update_some there with ⟨rfl, new⟩ | ⟨-, old⟩
    · cases new
      rw [client] at authenticated still ⊢
      rw [served authenticated] at still
      exact claimed.held d conn found authenticated still
    · exact claimed.held d other old authenticated still
  gone := by
    intro d other there unserved nonempty
    simp only [clients]
    rcases update_some there with ⟨rfl, new⟩ | ⟨-, old⟩
    · cases new
      rw [client] at nonempty ⊢
      rw [served (loc.authenticated_of_name nonempty)] at unserved
      exact claimed.gone d conn found unserved nonempty
    · exact claimed.gone d other old unserved nonempty

theorem Claimed.accept (claimed : Claimed cfg s) (free : s.conns c = none) :
    Claimed cfg { s with conns := Function.update s.conns c (some .new) } where
  entry := by
    intro key d entry
    obtain ⟨conn, there, rest⟩ := claimed.entry key d entry
    exact ⟨conn, update_free free there, rest⟩
  held := by
    intro d conn there authenticated still
    rcases update_some there with ⟨-, new⟩ | ⟨-, old⟩
    · cases new
      cases authenticated
    · exact claimed.held d conn old authenticated still
  gone := by
    intro d conn there unserved nonempty
    rcases update_some there with ⟨-, new⟩ | ⟨-, old⟩
    · cases new
      cases unserved
    · exact claimed.gone d conn old unserved nonempty

/-- `TryAuthenticate` under a free name. -/
theorem Claimed.claim (claimed : Claimed cfg s) (found : s.conns c = some conn)
    (fresh : conn.client.authenticated = false) {name : String}
    (free : s.shared.clients (cfg.lib.toLower name) = none) (client : conn'.client = ⟨name, true⟩)
    (served : conn'.state.served = true) :
    Claimed cfg ⟨s.shared.claim cfg c name, Function.update s.conns c (some conn')⟩ where
  entry := by
    intro key d entry
    rcases update_some entry with ⟨rfl, new⟩ | ⟨-, old⟩
    · cases new
      exact ⟨conn', Function.update_self .., by rw [client], by rw [client]⟩
    · obtain ⟨other, there, authenticated, held⟩ := claimed.entry key d old
      have apart : d ≠ c := by
        rintro rfl
        cases found.symm.trans there
        cases fresh.symm.trans authenticated
      exact ⟨other, (Function.update_of_ne apart ..).trans there, authenticated, held⟩
  held := by
    intro d other there authenticated still
    rcases update_some there with ⟨rfl, new⟩ | ⟨-, old⟩
    · cases new
      simp only [Shared.claim, client, Function.update_self]
    · have entry := claimed.held d other old authenticated still
      have apart : cfg.lib.toLower other.client.name ≠ cfg.lib.toLower name := by
        intro same
        cases (same ▸ entry).symm.trans free
      simp only [Shared.claim]
      rw [Function.update_of_ne apart, entry]
  gone := by
    intro d other there unserved nonempty entry
    rcases update_some there with ⟨-, new⟩ | ⟨apart, old⟩
    · cases new
      cases served.symm.trans unserved
    · rcases update_some entry with ⟨-, new⟩ | ⟨-, before⟩
      · exact apart (Option.some.inj new).symm
      · exact claimed.gone d other old unserved nonempty before

/-- The `clientsMu` section of `handleClientDisconnect`. -/
theorem Claimed.release (claimed : Claimed cfg s) (found : s.conns c = some conn)
    (client : conn'.client = conn.client) (cleaned : conn'.state.served = false) :
    Claimed cfg ⟨s.shared.release cfg c conn.client.name,
      Function.update s.conns c (some conn')⟩ where
  entry := by
    intro key d entry
    obtain ⟨other, there, rest⟩ := claimed.entry key d (Shared.release_some entry)
    exact update_keep found there rest fun before => client ▸ before
  held := by
    intro d other there authenticated still
    rcases update_some there with ⟨rfl, new⟩ | ⟨apart, old⟩
    · cases new
      rw [cleaned, client] at still
      rw [client] at authenticated ⊢
      have empty : conn.client.name = "" := by simpa using still
      have entry := claimed.held d conn found authenticated (.inr empty)
      rw [empty] at entry ⊢
      simpa only [Shared.release_empty] using entry
    · exact Shared.release_of_ne apart (claimed.held d other old authenticated still)
  gone := by
    intro d other there unserved nonempty
    rcases update_some there with ⟨rfl, new⟩ | ⟨-, old⟩
    · cases new
      rw [client] at nonempty ⊢
      exact Shared.release_ne nonempty
    · exact fun entry => claimed.gone d other old unserved nonempty (Shared.release_some entry)

theorem Claimed.step (claimed : Claimed cfg s) (loc : Local cfg conn)
    (found : s.conns c = some conn) (effect : Effect cfg s.shared c conn sh' conn') :
    Claimed cfg ⟨sh', Function.update s.conns c (some conn')⟩ := by
  have fits := loc.fits
  cases effect with
  | quiet same =>
      exact claimed.frame loc found same.clients same.client
        fun _ => same.served.2.trans same.served.1.symm
  | rejected at_ =>
      rw [at_] at fits
      exact claimed.frame loc found rfl rfl fun authenticated => nomatch fits.symm.trans authenticated
  | claimed at_ free =>
      rw [at_] at fits
      obtain ⟨-, -, fresh, -⟩ := fits
      exact claimed.claim found fresh free (by simp [Client.authenticate, fresh]) rfl
  | released at_ =>
      refine claimed.release found rfl ?_
      cases s.shared.ownServer cfg c conn.client.name <;> rfl
  | entered at_ | created at_ | added at_ | announced at_ | removed at_ | unpublished at_ =>
      exact claimed.frame loc found rfl rfl fun _ => by
        simp only [at_, Connection.goto, ConnState.served]

theorem Claimed.next (claimed : Claimed cfg s) (sane : Sane cfg s)
    (taken : s.next cfg a = some s') : Claimed cfg s' := by
  refine DefaultServer.next_elim taken ?accept ?step ?ambient
  case accept =>
    rintro c free rfl
    exact claimed.accept free
  case step =>
    rintro c input conn sh' conn' - found stepped rfl
    exact claimed.step (sane.locals c conn found) found (step_effect stepped)
  case ambient =>
    intro conns ambient
    constructor
    · simpa only [conns, ambient.clients] using claimed.entry
    · simpa only [conns, ambient.clients] using claimed.held
    · simpa only [conns, ambient.clients] using claimed.gone

/-- **In every run** the map and the connections agree. -/
theorem DefaultServer.claimed (reached : (machine cfg).Reach ok s) : Claimed cfg s :=
  reached.invariant (I := Claimed cfg) claimed_initial
    fun _ _ _ before kept _ taken => kept.next (DefaultServer.sane before) taken

/-- **Names are isolated**: an entry has one owner. -/
theorem Claimed.same_name (claimed : Claimed cfg s) {d : ClientID} {other : Connection}
    (first : s.conns c = some conn) (second : s.conns d = some other)
    (authenticated : conn.client.authenticated = true ∧ other.client.authenticated = true)
    (served : conn.state.served = true ∧ other.state.served = true)
    (same : cfg.lib.toLower conn.client.name = cfg.lib.toLower other.client.name) : c = d := by
  have mine := claimed.held c conn first authenticated.1 (.inl served.1)
  have theirs := claimed.held d other second authenticated.2 (.inl served.2)
  rw [same] at mine
  exact Option.some.inj (mine.symm.trans theirs)

/-! ## The gate -/

/-- The handlers other than `AuthRequestHandler` run for authenticated clients. -/
theorem Local.gated (loc : Local cfg conn) {k : Wire.Kind} (runs : conn.state.handler = some k)
    (other : k ≠ .authRequest) : conn.client.authenticated = true := by
  have fits := loc.fits
  cases at_ : conn.state with
  | requesting _ | comparing _ | recording | failing _ | claiming _ =>
      rw [at_] at runs
      exact absurd (Option.some.inj runs).symm other
  | validating _ | finding _ | serving _ =>
      rw [at_] at fits
      exact fits
  | looking _ | copyingDraining _ _ | copyingHealthy _ _ | copyingPlayerCount _ _ | adding _
  | announcing _ | settingDraining _ _ =>
      rw [at_] at fits
      exact fits.1
  | _ =>
      rw [at_] at runs
      cases runs

/-- An entry of the registry is as it was, with the flags and the count of its object. -/
structure Untouched (sh sh' : Shared) (key : String) : Prop where
  registry : sh'.registry key = sh.registry key
  flags : ∀ srv, sh.registry key = some srv → sh'.draining srv = sh.draining srv ∧
    sh'.healthy srv = sh.healthy srv ∧ sh'.playerCount srv = sh.playerCount srv

/-- **A step of a client touches the entry of its own name only**, whatever the client is
at. -/
theorem Local.untouched (loc : Local cfg conn) (keyed : sh.registry.Keyed cfg.lib)
    (taken : conn.step cfg sh c input conn.state = some (sh', conn')) {key : String}
    (other : key ≠ cfg.lib.toLower conn.client.name) : Untouched sh sh' key := by
  have fits := loc.fits
  -- an object of the client's name is not the one under another key
  have apart : ∀ srv, cfg.lib.toLower srv.name = cfg.lib.toLower conn.client.name →
      ∀ stored, sh.registry key = some stored → stored ≠ srv := by
    rintro srv name stored entry rfl
    exact other ((keyed key stored entry).symm.trans name)
  cases at_ : conn.state with
  | validating pk =>
      simp only [at_, Connection.step] at taken
      (repeat' split at taken) <;> cases taken
      · exact ⟨rfl, fun _ _ => ⟨rfl, rfl, rfl⟩⟩
      · exact ⟨rfl, fun _ _ => ⟨rfl, rfl, rfl⟩⟩
      · rename_i transport _ _ _
        refine ⟨rfl, fun stored entry => ?_⟩
        have ne := apart (.new sh.made conn.client.name pk.address transport pk.group pk.weight
          pk.legacyAuth) rfl stored entry
        exact ⟨Function.update_of_ne ne .., Function.update_of_ne ne .., Function.update_of_ne ne ..⟩
  | copyingDraining srv old =>
      simp only [at_, Connection.step] at taken fits
      cases taken
      refine ⟨rfl, fun stored entry => ⟨?_, rfl, rfl⟩⟩
      exact Function.update_of_ne (apart srv (by rw [fits.2]) stored entry) ..
  | copyingHealthy srv old =>
      simp only [at_, Connection.step] at taken fits
      cases taken
      refine ⟨rfl, fun stored entry => ⟨rfl, ?_, rfl⟩⟩
      exact Function.update_of_ne (apart srv (by rw [fits.2]) stored entry) ..
  | copyingPlayerCount srv old =>
      simp only [at_, Connection.step] at taken fits
      cases taken
      refine ⟨rfl, fun stored entry => ⟨rfl, rfl, ?_⟩⟩
      exact Function.update_of_ne (apart srv (by rw [fits.2]) stored entry) ..
  | adding srv =>
      simp only [at_, Connection.step] at taken fits
      cases taken
      refine ⟨Function.update_of_ne ?_ .., fun _ _ => ⟨rfl, rfl, rfl⟩⟩
      rwa [fits.2]
  | settingDraining srv draining =>
      simp only [at_, Connection.step] at taken fits
      cases taken
      refine ⟨rfl, fun stored entry => ⟨?_, rfl, rfl⟩⟩
      exact Function.update_of_ne (apart srv fits.2 stored entry) ..
  | removing srv =>
      simp only [at_, Connection.step] at taken fits
      cases taken
      refine ⟨Registry.removeServer_of_ne ?_, fun _ _ => ⟨rfl, rfl, rfl⟩⟩
      rwa [fits.2]
  | _ =>
      simp only [at_, Connection.step] at taken
      (repeat' split at taken) <;> cases taken
      all_goals exact ⟨rfl, fun _ _ => ⟨rfl, rfl, rfl⟩⟩

/-- **The gate, and the isolation of names**, in every state any interleaving leads to.
A client is authenticated, or in the map, only if it sent a right `AuthRequest` itself and
a secret is configured.  Only `AuthRequestHandler` runs before that.  No statement a client
executes, those of `RegisterServer` and `SetServerDraining` included, touches the entry of
another folded name.  Two served clients have different folded names. -/
theorem authentication_gate (cfg : Config) (s : DefaultServer)
    (reached : (DefaultServer.machine cfg).Reachable s) :
    (∀ c conn, s.conns c = some conn → conn.client.authenticated = true →
      Proved cfg conn.received) ∧
    (∀ key c, s.shared.clients key = some c → ∃ conn, s.conns c = some conn ∧
      Proved cfg conn.received) ∧
    (∀ c conn k, s.conns c = some conn → conn.state.handler = some k → k ≠ .authRequest →
      conn.client.authenticated = true) ∧
    (∀ c conn input s', s.conns c = some conn → s.next cfg (.step c input) = some s' →
      ∀ key, key ≠ cfg.lib.toLower conn.client.name → Untouched s.shared s'.shared key) ∧
    (∀ c d conn other, s.conns c = some conn → s.conns d = some other →
      conn.client.authenticated = true ∧ other.client.authenticated = true →
      conn.state.served = true ∧ other.state.served = true →
      cfg.lib.toLower conn.client.name = cfg.lib.toLower other.client.name → c = d) := by
  have sane := DefaultServer.sane reached
  have claimed := DefaultServer.claimed reached
  refine ⟨?proved, ?listed, ?gated, ?isolated, ?distinct⟩
  case proved => exact fun c conn found => (sane.locals c conn found).proved
  case listed =>
    intro key c entry
    obtain ⟨conn, found, authenticated, -⟩ := claimed.entry key c entry
    exact ⟨conn, found, (sane.locals c conn found).proved authenticated⟩
  case gated => exact fun c conn k found => (sane.locals c conn found).gated
  case isolated =>
    intro c conn input s' found taken key other
    simp only [DefaultServer.next, found, Option.map_eq_some_iff] at taken
    obtain ⟨⟨sh', conn'⟩, stepped, rfl⟩ := taken
    exact (sane.locals c conn found).untouched sane.keyed stepped other
  case distinct => exact fun c d conn other => claimed.same_name

/-- Two connections, one of them registering. -/
theorem authentication_gate_registering :
    ∃ s conn, (DefaultServer.machine .oneHost).Reachable s ∧ s.conns 0 = some conn ∧
      conn.state.handler = some .registerServer ∧ s.shared.clients "lobby" = some 0 ∧
      s.shared.clients "game" = some 1 ∧ Proved .oneHost conn.received ∧
      conn.client.authenticated = true := by
  have reached : (DefaultServer.machine .oneHost).Reachable _ :=
    Machine.exec_reach (Action.login 0 "Lobby" ++ Action.login 1 "game" ++
      Action.register 0 "a:1") rfl
  obtain ⟨s, conn, reached, found, runs, first, second⟩ :
      ∃ s conn, (DefaultServer.machine .oneHost).Reachable s ∧ s.conns 0 = some conn ∧
        conn.state.handler = some .registerServer ∧ s.shared.clients "lobby" = some 0 ∧
        s.shared.clients "game" = some 1 := ⟨_, _, reached, rfl, rfl, rfl, rfl⟩
  obtain ⟨proved, -, gated, -⟩ := authentication_gate .oneHost s reached
  have authenticated := gated 0 conn _ found runs (by decide)
  exact ⟨s, conn, reached, found, runs, first, second, proved 0 conn found authenticated,
    authenticated⟩

/-! ## The throttle -/

/-- The throttle has been looked at, and an `AuthRequest` can be judged before it is looked
at again. -/
def ConnState.pastCheck : ConnState → Bool
  | reading => true
  | dispatching pk => pk.1 = .authRequest
  | requesting _ => true
  | comparing _ => true
  | claiming _ => true
  | _ => false

/-- The host the step leaves blocked by a `RecordFailure`. -/
def DefaultServer.blocks (cfg : Config) (s : DefaultServer) : Action → Option String
  | .step c _ =>
      match (s.conns c).map Connection.state with
      | some (.failing now) =>
          if (s.shared.authThrottle.recordFailure (cfg.host c) now).blocked (cfg.host c)
              s.shared.now then some (cfg.host c)
          else none
      | _ => none
  | _ => none

/-- A host is blocked only while none of its connections that are not authenticated is
past its check. -/
def DefaultServer.guarded (cfg : Config) (s : DefaultServer) (a : Action) : Prop :=
  ∀ c conn, s.conns c = some conn → conn.client.authenticated = false →
    s.blocks cfg a = some (cfg.host c) → conn.state.pastCheck = false

/-- Nobody of a blocked host is past its check. -/
def Shut (cfg : Config) (s : DefaultServer) : Prop :=
  ∀ c conn, s.conns c = some conn → conn.client.authenticated = false →
    s.shared.authBlocked cfg c = true → conn.state.pastCheck = false

/-- A client stays authenticated, under its name. -/
theorem Effect.client (effect : Effect cfg sh c conn sh' conn')
    (before : conn.client.authenticated = true) : conn'.client = conn.client := by
  cases effect with
  | quiet same => exact same.client
  | claimed at_ free => simp [Client.authenticate, before]
  | _ => rfl

theorem Effect.authenticated (effect : Effect cfg sh c conn sh' conn')
    (before : conn.client.authenticated = true) : conn'.client.authenticated = true := by
  rw [effect.client before]
  exact before

/-- A connection gets past its check by passing it. -/
theorem step_pastCheck (taken : conn.step cfg sh c input conn.state = some (sh', conn'))
    (past : conn'.state.pastCheck = true) : conn.state.pastCheck = true ∨
      conn.client.authenticated = true ∨ sh'.authBlocked cfg c = false := by
  cases at_ : conn.state with
  | checking =>
      simp only [at_, Connection.step] at taken
      split at taken <;> cases taken
      · cases past
      · rename_i passed
        right
        cases authenticated : conn.client.authenticated with
        | true => exact .inl rfl
        | false => exact .inr (by simpa [authenticated] using passed)
  | dispatching pk =>
      obtain ⟨k, pk⟩ := pk
      left
      simp only [at_, Connection.step] at taken
      (repeat' split at taken) <;> cases taken
      · cases past
      · cases past
      · cases k with
        | authRequest => rfl
        | _ => cases past
  | reading | requesting _ | comparing _ | claiming _ => exact .inl rfl
  | cleaning =>
      simp only [at_, Connection.step] at taken
      cases taken
      cases own : sh.ownServer cfg c conn.client.name with
      | none =>
          simp only [own] at past
          cases past
      | some srv =>
          simp only [own] at past
          cases past
  | _ =>
      simp only [at_, Connection.step] at taken
      (repeat' split at taken) <;> cases taken <;> cases past

/-- Only the failures of a host get it blocked. -/
theorem step_blocked (taken : conn.step cfg sh c input conn.state = some (sh', conn'))
    (host : String) (blocked : sh'.authThrottle.blocked host sh'.now = true) :
    sh.authThrottle.blocked host sh.now = true ∨ ∃ now, conn.state = .failing now ∧
      host = cfg.host c ∧ (sh.authThrottle.recordFailure host now).blocked host sh.now = true := by
  cases at_ : conn.state with
  | failing now =>
      simp only [at_, Connection.step] at taken
      cases taken
      by_cases same : host = cfg.host c
      · subst same
        exact .inr ⟨now, rfl, rfl, blocked⟩
      · exact .inl (AuthThrottle.blocked_recordFailure_of_ne same ▸ blocked)
  | _ =>
      simp only [at_, Connection.step] at taken
      (repeat' split at taken) <;> cases taken <;> exact .inl blocked

/-- **One step keeps the blocked hosts shut out.** -/
theorem Shut.next (shut : Shut cfg s) (meets : s.guarded cfg a) (taken : s.next cfg a = some s') :
    Shut cfg s' := by
  refine DefaultServer.next_elim taken ?accept ?step ?ambient
  case accept =>
    rintro c - rfl d conn found fresh blocked
    rcases update_some found with ⟨-, new⟩ | ⟨-, old⟩
    · cases new
      rfl
    · exact shut d conn old fresh blocked
  case ambient =>
    intro conns ambient d conn found fresh blocked
    rw [conns] at found
    exact shut d conn found fresh (ambient.blocked _ blocked)
  case step =>
    rintro c input conn sh' conn' rfl found stepped rfl d other found' fresh blocked
    -- either the host was blocked before, or this step is the failure that blocks it
    have known : ∀ conn, s.conns d = some conn → conn.client.authenticated = false →
        conn.state.pastCheck = false := by
      intro other there unauthenticated
      rcases step_blocked stepped _ blocked with before | ⟨now, at_, host, full⟩
      · exact shut d other there unauthenticated before
      · refine meets d other there unauthenticated ?_
        rw [host] at full ⊢
        simp only [DefaultServer.blocks, found, Option.map_some, at_, full, if_true]
    rcases update_some found' with ⟨rfl, new⟩ | ⟨-, old⟩
    · cases new
      have unauthenticated : conn.client.authenticated = false := by
        by_contra authenticated
        have after := (step_effect stepped).authenticated (eq_true_of_ne_false authenticated)
        cases fresh.symm.trans after
      by_contra past
      rcases step_pastCheck stepped (eq_true_of_ne_false past) with earlier | authenticated | free
      · cases (known conn found unauthenticated).symm.trans earlier
      · cases unauthenticated.symm.trans authenticated
      · cases free.symm.trans blocked
    · exact known other old fresh

theorem DefaultServer.shut (reached : (machine cfg).Reach (guarded cfg) s) : Shut cfg s :=
  reached.invariant (I := Shut cfg) (fun _ _ found => nomatch found)
    fun _ _ _ _ before meets taken => before.next meets taken

/-- **A blocked host is shut out**, in every run in which hosts are blocked only while none
of their connections waits past the check: while `Blocked` is true, no secret of the host
is compared and none of its connections becomes authenticated. -/
theorem blocked_host_shut_out (cfg : Config) (s s' : DefaultServer) (a : Action)
    (reached : (DefaultServer.machine cfg).Reach (DefaultServer.guarded cfg) s)
    (taken : s.next cfg a = some s') (c : ClientID) (conn : Connection)
    (found : s.conns c = some conn) (blocked : s.shared.authBlocked cfg c = true) :
    (∀ input pk, a = .step c input → conn.state ≠ .comparing pk) ∧
    ∀ conn', s'.conns c = some conn' → conn'.client.authenticated = true →
      conn.client.authenticated = true := by
  have loc := (DefaultServer.sane reached).locals c conn found
  have fits := loc.fits
  have shut := DefaultServer.shut reached c conn found
  constructor
  · rintro input pk - at_
    rw [at_] at fits shut
    cases shut fits.2.2 blocked
  · intro conn' found' authenticated
    refine DefaultServer.next_elim taken ?accept ?step ?ambient
    case accept =>
      rintro d free rfl
      rcases update_some found' with ⟨rfl, -⟩ | ⟨-, old⟩
      · cases free.symm.trans found
      · cases found.symm.trans old
        exact authenticated
    case ambient =>
      intro conns _
      rw [conns, found] at found'
      cases found'
      exact authenticated
    case step =>
      rintro d input mover sh' mover' - there stepped rfl
      rcases update_some found' with ⟨rfl, new⟩ | ⟨-, old⟩
      · cases new
        cases found.symm.trans there
        cases step_effect stepped with
        | quiet same => exact same.client ▸ authenticated
        | claimed at_ free =>
            rw [at_] at fits shut
            cases shut fits.2.2.1 blocked
        | _ => exact authenticated
      · cases found.symm.trans old
        exact authenticated

/-- An attempt with a wrong secret, up to the check that follows it. -/
def Action.guess (c : ClientID) : List Action := request c "x" "lobby" ++ go c 3

/-- Four wrong attempts of one connection. -/
def Action.guesses (c : ClientID) : List Action :=
  guess c ++ go c 1 ++ guess c ++ go c 1 ++ guess c ++ go c 1 ++ guess c ++ go c 1

/-- A host is blocked while nobody waits; who comes next is turned away. -/
theorem blocked_host_shut_out_next :
    ∃ s s' conn, (DefaultServer.machine .oneHost).Reach (DefaultServer.guarded .oneHost) s ∧
      s.shared.authBlocked .oneHost 1 = true ∧ s.conns 1 = some conn ∧
      s.next .oneHost (.step 1 .go) = some s' ∧
      ∀ conn', s'.conns 1 = some conn' → conn'.client.authenticated = true →
        conn.client.authenticated = true := by
  have quiet : ∀ s a, DefaultServer.blocks .oneHost s a = none →
      DefaultServer.guarded .oneHost s a := by
    intro s a none_ c conn _ _ blocks
    cases none_.symm.trans blocks
  have reached : (DefaultServer.machine .oneHost).Reach (DefaultServer.guarded .oneHost) _ :=
    Machine.Reach.start.exec quiet (Action.arrive 0 ++ Action.guesses 0 ++
      Action.request 0 "x" "lobby" ++ Action.go 0 2) rfl
  -- the fifth failure, with nobody else there
  obtain ⟨s, reached, alone, failing, taken⟩ : ∃ s,
      (DefaultServer.machine .oneHost).Reach (DefaultServer.guarded .oneHost) s ∧
      (∀ c, s.conns (c + 1) = none) ∧ (s.conns 0).map (·.state.pastCheck) = some false ∧
      s.next .oneHost (.step 0 .go) = some _ := ⟨_, reached, fun _ => rfl, rfl, rfl⟩
  have meets : s.guarded .oneHost (.step 0 .go) := by
    intro c conn found _ _
    cases c with
    | zero => simpa [found] using failing
    | succ c => cases (alone c).symm.trans found
  have full : (DefaultServer.machine .oneHost).Reach (DefaultServer.guarded .oneHost) _ :=
    .step reached meets taken
  have reached : (DefaultServer.machine .oneHost).Reach (DefaultServer.guarded .oneHost) _ :=
    full.exec quiet [.accept 1] rfl
  obtain ⟨s, s', conn, reached, blocked, found, taken⟩ : ∃ s s' conn,
      (DefaultServer.machine .oneHost).Reach (DefaultServer.guarded .oneHost) s ∧
      s.shared.authBlocked .oneHost 1 = true ∧ s.conns 1 = some conn ∧
      s.next .oneHost (.step 1 .go) = some s' := ⟨_, _, _, reached, rfl, rfl, rfl⟩
  exact ⟨s, s', conn, reached, blocked, found, taken,
    (blocked_host_shut_out .oneHost s s' _ reached taken 1 conn found blocked).2⟩

/-- Connection 1 waits in `ReadPacket` while the failures of connection 0 get their host
blocked.  Its secret is then compared, and it becomes authenticated. -/
theorem blocked_host_authenticates :
    ∃ s s' s'' conn conn' pk, (DefaultServer.machine .oneHost).Reachable s ∧
      s.conns 1 = some conn ∧ conn.client.authenticated = false ∧ conn.state = .comparing pk ∧
      s.shared.authBlocked .oneHost 1 = true ∧ s.next .oneHost (.step 1 .go) = some s' ∧
      s'.shared.authBlocked .oneHost 1 = true ∧ s'.next .oneHost (.step 1 .go) = some s'' ∧
      s''.conns 1 = some conn' ∧ conn'.client.authenticated = true := by
  have reached : (DefaultServer.machine .oneHost).Reachable _ :=
    Machine.exec_reach (Action.arrive 1 ++ Action.arrive 0 ++ Action.guesses 0 ++ Action.guess 0 ++
      Action.request 1 "s" "lobby") rfl
  exact ⟨_, _, _, _, _, _, reached, rfl, rfl, rfl, rfl, rfl, rfl, rfl, rfl, rfl⟩

end Portal.Socket
