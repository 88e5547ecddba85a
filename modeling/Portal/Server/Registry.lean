/-
# Server.Registry — the registry of servers, and the addresses it admits

The registry maps lower-cased names to `Server` objects.  `AddServer` overwrites
whatever stands under the name; `RemoveServer` removes an object only while it is
itself the one that stands there.

What Go's standard library decides about strings (case, URLs, quoting) is a
`Library`; nothing about it is assumed here.
-/
import Portal.Theory.PartialMap
import Portal.Server.Object

namespace Portal

set_option autoImplicit false

/-- What `url.Parse` tells of an address. -/
structure URL where
  scheme : String
  host : String
  port : String
  path : String
  deriving DecidableEq, Repr

/-- The functions of the standard library that names and addresses go through. -/
structure Library where
  /-- `strings.ToLower` -/
  toLower : String → String
  /-- `url.Parse`; `none` is an error -/
  parseURL : String → Option URL
  /-- the verb `%q` -/
  quote : String → String

/-- The library on names of ASCII letters and RakNet addresses. -/
def Library.ascii : Library where
  toLower := fun s => String.ofList (s.toList.map Char.toLower)
  parseURL := fun _ => none
  quote := fun s => "\"" ++ s ++ "\""

/-- `Registry.servers`. -/
abbrev Registry := String → Option Server

namespace Registry

variable (lib : Library)

def empty : Registry := fun _ => none

/-- `Registry.Server`. -/
def server (r : Registry) (name : String) : Option Server := r (lib.toLower name)

/-- `Registry.AddServer`. -/
def addServer (r : Registry) (srv : Server) : Registry :=
  Function.update r (lib.toLower srv.name) (some srv)

/-- `Registry.RemoveServer`. -/
def removeServer (r : Registry) (srv : Server) : Registry :=
  if r (lib.toLower srv.name) = some srv then Function.update r (lib.toLower srv.name) none else r

/-- Every entry stands under its own name. -/
def Keyed (r : Registry) : Prop := ∀ key srv, r key = some srv → lib.toLower srv.name = key

variable {lib} {r : Registry}

theorem keyed_empty : Keyed lib empty := by
  intro key srv found
  cases found

/-- `AddServer` sets what its own name finds. -/
theorem server_addServer (r : Registry) (srv : Server) (name : String) :
    (r.addServer lib srv).server lib name =
      if lib.toLower name = lib.toLower srv.name then some srv else r.server lib name :=
  Function.update_apply ..

/-- What an addition leaves under a key is the server it added, under its own name, or
what was there before. -/
theorem addServer_some {srv found : Server} {key : String}
    (stored : r.addServer lib srv key = some found) :
    (key = lib.toLower srv.name ∧ found = srv) ∨ r key = some found := by
  obtain ⟨own, its⟩ | ⟨-, before⟩ := Theory.PartialMap.update_some stored
  · exact .inl ⟨own, (Option.some.inj its).symm⟩
  · exact .inr before

theorem Keyed.addServer (keyed : Keyed lib r) (srv : Server) : Keyed lib (r.addServer lib srv) := by
  intro key found stored
  obtain ⟨rfl, rfl⟩ | before := addServer_some stored
  · rfl
  · exact keyed key found before

/-- What is left after a removal was there before. -/
theorem removeServer_some {srv found : Server} {key : String}
    (stored : r.removeServer lib srv key = some found) : r key = some found := by
  unfold removeServer at stored
  split at stored
  · by_cases same : key = lib.toLower srv.name
    · subst same
      simp at stored
    · rwa [Function.update_of_ne same] at stored
  · exact stored

theorem removeServer_of_ne {srv : Server} {key : String} (other : key ≠ lib.toLower srv.name) :
    r.removeServer lib srv key = r key := by
  unfold removeServer
  split
  · exact Function.update_of_ne other ..
  · rfl

/-- Another object under the same name stays. -/
theorem removeServer_of_other {srv found : Server} {key : String} (stored : r key = some found)
    (other : found ≠ srv) : r.removeServer lib srv key = some found := by
  by_cases same : key = lib.toLower srv.name
  · subst same
    have kept : ¬ r (lib.toLower srv.name) = some srv := fun its =>
      other (Option.some.inj (stored.symm.trans its))
    rw [removeServer, if_neg kept, stored]
  · rw [removeServer_of_ne same, stored]

/-- The object is gone, under every key. -/
theorem Keyed.removeServer_ne (keyed : Keyed lib r) (srv : Server) (key : String) :
    r.removeServer lib srv key ≠ some srv := by
  intro stored
  have before := removeServer_some stored
  obtain rfl := keyed key srv before
  rw [removeServer, if_pos before, Function.update_self] at stored
  cases stored

theorem Keyed.removeServer (keyed : Keyed lib r) (srv : Server) :
    Keyed lib (r.removeServer lib srv) :=
  fun key _ stored => keyed key _ (removeServer_some stored)

/-! ## Iteration -/

/-- An order in which `range r.servers` can produce the keys: every key, and each once. -/
structure Iterates (r : Registry) (keys : List String) : Prop where
  nodup : keys.Nodup
  mem : ∀ key, key ∈ keys ↔ (r key).isSome

/-- `Registry.Servers`, iterating in the order of `keys`. -/
def servers (r : Registry) (keys : List String) : List Server := keys.filterMap r

/-- `Registry.ServersInGroup`, iterating in the order of `keys`. -/
def serversInGroup (r : Registry) (keys : List String) (group : String) : List Server :=
  (keys.filterMap r).filter fun srv => srv.group = group

/-- The server stands in the registry. -/
def Registered (r : Registry) (srv : Server) : Prop := ∃ key, r key = some srv

theorem mem_servers {keys : List String} (iterates : r.Iterates keys) {srv : Server} :
    srv ∈ r.servers keys ↔ r.Registered srv := by
  rw [servers, List.mem_filterMap]
  constructor
  · rintro ⟨key, -, found⟩
    exact ⟨key, found⟩
  · rintro ⟨key, found⟩
    exact ⟨key, (iterates.mem key).mpr (by rw [found]; rfl), found⟩

theorem mem_serversInGroup {keys : List String} (iterates : r.Iterates keys) {group : String}
    {srv : Server} :
    srv ∈ r.serversInGroup keys group ↔ r.Registered srv ∧ srv.group = group := by
  rw [serversInGroup, List.mem_filter, decide_eq_true_iff]
  exact and_congr_left fun _ => mem_servers iterates

end Registry

/-! ## What a registration must look like -/

/-- `ParseNetherNetAddress`. -/
def parseNetherNetAddress (lib : Library) (address : String) : Except String URL :=
  match lib.parseURL address with
  | none => .error (notURL address)
  | some u =>
      if u.scheme = "" ∨ u.host = "" then .error (notURL address)
      else if u.scheme ≠ "http" ∧ u.scheme ≠ "https" then
        .error ("must use the \"http\" or \"https\" scheme, got " ++ lib.quote address)
      else if u.port = "" then
        .error ("must include an explicit port, got " ++ lib.quote address)
      else if u.path ≠ "" then
        .error ("must not have a path (not even a trailing \"/\"), got " ++ lib.quote address)
      else .ok u
where
  notURL (address : String) : String :=
    "must be the full URL of the server's signaling endpoint (e.g. " ++
      lib.quote "http://host:port" ++ "), got " ++ lib.quote address

/-- `parseTransport`. -/
def parseTransport (lib : Library) (s : String) : Except String Transport :=
  if s = "" then .ok .rakNet
  else
    match Transport.ofString s with
    | .unknown s => .error ("unknown transport " ++ lib.quote s)
    | transport => .ok transport

/-- `validateAddress`. -/
def validateAddress (lib : Library) (transport : Transport) (address : String) :
    Except String Unit :=
  if address = "" then .error "address must not be empty"
  else if transport ≠ .netherNet then .ok ()
  else
    match parseNetherNetAddress lib address with
    | .error err => .error ("nethernet address " ++ err)
    | .ok _ => .ok ()

end Portal
