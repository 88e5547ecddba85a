/-
# Socket.Drain — drain commands beside registrations, each in its own goroutine

`adminDrain` looks a server up and then sets a flag on the object it got.  A
`RegisterServer` packet looks the old object up, copies its flags onto a new one
and puts that in the registry.  Each part is a step of its own here, of any number
of calls at once; `adminDrain_alone` and `register_alone` say that a call nobody
interrupts is the whole function.

The flag a command sets is lost when a registration has copied it already, or when
the object is no longer the entry.  `SetsEntry` keeps a command clear of both, and
then the entry's flag is what the last command set (`drain_kept`).
-/
import Mathlib.Logic.Relation
import Portal.Socket.Registration

namespace Portal.Socket.Drain

open Portal.Theory.Transition

set_option autoImplicit false

/-! ## The two functions, step by step -/

/-- What a call does next. -/
inductive Call where
  /-- `adminDrain`: looks its server up -/
  | looking (args : List String)
  /-- `adminDrain`: sets the flag of the server it found -/
  | setting (name : String) (srv : Server) (draining : Bool)
  /-- `adminDrain` has returned -/
  | printed (text : String)
  /-- `RegisterServerHandler.Handle`: checks the packet and makes the server -/
  | registering (client : Client) (pk : RegisterServer)
  /-- `Handle`: looks the old server up -/
  | finding (newSrv : Server)
  /-- `Handle`: copies one flag after the other -/
  | copyingDraining (old newSrv : Server)
  | copyingHealthy (old newSrv : Server)
  | copyingPlayerCount (old newSrv : Server)
  /-- `Handle`: adds the new server -/
  | adding (newSrv : Server)
  /-- `Handle` has returned -/
  | handled (reply : Reply)
  deriving DecidableEq

/-- The call has returned. -/
def Call.completed : Call → Bool
  | .printed _ | .handled _ => true
  | _ => false

section Functions

variable (lib : Library) (equalFold : String → String → Bool)

/-- The flag a command asks for: off, if its second argument says so. -/
def wanted : List String → Bool
  | word :: _ => !equalFold word "off"
  | [] => true

/-- What `adminDrain` prints once it has set the flag. -/
def outcome (name : String) (draining : Bool) : String :=
  if draining then name ++ " is now draining" else name ++ " is no longer draining"

/-- `adminDrain`. -/
def adminDrain (p : Proxy) : List String → Proxy × String
  | [] => (p, "usage: drain <server> [on|off]")
  | name :: rest =>
      match p.registry.server lib name with
      | none => (p, "server " ++ lib.quote name ++ " is not registered")
      | some srv =>
          ({ p with draining := Function.update p.draining srv (wanted equalFold rest) },
            outcome name (wanted equalFold rest))

/-- The next step of a call, and what is left of it. -/
def step (p : Proxy) : Call → Option (Proxy × Call)
  | .looking [] => some (p, .printed "usage: drain <server> [on|off]")
  | .looking (name :: rest) =>
      match p.registry.server lib name with
      | none => some (p, .printed ("server " ++ lib.quote name ++ " is not registered"))
      | some srv => some (p, .setting name srv (wanted equalFold rest))
  | .setting name srv draining =>
      some ({ p with draining := Function.update p.draining srv draining },
        .printed (outcome name draining))
  | .registering client pk =>
      match parseTransport lib pk.transport with
      | .error err => some (p, .handled (.error err))
      | .ok transport =>
          match validateAddress lib transport pk.address with
          | .error err => some (p, .handled (.error err))
          | .ok () =>
              let newSrv := p.newServer client pk transport
              some (p.make newSrv, .finding newSrv)
  | .finding newSrv =>
      match p.registry.server lib newSrv.name with
      | some old => some (p, .copyingDraining old newSrv)
      | none => some (p, .adding newSrv)
  | .copyingDraining old newSrv =>
      some ({ p with draining := Function.update p.draining newSrv (p.draining old) },
        .copyingHealthy old newSrv)
  | .copyingHealthy old newSrv =>
      some ({ p with healthy := Function.update p.healthy newSrv (p.healthy old) },
        .copyingPlayerCount old newSrv)
  | .copyingPlayerCount old newSrv =>
      some ({ p with playerCount := Function.update p.playerCount newSrv (p.playerCount old) },
        .adding newSrv)
  | .adding newSrv =>
      some ({ p with registry := p.registry.addServer lib newSrv }, .handled .done)
  | .printed _ | .handled _ => none

/-- One step of a call that runs alone. -/
def Alone (before after : Proxy × Call) : Prop :=
  step lib equalFold before.1 before.2 = some after

/-- A drain command that nobody interrupts is `adminDrain`. -/
theorem adminDrain_alone (p : Proxy) (args : List String) :
    Relation.ReflTransGen (Alone lib equalFold) (p, .looking args)
      ((adminDrain lib equalFold p args).1, .printed (adminDrain lib equalFold p args).2) := by
  cases args with
  | nil => exact .single rfl
  | cons name rest =>
      cases found : p.registry.server lib name with
      | none =>
          apply Relation.ReflTransGen.single
          simp only [Alone, step, adminDrain, found]
      | some srv =>
          have looked : Alone lib equalFold (p, .looking (name :: rest))
              (p, .setting name srv (wanted equalFold rest)) := by
            simp only [Alone, step, found]
          refine .head looked (.single ?_)
          simp only [Alone, step, adminDrain, found]

/-- A registration that has found the old server carries its state over. -/
theorem copies_alone (p : Proxy) (old newSrv : Server) :
    Relation.ReflTransGen (Alone lib equalFold) (p, .copyingDraining old newSrv)
      ({ p.carryOver old newSrv with registry := p.registry.addServer lib newSrv },
        .handled .done) := by
  let draining : Proxy :=
    { p with draining := Function.update p.draining newSrv (p.draining old) }
  let healthy : Proxy :=
    { draining with healthy := Function.update p.healthy newSrv (p.healthy old) }
  let counted : Proxy :=
    { healthy with playerCount := Function.update p.playerCount newSrv (p.playerCount old) }
  have first : Alone lib equalFold (p, .copyingDraining old newSrv)
      (draining, .copyingHealthy old newSrv) := rfl
  have second : Alone lib equalFold (draining, .copyingHealthy old newSrv)
      (healthy, .copyingPlayerCount old newSrv) := rfl
  have third : Alone lib equalFold (healthy, .copyingPlayerCount old newSrv)
      (counted, .adding newSrv) := rfl
  have last : Alone lib equalFold (counted, .adding newSrv)
      ({ counted with registry := p.registry.addServer lib newSrv }, .handled .done) := rfl
  exact .head first (.head second (.head third (.single last)))

/-- A registration that nobody interrupts is the handler as a whole. -/
theorem register_alone (p : Proxy) (client : Client) (pk : RegisterServer) :
    Relation.ReflTransGen (Alone lib equalFold) (p, .registering client pk)
      ((p.handleRegisterServer lib client pk).1,
        .handled (p.handleRegisterServer lib client pk).2) := by
  cases parsed : parseTransport lib pk.transport with
  | error err =>
      apply Relation.ReflTransGen.single
      simp only [Alone, step, Proxy.handleRegisterServer, parsed]
  | ok transport =>
      cases validated : validateAddress lib transport pk.address with
      | error err =>
          apply Relation.ReflTransGen.single
          simp only [Alone, step, Proxy.handleRegisterServer, parsed, validated]
      | ok _ =>
          let newSrv := p.newServer client pk transport
          have made : Alone lib equalFold (p, .registering client pk)
              (p.make newSrv, .finding newSrv) := by
            simp only [Alone, step, parsed, validated, newSrv]
          refine .head made ?_
          -- `make` leaves the registry as it is
          cases found : (p.make newSrv).registry.server lib client.name with
          | none =>
              have nobody : Alone lib equalFold (p.make newSrv, .finding newSrv)
                  (p.make newSrv, .adding newSrv) := by
                show step lib equalFold (p.make newSrv) (.finding newSrv) = _
                simp only [step, show newSrv.name = client.name from rfl, found]
              refine .head nobody (.single ?_)
              simp only [Alone, step, Proxy.handleRegisterServer, parsed, validated, found, newSrv]
          | some old =>
              have looked : Alone lib equalFold (p.make newSrv, .finding newSrv)
                  (p.make newSrv, .copyingDraining old newSrv) := by
                show step lib equalFold (p.make newSrv) (.finding newSrv) = _
                simp only [step, show newSrv.name = client.name from rfl, found]
              refine .head looked ?_
              have whole : p.handleRegisterServer lib client pk =
                  ({ (p.make newSrv).carryOver old newSrv with
                    registry := (p.make newSrv).registry.addServer lib newSrv }, .done) := by
                simp only [Proxy.handleRegisterServer, parsed, validated, found, newSrv]
                rfl
              rw [whole]
              exact copies_alone lib equalFold (p.make newSrv) old newSrv

end Functions

/-! ## Runs -/

structure State where
  proxy : Proxy
  /-- The calls so far, the completed ones among them. -/
  calls : List Call

inductive Action where
  /-- an operator enters `drain` with these arguments -/
  | drain (args : List String)
  /-- a client's `RegisterServer` packet arrives -/
  | registerServer (client : Client) (pk : RegisterServer)
  /-- call `i` takes its next step -/
  | step (i : Nat)

section Machine

variable (lib : Library) (equalFold : String → String → Bool)

def next (s : State) : Action → Option State
  | .drain args => some { s with calls := s.calls ++ [.looking args] }
  | .registerServer client pk => some { s with calls := s.calls ++ [.registering client pk] }
  | .step i =>
      match s.calls[i]? with
      | none => none
      | some call =>
          match step lib equalFold s.proxy call with
          | none => none
          | some (p, call) => some ⟨p, s.calls.set i call⟩

def machine (p : Proxy) : Machine State Action where
  start := ⟨p, []⟩
  next := next lib equalFold

/-- The `SetDraining` a step executes for a drain command, with the name its object
is registered under. -/
def executed (s : State) : Action → List (String × Bool)
  | .step i =>
      match s.calls[i]? with
      | some (.setting _ srv draining) => [(lib.toLower srv.name, draining)]
      | _ => []
  | _ => []

/-- The value of the last `SetDraining` for the name, `initial` if there was none. -/
def lastSet (key : String) (initial : Bool) (log : List (String × Bool)) : Bool :=
  log.foldl (fun value entry => if entry.1 = key then entry.2 else value) initial

/-- A registration of the name of `srv` is before its lookup, or holds `srv` and is
yet to copy its draining flag. -/
def Call.Awaits (srv : Server) : Call → Prop
  | .copyingDraining old newSrv => lib.toLower newSrv.name = lib.toLower srv.name → old = srv
  | .copyingHealthy _ newSrv | .copyingPlayerCount _ newSrv | .adding newSrv =>
      lib.toLower newSrv.name ≠ lib.toLower srv.name
  | _ => True

instance (srv : Server) (call : Call) : Decidable (call.Awaits lib srv) := by
  cases call <;> dsimp only [Call.Awaits] <;> infer_instance

/-- A drain command of the name sets the flag only while its object is the entry,
and with no registration of the name under way that will not copy it. -/
def SetsEntry (key : String) (s : State) : Action → Prop
  | .step i =>
      match s.calls[i]? with
      | some (.setting _ srv _) => lib.toLower srv.name = key →
          s.proxy.registry.server lib srv.name = some srv ∧ ∀ call ∈ s.calls, call.Awaits lib srv
      | _ => True
  | _ => True

instance (key : String) (s : State) (a : Action) : Decidable (SetsEntry lib key s a) := by
  cases a with
  | step i =>
      dsimp only [SetsEntry]
      split <;> infer_instance
  | _ => dsimp only [SetsEntry]; infer_instance

end Machine

theorem lastSet_append (key : String) (initial : Bool) (log more : List (String × Bool)) :
    lastSet key initial (log ++ more) = lastSet key (lastSet key initial log) more :=
  List.foldl_append

/-! ## What the calls under way hold -/

section Invariant

variable {lib : Library} {equalFold : String → String → Bool} {key : String} {value : Bool}

/-- The objects a call holds. -/
def Call.objects : Call → List Server
  | .setting _ srv _ => [srv]
  | .finding newSrv | .adding newSrv => [newSrv]
  | .copyingDraining old newSrv | .copyingHealthy old newSrv | .copyingPlayerCount old newSrv =>
      [old, newSrv]
  | _ => []

theorem Call.held_of_empty {call : Call} (empty : call.objects = []) (P : Server → Prop) :
    ∀ srv ∈ call.objects, P srv := by
  intro srv holds
  rw [empty] at holds
  cases holds

/-- What a registration of the name will put in the registry has the flag, or gets
it from an object of the name that does. -/
def Call.Carries (lib : Library) (key : String) (value : Bool) (flag : Server → Bool) :
    Call → Prop
  | .copyingDraining old newSrv => lib.toLower newSrv.name = key →
      lib.toLower old.name = key ∧ flag old = value
  | .copyingHealthy _ newSrv | .copyingPlayerCount _ newSrv | .adding newSrv =>
      lib.toLower newSrv.name = key → flag newSrv = value
  | _ => True

/-- The objects of the name that have the flag still have it. -/
def Keeps (lib : Library) (key : String) (value : Bool) (p p' : Proxy) : Prop :=
  ∀ srv, srv.ptr < p.made.length → lib.toLower srv.name = key →
    p.draining srv = value → p'.draining srv = value

theorem Call.Carries.keep {call : Call} {p p' : Proxy}
    (carries : call.Carries lib key value p.draining) (kept : Keeps lib key value p p')
    (held : ∀ srv ∈ call.objects, srv.ptr < p.made.length) :
    call.Carries lib key value p'.draining := by
  cases call with
  | copyingDraining old newSrv =>
      intro named
      obtain ⟨its, flag⟩ := carries named
      exact ⟨its, kept old (held old (.head _)) its flag⟩
  | copyingHealthy old newSrv =>
      intro named
      exact kept newSrv (held newSrv (.tail _ (.head _))) named (carries named)
  | copyingPlayerCount old newSrv =>
      intro named
      exact kept newSrv (held newSrv (.tail _ (.head _))) named (carries named)
  | adding newSrv =>
      intro named
      exact kept newSrv (held newSrv (.head _)) named (carries named)
  | _ => trivial

/-- The proxy's side: its registry is sound, and the entry of the name has the flag. -/
structure Shows (lib : Library) (key : String) (value : Bool) (p : Proxy) : Prop where
  sound : p.Sound lib
  entry : ∃ srv, p.registry key = some srv ∧ p.draining srv = value

/-- One step of a call that sets no flag of the name: the entry and the call keep the
flag, and so does every object of the name. -/
structure Quiet (lib : Library) (key : String) (value : Bool) (p p' : Proxy) (call' : Call) :
    Prop where
  shows : Shows lib key value p'
  held : ∀ srv ∈ call'.objects, srv.ptr < p'.made.length
  carries : call'.Carries lib key value p'.draining
  keeps : Keeps lib key value p p'
  made : p.made.length ≤ p'.made.length

/-- A step that changes no more than the rest of a call. -/
theorem Shows.quiet {p : Proxy} (shows_ : Shows lib key value p) {call' : Call}
    (held : ∀ srv ∈ call'.objects, srv.ptr < p.made.length)
    (carries : call'.Carries lib key value p.draining) : Quiet lib key value p p call' where
  shows := shows_
  held := held
  carries := carries
  keeps := fun _ _ _ flag => flag
  made := Nat.le_refl _

/-- Setting the flag of an object to what the name has, if it is of the name. -/
theorem Shows.set {p : Proxy} (shows_ : Shows lib key value p) (srv : Server) (flag : Bool)
    (agrees : lib.toLower srv.name = key → flag = value) :
    Shows lib key value { p with draining := Function.update p.draining srv flag } ∧
      Keeps lib key value p { p with draining := Function.update p.draining srv flag } := by
  have keeps : Keeps lib key value p
      { p with draining := Function.update p.draining srv flag } := by
    intro other _ named its
    show Function.update p.draining srv flag other = value
    by_cases same : other = srv
    · subst same
      rw [Function.update_self]
      exact agrees named
    · rw [Function.update_of_ne same]
      exact its
  obtain ⟨entry, stored, its⟩ := shows_.entry
  refine ⟨⟨⟨shows_.sound.keyed, shows_.sound.made⟩, entry, stored, ?_⟩, keeps⟩
  exact keeps entry (shows_.sound.made key entry stored) (shows_.sound.keyed key entry stored) its

/-- A new object gets its own flags; it is none of the objects there are. -/
theorem Shows.make {p : Proxy} (shows_ : Shows lib key value p) (srv : Server)
    (fresh : srv.ptr = p.made.length) :
    Shows lib key value (p.make srv) ∧ Keeps lib key value p (p.make srv) := by
  have keeps : Keeps lib key value p (p.make srv) := by
    intro other older _ its
    have differs : other ≠ srv := by
      rintro rfl
      omega
    show Function.update p.draining srv false other = value
    rw [Function.update_of_ne differs]
    exact its
  obtain ⟨entry, stored, its⟩ := shows_.entry
  refine ⟨⟨⟨shows_.sound.keyed, ?_⟩, entry, stored, ?_⟩, keeps⟩
  · intro k found at_
    have older := shows_.sound.made k found at_
    simp only [Proxy.make, List.length_append, List.length_singleton]
    omega
  · exact keeps entry (shows_.sound.made key entry stored) (shows_.sound.keyed key entry stored) its

/-- A registration of the name finds an object of the name that has the flag. -/
theorem Shows.found {p : Proxy} (shows_ : Shows lib key value p) {newSrv : Server}
    (named : lib.toLower newSrv.name = key) :
    ∃ old, p.registry.server lib newSrv.name = some old ∧ lib.toLower old.name = key ∧
      p.draining old = value := by
  obtain ⟨entry, stored, its⟩ := shows_.entry
  refine ⟨entry, ?_, shows_.sound.keyed key entry stored, its⟩
  rw [Registry.server, named]
  exact stored

/-- An object that is added has the flag, if it is of the name. -/
theorem Shows.add {p : Proxy} (shows_ : Shows lib key value p) {newSrv : Server}
    (made : newSrv.ptr < p.made.length)
    (carries : lib.toLower newSrv.name = key → p.draining newSrv = value) :
    Shows lib key value { p with registry := p.registry.addServer lib newSrv } := by
  refine ⟨⟨shows_.sound.keyed.addServer newSrv, ?_⟩, ?_⟩
  · intro k found stored
    obtain ⟨-, rfl⟩ | before := Registry.addServer_some stored
    · exact made
    · exact shows_.sound.made k found before
  · by_cases named : lib.toLower newSrv.name = key
    · refine ⟨newSrv, ?_, carries named⟩
      simp only [Registry.addServer, named, Function.update_self]
    · obtain ⟨entry, stored, its⟩ := shows_.entry
      refine ⟨entry, ?_, its⟩
      simp only [Registry.addServer, Function.update_of_ne (Ne.symm named)]
      exact stored

/-- **The step.**  Whatever a call does next, short of setting a flag of the name. -/
theorem step_quiet {p p' : Proxy} {call call' : Call} (shows_ : Shows lib key value p)
    (held : ∀ srv ∈ call.objects, srv.ptr < p.made.length)
    (carries : call.Carries lib key value p.draining)
    (other : ∀ name srv flag, call = .setting name srv flag → lib.toLower srv.name ≠ key)
    (taken : step lib equalFold p call = some (p', call')) : Quiet lib key value p p' call' := by
  cases call with
  | looking args =>
      cases args with
      | nil =>
          cases taken
          exact shows_.quiet (Call.held_of_empty rfl _) trivial
      | cons name rest =>
          simp only [step] at taken
          split at taken <;> cases taken
          · exact shows_.quiet (Call.held_of_empty rfl _) trivial
          · rename_i srv found
            refine shows_.quiet ?_ trivial
            intro srv' holds
            obtain rfl := List.mem_singleton.mp holds
            exact shows_.sound.made _ srv' found
  | setting name srv flag =>
      cases taken
      obtain ⟨shown, keeps⟩ := shows_.set srv flag
        (fun named => absurd named (other name srv flag rfl))
      exact ⟨shown, Call.held_of_empty rfl _, trivial, keeps, Nat.le_refl _⟩
  | registering client pk =>
      simp only [step] at taken
      split at taken
      · cases taken
        exact shows_.quiet (Call.held_of_empty rfl _) trivial
      · split at taken
        · cases taken
          exact shows_.quiet (Call.held_of_empty rfl _) trivial
        · rename_i transport _ _ _
          cases taken
          obtain ⟨shown, keeps⟩ := shows_.make (p.newServer client pk transport) rfl
          refine ⟨shown, ?_, trivial, keeps, ?_⟩
          · intro srv holds
            obtain rfl := List.mem_singleton.mp holds
            show p.made.length < (p.made ++ [_]).length
            simp
          · show p.made.length ≤ (p.made ++ [_]).length
            simp
  | finding newSrv =>
      simp only [step] at taken
      split at taken <;> cases taken
      · rename_i old found
        refine shows_.quiet ?_ ?_
        · intro srv holds
          obtain rfl | rest := List.mem_cons.mp holds
          · exact shows_.sound.made _ srv found
          · exact held srv rest
        · intro named
          obtain ⟨entry, stored, its⟩ := shows_.found named
          cases found.symm.trans stored
          exact its
      · rename_i missing
        refine shows_.quiet held ?_
        intro named
        obtain ⟨entry, stored, -⟩ := shows_.found named
        cases missing.symm.trans stored
  | copyingDraining old newSrv =>
      cases taken
      obtain ⟨shown, keeps⟩ := shows_.set newSrv (p.draining old)
        (fun named => (carries named).2)
      refine ⟨shown, held, ?_, keeps, Nat.le_refl _⟩
      intro named
      show Function.update p.draining newSrv (p.draining old) newSrv = value
      rw [Function.update_self]
      exact (carries named).2
  | copyingHealthy old newSrv =>
      cases taken
      exact ⟨⟨⟨shows_.sound.keyed, shows_.sound.made⟩, shows_.entry⟩, held, carries,
        fun _ _ _ its => its, Nat.le_refl _⟩
  | copyingPlayerCount old newSrv =>
      cases taken
      exact ⟨⟨⟨shows_.sound.keyed, shows_.sound.made⟩, shows_.entry⟩,
        fun srv holds => held srv (.tail _ holds), carries, fun _ _ _ its => its, Nat.le_refl _⟩
  | adding newSrv =>
      cases taken
      exact ⟨shows_.add (held newSrv (.head _)) carries, Call.held_of_empty rfl _, trivial,
        fun _ _ _ its => its, Nat.le_refl _⟩
  | printed text => cases taken
  | handled reply => cases taken

/-! ## The entry's flag is the last one set -/

/-- The entry of the name has the flag, and so will every object that a registration
under way puts in its place. -/
structure Kept (lib : Library) (key : String) (value : Bool) (s : State) : Prop where
  shows : Shows lib key value s.proxy
  held : ∀ call ∈ s.calls, ∀ srv ∈ call.objects, srv.ptr < s.proxy.made.length
  carries : ∀ call ∈ s.calls, call.Carries lib key value s.proxy.draining

/-- A call that begins holds nothing. -/
theorem Kept.begin {s : State} (kept : Kept lib key value s) {call : Call}
    (empty : call.objects = []) (carries : call.Carries lib key value s.proxy.draining) :
    Kept lib key value { s with calls := s.calls ++ [call] } := by
  refine ⟨kept.shows, ?_, ?_⟩
  · intro other among
    obtain before | last := List.mem_append.mp among
    · exact kept.held other before
    · obtain rfl := List.mem_singleton.mp last
      exact Call.held_of_empty empty _
  · intro other among
    obtain before | last := List.mem_append.mp among
    · exact kept.carries other before
    · obtain rfl := List.mem_singleton.mp last
      exact carries

theorem Kept.quiet {s : State} (kept : Kept lib key value s) {p' : Proxy} {call' : Call} (i : Nat)
    (quiet : Quiet lib key value s.proxy p' call') :
    Kept lib key value ⟨p', s.calls.set i call'⟩ := by
  refine ⟨quiet.shows, ?_, ?_⟩
  · intro other among srv holds
    obtain before | rfl := List.mem_or_eq_of_mem_set among
    · exact Nat.lt_of_lt_of_le (kept.held other before srv holds) quiet.made
    · exact quiet.held srv holds
  · intro other among
    obtain before | rfl := List.mem_or_eq_of_mem_set among
    · exact (kept.carries other before).keep quiet.keeps (kept.held other before)
    · exact quiet.carries

/-- A command that sets the entry's flag in time sets the name's: the registrations
under way have yet to copy it. -/
theorem Kept.set {s : State} (kept : Kept lib key value s) {srv : Server} {flag : Bool}
    (named : lib.toLower srv.name = key) (entry : s.proxy.registry.server lib srv.name = some srv)
    (awaits : ∀ call ∈ s.calls, call.Awaits lib srv) (i : Nat) (text : String) :
    Kept lib key flag
      ⟨{ s.proxy with draining := Function.update s.proxy.draining srv flag },
        s.calls.set i (.printed text)⟩ := by
  have its : Function.update s.proxy.draining srv flag srv = flag := Function.update_self ..
  refine ⟨⟨⟨kept.shows.sound.keyed, kept.shows.sound.made⟩, srv, ?_, its⟩, ?_, ?_⟩
  · rw [← named]
    exact entry
  · intro call among
    obtain before | rfl := List.mem_or_eq_of_mem_set among
    · exact kept.held call before
    · exact Call.held_of_empty rfl _
  · intro call among
    obtain before | rfl := List.mem_or_eq_of_mem_set among
    · have awaiting := awaits call before
      cases call with
      | copyingDraining old newSrv =>
          intro newNamed
          obtain rfl := awaiting (newNamed.trans named.symm)
          exact ⟨named, its⟩
      | copyingHealthy old newSrv => exact fun newNamed => absurd (newNamed.trans named.symm) awaiting
      | copyingPlayerCount old newSrv =>
          exact fun newNamed => absurd (newNamed.trans named.symm) awaiting
      | adding newSrv => exact fun newNamed => absurd (newNamed.trans named.symm) awaiting
      | _ => trivial
    · trivial

/-- **One step of a run.** -/
theorem Kept.next {s s' : State} {a : Action} (kept : Kept lib key value s)
    (sets : SetsEntry lib key s a) (taken : next lib equalFold s a = some s') :
    Kept lib key (lastSet key value (executed lib s a)) s' := by
  cases a with
  | drain args =>
      cases taken
      exact kept.begin rfl trivial
  | registerServer client pk =>
      cases taken
      exact kept.begin rfl trivial
  | step i =>
      simp only [Drain.next] at taken
      split at taken
      · cases taken
      rename_i call called
      split at taken
      · cases taken
      rename_i p' call' stepped
      cases taken
      have among : call ∈ s.calls := List.mem_of_getElem? called
      by_cases setting : ∃ name srv flag, call = .setting name srv flag ∧ lib.toLower srv.name = key
      · obtain ⟨name, srv, flag, rfl, named⟩ := setting
        simp only [SetsEntry, called] at sets
        obtain ⟨entry, awaits⟩ := sets named
        cases stepped
        simp only [executed, called, lastSet, List.foldl, named, if_true]
        exact kept.set named entry awaits i _
      · have other : ∀ name srv flag, call = .setting name srv flag → lib.toLower srv.name ≠ key :=
          fun name srv flag is named => setting ⟨name, srv, flag, is, named⟩
        have unset : lastSet key value (executed lib s (.step i)) = value := by
          cases call with
          | setting name srv flag =>
              simp only [executed, called, lastSet, List.foldl, if_neg (other name srv flag rfl)]
          | _ => simp only [executed, called, lastSet, List.foldl]
        rw [unset]
        exact kept.quiet i (step_quiet kept.shows (kept.held call among)
          (kept.carries call among) other stepped)

/-- **A drain command outlives registrations, if it sets the entry in time.**  In
every state of such a run the entry has the flag of the last `SetDraining` that a
drain command executed for it, or the flag it began with. -/
theorem drain_kept {p : Proxy} {name : String} {srv : Server} (sound : p.Sound lib)
    (registered : p.registry.server lib name = some srv) {s : State} {log : List (String × Bool)}
    (reached : ((machine lib equalFold p).record (executed lib)).Reach
      (fun state a => SetsEntry lib (lib.toLower name) state.1 a) (s, log)) :
    ∃ entry, s.proxy.registry.server lib name = some entry ∧
      s.proxy.draining entry = lastSet (lib.toLower name) (p.draining srv) log := by
  have kept : Kept lib (lib.toLower name) (lastSet (lib.toLower name) (p.draining srv) log) s := by
    refine reached.invariant (I := fun state : State × List (String × Bool) =>
      Kept lib (lib.toLower name) (lastSet (lib.toLower name) (p.draining srv) state.2) state.1)
      ⟨⟨sound, srv, registered, rfl⟩, fun _ among => absurd among List.not_mem_nil,
        fun _ among => absurd among List.not_mem_nil⟩ ?_
    intro state state' a _ before sets taken
    obtain ⟨stepped, logged⟩ := Machine.record_next taken
    rw [logged, lastSet_append]
    exact before.next sets stepped
  exact kept.shows.entry

end Invariant

/-! ## A command beside one registration -/

/-- A proxy with Lobby registered and not draining. -/
def lobbyProxy : Proxy :=
  { Proxy.initial.make (backend 0 "Lobby" "a:1") with
    registry := Registry.empty.addServer .ascii (backend 0 "Lobby" "a:1") }

theorem lobbyProxy_sound : lobbyProxy.Sound .ascii :=
  have new : (backend 0 "Lobby" "a:1").ptr = Proxy.initial.made.length := rfl
  have sound := Proxy.initial_sound.registered new
  ⟨sound.keyed, sound.made⟩

/-- `strings.EqualFold` on ASCII letters. -/
def equalFold (s t : String) : Bool := Library.ascii.toLower s == Library.ascii.toLower t

/-- The command finds Lobby and sets its flag after a registration has looked the
same object up, and before that copies it. -/
theorem drain_kept_lobby :
    ∃ s log, ((machine .ascii equalFold lobbyProxy).record (executed .ascii)).Reach
        (fun state a => SetsEntry .ascii "lobby" state.1 a) (s, log) ∧
      log = [("lobby", true)] ∧ s.calls.all Call.completed = true ∧
      s.proxy.registry.server .ascii "lobby" = some (backend 1 "Lobby" "a:1") ∧
      ∃ entry, s.proxy.registry.server .ascii "lobby" = some entry ∧
        s.proxy.draining entry = lastSet "lobby" false log := by
  have reached : ((machine .ascii equalFold lobbyProxy).record (executed .ascii)).Reach
      (fun state a => SetsEntry .ascii "lobby" state.1 a) _ :=
    Machine.exec_reach [.drain ["lobby"], .registerServer ⟨"Lobby", true⟩ Proxy.lobby,
      .step 1, .step 1, .step 0, .step 0, .step 1, .step 1, .step 1, .step 1] rfl
  have registered : lobbyProxy.registry.server .ascii "lobby" = some (backend 0 "Lobby" "a:1") :=
    rfl
  exact ⟨_, _, reached, rfl, rfl, rfl, drain_kept lobbyProxy_sound registered reached⟩

/-- The registration copies the flag, the command sets it on the old object, and the
registration replaces that: Lobby is not draining, though the command said so. -/
theorem drain_lost :
    ∃ s log, ((machine .ascii equalFold lobbyProxy).record (executed .ascii)).Reachable (s, log) ∧
      s.calls = [.handled .done, .printed "lobby is now draining"] ∧ log = [("lobby", true)] ∧
      s.proxy.registry.server .ascii "lobby" = some (backend 1 "Lobby" "a:1") ∧
      s.proxy.draining (backend 1 "Lobby" "a:1") = false ∧
      lastSet "lobby" (lobbyProxy.draining (backend 0 "Lobby" "a:1")) log = true :=
  have reached : ((machine .ascii equalFold lobbyProxy).record (executed .ascii)).Reach
      (fun _ _ => True) _ :=
    Machine.exec_reach [.registerServer ⟨"Lobby", true⟩ Proxy.lobby, .drain ["lobby"],
      .step 0, .step 0, .step 0, .step 1, .step 1, .step 0, .step 0, .step 0] rfl
  ⟨_, _, reached, rfl, rfl, rfl, rfl, rfl⟩

end Portal.Socket.Drain
