/-
# ResourcePack.Manager — reloading the resource packs while others read them

`Reload`, `ReloadIfChanged` and `ResourcePacks` as the statements of any number of
goroutines.  Whatever comes from the file system is the `Answer` of the one access it
comes from, so that the directory may change between any two of them: each entry a walk
visits, the listing, and each pack that is read.

`load` compares the fingerprint of the directory before it read the packs with the one
after, and a `Load` is what it returns when they are the same: the type has no other
values.  `Reload` assigns the packs and the fingerprint one after the other under `mu`.

What the calls have done to the pair is recorded in a list of `Event`s.  `Sane` says how the
calls, `mu` and the pair go with it, and every action keeps that (`Sane.next`): whenever `mu`
is not held for writing, the pair is what one load returned.
-/
import Portal.Theory.PartialMap
import Portal.Theory.RWLock
import Portal.Theory.Transition

namespace Portal.ResourcePack

open Portal.Theory Portal.Theory.PartialMap Portal.Theory.Transition

set_option autoImplicit false

/-- What does not change; `P` is gophertunnel's `*resource.Pack`. -/
structure Env (P : Type) where
  /-- SHA-256, in hexadecimal -/
  hash : List UInt8 → String
  uuid : P → String
  withContentKey : P → String → P
  encryptionKeys : String → Option String

/-- The bytes of a text of ASCII characters. -/
def ascii (s : String) : List UInt8 := s.toList.map fun c => UInt8.ofNat c.toNat

/-- An entry that `filepath.WalkDir` passes to its callback.  A path is any string of
bytes. -/
inductive Visited where
  /-- an error: of the walk, of `d.Info()` or of `filepath.Rel` -/
  | failed (err : String)
  | symlink (path : String)
  | dir (rel : List UInt8)
  | file (rel : List UInt8) (size modTime : Int64)

/-- The answer of the file system to one access. -/
inductive Answer (P : Type) where
  /-- done: also the end of a walk -/
  | go
  | failed (err : String)
  | visited (v : Visited)
  | listed (files : List String)
  | read (pack : P)

/-- A function that has come to its next statement, or returned. -/
inductive Progress (σ α : Type) where
  | goes (s : σ)
  | fails (err : String)
  | yields (x : α)

variable {P : Type}

/-! ## `load` -/

/-- What the walk of `resourcePackFingerprint` writes into the hash. -/
def Visited.record : Visited → Except String (List UInt8)
  | failed err => .error err
  | symlink path => .error ("resource pack path contains symbolic link: " ++ path)
  | dir rel => .ok (rel ++ ascii "\x00dir\x00")
  | file rel size modTime =>
      .ok (rel ++ ascii "\x00file\x00" ++ ascii (toString size.toInt) ++ ascii "\x00" ++
        ascii (toString modTime.toInt) ++ ascii "\x00")

/-- `resourcePackFingerprint`, when `text` has been written into the hash. -/
def fingerprintStep (env : Env P) (text : List UInt8) :
    Answer P → Option (Progress (List UInt8) String)
  | .visited v =>
      match v.record with
      | .ok line => some (.goes (text ++ line))
      | .error err => some (.fails err)
  | .go => some (.yields (env.hash text))
  | _ => none

/-- A successful `load`: the fingerprints before and after reading the packs are the
same. -/
structure Load (P : Type) where
  packs : List P
  before : String
  after : String
  stable : before = after

/-- `load`, at the access it makes next. -/
inductive LoadState (P : Type) where
  /-- `ensureResourcePackDir` -/
  | ensuring
  /-- the first `resourcePackFingerprint` -/
  | fingerprinting (text : List UInt8)
  /-- `LoadResourcePacksWithContentKeys`: `ensureResourcePackDir` -/
  | reensuring (before : String)
  /-- `os.ReadDir` -/
  | listing (before : String)
  /-- `validateResourcePackPath` -/
  | validating (before : String) (packs : List P) (file : String) (rest : List String)
  /-- `resource.ReadPath` -/
  | reading (before : String) (packs : List P) (file : String) (rest : List String)
  /-- the second `resourcePackFingerprint` -/
  | refingerprinting (before : String) (packs : List P) (text : List UInt8)
  /-- `before != after` -/
  | comparing (before : String) (packs : List P) (after : String)

/-- The next round of the loop over the files. -/
def LoadState.files (before : String) (packs : List P) : List String → LoadState P
  | [] => .refingerprinting before packs []
  | file :: rest => .validating before packs file rest

/-- The content key of a pack, if there is one for its UUID. -/
def Env.keyed (env : Env P) (pack : P) : P :=
  match env.encryptionKeys (env.uuid pack) with
  | some key => env.withContentKey pack key
  | none => pack

def loadStep (env : Env P) (answer : Answer P) :
    LoadState P → Option (Progress (LoadState P) (Load P))
  | .ensuring =>
      match answer with
      | .go => some (.goes (.fingerprinting []))
      | .failed err => some (.fails err)
      | _ => none
  | .fingerprinting text =>
      (fingerprintStep env text answer).map fun
        | .goes text => .goes (.fingerprinting text)
        | .fails err => .fails err
        | .yields before => .goes (.reensuring before)
  | .reensuring before =>
      match answer with
      | .go => some (.goes (.listing before))
      | .failed err => some (.fails err)
      | _ => none
  | .listing before =>
      match answer with
      | .listed files => some (.goes (.files before [] files))
      | .failed err => some (.fails err)
      | _ => none
  | .validating before packs file rest =>
      match answer with
      | .visited (.failed err) => some (.fails err)
      | .visited (.symlink path) =>
          some (.fails ("resource pack path contains symbolic link: " ++ path))
      | .visited _ => some (.goes (.validating before packs file rest))
      | .go => some (.goes (.reading before packs file rest))
      | _ => none
  | .reading before packs _ rest =>
      match answer with
      | .read pack => some (.goes (.files before (packs ++ [env.keyed pack]) rest))
      | .failed err => some (.fails err)
      | _ => none
  | .refingerprinting before packs text =>
      (fingerprintStep env text answer).map fun
        | .goes text => .goes (.refingerprinting before packs text)
        | .fails err => .fails err
        | .yields after => .goes (.comparing before packs after)
  | .comparing before packs after =>
      if stable : before = after then some (.yields ⟨packs, before, after, stable⟩)
      else some (.fails "resource packs changed while loading")

/-! ## The calls -/

abbrev CallID := Nat

/-- What a call returned. -/
inductive Result (P : Type) where
  /-- an error -/
  | failed (err : String)
  /-- `nil`, or `(true, nil)` -/
  | reloaded
  /-- `(false, nil)` -/
  | unchanged
  /-- the packs of `ResourcePacks` -/
  | packs (packs : List P)

/-- A call, at the statement it executes next. -/
inductive CallState (P : Type) where
  /-- `ReloadIfChanged`: `resourcePackFingerprint` -/
  | fingerprinting (text : List UInt8)
  /-- `m.mu.RLock()` -/
  | rlocking (fingerprint : String)
  /-- `fingerprint == m.fingerprint` -/
  | comparing (fingerprint : String)
  /-- `m.mu.RUnlock()` -/
  | runlocking (unchanged : Bool)
  /-- `Reload`: `m.reloadMu.Lock()` -/
  | locking
  /-- `m.load()` -/
  | loading (state : LoadState P)
  /-- `m.mu.Lock()` -/
  | installing (load : Load P)
  /-- `m.packs = packs` -/
  | settingPacks (load : Load P)
  /-- `m.fingerprint = fingerprint` -/
  | settingFingerprint (load : Load P)
  /-- `m.mu.Unlock()` -/
  | installed (load : Load P)
  /-- the deferred `m.reloadMu.Unlock()` -/
  | unlocking (result : Result P)
  /-- `ResourcePacks`: `m.mu.RLock()` -/
  | opening
  /-- `slices.Clone(m.packs)` -/
  | cloning
  /-- the deferred `m.mu.RUnlock()` -/
  | closing (packs : List P)
  | returned (result : Result P)

/-- What can be called. -/
inductive Op where
  | reload
  | reloadIfChanged
  | resourcePacks

def Op.start : Op → CallState P
  | reload => .locking
  | reloadIfChanged => .fingerprinting []
  | resourcePacks => .opening

/-- `ResourcePackManager`, with the calls on it. -/
structure Manager (P : Type) where
  /-- The call that holds it. -/
  reloadMu : Option CallID
  mu : RWLock CallID
  packs : List P
  fingerprint : String
  /-- `NewResourcePackManager` has returned it. -/
  created : Bool
  calls : CallID → Option (CallState P)

inductive Action (P : Type) where
  | enter (c : CallID) (op : Op)
  | step (c : CallID) (answer : Answer P)
  /-- `NewResourcePackManager` returns the manager -/
  | create

namespace Manager

/-- `NewResourcePackManager` calls `Reload`: that is call 0. -/
def initial : Manager P where
  reloadMu := none
  mu := .free
  packs := []
  fingerprint := ""
  created := false
  calls := Function.update (fun _ => none) 0 (some .locking)

def goto (m : Manager P) (c : CallID) (state : CallState P) : Manager P :=
  { m with calls := Function.update m.calls c (some state) }

/-- The next statement of a call; `none` where it waits. -/
def step (env : Env P) (m : Manager P) (c : CallID) (answer : Answer P) :
    CallState P → Option (Manager P)
  | .fingerprinting text =>
      (fingerprintStep env text answer).map fun
        | .goes text => m.goto c (.fingerprinting text)
        | .fails err => m.goto c (.returned (.failed err))
        | .yields fingerprint => m.goto c (.rlocking fingerprint)
  | .rlocking fingerprint =>
      (m.mu.rlock c).map fun mu => { m.goto c (.comparing fingerprint) with mu := mu }
  | .comparing fingerprint => some (m.goto c (.runlocking (fingerprint = m.fingerprint)))
  | .runlocking unchanged =>
      some { m.goto c (if unchanged then .returned .unchanged else .locking) with
        mu := m.mu.runlock c }
  | .locking =>
      match m.reloadMu with
      | some _ => none
      | none => some { m.goto c (.loading .ensuring) with reloadMu := some c }
  | .loading state =>
      (loadStep env answer state).map fun
        | .goes state => m.goto c (.loading state)
        | .fails err => m.goto c (.unlocking (.failed err))
        | .yields load => m.goto c (.installing load)
  | .installing load =>
      (m.mu.lock c).map fun mu => { m.goto c (.settingPacks load) with mu := mu }
  | .settingPacks load => some { m.goto c (.settingFingerprint load) with packs := load.packs }
  | .settingFingerprint load => some { m.goto c (.installed load) with fingerprint := load.after }
  | .installed _ => some { m.goto c (.unlocking .reloaded) with mu := m.mu.unlock }
  | .unlocking result => some { m.goto c (.returned result) with reloadMu := none }
  | .opening => (m.mu.rlock c).map fun mu => { m.goto c .cloning with mu := mu }
  | .cloning => some (m.goto c (.closing m.packs))
  | .closing packs => some { m.goto c (.returned (.packs packs)) with mu := m.mu.runlock c }
  | .returned _ => none

def next (env : Env P) (m : Manager P) : Action P → Option (Manager P)
  | .enter c op =>
      match m.created, m.calls c with
      | true, none => some (m.goto c op.start)
      | _, _ => none
  | .step c answer =>
      match m.calls c with
      | none => none
      | some state => m.step env c answer state
  | .create =>
      match m.calls 0 with
      | some (.returned .reloaded) => some { m with created := true }
      | _ => none

def machine (env : Env P) : Machine (Manager P) (Action P) where
  start := initial
  next := next env

end Manager

/-! ## What has been done -/

inductive Event (P : Type) where
  /-- `load` returned without an error -/
  | loaded (c : CallID) (load : Load P)
  | setPacks (c : CallID) (packs : List P)
  | setFingerprint (c : CallID) (fingerprint : String)
  /-- `ReloadIfChanged` compared the fingerprint it computed with the active one -/
  | compared (c : CallID) (computed active : String)

namespace Event

/-- The call that assigned the packs or the fingerprint. -/
def setter : Event P → Option CallID
  | setPacks c _ => some c
  | setFingerprint c _ => some c
  | _ => none

/-- What an event makes of the pair. -/
def assign (pair : List P × String) : Event P → List P × String
  | setPacks _ packs => (packs, pair.2)
  | setFingerprint _ fingerprint => (pair.1, fingerprint)
  | _ => pair

end Event

/-- The events of the next statement of a call. -/
def CallState.events (c : CallID) (fingerprint : String) : CallState P → List (Event P)
  | .comparing computed => [.compared c computed fingerprint]
  | .loading (.comparing before packs after) =>
      if stable : before = after then [.loaded c ⟨packs, before, after, stable⟩] else []
  | .settingPacks load => [.setPacks c load.packs]
  | .settingFingerprint load => [.setFingerprint c load.after]
  | _ => []

namespace CallState

/-- The call holds `mu` for reading. -/
def reads : CallState P → Bool
  | comparing _ => true
  | runlocking _ => true
  | cloning => true
  | closing _ => true
  | _ => false

/-- The call holds `mu` for writing. -/
def writes : CallState P → Bool
  | settingPacks _ => true
  | settingFingerprint _ => true
  | installed _ => true
  | _ => false

/-- A call of `ResourcePacks` that has not returned. -/
def snapshots : CallState P → Bool
  | opening => true
  | cloning => true
  | closing _ => true
  | _ => false

def isReturned : CallState P → Bool
  | returned _ => true
  | _ => false

end CallState

namespace Manager

def emitted (m : Manager P) : Action P → List (Event P)
  | .step c _ =>
      match m.calls c with
      | some state => state.events c m.fingerprint
      | none => []
  | _ => []

/-- The call has assigned nothing. -/
def Unset (log : List (Event P)) (c : CallID) : Prop := ∀ e ∈ log, e.setter ≠ some c

/-- The call has made this load and assigned both of its parts. -/
structure Installed (log : List (Event P)) (c : CallID) (load : Load P) : Prop where
  loaded : .loaded c load ∈ log
  packs : .setPacks c load.packs ∈ log
  fingerprint : .setFingerprint c load.after ∈ log

variable {env : Env P} {m m' : Manager P} {log more : List (Event P)} {c d : CallID}
  {answer : Answer P} {state state' : CallState P} {load : Load P}

/-! ## Each call by itself -/

/-- What a result says about the events. -/
def Warrants (log : List (Event P)) (c : CallID) : Result P → Prop
  | .failed _ => Unset log c
  | .reloaded => ∃ load, Installed log c load
  | .unchanged => ∃ fingerprint, .compared c fingerprint fingerprint ∈ log
  | .packs packs => ∃ d load, .loaded d load ∈ log ∧ packs = load.packs

/-- What the statement a call has come to says about the events. -/
def Fits (log : List (Event P)) (c : CallID) : CallState P → Prop
  | .runlocking unchanged =>
      Unset log c ∧ (unchanged = true → ∃ fingerprint, .compared c fingerprint fingerprint ∈ log)
  | .installing load => .loaded c load ∈ log ∧ Unset log c
  | .settingPacks load => .loaded c load ∈ log ∧ Unset log c
  | .settingFingerprint load => .loaded c load ∈ log ∧ .setPacks c load.packs ∈ log
  | .installed load => Installed log c load
  | .unlocking result => Warrants log c result
  | .closing packs => Warrants log c (.packs packs)
  | .returned result => Warrants log c result
  | _ => Unset log c

theorem Unset.append (unset : Unset log c) (others : ∀ e ∈ more, e.setter ≠ some c) :
    Unset (log ++ more) c := by
  intro e member
  rcases List.mem_append.mp member with old | new
  · exact unset e old
  · exact others e new

theorem Installed.append (installed : Installed log c load) : Installed (log ++ more) c load :=
  ⟨List.mem_append_left _ installed.loaded, List.mem_append_left _ installed.packs,
    List.mem_append_left _ installed.fingerprint⟩

theorem Warrants.append {result : Result P} (warrants : Warrants log c result)
    (others : ∀ e ∈ more, e.setter ≠ some c) : Warrants (log ++ more) c result := by
  cases result with
  | failed _ => exact Unset.append warrants others
  | reloaded =>
      obtain ⟨load, installed⟩ := warrants
      exact ⟨load, installed.append⟩
  | unchanged =>
      obtain ⟨fingerprint, compared⟩ := warrants
      exact ⟨fingerprint, List.mem_append_left _ compared⟩
  | packs _ =>
      obtain ⟨d, load, loaded, same⟩ := warrants
      exact ⟨d, load, List.mem_append_left _ loaded, same⟩

/-- Events of other calls change nothing for a call. -/
theorem Fits.append (fits : Fits log c state) (others : ∀ e ∈ more, e.setter ≠ some c) :
    Fits (log ++ more) c state := by
  cases state with
  | runlocking _ =>
      refine ⟨fits.1.append others, fun unchanged => ?_⟩
      obtain ⟨fingerprint, compared⟩ := fits.2 unchanged
      exact ⟨fingerprint, List.mem_append_left _ compared⟩
  | installing _ | settingPacks _ =>
      exact ⟨List.mem_append_left _ fits.1, fits.2.append others⟩
  | settingFingerprint _ =>
      exact ⟨List.mem_append_left _ fits.1, List.mem_append_left _ fits.2⟩
  | installed _ => exact Installed.append fits
  | closing packs =>
      have warrants : Warrants log c (.packs packs) := fits
      exact warrants.append others
  | unlocking _ | returned _ => exact Warrants.append fits others
  | _ => exact Unset.append fits others

/-! ## The pair -/

/-- The pair is as it was made, or what one load returned. -/
def Settled (packs : List P) (fingerprint : String) (log : List (Event P)) : Prop :=
  (∀ e ∈ log, e.setter = none) ∨
    ∃ c load, .loaded c load ∈ log ∧ packs = load.packs ∧ fingerprint = load.after

/-- The pair while a call holds `mu` for writing. -/
def Midway (packs : List P) (fingerprint : String) (log : List (Event P)) : CallState P → Prop
  | .settingPacks _ => Settled packs fingerprint log
  | .settingFingerprint load => packs = load.packs
  | .installed load => packs = load.packs ∧ fingerprint = load.after
  | _ => False

structure Sane (m : Manager P) (log : List (Event P)) : Prop where
  fresh : ∀ c, m.calls c = none → Unset log c
  fits : ∀ c state, m.calls c = some state → Fits log c state
  reads : ∀ c state, m.calls c = some state → state.reads = true → c ∈ m.mu.readers
  writes : ∀ c state, m.calls c = some state → state.writes = true → m.mu.writer = some c
  idle : m.mu.writer = none → Settled m.packs m.fingerprint log
  busy : ∀ c, m.mu.writer = some c →
    ∃ state, m.calls c = some state ∧ Midway m.packs m.fingerprint log state
  assigned : (m.packs, m.fingerprint) = log.foldl Event.assign ([], "")
  created : m.created = true → m.calls 0 = some (.returned .reloaded)
  snapshots : ∀ c state, m.calls c = some state → state.snapshots = true → m.created = true

theorem Settled.append {packs : List P} {fingerprint : String}
    (settled : Settled packs fingerprint log) (silent : ∀ e ∈ more, e.setter = none) :
    Settled packs fingerprint (log ++ more) := by
  rcases settled with untouched | ⟨c, load, loaded, pair⟩
  · refine .inl fun e member => ?_
    rcases List.mem_append.mp member with old | new
    · exact untouched e old
    · exact silent e new
  · exact .inr ⟨c, load, List.mem_append_left _ loaded, pair⟩

theorem Midway.writes {packs : List P} {fingerprint : String}
    (midway : Midway packs fingerprint log state) : state.writes = true := by
  cases state with
  | settingPacks _ | settingFingerprint _ | installed _ => rfl
  | _ => cases midway

theorem Midway.append {packs : List P} {fingerprint : String}
    (midway : Midway packs fingerprint log state) (silent : ∀ e ∈ more, e.setter = none) :
    Midway packs fingerprint (log ++ more) state := by
  cases state with
  | settingPacks _ => exact Settled.append midway silent
  | settingFingerprint _ | installed _ => exact midway
  | _ => cases midway

theorem foldl_assign_silent (silent : ∀ e ∈ more, e.setter = none) (pair : List P × String) :
    more.foldl Event.assign pair = pair := by
  induction more generalizing pair with
  | nil => rfl
  | cons e more ih =>
      have first := silent e (List.mem_cons_self ..)
      have rest := ih fun e member => silent e (List.mem_cons_of_mem _ member)
      cases e with
      | loaded _ _ | compared _ _ _ => exact rest pair
      | setPacks _ _ | setFingerprint _ _ => cases first

theorem calls_goto (found : (m.goto c state).calls d = some state') :
    (d = c ∧ state' = state) ∨ (d ≠ c ∧ m.calls d = some state') := by
  rcases update_some found with ⟨same, new⟩ | before
  · cases new
    exact .inl ⟨same, rfl⟩
  · exact .inr before

/-- A call moves on: what it has to show for that. -/
theorem Sane.move (sane : Sane m log) (found : m.calls c = some state)
    (running : state.isReturned = false) {reloadMu : Option CallID} {mu : RWLock CallID}
    {packs : List P} {fingerprint : String}
    (own : ∀ e ∈ more, e.setter = none ∨ e.setter = some c)
    (fits : Fits (log ++ more) c state')
    (readers : ∀ d, d ≠ c → d ∈ m.mu.readers → d ∈ mu.readers)
    (reads : state'.reads = true → c ∈ mu.readers)
    (writers : ∀ d, d ≠ c → m.mu.writer = some d → mu.writer = some d)
    (writes : state'.writes = true → mu.writer = some c)
    (snapshots : state'.snapshots = true → state.snapshots = true)
    (idle : mu.writer = none → Settled packs fingerprint (log ++ more))
    (busy : ∀ d, mu.writer = some d →
      ∃ state, (m.goto c state').calls d = some state ∧ Midway packs fingerprint (log ++ more) state)
    (assigned : (packs, fingerprint) = more.foldl Event.assign (m.packs, m.fingerprint)) :
    Sane { m.goto c state' with
      reloadMu := reloadMu, mu := mu, packs := packs, fingerprint := fingerprint } (log ++ more) := by
  have others : ∀ d, d ≠ c → ∀ e ∈ more, e.setter ≠ some d := by
    intro d other e member set
    rcases own e member with silent | byC
    · rw [silent] at set
      cases set
    · rw [byC] at set
      cases set
      exact other rfl
  constructor
  case fresh =>
    intro d absent
    by_cases same : d = c
    · subst same
      have there : (m.goto d state').calls d = some state' := Function.update_self ..
      cases there.symm.trans absent
    · have before : m.calls d = none := (Function.update_of_ne same ..).symm.trans absent
      exact (sane.fresh d before).append (others d same)
  case fits =>
    intro d _ there
    rcases calls_goto there with ⟨rfl, rfl⟩ | ⟨other, before⟩
    · exact fits
    · exact (sane.fits d _ before).append (others d other)
  case reads =>
    intro d _ there held
    rcases calls_goto there with ⟨rfl, rfl⟩ | ⟨other, before⟩
    · exact reads held
    · exact readers d other (sane.reads d _ before held)
  case writes =>
    intro d _ there held
    rcases calls_goto there with ⟨rfl, rfl⟩ | ⟨other, before⟩
    · exact writes held
    · exact writers d other (sane.writes d _ before held)
  case idle => exact idle
  case busy => exact busy
  case assigned => rw [List.foldl_append, ← sane.assigned, ← assigned]
  case created =>
    intro created
    have finished := sane.created created
    have other : 0 ≠ c := by
      rintro rfl
      rw [finished] at found
      cases found
      cases running
    exact (Function.update_of_ne other ..).trans finished
  case snapshots =>
    intro d _ there snapshot
    rcases calls_goto there with ⟨rfl, rfl⟩ | ⟨-, before⟩
    · exact sane.snapshots d state found (snapshots snapshot)
    · exact sane.snapshots d _ before snapshot

/-- A move that leaves the pair and its writer alone. -/
theorem Sane.quiet (sane : Sane m log) (found : m.calls c = some state)
    (running : state.isReturned = false) {reloadMu : Option CallID} {mu : RWLock CallID}
    (silent : ∀ e ∈ more, e.setter = none) (fits : Fits (log ++ more) c state')
    (readers : ∀ d, d ≠ c → d ∈ m.mu.readers → d ∈ mu.readers)
    (reads : state'.reads = true → c ∈ mu.readers) (writer : mu.writer = m.mu.writer)
    (before : state.writes = false) (after : state'.writes = false)
    (snapshots : state'.snapshots = true → state.snapshots = true) :
    Sane { m.goto c state' with reloadMu := reloadMu, mu := mu } (log ++ more) := by
  refine sane.move found running (fun e member => .inl (silent e member)) fits readers reads ?_ ?_
    snapshots ?_ ?_ ?_
  · intro d _ held
    rw [writer, held]
  · intro held
    rw [after] at held
    cases held
  · intro free
    exact (sane.idle (writer ▸ free)).append silent
  · intro d held
    obtain ⟨other, there, midway⟩ := sane.busy d (writer ▸ held)
    have apart : d ≠ c := by
      rintro rfl
      cases there.symm.trans found
      rw [midway.writes] at before
      cases before
    exact ⟨other, (Function.update_of_ne apart ..).trans there, midway.append silent⟩
  · exact (foldl_assign_silent silent _).symm

/-- A move that does nothing but go on, perhaps with `reloadMu`. -/
theorem Sane.goes (sane : Sane m log) (found : m.calls c = some state)
    (running : state.isReturned = false) {reloadMu : Option CallID} (fits : Fits log c state')
    (outside : state'.reads = true → state.reads = true) (before : state.writes = false)
    (after : state'.writes = false) (snapshots : state'.snapshots = true → state.snapshots = true) :
    Sane { m.goto c state' with reloadMu := reloadMu } (log ++ []) := by
  refine sane.quiet found running nofun ?_ (fun _ _ reads => reads) ?_ rfl before after snapshots
  · rw [List.append_nil]
    exact fits
  · exact fun reads => sane.reads c state found (outside reads)

/-- A call takes `mu` for reading. -/
theorem Sane.rlocks (sane : Sane m log) (found : m.calls c = some state)
    (running : state.isReturned = false) {mu : RWLock CallID} (locked : m.mu.rlock c = some mu)
    (fits : Fits log c state') (before : state.writes = false) (after : state'.writes = false)
    (snapshots : state'.snapshots = true → state.snapshots = true) :
    Sane { m.goto c state' with mu := mu } (log ++ []) := by
  obtain ⟨free, still, readers⟩ := RWLock.rlock_some locked
  refine sane.quiet found running nofun (fits.append nofun) ?_ ?_ (still.trans free.symm) before after
    snapshots
  · intro d _ reads
    rw [readers]
    exact List.mem_cons_of_mem c reads
  · intro _
    rw [readers]
    exact List.mem_cons_self ..

/-- A call that holds `mu` for writing assigns one half of the pair. -/
theorem Sane.assigns (sane : Sane m log) (found : m.calls c = some state)
    (running : state.isReturned = false) (held : m.mu.writer = some c) {e : Event P}
    {packs : List P} {fingerprint : String} (own : e.setter = some c)
    (fits : Fits (log ++ [e]) c state') (outside : state'.reads = false)
    (midway : Midway packs fingerprint (log ++ [e]) state')
    (snapshots : state'.snapshots = true → state.snapshots = true)
    (assigned : (packs, fingerprint) = e.assign (m.packs, m.fingerprint)) :
    Sane { m.goto c state' with packs := packs, fingerprint := fingerprint } (log ++ [e]) := by
  refine sane.move found running ?_ fits (fun _ _ reads => reads) ?_ (fun _ _ writes => writes)
    (fun _ => held) snapshots ?_ ?_ assigned
  · intro e' member
    rw [List.mem_singleton.mp member]
    exact .inr own
  · intro reads
    rw [outside] at reads
    cases reads
  · intro free
    cases held.symm.trans free
  · intro d writes
    cases held.symm.trans writes
    exact ⟨state', Function.update_self .., midway⟩

/-- The statements of `load`. -/
theorem Sane.loads {at_ : LoadState P} (sane : Sane m log) (found : m.calls c = some (.loading at_))
    (taken : m.step env c answer (.loading at_) = some m') :
    Sane m' (log ++ (CallState.loading at_).events c m.fingerprint) := by
  have unset : Unset log c := sane.fits c _ found
  obtain ⟨progress, loaded, rfl⟩ := Option.map_eq_some_iff.mp taken
  -- the last statement of `load` is the only one with an event
  by_cases last : ∃ before packs after, at_ = .comparing before packs after
  · obtain ⟨before, packs, after, rfl⟩ := last
    simp only [loadStep] at loaded
    simp only [CallState.events]
    split at loaded <;> cases loaded
    · rename_i stable
      rw [dif_pos stable]
      have silent : ∀ e ∈ [Event.loaded c ⟨packs, before, after, stable⟩], e.setter = none :=
        fun e member => by rw [List.mem_singleton.mp member]; rfl
      refine sane.quiet found rfl silent ⟨?_, ?_⟩ (fun _ _ reads => reads) nofun rfl rfl rfl nofun
      · exact List.mem_append_right _ (List.mem_singleton_self _)
      · exact unset.append fun e member => by rw [silent e member]; exact nofun
    · rename_i changed
      rw [dif_neg changed]
      exact sane.goes found rfl unset nofun rfl rfl nofun
  · have silent : (CallState.loading at_).events c m.fingerprint = [] := by
      cases at_ with
      | comparing before packs after => exact absurd ⟨before, packs, after, rfl⟩ last
      | _ => rfl
    rw [silent]
    cases progress with
    | goes _ => exact sane.goes found rfl unset nofun rfl rfl nofun
    | fails _ => exact sane.goes found rfl unset nofun rfl rfl nofun
    | yields load =>
        cases at_ with
        | comparing before packs after => exact absurd ⟨before, packs, after, rfl⟩ last
        | fingerprinting _ | refingerprinting _ _ _ =>
            obtain ⟨walked, -, impossible⟩ := Option.map_eq_some_iff.mp loaded
            cases walked <;> cases impossible
        | _ =>
            simp only [loadStep] at loaded
            split at loaded <;> cases loaded

/-- The pair belongs to a load once somebody has assigned it. -/
theorem Sane.settled (sane : Sane m log) (created : m.created = true) (free : m.mu.writer = none) :
    ∃ c load, .loaded c load ∈ log ∧ m.packs = load.packs ∧ m.fingerprint = load.after := by
  rcases sane.idle free with untouched | settled
  · obtain ⟨load, installed⟩ : ∃ load, Installed log 0 load := sane.fits 0 _ (sane.created created)
    cases untouched _ installed.packs
  · exact settled

/-- The statements of `Reload` under `mu`. -/
theorem Sane.installs (sane : Sane m log) (found : m.calls c = some state)
    (writing : state.writes = true) (taken : m.step env c answer state = some m') :
    Sane m' (log ++ state.events c m.fingerprint) := by
  have held : m.mu.writer = some c := sane.writes c state found writing
  have fits : Fits log c state := sane.fits c state found
  obtain ⟨_, there, midway⟩ := sane.busy c held
  cases found.symm.trans there
  cases state with
  | settingPacks load =>
      cases taken
      refine sane.assigns found rfl held rfl ⟨?_, ?_⟩ rfl rfl nofun rfl
      · exact List.mem_append_left _ fits.1
      · exact List.mem_append_right _ (List.mem_singleton_self _)
  | settingFingerprint load =>
      cases taken
      refine sane.assigns found rfl held rfl ⟨?_, ?_, ?_⟩ rfl ⟨midway, rfl⟩ nofun rfl
      · exact List.mem_append_left _ fits.1
      · exact List.mem_append_left _ fits.2
      · exact List.mem_append_right _ (List.mem_singleton_self _)
  | installed load =>
      cases taken
      refine sane.move found rfl nofun ?_ (fun _ _ reads => reads) nofun ?_ nofun nofun ?_ nofun rfl
      · exact ⟨load, Installed.append fits⟩
      · intro d other writes
        cases held.symm.trans writes
        exact absurd rfl other
      · intro _
        exact .inr ⟨c, load, List.mem_append_left _ (Installed.loaded fits), midway⟩
  | _ => cases writing

/-- **One statement of a call.** -/
theorem Sane.step (sane : Sane m log) (found : m.calls c = some state)
    (taken : m.step env c answer state = some m') :
    Sane m' (log ++ state.events c m.fingerprint) := by
  have fits : Fits log c state := sane.fits c state found
  cases state with
  | fingerprinting text =>
      obtain ⟨progress, -, rfl⟩ := Option.map_eq_some_iff.mp taken
      cases progress with
      | goes _ => exact sane.goes found rfl fits nofun rfl rfl nofun
      | fails _ => exact sane.goes found rfl fits nofun rfl rfl nofun
      | yields _ => exact sane.goes found rfl fits nofun rfl rfl nofun
  | rlocking fingerprint =>
      obtain ⟨mu, locked, rfl⟩ := Option.map_eq_some_iff.mp taken
      exact sane.rlocks found rfl locked fits rfl rfl nofun
  | comparing fingerprint =>
      cases taken
      have reader : c ∈ m.mu.readers := sane.reads c _ found rfl
      have silent : ∀ e ∈ [(.compared c fingerprint m.fingerprint : Event P)], e.setter = none :=
        fun e member => by rw [List.mem_singleton.mp member]; rfl
      refine sane.quiet found rfl silent ⟨?_, ?_⟩ (fun _ _ reads => reads) (fun _ => reader) rfl rfl rfl
        nofun
      · exact Unset.append fits fun e member => by rw [silent e member]; exact nofun
      · intro unchanged
        have same : fingerprint = m.fingerprint := of_decide_eq_true unchanged
        refine ⟨m.fingerprint, List.mem_append_right _ ?_⟩
        rw [same]
        exact List.mem_singleton_self _
  | runlocking unchanged =>
      cases taken
      have others : ∀ d, d ≠ c → d ∈ m.mu.readers → d ∈ (m.mu.runlock c).readers :=
        fun _ other => RWLock.mem_runlock other
      cases unchanged with
      | true =>
          have warrants : Warrants log c .unchanged := fits.2 rfl
          exact sane.quiet found rfl nofun (warrants.append nofun) others nofun rfl rfl rfl nofun
      | false =>
          exact sane.quiet found rfl nofun (fits.1.append nofun) others nofun rfl rfl rfl nofun
  | locking =>
      simp only [Manager.step] at taken
      split at taken <;> cases taken
      exact sane.goes found rfl fits nofun rfl rfl nofun
  | loading at_ => exact sane.loads found taken
  | installing load =>
      obtain ⟨mu, locked, rfl⟩ := Option.map_eq_some_iff.mp taken
      obtain ⟨free, none, held⟩ := RWLock.lock_some locked
      have settled := sane.idle free
      refine sane.move found rfl nofun (Fits.append fits nofun) ?_ nofun ?_ (fun _ => held) nofun ?_ ?_ rfl
      · intro d _ reads
        rw [none] at reads
        cases reads
      · intro d _ writes
        cases free.symm.trans writes
      · intro gone
        cases held.symm.trans gone
      · intro d writes
        cases held.symm.trans writes
        exact ⟨_, Function.update_self .., settled.append nofun⟩
  | settingPacks _ | settingFingerprint _ | installed _ => exact sane.installs found rfl taken
  | unlocking result =>
      cases taken
      exact sane.goes found rfl fits nofun rfl rfl nofun
  | opening =>
      obtain ⟨mu, locked, rfl⟩ := Option.map_eq_some_iff.mp taken
      exact sane.rlocks found rfl locked fits rfl rfl (fun _ => rfl)
  | cloning =>
      cases taken
      have free : m.mu.writer = none := RWLock.writer_of_reader (sane.reads c _ found rfl)
      obtain ⟨d, load, loaded, packs, -⟩ := sane.settled (sane.snapshots c _ found rfl) free
      exact sane.goes found rfl ⟨d, load, loaded, packs⟩ (fun _ => rfl) rfl rfl (fun _ => rfl)
  | closing packs =>
      cases taken
      have warrants : Warrants log c (.packs packs) := fits
      exact sane.quiet found rfl nofun (warrants.append nofun) (fun _ other => RWLock.mem_runlock other)
        nofun rfl rfl rfl nofun
  | returned _ => cases taken

/-- A call comes in. -/
theorem Sane.enter (sane : Sane m log) (created : m.created = true) (absent : m.calls c = none)
    (op : Op) : Sane (m.goto c op.start) log := by
  have unset : Unset log c := sane.fresh c absent
  have outside : (op.start : CallState P).reads = false ∧ (op.start : CallState P).writes = false := by
    cases op <;> exact ⟨rfl, rfl⟩
  constructor
  case fresh =>
    intro d gone
    refine sane.fresh d ?_
    by_cases same : d = c
    · rw [same]
      exact absent
    · exact (Function.update_of_ne same ..).symm.trans gone
  case fits =>
    intro d _ there
    rcases calls_goto there with ⟨rfl, rfl⟩ | ⟨-, before⟩
    · cases op <;> exact unset
    · exact sane.fits d _ before
  case reads =>
    intro d _ there held
    rcases calls_goto there with ⟨rfl, rfl⟩ | ⟨-, before⟩
    · rw [outside.1] at held
      cases held
    · exact sane.reads d _ before held
  case writes =>
    intro d _ there held
    rcases calls_goto there with ⟨rfl, rfl⟩ | ⟨-, before⟩
    · rw [outside.2] at held
      cases held
    · exact sane.writes d _ before held
  case idle => exact sane.idle
  case busy =>
    intro d held
    obtain ⟨state, there, midway⟩ := sane.busy d held
    exact ⟨state, update_free absent there, midway⟩
  case assigned => exact sane.assigned
  case created => exact fun created => update_free absent (sane.created created)
  case snapshots => exact fun _ _ _ _ => created

theorem initial_calls (there : (initial : Manager P).calls c = some state) : state = .locking := by
  have updated : Function.update (fun _ : CallID => none) 0 (some .locking) c = some state := there
  rcases update_some updated with ⟨-, new⟩ | ⟨-, old⟩
  · cases new
    rfl
  · cases old

theorem sane_initial : Sane (initial : Manager P) [] where
  fresh := fun _ _ => nofun
  fits := by
    intro c state there
    rw [initial_calls there]
    exact nofun
  reads := by
    intro c state there held
    rw [initial_calls there] at held
    cases held
  writes := by
    intro c state there held
    rw [initial_calls there] at held
    cases held
  idle := fun _ => .inl nofun
  busy := nofun
  assigned := rfl
  created := nofun
  snapshots := by
    intro c state there held
    rw [initial_calls there] at held
    cases held

theorem next_enter {op : Op} (taken : m.next env (.enter c op) = some m') :
    m.created = true ∧ m.calls c = none ∧ m' = m.goto c op.start := by
  simp only [Manager.next] at taken
  split at taken <;> cases taken
  exact ⟨‹_›, ‹_›, rfl⟩

theorem next_step (taken : m.next env (.step c answer) = some m') :
    ∃ state, m.calls c = some state ∧ m.step env c answer state = some m' := by
  simp only [Manager.next] at taken
  split at taken
  · cases taken
  · exact ⟨_, ‹_›, taken⟩

theorem next_create (taken : m.next env .create = some m') :
    m' = { m with created := true } ∧ m.calls 0 = some (.returned .reloaded) := by
  simp only [Manager.next] at taken
  split at taken <;> cases taken
  exact ⟨rfl, ‹_›⟩

/-- **One action of a run.** -/
theorem Sane.next (sane : Sane m log) {a : Action P} (taken : m.next env a = some m') :
    Sane m' (log ++ m.emitted a) := by
  cases a with
  | enter c op =>
      simp only [emitted, List.append_nil]
      obtain ⟨created, absent, rfl⟩ := next_enter taken
      exact sane.enter created absent op
  | step c answer =>
      obtain ⟨state, found, stepped⟩ := next_step taken
      simp only [emitted, found]
      exact sane.step found stepped
  | create =>
      simp only [emitted, List.append_nil]
      obtain ⟨rfl, finished⟩ := next_create taken
      exact ⟨sane.fresh, sane.fits, sane.reads, sane.writes, sane.idle, sane.busy, sane.assigned,
        fun _ => finished, fun _ _ _ _ => rfl⟩

/-- Packs are texts, and a fingerprint is what has been written, byte for byte. -/
def plain : Env String where
  hash := fun text => String.ofList (text.map fun b => Char.ofNat b.toNat)
  uuid := id
  withContentKey := fun pack _ => pack
  encryptionKeys := fun _ => none

/-- Some statements of a call that need no answer. -/
def go (c : CallID) (n : Nat) : List (Action String) := List.replicate n (.step c .go)

def visit (c : CallID) (path : String) : Action String :=
  .step c (.visited (.dir (ascii path)))

/-- The manager is made from an empty directory: a walk visits the directory itself. -/
def creation : List (Action String) :=
  go 0 2 ++ visit 0 "." :: go 0 2 ++ .step 0 (.listed []) :: visit 0 "." :: go 0 7 ++
    [Action.create]

end Manager

end Portal.ResourcePack
