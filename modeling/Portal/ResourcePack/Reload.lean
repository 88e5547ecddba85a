/-
# ResourcePack.Reload — a reload is all or nothing

The calls are watched from outside: every access to the file system is recorded with its
answer, and so are the events.  `Findings` is what a `load` that succeeds finds on disk, and
`Findings.accesses` are the accesses it takes, in their order: a walk of the directory, its
listing, every file validated and read, and a second walk.

`reload_all_or_nothing`: whenever `mu` is not held for writing, the pair is what one load
returned, and the record shows this load.  Its packs are those it read between its two walks,
its fingerprints are the hashes of what these walks visited, and they are equal.  What a call
has come to know is what it was answered (`CallState.Gathered`), one access after the other.
-/
import Portal.ResourcePack.Fingerprint
import Portal.Theory.History

namespace Portal.ResourcePack

open Portal.Theory Portal.Theory.History Portal.Theory.PartialMap Portal.Theory.Transition

set_option autoImplicit false

variable {P : Type}

/-! ## What is seen of the calls -/

/-- An access to the file system. -/
inductive Access where
  /-- `os.MkdirAll` -/
  | mkdirAll
  /-- the walk of `resourcePackFingerprint`, to its next entry or to its end -/
  | walk
  /-- `os.ReadDir` -/
  | readDir
  /-- the walk of `validateResourcePackPath`, to its next entry or to its end -/
  | validate (file : String)
  /-- `resource.ReadPath` -/
  | readPath (file : String)

/-- Accesses, with their answers. -/
abbrev Accesses (P : Type) := List (Access × Answer P)

/-- The access of the next statement of `load`. -/
def LoadState.access : LoadState P → Option Access
  | .ensuring => some .mkdirAll
  | .fingerprinting _ => some .walk
  | .reensuring _ => some .mkdirAll
  | .listing _ => some .readDir
  | .validating _ _ file _ => some (.validate file)
  | .reading _ _ file _ => some (.readPath file)
  | .refingerprinting _ _ _ => some .walk
  | .comparing _ _ _ => none

/-- The access of the next statement of a call. -/
def CallState.access : CallState P → Option Access
  | .fingerprinting _ => some .walk
  | .loading state => state.access
  | _ => none

inductive Sight (P : Type) where
  | accessed (c : CallID) (access : Access) (answer : Answer P)
  | event (e : Event P)

namespace Sight

def access? (c : CallID) : Sight P → Option (Access × Answer P)
  | accessed d access answer => if d = c then some (access, answer) else none
  | event _ => none

def event? : Sight P → Option (Event P)
  | accessed _ _ _ => none
  | event e => some e

/-- The accesses of a call, in order. -/
def accesses (c : CallID) (log : List (Sight P)) : Accesses P := log.filterMap (access? c)

def events (log : List (Sight P)) : List (Event P) := log.filterMap event?

/-- What the calls have made of the pair. -/
def pair (log : List (Sight P)) : List P × String := (events log).foldl Event.assign ([], "")

end Sight

/-- What is seen of the next statement of a call. -/
def CallState.sights (c : CallID) (fingerprint : String) (answer : Answer P)
    (state : CallState P) : List (Sight P) :=
  state.access.toList.map (fun access => .accessed c access answer) ++
    (state.events c fingerprint).map .event

def Manager.seen (m : Manager P) : Action P → List (Sight P)
  | .step c answer =>
      match m.calls c with
      | some state => state.sights c m.fingerprint answer
      | none => []
  | _ => []

/-! ## What a load finds -/

/-- A walk has visited these entries. -/
def visits (access : Access) (entries : List Visited) : Accesses P :=
  entries.map fun v => (access, .visited v)

/-- A walk that visits these entries, to its end. -/
def walk (access : Access) (entries : List Visited) : Accesses P :=
  visits access entries ++ [(access, .go)]

/-- A file that is validated and read. -/
structure Reading (P : Type) where
  file : String
  /-- what the walk of its path visits -/
  below : List Visited
  /-- what `resource.ReadPath` returns -/
  pack : P

def Reading.accesses (r : Reading P) : Accesses P :=
  walk (.validate r.file) r.below ++ [(.readPath r.file, .read r.pack)]

/-- The first walk, the listing, and the files that have been read; `rest` are the others. -/
def readTo (first : List Visited) (readings : List (Reading P)) (rest : List String) :
    Accesses P :=
  (.mkdirAll, .go) :: walk .walk first ++
    (.mkdirAll, .go) :: (.readDir, .listed (readings.map Reading.file ++ rest)) ::
      readings.flatMap Reading.accesses

/-- What a `load` that succeeds finds on disk. -/
structure Findings (P : Type) where
  /-- what the first `resourcePackFingerprint` visits -/
  first : List Visited
  readings : List (Reading P)
  /-- what the second `resourcePackFingerprint` visits -/
  second : List Visited

def Findings.accesses (found : Findings P) : Accesses P :=
  readTo found.first found.readings [] ++ walk .walk found.second

/-- The hash of what is written for these entries. -/
def Hashes (env : Env P) (entries : List Visited) (fingerprint : String) : Prop :=
  ∃ text, written entries = .ok text ∧ fingerprint = env.hash text

/-- What `load` returns for its findings. -/
structure Findings.Yields (env : Env P) (found : Findings P) (load : Load P) : Prop where
  before : Hashes env found.first load.before
  packs : load.packs = found.readings.map fun r => env.keyed r.pack
  after : Hashes env found.second load.after
  same : load.before = load.after

namespace Manager

/-- The call has loaded this: its accesses end with those of a `load` that yields it. -/
def Loaded (env : Env P) (log : List (Sight P)) (c : CallID) (load : Load P) : Prop :=
  ∃ (earlier later : List (Sight P)) (found : Findings P),
    log = earlier ++ .event (.loaded c load) :: later ∧
    found.accesses <:+ Sight.accesses c earlier ∧ found.Yields env load

/-- `ReloadIfChanged` has compared the fingerprint of its walk with the active one. -/
def Compared (env : Env P) (log : List (Sight P)) (c : CallID) (computed active : String) : Prop :=
  ∃ earlier later entries, log = earlier ++ .event (.compared c computed active) :: later ∧
    Sight.accesses c earlier = walk .walk entries ∧ Hashes env entries computed ∧
    active = (Sight.pair earlier).2

/-- **All or nothing.** -/
structure AllOrNothing (env : Env P) (m : Manager P) (log : List (Sight P)) : Prop where
  /-- Whoever can look at the pair sees what one load returned. -/
  active : m.created = true → m.mu.writer = none →
    ∃ c load, Loaded env log c load ∧ m.packs = load.packs ∧ m.fingerprint = load.after
  /-- The pair is what the calls have assigned. -/
  assigned : (m.packs, m.fingerprint) = Sight.pair log
  /-- A call that returned an error has assigned nothing. -/
  failed : ∀ c err, m.calls c = some (.returned (.failed err)) → Unset (Sight.events log) c
  /-- `(false, nil)`: the computed fingerprint was the active one. -/
  unchanged : ∀ c, m.calls c = some (.returned .unchanged) →
    ∃ fingerprint, Compared env log c fingerprint fingerprint
  /-- `(true, nil)`: the call has installed what it loaded. -/
  reloaded : ∀ c, m.calls c = some (.returned .reloaded) →
    ∃ load, Loaded env log c load ∧ Installed (Sight.events log) c load
  /-- `ResourcePacks` returns what one load returned. -/
  seen : ∀ c packs, m.calls c = some (.returned (.packs packs)) →
    ∃ d load, Loaded env log d load ∧ packs = load.packs

end Manager

/-! ## What a call has gathered -/

section Gather

variable (env : Env P)

/-- Some of the files have been read. -/
def ReadSome (seen : Accesses P) (before : String) (packs : List P) (rest : List String) : Prop :=
  ∃ first readings, seen = readTo first readings rest ∧ Hashes env first before ∧
    packs = readings.map fun r => env.keyed r.pack

/-- What `load` has come to know is what it has seen. -/
def LoadState.Gathered (seen : Accesses P) : LoadState P → Prop
  | .ensuring => seen = []
  | .fingerprinting text =>
      ∃ first, seen = (.mkdirAll, .go) :: visits .walk first ∧ written first = .ok text
  | .reensuring before =>
      ∃ first, seen = (.mkdirAll, .go) :: walk .walk first ∧ Hashes env first before
  | .listing before =>
      ∃ first, seen = (.mkdirAll, .go) :: walk .walk first ++ [(.mkdirAll, .go)] ∧
        Hashes env first before
  | .validating before packs file rest =>
      ∃ earlier below, ReadSome env earlier before packs (file :: rest) ∧
        seen = earlier ++ visits (.validate file) below
  | .reading before packs file rest =>
      ∃ earlier below, ReadSome env earlier before packs (file :: rest) ∧
        seen = earlier ++ walk (.validate file) below
  | .refingerprinting before packs text =>
      ∃ earlier second, ReadSome env earlier before packs [] ∧
        seen = earlier ++ visits .walk second ∧ written second = .ok text
  | .comparing before packs after =>
      ∃ earlier second, ReadSome env earlier before packs [] ∧
        seen = earlier ++ walk .walk second ∧ Hashes env second after

/-- The same for a call: `load` is what it does last. -/
def CallState.Gathered (seen : Accesses P) : CallState P → Prop
  | .fingerprinting text => ∃ entries, seen = visits .walk entries ∧ written entries = .ok text
  | .rlocking fingerprint => ∃ entries, seen = walk .walk entries ∧ Hashes env entries fingerprint
  | .comparing fingerprint => ∃ entries, seen = walk .walk entries ∧ Hashes env entries fingerprint
  | .loading state => ∃ since, since <:+ seen ∧ state.Gathered env since
  | _ => True

end Gather

variable {env : Env P} {answer : Answer P} {entries : List Visited} {text : List UInt8}

theorem visits_concat (access : Access) (entries : List Visited) (v : Visited) :
    (visits access (entries ++ [v]) : Accesses P) =
      visits access entries ++ [(access, .visited v)] :=
  List.map_append

theorem written_concat {v : Visited} {line : List UInt8} (wrote : written entries = .ok text)
    (more : v.record = .ok line) : written (entries ++ [v]) = .ok (text ++ line) := by
  induction entries generalizing text with
  | nil =>
      obtain rfl := Except.ok.inj wrote
      simp [written, more]
  | cons w rest ih =>
      rw [written] at wrote
      cases first : w.record with
      | error err => simp [first] at wrote
      | ok line' =>
          cases others : written rest with
          | error err => simp [first, others] at wrote
          | ok text' =>
              rw [first, others] at wrote
              obtain rfl := Except.ok.inj wrote
              rw [List.cons_append, written, first, ih others]
              simp

/-- A walk goes on with one more entry. -/
theorem fingerprintStep_goes {text' : List UInt8} (wrote : written entries = .ok text)
    (taken : fingerprintStep env text answer = some (.goes text')) :
    ∃ v, answer = .visited v ∧ written (entries ++ [v]) = .ok text' := by
  cases answer with
  | visited v =>
      cases line : v.record with
      | error err =>
          simp only [fingerprintStep, line] at taken
          cases taken
      | ok line' =>
          simp only [fingerprintStep, line] at taken
          cases taken
          exact ⟨v, rfl, written_concat wrote line⟩
  | _ => cases taken

/-- A walk ends with the hash of what it has written. -/
theorem fingerprintStep_yields {fingerprint : String} (wrote : written entries = .ok text)
    (taken : fingerprintStep env text answer = some (.yields fingerprint)) :
    answer = .go ∧ Hashes env entries fingerprint := by
  cases answer with
  | visited v =>
      cases line : v.record with
      | error err =>
          simp only [fingerprintStep, line] at taken
          cases taken
      | ok line' =>
          simp only [fingerprintStep, line] at taken
          cases taken
  | go =>
      cases taken
      exact ⟨rfl, text, wrote, rfl⟩
  | _ => cases taken

/-- The loop over the files goes on. -/
theorem ReadSome.files {seen : Accesses P} {before : String} {packs : List P} {rest : List String}
    (read : ReadSome env seen before packs rest) :
    (LoadState.files before packs rest).Gathered env seen := by
  cases rest with
  | nil => exact ⟨seen, [], read, (List.append_nil seen).symm, rfl⟩
  | cons file rest => exact ⟨seen, [], read, (List.append_nil seen).symm⟩

/-- One more file has been read. -/
theorem ReadSome.concat {seen : Accesses P} {before file : String} {packs : List P}
    {rest : List String} (read : ReadSome env seen before packs (file :: rest))
    (below : List Visited) (pack : P) :
    ReadSome env (seen ++ walk (.validate file) below ++ [(.readPath file, .read pack)]) before
      (packs ++ [env.keyed pack]) rest := by
  obtain ⟨first, readings, rfl, hashes, rfl⟩ := read
  refine ⟨first, readings ++ [⟨file, below, pack⟩], ?_, hashes, ?_⟩
  · simp [readTo, Reading.accesses]
  · simp

/-- **One access of `load`.** -/
theorem LoadState.Gathered.step {seen : Accesses P} {at_ at' : LoadState P}
    (gathered : at_.Gathered env seen) (taken : loadStep env answer at_ = some (.goes at')) :
    at'.Gathered env (seen ++ at_.access.toList.map (·, answer)) := by
  cases at_ with
  | ensuring =>
      cases answer <;> cases taken
      exact ⟨[], by rw [show seen = [] from gathered]; rfl, rfl⟩
  | fingerprinting text =>
      obtain ⟨first, rfl, wrote⟩ := gathered
      obtain ⟨progress, walked, same⟩ := Option.map_eq_some_iff.mp taken
      cases progress with
      | goes text' =>
          cases same
          obtain ⟨v, rfl, wrote'⟩ := fingerprintStep_goes wrote walked
          exact ⟨first ++ [v], by rw [visits_concat]; rfl, wrote'⟩
      | fails err => cases same
      | yields before =>
          cases same
          obtain ⟨rfl, hashes⟩ := fingerprintStep_yields wrote walked
          exact ⟨first, rfl, hashes⟩
  | reensuring before =>
      obtain ⟨first, rfl, hashes⟩ := gathered
      cases answer <;> cases taken
      exact ⟨first, rfl, hashes⟩
  | listing before =>
      obtain ⟨first, rfl, hashes⟩ := gathered
      cases answer with
      | listed files =>
          cases taken
          refine ReadSome.files ⟨first, [], ?_, hashes, rfl⟩
          simp [readTo, LoadState.access]
      | _ => cases taken
  | validating before packs file rest =>
      obtain ⟨earlier, below, read, rfl⟩ := gathered
      cases answer with
      | visited v =>
          have goes : at' = .validating before packs file rest := by cases v <;> cases taken <;> rfl
          rw [goes]
          exact ⟨earlier, below ++ [v], read, by rw [visits_concat, ← List.append_assoc]; rfl⟩
      | go =>
          cases taken
          exact ⟨earlier, below, read, by rw [walk, ← List.append_assoc]; rfl⟩
      | _ => cases taken
  | reading before packs file rest =>
      obtain ⟨earlier, below, read, rfl⟩ := gathered
      cases answer with
      | read pack =>
          cases taken
          exact (read.concat below pack).files
      | _ => cases taken
  | refingerprinting before packs text =>
      obtain ⟨earlier, second, read, rfl, wrote⟩ := gathered
      obtain ⟨progress, walked, same⟩ := Option.map_eq_some_iff.mp taken
      cases progress with
      | goes text' =>
          cases same
          obtain ⟨v, rfl, wrote'⟩ := fingerprintStep_goes wrote walked
          refine ⟨earlier, second ++ [v], read, ?_, wrote'⟩
          rw [visits_concat, ← List.append_assoc]
          rfl
      | fails err => cases same
      | yields after =>
          cases same
          obtain ⟨rfl, hashes⟩ := fingerprintStep_yields wrote walked
          exact ⟨earlier, second, read, by rw [walk, ← List.append_assoc]; rfl, hashes⟩
  | comparing before packs after =>
      simp only [loadStep] at taken
      split at taken <;> cases taken

/-- What `load` returns is what it has found. -/
theorem LoadState.Gathered.yields {seen : Accesses P} {before after : String} {packs : List P}
    (gathered : (LoadState.comparing before packs after).Gathered env seen)
    (stable : before = after) :
    ∃ found : Findings P, seen = found.accesses ∧
      found.Yields env ⟨packs, before, after, stable⟩ := by
  obtain ⟨_, second, ⟨first, readings, rfl, hashes, packs⟩, rfl, hashes'⟩ := gathered
  exact ⟨⟨first, readings, second⟩, rfl, hashes, packs, hashes', stable⟩

/-- **One statement of a call.** -/
theorem CallState.Gathered.step {m m' : Manager P} {c : CallID} {state : CallState P}
    {seen : Accesses P} (gathered : state.Gathered env seen)
    (taken : m.step env c answer state = some m') :
    ∃ state', m'.calls = Function.update m.calls c (some state') ∧
      state'.Gathered env (seen ++ state.access.toList.map (·, answer)) := by
  cases state with
  | fingerprinting text =>
      obtain ⟨entries, rfl, wrote⟩ := gathered
      obtain ⟨progress, walked, rfl⟩ := Option.map_eq_some_iff.mp taken
      cases progress with
      | goes text' =>
          obtain ⟨v, rfl, wrote'⟩ := fingerprintStep_goes wrote walked
          exact ⟨_, rfl, entries ++ [v], (visits_concat ..).symm, wrote'⟩
      | fails err => exact ⟨_, rfl, trivial⟩
      | yields fingerprint =>
          obtain ⟨rfl, hashes⟩ := fingerprintStep_yields wrote walked
          exact ⟨_, rfl, entries, rfl, hashes⟩
  | rlocking fingerprint =>
      obtain ⟨mu, -, rfl⟩ := Option.map_eq_some_iff.mp taken
      obtain ⟨entries, rfl, hashes⟩ := gathered
      exact ⟨_, rfl, entries, List.append_nil _, hashes⟩
  | runlocking unchanged =>
      obtain rfl := Option.some.inj taken
      cases unchanged <;> exact ⟨_, rfl, trivial⟩
  | locking =>
      simp only [Manager.step] at taken
      split at taken <;> cases taken
      exact ⟨_, rfl, [], List.nil_suffix, rfl⟩
  | loading at_ =>
      obtain ⟨progress, loaded, rfl⟩ := Option.map_eq_some_iff.mp taken
      cases progress with
      | goes at' =>
          obtain ⟨since, ⟨earlier, rfl⟩, gathered⟩ := gathered
          refine ⟨_, rfl, _, ?_, gathered.step loaded⟩
          exact ⟨earlier, (List.append_assoc ..).symm⟩
      | fails err => exact ⟨_, rfl, trivial⟩
      | yields load => exact ⟨_, rfl, trivial⟩
  | installing _ | opening =>
      obtain ⟨mu, -, rfl⟩ := Option.map_eq_some_iff.mp taken
      exact ⟨_, rfl, trivial⟩
  | returned _ => cases taken
  | _ =>
      obtain rfl := Option.some.inj taken
      exact ⟨_, rfl, trivial⟩

/-! ## Runs -/

namespace Sight

variable {c d : CallID}

theorem accesses_append (c : CallID) (log more : List (Sight P)) :
    accesses c (log ++ more) = accesses c log ++ accesses c more :=
  List.filterMap_append

theorem events_append (log more : List (Sight P)) :
    events (log ++ more) = events log ++ events more :=
  List.filterMap_append

theorem mem_events {e : Event P} {log : List (Sight P)} (member : e ∈ events log) :
    event e ∈ log := by
  obtain ⟨sight, here, is⟩ := List.mem_filterMap.mp member
  cases sight with
  | accessed _ _ _ => cases is
  | event _ =>
      cases is
      exact here

theorem accesses_sights (fingerprint : String) (state : CallState P) :
    accesses c (state.sights c fingerprint answer) = state.access.toList.map (·, answer) := by
  simp [accesses, CallState.sights, List.filterMap_map, Function.comp_def, access?]

theorem accesses_others (other : d ≠ c) (fingerprint : String) (state : CallState P) :
    accesses d (state.sights c fingerprint answer) = [] := by
  simp [accesses, CallState.sights, List.filterMap_map, Function.comp_def, access?, other.symm]

theorem events_sights (fingerprint : String) (state : CallState P) :
    events (state.sights c fingerprint answer) = state.events c fingerprint := by
  simp [events, CallState.sights, List.filterMap_map, Function.comp_def, event?]

end Sight

namespace Manager

variable {m m' : Manager P} {c : CallID} {state : CallState P} {log : List (Sight P)}

theorem events_seen (m : Manager P) (a : Action P) : Sight.events (m.seen a) = m.emitted a := by
  cases a with
  | enter c op | create => rfl
  | step c answer =>
      simp only [seen, emitted]
      cases m.calls c with
      | none => rfl
      | some state => exact Sight.events_sights ..

/-- What is known of an event, given what was seen before it. -/
def Shown (env : Env P) (before : List (Sight P)) : Sight P → Prop
  | .event (.loaded c load) =>
      ∃ found : Findings P, found.accesses <:+ Sight.accesses c before ∧ found.Yields env load
  | .event (.compared c computed active) =>
      ∃ entries, Sight.accesses c before = walk .walk entries ∧ Hashes env entries computed ∧
        active = (Sight.pair before).2
  | _ => True

/-- The record has the accesses behind all that the calls know, and behind the events. -/
structure Traced (env : Env P) (m : Manager P) (log : List (Sight P)) : Prop where
  sane : Sane m (Sight.events log)
  fresh : ∀ c, m.calls c = none → Sight.accesses c log = []
  gathered : ∀ c state, m.calls c = some state → state.Gathered env (Sight.accesses c log)
  each : Each (Shown env) log

/-- What is seen of a statement is shown. -/
theorem Traced.shown (traced : Traced env m log) (found : m.calls c = some state) :
    Each (Shown env) (log ++ state.sights c m.fingerprint answer) := by
  have gathered := traced.gathered c state found
  cases state with
  | comparing computed =>
      obtain ⟨entries, walked, hashes⟩ := gathered
      refine each_concat traced.each ⟨entries, walked, hashes, ?_⟩
      exact congrArg Prod.snd traced.sane.assigned
  | loading at_ =>
      cases at_ with
      | comparing before packs after =>
          obtain ⟨since, last, gathered⟩ := gathered
          simp only [CallState.sights, CallState.access, LoadState.access, CallState.events]
          split
          · rename_i stable
            obtain ⟨found, rfl, yields⟩ := gathered.yields stable
            exact each_concat traced.each ⟨found, last, yields⟩
          · exact (List.append_nil log).symm ▸ traced.each
      | _ => exact each_concat traced.each trivial
  | fingerprinting _ | settingPacks _ | settingFingerprint _ =>
      exact each_concat traced.each trivial
  | _ => exact (List.append_nil log).symm ▸ traced.each

theorem Traced.step (traced : Traced env m log) (found : m.calls c = some state)
    (taken : m.step env c answer state = some m')
    (sane : Sane m' (Sight.events (log ++ state.sights c m.fingerprint answer))) :
    Traced env m' (log ++ state.sights c m.fingerprint answer) := by
  obtain ⟨state', calls, gathered⟩ := (traced.gathered c state found).step taken
  constructor
  case sane => exact sane
  case fresh =>
    intro d absent
    rw [calls] at absent
    by_cases same : d = c
    · rw [same, Function.update_self] at absent
      cases absent
    · rw [Function.update_of_ne same] at absent
      rw [Sight.accesses_append, Sight.accesses_others same, traced.fresh d absent]
      rfl
  case gathered =>
    intro d _ there
    rw [calls] at there
    rw [Sight.accesses_append]
    rcases update_some there with ⟨rfl, new⟩ | ⟨other, before⟩
    · cases new
      rw [Sight.accesses_sights]
      exact gathered
    · rw [Sight.accesses_others other, List.append_nil]
      exact traced.gathered d _ before
  case each => exact traced.shown found

theorem Traced.next (traced : Traced env m log) {a : Action P} (taken : m.next env a = some m') :
    Traced env m' (log ++ m.seen a) := by
  have sane : Sane m' (Sight.events (log ++ m.seen a)) := by
    rw [Sight.events_append, events_seen]
    exact traced.sane.next taken
  cases a with
  | enter c op =>
      obtain ⟨-, absent, rfl⟩ := next_enter taken
      simp only [seen, List.append_nil] at sane ⊢
      refine ⟨sane, ?_, ?_, traced.each⟩
      · intro d gone
        by_cases same : d = c
        · rw [same]
          exact traced.fresh c absent
        · exact traced.fresh d ((Function.update_of_ne same ..).symm.trans gone)
      · intro d _ there
        rcases calls_goto there with ⟨rfl, rfl⟩ | ⟨-, before⟩
        · rw [traced.fresh d absent]
          cases op with
          | reload | resourcePacks => trivial
          | reloadIfChanged => exact ⟨[], rfl, rfl⟩
        · exact traced.gathered d _ before
  | step c answer =>
      obtain ⟨state, found, stepped⟩ := next_step taken
      simp only [seen, found] at sane ⊢
      exact traced.step found stepped sane
  | create =>
      obtain ⟨rfl, -⟩ := next_create taken
      simp only [seen, List.append_nil] at sane ⊢
      exact ⟨sane, traced.fresh, traced.gathered, traced.each⟩

theorem traced_initial (env : Env P) : Traced env initial [] where
  sane := sane_initial
  fresh := fun _ _ => rfl
  gathered := by
    intro c state there
    rw [initial_calls there]
    trivial
  each := each_nil

theorem Traced.loaded {load : Load P} (traced : Traced env m log)
    (loaded : .loaded c load ∈ Sight.events log) : Loaded env log c load := by
  obtain ⟨earlier, later, split, found, shown⟩ := traced.each.of_mem (Sight.mem_events loaded)
  exact ⟨earlier, later, found, split, shown⟩

theorem Traced.compared {computed active : String} (traced : Traced env m log)
    (compared : .compared c computed active ∈ Sight.events log) :
    Compared env log c computed active := by
  obtain ⟨earlier, later, split, entries, shown⟩ := traced.each.of_mem (Sight.mem_events compared)
  exact ⟨earlier, later, entries, split, shown⟩

/-- **A reload is all or nothing**, in every run of any number of calls on a directory
that changes as it likes. -/
theorem reload_all_or_nothing (env : Env P) {m : Manager P} {log : List (Sight P)}
    (reached : ((machine env).record seen).Reachable (m, log)) : AllOrNothing env m log := by
  have traced : Traced env m log := by
    refine reached.invariant (I := fun p => Traced env p.1 p.2) (traced_initial env) ?_
    rintro ⟨m, log⟩ ⟨m', log'⟩ a - traced - recorded
    obtain ⟨taken, logged⟩ := Machine.record_next recorded
    simp only at taken logged traced ⊢
    rw [logged]
    exact traced.next taken
  constructor
  case active =>
    intro created free
    obtain ⟨c, load, loaded, same⟩ := traced.sane.settled created free
    exact ⟨c, load, traced.loaded loaded, same⟩
  case assigned => exact traced.sane.assigned
  case failed => exact fun c err there => traced.sane.fits c _ there
  case unchanged =>
    intro c there
    obtain ⟨fingerprint, compared⟩ := traced.sane.fits c _ there
    exact ⟨fingerprint, traced.compared compared⟩
  case reloaded =>
    intro c there
    obtain ⟨load, installed⟩ := traced.sane.fits c _ there
    exact ⟨load, traced.loaded installed.loaded, installed⟩
  case seen =>
    intro c packs there
    obtain ⟨d, load, loaded, same⟩ := traced.sane.fits c _ there
    exact ⟨d, load, traced.loaded loaded, same⟩

/-- A pack appears, and it is replaced while it is being loaded. -/
def replaced : List (Action String) :=
  [Action.enter 1 .reloadIfChanged, visit 1 ".", visit 1 "a"] ++ go 1 6 ++
    [visit 1 ".", visit 1 "a"] ++ go 1 2 ++
    [Action.step 1 (.listed ["a"]), visit 1 "a", .step 1 .go, .step 1 (.read "p"),
      visit 1 ".", visit 1 "b"] ++ go 1 3

/-- A call that finds another pack, and loads it. -/
def followed : List (Action String) :=
  [Action.enter 2 .reload, .step 2 .go, .step 2 .go, visit 2 ".", visit 2 "b"] ++ go 2 2 ++
    [Action.step 2 (.listed ["b"]), visit 2 "b", .step 2 .go, .step 2 (.read "q"),
      visit 2 ".", visit 2 "b"] ++ go 2 7

/-- A call that finds nothing new. -/
def rechecked : List (Action String) :=
  [Action.enter 3 .reloadIfChanged, visit 3 ".", visit 3 "b"] ++ go 3 4

theorem reload_all_or_nothing_replaced :
    ∃ m log, ((machine plain).record seen).Reachable (m, log) ∧ AllOrNothing plain m log ∧
      m.created = true ∧ m.mu.writer = none ∧ m.packs = ["q"] ∧
      m.calls 1 = some (.returned (.failed "resource packs changed while loading")) ∧
      m.calls 2 = some (.returned .reloaded) ∧ m.calls 3 = some (.returned .unchanged) := by
  have reached : ((machine plain).record seen).Reachable _ :=
    Machine.exec_reach (creation ++ replaced ++ followed ++ rechecked) rfl
  exact ⟨_, _, reached, reload_all_or_nothing plain reached, rfl, rfl, rfl, rfl, rfl, rfl⟩

end Manager

end Portal.ResourcePack
