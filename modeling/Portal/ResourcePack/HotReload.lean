/-
# ResourcePack.HotReload — the packs follow the directory

`StartHotReload` calls `ReloadIfChanged` at every tick, and only the listener's calls of
`ResourcePacks` run beside it.  The directory may change at any moment, between any two
accesses of a check; from `settle` on it stands still until the next `disturb`, and then its
accesses have no other answers than its own (`answers`).  A walk that began earlier may still
see anything.

`hot_reload_converges`: on a directory that loads without an error (no pack is broken, and there
is no symbolic link), the first check that begins on it as it stands leaves the packs and the
fingerprint of this directory behind, whatever was active and whatever a check before it has
done; and from then on every check finds them unchanged.  What a check has gathered so far
agrees with the directory (`CallState.Follows`), one statement after the other.
-/
import Portal.ResourcePack.Fingerprint

namespace Portal.ResourcePack

open Portal.Theory Portal.Theory.PartialMap Portal.Theory.Separator Portal.Theory.Transition

set_option autoImplicit false

variable {P : Type}

/-- A directory that stands still and loads without an error: every access succeeds, every pack
can be read and nothing is a symbolic link. -/
structure Directory (P : Type) where
  /-- what a walk visits -/
  listing : Listing
  /-- what `os.ReadDir` returns -/
  files : List String
  /-- what a walk of the path of a file visits -/
  below : String → Listing
  /-- what `resource.ReadPath` returns -/
  pack : String → P

namespace Directory

variable (env : Env P) (d : Directory P)

def fingerprint : String := env.hash (terminated 0 d.listing.words)

/-- The packs of some files. -/
def read (files : List String) : List P := files.map fun file => env.keyed (d.pack file)

def packs : List P := d.read env d.files

end Directory

/-! ## The loop -/

/-- `StartHotReload`, at the statement it executes next. -/
inductive LoopState where
  /-- the `select` -/
  | selecting
  /-- `m.ReloadIfChanged()` -/
  | checking (c : CallID)
  /-- `m.ResourcePacks()`, for the number in the message -/
  | counting (c : CallID)
  | ended

/-- The call of the loop. -/
def LoopState.call : LoopState → Option CallID
  | checking c => some c
  | counting c => some c
  | _ => none

/-- The manager, the loop and the directory. -/
structure Watch (P : Type) where
  manager : Manager P
  loop : LoopState
  /-- The directory, while it stands still. -/
  disk : Option (Directory P)
  /-- What the walk of the loop has still to visit, if it began on this directory. -/
  walk : Option Listing
  /-- What was logged. -/
  messages : List String

inductive Move (P : Type) where
  /-- the directory stands still from now on -/
  | settle (d : Directory P)
  /-- the directory changes -/
  | disturb
  /-- `NewResourcePackManager`, and the calls of the listener -/
  | outside (a : Action P)
  /-- `<-ctx.Done()` -/
  | done
  /-- `<-ticker.C`, and `c` is the call that follows -/
  | tick (c : CallID)
  /-- the next statement of the call; `free` where the directory leaves the answer open -/
  | check (free : Answer P)
  /-- the loop goes on with what its call returned; `c` is the call for the message -/
  | resume (c : CallID)

/-- The walk a call makes. -/
def CallState.walks : CallState P → Option (Directory P → Listing)
  | .fingerprinting _ => some Directory.listing
  | .loading (.fingerprinting _) => some Directory.listing
  | .loading (.refingerprinting _ _ _) => some Directory.listing
  | .loading (.validating _ _ file _) => some fun d => d.below file
  | _ => none

/-- The next answer of a walk. -/
def walked (walk : Option Listing) (free : Answer P) : Answer P :=
  match walk with
  | none => free
  | some [] => .go
  | some (e :: _) => .visited e.visited

/-- The answer of the file system to the next access of a call. -/
def answers (disk : Option (Directory P)) (walk : Option Listing) (free : Answer P) :
    CallState P → Answer P
  | .fingerprinting _ => walked walk free
  | .loading (.fingerprinting _) => walked walk free
  | .loading (.refingerprinting _ _ _) => walked walk free
  | .loading (.validating _ _ _ _) => walked walk free
  | .loading .ensuring => disk.elim free fun _ => .go
  | .loading (.reensuring _) => disk.elim free fun _ => .go
  | .loading (.listing _) => disk.elim free fun d => .listed d.files
  | .loading (.reading _ _ file _) =>
      disk.elim free fun d => if file ∈ d.files then .read (d.pack file) else free
  | _ => free

/-- What is left to visit after an answer, in the state it leads to. -/
def advance (disk : Option (Directory P)) (walk : Option Listing) (answer : Answer P)
    (state : CallState P) : Option Listing :=
  match answer with
  | .visited _ => walk.map List.tail
  | _ => disk.bind fun d => state.walks.map fun of => of d

namespace Watch

def initial : Watch P := ⟨.initial, .selecting, none, none, []⟩

/-- An action that is not the loop's. -/
def foreign (w : Watch P) : Action P → Bool
  | .enter _ .resourcePacks => true
  | .enter _ _ => false
  | .step c _ => w.loop.call ≠ some c
  | .create => true

/-- The loop after the result of its call. -/
def proceed (env : Env P) (w : Watch P) (c : CallID) : LoopState → Result P → Option (Watch P)
  | .checking _, .failed err =>
      some { w with
        loop := .selecting
        messages := w.messages ++ ["failed to hot reload resource packs: " ++ err] }
  | .checking _, .unchanged => some { w with loop := .selecting }
  | .checking _, .reloaded =>
      (w.manager.next env (.enter c .resourcePacks)).map fun m =>
        { w with manager := m, loop := .counting c }
  | .counting _, .packs packs =>
      some { w with
        loop := .selecting
        messages := w.messages ++ ["hot reloaded " ++ toString packs.length ++ " resource pack(s)"] }
  | _, _ => none

def next (env : Env P) (w : Watch P) : Move P → Option (Watch P)
  | .settle d =>
      match w.disk with
      | none => some { w with disk := some d, walk := none }
      | some _ => none
  | .disturb => some { w with disk := none, walk := none }
  | .outside a =>
      if w.foreign a then (w.manager.next env a).map fun m => { w with manager := m } else none
  | .done =>
      match w.loop with
      | .selecting => some { w with loop := .ended }
      | _ => none
  | .tick c =>
      match w.loop with
      | .selecting =>
          (w.manager.next env (.enter c .reloadIfChanged)).map fun m =>
            { w with manager := m, loop := .checking c, walk := w.disk.map Directory.listing }
      | _ => none
  | .check free =>
      match w.loop.call with
      | none => none
      | some c =>
          match w.manager.calls c with
          | none => none
          | some state =>
              (w.manager.step env c (answers w.disk w.walk free state) state).map fun m =>
                { w with
                  manager := m
                  walk := (m.calls c).bind
                    (advance w.disk w.walk (answers w.disk w.walk free state)) }
  | .resume c =>
      match w.loop.call.bind w.manager.calls with
      | some (.returned result) => w.proceed env c w.loop result
      | _ => none

def machine (env : Env P) : Machine (Watch P) (Move P) where
  start := initial
  next := next env

end Watch

/-! ## What is recorded -/

/-- How a check ended. -/
inductive Report where
  | failed (err : String)
  | unchanged
  /-- with the number in the message -/
  | reloaded (count : Nat)
  deriving DecidableEq

inductive Moment (P : Type) where
  | event (e : Event P)
  | settled
  | disturbed
  /-- a check begins -/
  | began
  | ended (report : Report)

def Moment.event? : Moment P → Option (Event P)
  | .event e => some e
  | _ => none

def events (log : List (Moment P)) : List (Event P) := log.filterMap Moment.event?

namespace Watch

/-- How the check of the loop ends, if it does. -/
def ending : LoopState → Result P → List (Moment P)
  | .checking _, .failed err => [.ended (.failed err)]
  | .checking _, .unchanged => [.ended .unchanged]
  | .counting _, .packs packs => [.ended (.reloaded packs.length)]
  | _, _ => []

def moments (w : Watch P) : Move P → List (Moment P)
  | .settle _ => [.settled]
  | .disturb => [.disturbed]
  | .outside a => (w.manager.emitted a).map .event
  | .done => []
  | .tick _ => [.began]
  | .check _ =>
      match w.loop.call with
      | none => []
      | some c =>
          match w.manager.calls c with
          | none => []
          | some state => (state.events c w.manager.fingerprint).map .event
  | .resume _ =>
      match w.loop.call.bind w.manager.calls with
      | some (.returned result) => ending w.loop result
      | _ => []

end Watch

/-- The checks since the directory last changed. -/
structure Phase where
  /-- one has begun and not ended -/
  open_ : Bool
  /-- those that have begun and ended -/
  reports : List Report

def Phase.after : Phase → Moment P → Phase
  | p, .event _ => p
  | _, .settled => ⟨false, []⟩
  | _, .disturbed => ⟨false, []⟩
  | p, .began => ⟨true, p.reports⟩
  | p, .ended report => if p.open_ then ⟨false, p.reports ++ [report]⟩ else p

def phase (log : List (Moment P)) : Phase := log.foldl Phase.after ⟨false, []⟩

theorem phase_concat (log : List (Moment P)) (moment : Moment P) :
    phase (log ++ [moment]) = (phase log).after moment := by
  simp [phase]

theorem events_append (log more : List (Moment P)) :
    events (log ++ more) = events log ++ events more := List.filterMap_append

theorem events_event (es : List (Event P)) : events (es.map Moment.event) = es := by
  simp [events, List.filterMap_map, Function.comp_def, Moment.event?]

theorem events_silent {moment : Moment P} (log : List (Moment P)) (silent : moment.event? = none) :
    events (log ++ [moment]) = events log := by
  simp [events, silent]

theorem phase_events (log : List (Moment P)) (es : List (Event P)) :
    phase (log ++ es.map .event) = phase log := by
  induction es generalizing log with
  | nil => simp
  | cons e es ih =>
      rw [List.map_cons, ← List.singleton_append, ← List.append_assoc, ih, phase_concat]
      rfl

/-! ## One check on a directory that stands still -/

section Check

variable (env : Env P) (d : Directory P)

/-- The packs and the fingerprint of the directory are the active ones. -/
def Active (m : Manager P) : Prop := m.packs = d.packs env ∧ m.fingerprint = d.fingerprint env

/-- What was written and what is left to visit is the directory. -/
def Remains (text : List UInt8) (walk : Option Listing) : Prop :=
  ∃ rest, walk = some rest ∧ text ++ terminated 0 rest.words = terminated 0 d.listing.words

/-- What `load` has gathered agrees with the directory. -/
def LoadState.Follows (walk : Option Listing) : LoadState P → Prop
  | .ensuring => True
  | .fingerprinting text => Remains d text walk
  | .reensuring before => before = d.fingerprint env
  | .listing before => before = d.fingerprint env
  | .validating before packs file rest =>
      before = d.fingerprint env ∧ packs ++ d.read env (file :: rest) = d.packs env ∧
        (∀ f ∈ file :: rest, f ∈ d.files) ∧ walk ≠ none
  | .reading before packs file rest =>
      before = d.fingerprint env ∧ packs ++ d.read env (file :: rest) = d.packs env ∧
        ∀ f ∈ file :: rest, f ∈ d.files
  | .refingerprinting before packs text =>
      before = d.fingerprint env ∧ packs = d.packs env ∧ Remains d text walk
  | .comparing before packs after =>
      before = d.fingerprint env ∧ packs = d.packs env ∧ after = d.fingerprint env

/-- The check agrees with the directory, and it reloads only if it is the first. -/
def CallState.Follows (reports : List Report) (walk : Option Listing) (m : Manager P) :
    CallState P → Prop
  | .fingerprinting text => Remains d text walk
  | .rlocking fingerprint => fingerprint = d.fingerprint env
  | .comparing fingerprint => fingerprint = d.fingerprint env
  | .runlocking unchanged =>
      if unchanged then m.fingerprint = d.fingerprint env else reports = []
  | .locking => reports = []
  | .loading state => reports = [] ∧ state.Follows env d walk
  | .installing load =>
      reports = [] ∧ load.packs = d.packs env ∧ load.after = d.fingerprint env
  | .settingPacks load =>
      reports = [] ∧ load.packs = d.packs env ∧ load.after = d.fingerprint env
  | .settingFingerprint load =>
      reports = [] ∧ m.packs = d.packs env ∧ load.after = d.fingerprint env
  | .installed _ => reports = [] ∧ Active env d m
  | .unlocking result => reports = [] ∧ result = .reloaded ∧ Active env d m
  | .returned result =>
      result = .unchanged ∧ m.fingerprint = d.fingerprint env ∨
        result = .reloaded ∧ reports = [] ∧ Active env d m
  | _ => False

/-- Every load with the fingerprint of the directory has read its packs. -/
def Telling (log : List (Event P)) : Prop :=
  ∀ c load, .loaded c load ∈ log → load.after = d.fingerprint env → load.packs = d.packs env

/-- The accesses a walk has still to make, without its end. -/
def ahead (walk : Option Listing) : Nat := (walk.getD []).length

/-- The accesses of the loop over some files. -/
def Directory.rounds (files : List String) : Nat :=
  (files.map fun file => (d.below file).length + 2).sum

/-- The statements that are left when the files have been read. -/
def Directory.finish : Nat := d.listing.length + 7

/-- The statements of a call that are left when it is in `load`. -/
def LoadState.remaining (walk : Option Listing) : LoadState P → Nat
  | .ensuring => d.listing.length + 4 + d.rounds d.files + d.finish
  | .fingerprinting _ => ahead walk + 3 + d.rounds d.files + d.finish
  | .reensuring _ => 2 + d.rounds d.files + d.finish
  | .listing _ => 1 + d.rounds d.files + d.finish
  | .validating _ _ _ rest => ahead walk + 2 + d.rounds rest + d.finish
  | .reading _ _ _ rest => 1 + d.rounds rest + d.finish
  | .refingerprinting _ _ _ => ahead walk + 7
  | .comparing _ _ _ => 6

/-- The statements a check has left at most. -/
def CallState.remaining (walk : Option Listing) : CallState P → Nat
  | .fingerprinting _ => ahead walk + 5 + (LoadState.ensuring : LoadState P).remaining d none
  | .rlocking _ => 4 + (LoadState.ensuring : LoadState P).remaining d none
  | .comparing _ => 3 + (LoadState.ensuring : LoadState P).remaining d none
  | .runlocking _ => 2 + (LoadState.ensuring : LoadState P).remaining d none
  | .locking => 1 + (LoadState.ensuring : LoadState P).remaining d none
  | .loading state => state.remaining d walk
  | .installing _ => 5
  | .settingPacks _ => 4
  | .settingFingerprint _ => 3
  | .installed _ => 2
  | .unlocking _ => 1
  | _ => 0

end Check

variable {env : Env P} {d : Directory P} {m m' : Manager P} {walk : Option Listing}
  {reports : List Report} {log more : List (Event P)} {c : CallID} {free : Answer P}

/-- A walk that began on the directory sees what is left of it, and ends with its
fingerprint. -/
theorem Remains.step {text : List UInt8} {progress : Progress (List UInt8) String}
    (remains : Remains d text walk)
    (walking : fingerprintStep env text (walked walk free) = some progress) :
    (∃ e rest, walk = some (e :: rest) ∧ walked walk free = .visited e.visited ∧
      ∃ more, progress = .goes more ∧ Remains d more (some rest)) ∨
    (walked walk free = .go ∧ progress = .yields (d.fingerprint env)) := by
  obtain ⟨rest, rfl, whole⟩ := remains
  cases rest with
  | nil =>
      right
      have written : text = terminated 0 d.listing.words := by
        simpa [Listing.words, terminated] using whole
      rw [written] at walking
      exact ⟨rfl, (Option.some.inj walking).symm⟩
  | cons e rest =>
      left
      refine ⟨e, rest, rfl, rfl, text ++ terminated 0 e.words, ?_, rest, rfl, ?_⟩
      · simp only [walked, fingerprintStep, e.record_visited] at walking
        exact (Option.some.inj walking).symm
      · rw [← whole, Listing.words_cons]
        simp [terminated]

theorem remains_start (d : Directory P) : Remains d [] (some d.listing) := ⟨_, rfl, rfl⟩

/-- The next round of the loop over the files. -/
theorem Follows.files (walk : Option Listing) (answer : Answer P) {packs : List P}
    {files : List String} (gathered : packs ++ d.read env files = d.packs env) (listed : ∀ f ∈ files, f ∈ d.files)
    (other : ∀ v, answer ≠ .visited v) :
    (LoadState.files (d.fingerprint env) packs files).Follows env d
        (advance (some d) walk answer (.loading (LoadState.files (d.fingerprint env) packs files))) ∧
      (LoadState.files (d.fingerprint env) packs files).remaining d
        (advance (some d) walk answer (.loading (LoadState.files (d.fingerprint env) packs files))) =
          d.rounds files + d.finish := by
  have begins : ∀ state : CallState P, advance (some d) walk answer state =
      state.walks.map fun of => of d := by
    intro state
    cases answer with
    | visited v => exact absurd rfl (other v)
    | _ => rfl
  rw [begins]
  cases files with
  | nil =>
      refine ⟨⟨rfl, ?_, remains_start d⟩, ?_⟩
      · simpa [Directory.read] using gathered
      · show d.listing.length + 7 = 0 + d.finish
        rw [Directory.finish, Nat.zero_add]
  | cons file rest =>
      refine ⟨⟨rfl, gathered, listed, Option.some_ne_none _⟩, ?_⟩
      show (d.below file).length + 2 + d.rounds rest + d.finish = d.rounds (file :: rest) + d.finish
      simp [Directory.rounds]

/-- **One access of `load`.** -/
theorem LoadState.Follows.step {state : LoadState P} {progress : Progress (LoadState P) (Load P)}
    (follows : state.Follows env d walk)
    (taken : loadStep env (answers (some d) walk free (.loading state)) state = some progress) :
    (∃ state', progress = .goes state' ∧
      state'.Follows env d
        (advance (some d) walk (answers (some d) walk free (.loading state)) (.loading state')) ∧
      state'.remaining d
        (advance (some d) walk (answers (some d) walk free (.loading state)) (.loading state')) <
          state.remaining d walk) ∨
    ∃ load, progress = .yields load ∧ load.packs = d.packs env ∧
      load.after = d.fingerprint env ∧ 5 < state.remaining d walk := by
  cases state with
  | ensuring =>
      obtain rfl := Option.some.inj taken
      refine .inl ⟨_, rfl, remains_start d, ?_⟩
      show d.listing.length + 3 + d.rounds d.files + d.finish <
        d.listing.length + 4 + d.rounds d.files + d.finish
      omega
  | fingerprinting text =>
      obtain ⟨walking, stepped, rfl⟩ := Option.map_eq_some_iff.mp taken
      rcases Remains.step follows stepped with
        ⟨e, rest, rfl, answer, more, rfl, remains⟩ | ⟨answer, rfl⟩
      · refine .inl ⟨_, rfl, remains, ?_⟩
        show rest.length + 3 + d.rounds d.files + d.finish <
          rest.length + 1 + 3 + d.rounds d.files + d.finish
        omega
      · refine .inl ⟨_, rfl, rfl, ?_⟩
        simp only [LoadState.remaining]
        omega
  | reensuring before =>
      obtain rfl := Option.some.inj taken
      refine .inl ⟨_, rfl, follows, ?_⟩
      simp only [LoadState.remaining]
      omega
  | listing before =>
      obtain rfl := Option.some.inj taken
      obtain rfl : before = d.fingerprint env := follows
      obtain ⟨follows, left⟩ := Follows.files walk (.listed d.files)
        (rfl : [] ++ d.read env d.files = d.packs env) (fun _ member => member) (by rintro v ⟨⟩)
      refine .inl ⟨_, rfl, follows, ?_⟩
      refine Nat.lt_of_le_of_lt (Nat.le_of_eq left) ?_
      simp only [LoadState.remaining]
      omega
  | validating before packs file rest =>
      obtain ⟨rfl, gathered, listed, begun⟩ := follows
      obtain ⟨left, rfl⟩ := Option.ne_none_iff_exists'.mp begun
      cases left with
      | nil =>
          obtain rfl := Option.some.inj taken
          refine .inl ⟨_, rfl, ⟨rfl, gathered, listed⟩, ?_⟩
          simp only [LoadState.remaining]
          omega
      | cons e left =>
          have passes : progress =
              .goes (.validating (d.fingerprint env) packs file rest) := by
            cases e <;> exact (Option.some.inj taken).symm
          subst passes
          refine .inl ⟨_, rfl, ⟨rfl, gathered, listed, Option.some_ne_none _⟩, ?_⟩
          show left.length + 2 + d.rounds rest + d.finish <
            left.length + 1 + 2 + d.rounds rest + d.finish
          omega
  | reading before packs file rest =>
      obtain ⟨rfl, gathered, listed⟩ := follows
      have there : file ∈ d.files := listed file (List.mem_cons_self ..)
      have answer : answers (some d) walk free
          (.loading (.reading (d.fingerprint env) packs file rest)) = .read (d.pack file) :=
        if_pos there
      rw [answer] at taken ⊢
      obtain rfl := Option.some.inj taken
      have gathered : packs ++ [env.keyed (d.pack file)] ++ d.read env rest = d.packs env := by
        rw [← gathered]
        simp [Directory.read]
      obtain ⟨follows, left⟩ := Follows.files walk (.read (d.pack file)) gathered
        (fun f member => listed f (List.mem_cons_of_mem _ member)) (by rintro v ⟨⟩)
      refine .inl ⟨_, rfl, follows, ?_⟩
      refine Nat.lt_of_le_of_lt (Nat.le_of_eq left) ?_
      simp only [LoadState.remaining]
      omega
  | refingerprinting before packs text =>
      obtain ⟨rfl, rfl, remains⟩ := follows
      obtain ⟨walking, stepped, rfl⟩ := Option.map_eq_some_iff.mp taken
      rcases Remains.step remains stepped with
        ⟨e, rest, rfl, answer, more, rfl, remains⟩ | ⟨answer, rfl⟩
      · refine .inl ⟨_, rfl, ⟨rfl, rfl, remains⟩, ?_⟩
        show rest.length + 7 < rest.length + 1 + 7
        omega
      · refine .inl ⟨_, rfl, ⟨rfl, rfl, rfl⟩, ?_⟩
        simp only [LoadState.remaining]
        omega
  | comparing before packs after =>
      obtain ⟨rfl, rfl, rfl⟩ := follows
      simp only [loadStep, dif_pos] at taken
      obtain rfl := Option.some.inj taken
      exact .inr ⟨_, rfl, rfl, rfl, Nat.le_refl 6⟩

/-- **One statement of a check.**  The first one makes the directory active; a later one
finds that it is.  Each has fewer statements left. -/
theorem CallState.Follows.step {state : CallState P}
    (follows : state.Follows env d reports walk m)
    (active : reports ≠ [] → m.fingerprint = d.fingerprint env)
    (taken : m.step env c (answers (some d) walk free state) state = some m') :
    (reports ≠ [] → m'.fingerprint = d.fingerprint env) ∧ ∃ state', m'.calls c = some state' ∧
      state'.Follows env d reports
        (advance (some d) walk (answers (some d) walk free state) state') m' ∧
      state'.remaining d (advance (some d) walk (answers (some d) walk free state) state') <
        state.remaining d walk := by
  have there : ∀ state', (m.goto c state').calls c = some state' :=
    fun state' => Function.update_self ..
  cases state with
  | fingerprinting text =>
      obtain ⟨walking, stepped, rfl⟩ := Option.map_eq_some_iff.mp taken
      rcases Remains.step follows stepped with
        ⟨e, rest, rfl, answer, more, rfl, remains⟩ | ⟨answer, rfl⟩
      · refine ⟨active, _, there _, remains, ?_⟩
        show rest.length + 5 + _ < rest.length + 1 + 5 + _
        omega
      · refine ⟨active, _, there _, rfl, ?_⟩
        simp only [CallState.remaining]
        omega
  | rlocking fingerprint =>
      obtain ⟨mu, -, rfl⟩ := Option.map_eq_some_iff.mp taken
      exact ⟨active, _, there _, follows, by simp [CallState.remaining]⟩
  | comparing fingerprint =>
      obtain rfl := Option.some.inj taken
      obtain rfl : fingerprint = d.fingerprint env := follows
      refine ⟨active, _, there _, ?_, by simp [CallState.remaining]⟩
      by_cases same : d.fingerprint env = m.fingerprint
      · simp only [CallState.Follows, decide_eq_true same, if_true]
        exact same.symm
      · simp only [CallState.Follows, decide_eq_false same, Bool.false_eq_true, if_false]
        by_contra later
        exact same (active later).symm
  | runlocking unchanged =>
      obtain rfl := Option.some.inj taken
      cases unchanged with
      | true => exact ⟨active, _, there _, .inl ⟨rfl, follows⟩, by simp [CallState.remaining]⟩
      | false => exact ⟨active, _, there _, follows, by simp [CallState.remaining]⟩
  | locking =>
      simp only [Manager.step] at taken
      split at taken <;> cases taken
      refine ⟨active, _, there _, ⟨follows, trivial⟩, ?_⟩
      simp [CallState.remaining, LoadState.remaining]
  | loading state =>
      obtain ⟨first, follows⟩ := follows
      obtain ⟨progress, stepped, rfl⟩ := Option.map_eq_some_iff.mp taken
      rcases follows.step stepped with
        ⟨state', rfl, follows, fewer⟩ | ⟨load, rfl, packs, fingerprint, fewer⟩
      · exact ⟨active, _, there _, ⟨first, follows⟩, fewer⟩
      · exact ⟨active, _, there _, ⟨first, packs, fingerprint⟩, fewer⟩
  | installing load =>
      obtain ⟨mu, -, rfl⟩ := Option.map_eq_some_iff.mp taken
      exact ⟨active, _, there _, follows, by simp [CallState.remaining]⟩
  | settingPacks load =>
      obtain rfl := Option.some.inj taken
      obtain ⟨rfl, packs, fingerprint⟩ := follows
      exact ⟨by simp, _, there _, ⟨rfl, packs, fingerprint⟩, by simp [CallState.remaining]⟩
  | settingFingerprint load =>
      obtain rfl := Option.some.inj taken
      obtain ⟨rfl, packs, fingerprint⟩ := follows
      exact ⟨by simp, _, there _, ⟨rfl, packs, fingerprint⟩, by simp [CallState.remaining]⟩
  | installed load =>
      obtain rfl := Option.some.inj taken
      exact ⟨active, _, there _, ⟨follows.1, rfl, follows.2⟩, by simp [CallState.remaining]⟩
  | unlocking result =>
      obtain rfl := Option.some.inj taken
      obtain ⟨first, rfl, now⟩ := follows
      exact ⟨active, _, there _, .inr ⟨rfl, first, now⟩, by simp [CallState.remaining]⟩
  | opening | cloning | closing _ => cases follows
  | returned result => cases taken

/-! ## Calls beside the check -/

/-- The call does not reload, or has returned. -/
def CallState.passive : CallState P → Bool
  | .opening => true
  | .cloning => true
  | .closing _ => true
  | .returned _ => true
  | _ => false

/-- A call of `ResourcePacks` that returns these packs, if it has looked at them. -/
def CallState.Shows (packs : List P) : CallState P → Prop
  | .opening => True
  | .cloning => True
  | .closing seen => seen = packs
  | .returned (.packs seen) => seen = packs
  | _ => False

theorem Manager.step_frame {state : CallState P} {answer : Answer P}
    (taken : m.step env c answer state = some m') :
    m'.created = m.created ∧ ∃ state', m'.calls = Function.update m.calls c (some state') := by
  cases state with
  | fingerprinting _ | loading _ =>
      obtain ⟨progress, -, rfl⟩ := Option.map_eq_some_iff.mp taken
      cases progress <;> exact ⟨rfl, _, rfl⟩
  | rlocking _ | installing _ | opening =>
      obtain ⟨mu, -, rfl⟩ := Option.map_eq_some_iff.mp taken
      exact ⟨rfl, _, rfl⟩
  | locking =>
      simp only [Manager.step] at taken
      split at taken <;> cases taken
      exact ⟨rfl, _, rfl⟩
  | returned _ => cases taken
  | _ =>
      obtain rfl := Option.some.inj taken
      exact ⟨rfl, _, rfl⟩

/-- A call that does not reload leaves the pair alone. -/
theorem Manager.passive_step {state : CallState P} {answer : Answer P}
    (passive : state.passive = true) (taken : m.step env c answer state = some m') :
    m'.packs = m.packs ∧ m'.fingerprint = m.fingerprint ∧
      ∃ state', m'.calls = Function.update m.calls c (some state') ∧ state'.passive = true ∧
        (state.Shows m.packs → state'.Shows m.packs) := by
  cases state with
  | opening =>
      obtain ⟨mu, -, rfl⟩ := Option.map_eq_some_iff.mp taken
      exact ⟨rfl, rfl, _, rfl, rfl, id⟩
  | cloning =>
      obtain rfl := Option.some.inj taken
      exact ⟨rfl, rfl, _, rfl, rfl, fun _ => rfl⟩
  | closing packs =>
      obtain rfl := Option.some.inj taken
      exact ⟨rfl, rfl, _, rfl, rfl, id⟩
  | returned _ => cases taken
  | _ => cases passive

/-! ## Runs -/

/-- The first check reloads or finds the directory active, and the others find it so. -/
def Reported (count : Nat) : List Report → Prop
  | [] => True
  | first :: later =>
      (first = .unchanged ∨ first = .reloaded count) ∧ ∀ report ∈ later, report = .unchanged

theorem Reported.unchanged {count : Nat} (reported : Reported count reports) :
    Reported count (reports ++ [.unchanged]) := by
  cases reports with
  | nil => exact ⟨.inl rfl, by rintro report ⟨⟩⟩
  | cons first later =>
      refine ⟨reported.1, fun report member => ?_⟩
      rcases List.mem_append.mp member with before | last
      · exact reported.2 report before
      · exact List.mem_singleton.mp last

/-- The checks since the directory stands still. -/
structure Course (env : Env P) (d : Directory P) (ph : Phase) (w : Watch P) : Prop where
  reported : Reported (d.packs env).length ph.reports
  active : ph.reports ≠ [] → w.manager.fingerprint = d.fingerprint env
  /-- A check that began before is the first to end. -/
  stale : ph.open_ = false → w.loop.call ≠ none → ph.reports = []
  check : ph.open_ = true → ∀ c state, w.loop = .checking c → w.manager.calls c = some state →
    state.Follows env d ph.reports w.walk w.manager
  count : ph.open_ = true → ∀ c, w.loop = .counting c → ph.reports = [] ∧
    Active env d w.manager ∧ ∀ state, w.manager.calls c = some state → state.Shows (d.packs env)

structure Watched (env : Env P) (p : Watch P × List (Moment P)) : Prop where
  sane : Manager.Sane p.1.manager (events p.2)
  /-- Before the manager is there, the only call is that of `NewResourcePackManager`. -/
  unmade : p.1.manager.created = false → p.1.loop.call = none ∧ (phase p.2).reports = [] ∧
    ∀ c state, p.1.manager.calls c = some state → c = 0
  running : ∀ c, p.1.loop.call = some c → p.1.manager.calls c ≠ none
  /-- Afterwards nobody reloads but the loop. -/
  others : p.1.manager.created = true → ∀ c state, p.1.manager.calls c = some state →
    p.1.loop.call ≠ some c → state.passive = true
  course : ∀ d, p.1.disk = some d → Course env d (phase p.2) p.1

variable {w w' : Watch P} {ph : Phase} {moments : List (Moment P)}

/-- Between two checks there is nothing to show but what the reports say. -/
theorem course_between (idle : w.loop.call = none)
    (reported : Reported (d.packs env).length ph.reports)
    (active : ph.reports ≠ [] → w.manager.fingerprint = d.fingerprint env) : Course env d ph w where
  reported := reported
  active := active
  stale := fun _ busy => absurd idle busy
  check := by
    intro _ c state at_
    rw [at_] at idle
    cases idle
  count := by
    intro _ c at_
    rw [at_] at idle
    cases idle

/-- Others leave a check on its course. -/
theorem Course.frame (course : Course env d ph w) (packs : m'.packs = w.manager.packs)
    (fingerprint : m'.fingerprint = w.manager.fingerprint)
    (calls : ∀ c, w.loop.call = some c → m'.calls c = w.manager.calls c) :
    Course env d ph { w with manager := m' } where
  reported := course.reported
  active := fun some_ => fingerprint.trans (course.active some_)
  stale := course.stale
  check := by
    intro open_ c state at_ found
    have follows := course.check open_ c state at_ ((calls c (by rw [at_]; rfl)).symm.trans found)
    cases state <;> simp only [CallState.Follows, Active, packs, fingerprint] at follows ⊢ <;>
      exact follows
  count := by
    intro open_ c at_
    obtain ⟨first, active, shows_⟩ := course.count open_ c at_
    refine ⟨first, ⟨packs.trans active.1, fingerprint.trans active.2⟩, fun state found => ?_⟩
    exact shows_ state ((calls c (by rw [at_]; rfl)).symm.trans found)

/-- Calls of others come and go beside the loop. -/
theorem Watched.beside (watched : Watched env (w, moments)) {es : List (Event P)}
    (sane : Manager.Sane m' (events moments ++ es)) (created : m'.created = true)
    (packs : m'.packs = w.manager.packs) (fingerprint : m'.fingerprint = w.manager.fingerprint)
    (calls : ∀ c, w.loop.call = some c → m'.calls c = w.manager.calls c)
    (others : ∀ c state, m'.calls c = some state → w.loop.call ≠ some c → state.passive = true) :
    Watched env ({ w with manager := m' }, moments ++ es.map .event) where
  sane := by
    rw [events_append, events_event]
    exact sane
  unmade := fun unmade => absurd (created.symm.trans unmade) (by simp)
  running := by
    intro c at_
    rw [calls c at_]
    exact watched.running c at_
  others := fun _ => others
  course := by
    intro d disk
    rw [phase_events]
    exact (watched.course d disk).frame packs fingerprint calls

/-- A call that is not the loop's begins or takes a step. -/
theorem Watched.outside {a : Action P} (watched : Watched env (w, moments))
    (foreign : w.foreign a = true) (taken : w.manager.next env a = some m') :
    Watched env ({ w with manager := m' }, moments ++ (w.manager.emitted a).map .event) := by
  have sane : Manager.Sane m' (events moments ++ w.manager.emitted a) := watched.sane.next taken
  cases made : w.manager.created with
  | false =>
      obtain ⟨idle, none_, first⟩ := watched.unmade made
      have between : ∀ d, Course env d (phase moments) { w with manager := m' } := by
        intro d
        refine course_between idle ?_ ?_
        · rw [none_]
          trivial
        · exact fun some_ => absurd none_ some_
      refine ⟨by rw [events_append, events_event]; exact sane, ?_, ?_, ?_, ?_⟩
      · intro unmade
        refine ⟨idle, by rw [phase_events]; exact none_, ?_⟩
        intro c' state found
        cases a with
        | enter c op => cases made.symm.trans (Manager.next_enter taken).1
        | step c answer =>
            obtain ⟨before, there, taken⟩ := Manager.next_step taken
            obtain ⟨-, state', calls⟩ := Manager.step_frame taken
            simp only [calls] at found
            rcases update_some found with ⟨rfl, -⟩ | ⟨-, old⟩
            · exact first _ _ there
            · exact first c' state old
        | create =>
            obtain ⟨rfl, -⟩ := Manager.next_create taken
            cases unmade
      · intro c at_
        cases idle.symm.trans at_
      · intro now c' state found _
        cases a with
        | enter c op => cases made.symm.trans (Manager.next_enter taken).1
        | step c answer =>
            obtain ⟨before, -, taken⟩ := Manager.next_step taken
            cases (((Manager.step_frame taken).1.trans made).symm.trans now)
        | create =>
            obtain ⟨rfl, returned⟩ := Manager.next_create taken
            obtain rfl := first c' state found
            cases returned.symm.trans found
            rfl
      · intro d _
        rw [phase_events]
        exact between d
  | true =>
      cases a with
      | enter c op =>
          obtain ⟨-, absent, rfl⟩ := Manager.next_enter taken
          refine watched.beside sane made rfl rfl ?_ ?_
          · intro c' at_
            refine Function.update_of_ne ?_ ..
            rintro rfl
            exact watched.running c' at_ absent
          · intro c' state found other
            rcases Manager.calls_goto found with ⟨-, rfl⟩ | ⟨-, before⟩
            · cases op with
              | resourcePacks => rfl
              | reload | reloadIfChanged => cases foreign
            · exact watched.others made c' state before other
      | step c answer =>
          obtain ⟨state, found, taken⟩ := Manager.next_step taken
          have apart : w.loop.call ≠ some c := of_decide_eq_true foreign
          obtain ⟨packs, fingerprint, state', calls, passive, -⟩ :=
            Manager.passive_step (watched.others made c state found apart) taken
          refine watched.beside sane ((Manager.step_frame taken).1.trans made) packs fingerprint ?_ ?_
          · intro c' at_
            rw [calls]
            refine Function.update_of_ne ?_ ..
            rintro rfl
            exact apart at_
          · intro c' state found other
            rw [calls] at found
            rcases update_some found with ⟨-, new⟩ | ⟨-, before⟩
            · cases new
              exact passive
            · exact watched.others made c' state before other
      | create =>
          obtain ⟨rfl, -⟩ := Manager.next_create taken
          exact watched.beside sane rfl rfl rfl (fun _ _ => rfl) (watched.others made)

theorem Watched.created (watched : Watched env (w, moments)) (at_ : w.loop.call = some c) :
    w.manager.created = true := by
  by_contra unmade
  cases at_.symm.trans (watched.unmade (Bool.eq_false_iff.mpr unmade)).1

/-- A check begins. -/
theorem Watched.tick (watched : Watched env (w, moments)) (at_ : w.loop = .selecting)
    (taken : w.manager.next env (.enter c .reloadIfChanged) = some m') :
    Watched env ({ w with
      manager := m', loop := .checking c, walk := w.disk.map Directory.listing },
      moments ++ [.began]) := by
  have sane : Manager.Sane m' (events moments ++ []) := watched.sane.next taken
  obtain ⟨created, absent, rfl⟩ := Manager.next_enter taken
  rw [List.append_nil] at sane
  refine ⟨by rw [events_silent _ rfl]; exact sane, ?_, ?_, ?_, ?_⟩
  · exact fun unmade => absurd (created.symm.trans unmade) (by simp)
  · rintro c' ⟨⟩
    simp [Manager.goto]
  · intro _ c' state found other
    rcases Manager.calls_goto found with ⟨rfl, -⟩ | ⟨-, before⟩
    · exact absurd rfl other
    · exact watched.others created c' state before (by rw [at_]; simp [LoopState.call])
  · intro d disk
    rw [phase_concat]
    have course := watched.course d disk
    refine ⟨course.reported, course.active, by rintro ⟨⟩, ?_, by rintro _ c' ⟨⟩⟩
    rintro _ _ state ⟨⟩ found
    rcases Manager.calls_goto found with ⟨-, rfl⟩ | ⟨other, -⟩
    · have disk : w.disk = some d := disk
      simp only [disk, Option.map_some]
      exact remains_start d
    · exact absurd rfl other

/-- The call of the loop takes a step. -/
theorem Watched.check {state : CallState P} (watched : Watched env (w, moments))
    (at_ : w.loop.call = some c) (found : w.manager.calls c = some state)
    (taken : w.manager.step env c (answers w.disk w.walk free state) state = some m') :
    Watched env ({ w with
      manager := m'
      walk := (m'.calls c).bind (advance w.disk w.walk (answers w.disk w.walk free state)) },
      moments ++ (state.events c w.manager.fingerprint).map .event) := by
  have created := watched.created at_
  have sane := watched.sane.step found taken
  obtain ⟨same, state', calls⟩ := Manager.step_frame taken
  have there : m'.calls c = some state' := by rw [calls, Function.update_self]
  refine ⟨by rw [events_append, events_event]; exact sane, ?_, ?_, ?_, ?_⟩
  · exact fun unmade => absurd (same.symm.trans unmade) (by simp [created])
  · intro c' own
    cases at_.symm.trans own
    simp [there]
  · intro _ c' other' found' other
    simp only [calls] at found'
    rcases update_some found' with ⟨rfl, -⟩ | ⟨-, before⟩
    · exact absurd at_ other
    · exact watched.others created c' _ before other
  · intro d disk
    rw [phase_events]
    have course := watched.course d disk
    have disk : w.disk = some d := disk
    rw [disk] at taken ⊢
    rw [there]
    cases open_ : (phase moments).open_ with
    | false =>
        have none_ := course.stale open_ (by rw [at_]; exact Option.some_ne_none c)
        refine ⟨course.reported, fun some_ => absurd none_ some_, fun _ _ => none_, ?_, ?_⟩
        · exact fun opened => absurd (open_.symm.trans opened) (by simp)
        · exact fun opened => absurd (open_.symm.trans opened) (by simp)
    | true =>
        cases loop : w.loop with
        | selecting | ended =>
            rw [loop] at at_
            cases at_
        | checking c' =>
            rw [loop] at at_
            cases at_
            obtain ⟨active, after, now, follows, -⟩ := (course.check open_ c state loop found).step
              course.active taken
            cases there.symm.trans now
            refine ⟨course.reported, active, ?_, ?_, ?_⟩
            · exact fun shut => absurd (open_.symm.trans shut) (by simp)
            · rintro _ c' state'' ⟨⟩ found'
              cases there.symm.trans found'
              exact follows
            · rintro _ c' ⟨⟩
        | counting c' =>
            rw [loop] at at_
            cases at_
            obtain ⟨none_, active, shows_⟩ := course.count open_ c loop
            have shown := shows_ state found
            have passive : state.passive = true := by
              cases state <;> first | rfl | cases shown
            obtain ⟨packs, fingerprint, after, calls', -, keeps⟩ :=
              Manager.passive_step passive taken
            have now : m'.calls c = some after := by rw [calls', Function.update_self]
            have active' : Active env d m' := ⟨packs.trans active.1, fingerprint.trans active.2⟩
            refine ⟨course.reported, fun _ => active'.2, fun _ _ => none_, ?_, ?_⟩
            · rintro _ c' state'' ⟨⟩
            · rintro _ c' ⟨⟩
              refine ⟨none_, active', fun state'' found' => ?_⟩
              cases now.symm.trans found'
              rw [active.1] at keeps
              exact keeps shown

/-- Once the call of the loop has returned, nobody reloads. -/
theorem Watched.all_passive {result : Result P} (watched : Watched env (w, moments))
    (at_ : w.loop.call = some c) (found : w.manager.calls c = some (.returned result)) :
    ∀ c state, w.manager.calls c = some state → state.passive = true := by
  intro c' state there
  by_cases own : w.loop.call = some c'
  · cases at_.symm.trans own
    cases found.symm.trans there
    rfl
  · exact watched.others (watched.created at_) c' state there own

/-- A check ends with a report. -/
theorem Watched.ends {report : Report} {messages : List String}
    (watched : Watched env (w, moments)) (created : w.manager.created = true)
    (passive : ∀ c state, w.manager.calls c = some state → state.passive = true)
    (good : ∀ d, w.disk = some d → (phase moments).open_ = true →
      Reported (d.packs env).length ((phase moments).reports ++ [report]) ∧
        w.manager.fingerprint = d.fingerprint env) :
    Watched env ({ w with loop := .selecting, messages := messages },
      moments ++ [.ended report]) := by
  refine ⟨by rw [events_silent _ rfl]; exact watched.sane, ?_, by rintro c ⟨⟩, ?_, ?_⟩
  · exact fun unmade => absurd (created.symm.trans unmade) (by simp)
  · exact fun _ c state there _ => passive c state there
  · intro d disk
    have course := watched.course d disk
    rw [phase_concat]
    cases open_ : (phase moments).open_ with
    | false =>
        refine course_between rfl ?_ ?_
        · simpa [Phase.after, open_] using course.reported
        · simpa [Phase.after, open_] using course.active
    | true =>
        obtain ⟨reported, active⟩ := good d disk open_
        refine course_between rfl ?_ ?_
        · simpa [Phase.after, open_] using reported
        · exact fun _ => active

/-- The loop goes on with what its call returned. -/
theorem Watched.resume {result : Result P} {c' : CallID} (watched : Watched env (w, moments))
    (at_ : w.loop.call = some c) (found : w.manager.calls c = some (.returned result))
    (taken : w.proceed env c' w.loop result = some w') :
    Watched env (w', moments ++ Watch.ending w.loop result) := by
  have created := watched.created at_
  have passive := watched.all_passive at_ found
  cases loop : w.loop with
  | selecting | ended =>
      rw [loop] at at_
      cases at_
  | checking own =>
      rw [loop] at at_ taken
      cases at_
      -- what the check has come to, if it began on the directory as it stands
      have checked : ∀ d, w.disk = some d → (phase moments).open_ = true →
          result = .unchanged ∧ w.manager.fingerprint = d.fingerprint env ∨
            result = .reloaded ∧ (phase moments).reports = [] ∧ Active env d w.manager :=
        fun d disk open_ => (watched.course d disk).check open_ c _ loop found
      cases result with
      | failed err =>
          obtain rfl := Option.some.inj taken
          refine watched.ends created passive fun d disk open_ => ?_
          rcases checked d disk open_ with ⟨same, -⟩ | ⟨same, -⟩ <;> cases same
      | unchanged =>
          obtain rfl := Option.some.inj taken
          refine watched.ends created passive fun d disk open_ => ?_
          rcases checked d disk open_ with ⟨-, active⟩ | ⟨same, -⟩
          · exact ⟨(watched.course d disk).reported.unchanged, active⟩
          · cases same
      | reloaded =>
          obtain ⟨m', entered, rfl⟩ := Option.map_eq_some_iff.mp taken
          have sane : Manager.Sane m' (events moments ++ []) := watched.sane.next entered
          obtain ⟨-, absent, rfl⟩ := Manager.next_enter entered
          rw [List.append_nil] at sane
          simp only [Watch.ending, List.append_nil]
          refine ⟨sane, ?_, ?_, ?_, ?_⟩
          · exact fun unmade => absurd (created.symm.trans unmade) (by simp)
          · rintro c'' ⟨⟩
            simp [Manager.goto]
          · intro _ c'' state there _
            rcases Manager.calls_goto there with ⟨-, rfl⟩ | ⟨-, before⟩
            · rfl
            · exact passive c'' state before
          · intro d disk
            have course := watched.course d disk
            refine ⟨course.reported, course.active, ?_, by rintro _ c'' state ⟨⟩, ?_⟩
            · exact fun shut _ => course.stale shut (by rw [loop]; exact Option.some_ne_none c)
            · rintro open_ c'' ⟨⟩
              rcases checked d disk open_ with ⟨same, -⟩ | ⟨-, first, active⟩
              · cases same
              · refine ⟨first, active, fun state there => ?_⟩
                rcases Manager.calls_goto there with ⟨-, rfl⟩ | ⟨other, -⟩
                · trivial
                · exact absurd rfl other
      | packs _ => cases taken
  | counting own =>
      rw [loop] at at_ taken
      cases at_
      cases result with
      | packs packs =>
          obtain rfl := Option.some.inj taken
          refine watched.ends created passive fun d disk open_ => ?_
          obtain ⟨first, active, shows_⟩ := (watched.course d disk).count open_ c loop
          have seen : packs = d.packs env := shows_ _ found
          rw [first, seen]
          exact ⟨⟨.inr rfl, by rintro report ⟨⟩⟩, active.2⟩
      | failed _ | unchanged | reloaded => cases taken

theorem Watched.next {move : Move P} (watched : Watched env (w, moments))
    (taken : w.next env move = some w') : Watched env (w', moments ++ w.moments move) := by
  cases move with
  | settle d =>
      simp only [Watch.next] at taken
      split at taken <;> cases taken
      refine ⟨by rw [Watch.moments, events_silent _ rfl]; exact watched.sane, ?_, watched.running,
        watched.others, ?_⟩
      · intro unmade
        obtain ⟨idle, -, first⟩ := watched.unmade unmade
        refine ⟨idle, ?_, first⟩
        rw [Watch.moments, phase_concat]
        rfl
      · intro d' disk
        rw [Watch.moments, phase_concat]
        exact ⟨trivial, fun some_ => absurd rfl some_, fun _ _ => rfl, by rintro ⟨⟩, by rintro ⟨⟩⟩
  | disturb =>
      obtain rfl := Option.some.inj taken
      refine ⟨by rw [Watch.moments, events_silent _ rfl]; exact watched.sane, ?_, watched.running,
        watched.others, by rintro d ⟨⟩⟩
      intro unmade
      obtain ⟨idle, -, first⟩ := watched.unmade unmade
      refine ⟨idle, ?_, first⟩
      rw [Watch.moments, phase_concat]
      rfl
  | outside a =>
      simp only [Watch.next] at taken
      split at taken
      · rename_i foreign
        obtain ⟨m', stepped, rfl⟩ := Option.map_eq_some_iff.mp taken
        exact watched.outside foreign stepped
      · cases taken
  | done =>
      simp only [Watch.next] at taken
      split at taken <;> cases taken
      rename_i at_
      rw [Watch.moments, List.append_nil]
      have idle : w.loop.call = none := by rw [at_]; rfl
      refine ⟨watched.sane, ?_, by rintro c ⟨⟩, ?_, ?_⟩
      · intro unmade
        obtain ⟨-, rest⟩ := watched.unmade unmade
        exact ⟨rfl, rest⟩
      · intro created c state found _
        exact watched.others created c state found (by simp [idle])
      · intro d disk
        have course := watched.course d disk
        exact course_between rfl course.reported course.active
  | tick c =>
      simp only [Watch.next] at taken
      split at taken
      · rename_i at_
        obtain ⟨m', entered, rfl⟩ := Option.map_eq_some_iff.mp taken
        exact watched.tick at_ entered
      · cases taken
  | check free =>
      simp only [Watch.next] at taken
      split at taken
      · cases taken
      · rename_i c at_
        split at taken
        · cases taken
        · rename_i state found
          obtain ⟨m', stepped, rfl⟩ := Option.map_eq_some_iff.mp taken
          simp only [Watch.moments, at_, found]
          exact watched.check at_ found stepped
  | resume c =>
      simp only [Watch.next] at taken
      split at taken
      · rename_i result returned
        obtain ⟨own, at_, found⟩ := Option.bind_eq_some_iff.mp returned
        simp only [Watch.moments, returned]
        exact watched.resume at_ found taken
      · cases taken

theorem watched (reached : ((Watch.machine env).record Watch.moments).Reachable (w, moments)) :
    Watched env (w, moments) := by
  refine reached.invariant (I := Watched env) ?_ ?_
  · refine ⟨Manager.sane_initial, fun _ => ⟨rfl, rfl, ?_⟩, by rintro c ⟨⟩, by rintro ⟨⟩, by rintro d ⟨⟩⟩
    intro c state found
    have updated : Function.update (fun _ : CallID => none) 0 (some .locking) c = some state := found
    rcases update_some updated with ⟨rfl, -⟩ | ⟨-, old⟩
    · rfl
    · cases old
  · rintro ⟨w, moments⟩ ⟨w', moments'⟩ move - watched - recorded
    obtain ⟨taken, logged⟩ := Machine.record_next recorded
    simp only at taken logged
    rw [logged]
    exact watched.next taken

/-- After the first check of a phase nobody writes any more. -/
theorem Watched.unwritten (watched : Watched env (w, moments)) (disk : w.disk = some d)
    (checked : (phase moments).reports ≠ []) : w.manager.mu.writer = none := by
  have course := watched.course d disk
  have created : w.manager.created = true := by
    by_contra unmade
    exact checked (watched.unmade (Bool.eq_false_iff.mpr unmade)).2.1
  by_contra held
  obtain ⟨c, held⟩ := Option.ne_none_iff_exists'.mp held
  obtain ⟨state, found, midway⟩ := watched.sane.busy c held
  have writes := midway.writes
  by_cases own : w.loop.call = some c
  · cases open_ : (phase moments).open_ with
    | false => exact checked (course.stale open_ (by rw [own]; exact Option.some_ne_none c))
    | true =>
        cases loop : w.loop with
        | selecting | ended =>
            rw [loop] at own
            cases own
        | checking c' =>
            rw [loop] at own
            cases own
            have follows := course.check open_ c state loop found
            cases state with
            | settingPacks _ | settingFingerprint _ | installed _ => exact checked follows.1
            | _ => cases writes
        | counting c' =>
            exact checked (course.count open_ c' loop).1
  · have passive := watched.others created c state found own
    cases state with
    | settingPacks _ | settingFingerprint _ | installed _ => cases passive
    | _ => cases writes

/-- **The packs follow the directory.**  In every run, whatever the directory was before and
whatever changed while earlier checks were under way: once a check has begun and ended on a
directory that stands still and loads without an error, its packs and its fingerprint are the
active ones.  That check has found them unchanged, or it has reloaded and logged their number;
and every check after it finds them unchanged.  No load before may have read other packs under
the very fingerprint of this directory. -/
theorem hot_reload_converges {w : Watch P} {moments : List (Moment P)}
    (reached : ((Watch.machine env).record Watch.moments).Reachable (w, moments))
    (still : w.disk = some d) (telling : Telling env d (events moments)) {first : Report}
    {later : List Report} (checked : (phase moments).reports = first :: later) :
    Active env d w.manager ∧
      (first = .unchanged ∨ first = .reloaded (d.packs env).length) ∧
      ∀ report ∈ later, report = .unchanged := by
  have watched := watched reached
  have course := watched.course d still
  have some_ : (phase moments).reports ≠ [] := by rw [checked]; exact List.cons_ne_nil first later
  have created : w.manager.created = true := by
    by_contra unmade
    exact some_ (watched.unmade (Bool.eq_false_iff.mpr unmade)).2.1
  -- the pair is what one load returned, and that load had this fingerprint
  obtain ⟨c, load, loaded, packs, fingerprint⟩ :=
    watched.sane.settled created (watched.unwritten still some_)
  have same := course.active some_
  have read := telling c load loaded (fingerprint.symm.trans same)
  have reported := course.reported
  rw [checked] at reported
  exact ⟨⟨packs.trans read, same⟩, reported⟩

namespace Watch

/-- A directory with one pack. -/
def onePack : Directory String where
  listing := [.dir ⟨ascii "a", by decide⟩]
  files := ["a"]
  below := fun _ => [.dir ⟨ascii "a", by decide⟩]
  pack := fun _ => "p"

def checks (n : Nat) : List (Move String) := List.replicate n (.check .go)

/-- The pack appears, and is found by the first check; a second one finds nothing new. -/
def appearance : List (Move String) :=
  Manager.creation.map .outside ++ .settle onePack :: .tick 1 :: checks 22 ++
    [Move.resume 2] ++ checks 3 ++ [Move.resume 3, Move.tick 3] ++ checks 5 ++ [Move.resume 4]

/-- A load that has the fingerprint of the directory has its packs. -/
def tells (d : Directory String) : Event String → Bool
  | .loaded _ load =>
      load.after ≠ d.fingerprint Manager.plain ∨ load.packs = d.packs Manager.plain
  | _ => true

end Watch

theorem hot_reload_converges_appeared :
    ∃ w moments, ((Watch.machine Manager.plain).record Watch.moments).Reachable (w, moments) ∧
      (phase moments).reports = [.reloaded 1, .unchanged] ∧
      w.messages = ["hot reloaded 1 resource pack(s)"] ∧
      Active Manager.plain Watch.onePack w.manager := by
  obtain ⟨⟨w, moments⟩, executed, reports, messages, disk, all⟩ :
      ∃ p, ((Watch.machine Manager.plain).record Watch.moments).exec (fun _ _ => True)
        (Watch.initial, []) Watch.appearance = some p ∧
        (phase p.2).reports = [.reloaded 1, .unchanged] ∧
        p.1.messages = ["hot reloaded 1 resource pack(s)"] ∧ p.1.disk = some Watch.onePack ∧
        (events p.2).all (Watch.tells Watch.onePack) = true := ⟨_, rfl, rfl, rfl, rfl, rfl⟩
  have reached := Machine.exec_reach Watch.appearance executed
  refine ⟨w, moments, reached, reports, messages, ?_⟩
  refine (hot_reload_converges reached disk (fun c load loaded after => ?_) reports).1
  rcases of_decide_eq_true (List.all_eq_true.mp all _ loaded) with other | same
  · exact absurd after other
  · exact same

end Portal.ResourcePack
