/-
# ResourcePack.CheckEnds — a check of the resource packs comes to its end

A check on a directory that stands still and loads without an error has a number of statements
left that only its own statements lower (`CallState.remaining`).  It never waits for
`reloadMu`, since nobody else reloads, and for `mu` only while others read: whoever holds one
of them stands at a statement it can execute (`Manager.Locks`).  So the check ends
(`check_ends`).
-/
import Portal.ResourcePack.HotReload

namespace Portal.ResourcePack

open Portal.Theory Portal.Theory.PartialMap Portal.Theory.Separator Portal.Theory.Transition

set_option autoImplicit false

variable {P : Type} {env : Env P} {d : Directory P} {m m' : Manager P} {walk : Option Listing}
  {reports : List Report} {c : CallID} {free answer : Answer P} {state state' : CallState P}
  {w w' : Watch P} {moments : List (Moment P)}

/-! ## Who holds the locks -/

/-- The call holds `reloadMu`. -/
def CallState.reloads : CallState P → Bool
  | .loading _ => true
  | .installing _ => true
  | .settingPacks _ => true
  | .settingFingerprint _ => true
  | .installed _ => true
  | .unlocking _ => true
  | _ => false

/-- A lock is held by a call that is inside. -/
structure Manager.Locks (m : Manager P) : Prop where
  reload : ∀ c, m.reloadMu = some c → ∃ state, m.calls c = some state ∧ state.reloads = true
  nodup : m.mu.readers.Nodup
  readers : ∀ c ∈ m.mu.readers, ∃ state, m.calls c = some state ∧ state.reads = true

namespace Manager

theorem Locks.outside (locks : Locks m) (found : m.calls c = some state)
    (outside : state.reads = false) : c ∉ m.mu.readers := by
  intro member
  obtain ⟨_, there, reads⟩ := locks.readers c member
  cases found.symm.trans there
  cases outside.symm.trans reads

theorem Locks.unheld (locks : Locks m) (found : m.calls c = some state)
    (outside : state.reloads = false) : m.reloadMu ≠ some c := by
  intro held
  obtain ⟨_, there, reloads⟩ := locks.reload c held
  cases found.symm.trans there
  cases outside.symm.trans reloads

/-- A call moves on: what it has to show about the locks. -/
theorem Locks.move (locks : Locks m) {reloadMu : Option CallID} {mu : RWLock CallID}
    {packs : List P} {fingerprint : String}
    (reload : ∀ d, reloadMu = some d →
      (d = c ∧ state'.reloads = true) ∨ (d ≠ c ∧ m.reloadMu = some d))
    (nodup : mu.readers.Nodup)
    (readers : ∀ d ∈ mu.readers, (d = c ∧ state'.reads = true) ∨ (d ≠ c ∧ d ∈ m.mu.readers)) :
    Locks { m.goto c state' with
      reloadMu := reloadMu, mu := mu, packs := packs, fingerprint := fingerprint } where
  reload := by
    intro d held
    rcases reload d held with ⟨rfl, reloads⟩ | ⟨other, before⟩
    · exact ⟨state', Function.update_self .., reloads⟩
    · obtain ⟨state, there, reloads⟩ := locks.reload d before
      exact ⟨state, (Function.update_of_ne other ..).trans there, reloads⟩
  nodup := nodup
  readers := by
    intro d member
    rcases readers d member with ⟨rfl, reads⟩ | ⟨other, before⟩
    · exact ⟨state', Function.update_self .., reads⟩
    · obtain ⟨state, there, reads⟩ := locks.readers d before
      exact ⟨state, (Function.update_of_ne other ..).trans there, reads⟩

/-- A call goes on with the locks as they are. -/
theorem Locks.goes (locks : Locks m) (found : m.calls c = some state) {packs : List P}
    {fingerprint : String} (reload : state.reloads = true → state'.reloads = true)
    (reads : state.reads = true → state'.reads = true) :
    Locks { m.goto c state' with packs := packs, fingerprint := fingerprint } := by
  refine locks.move ?_ locks.nodup ?_
  · intro d held
    by_cases own : d = c
    · subst own
      obtain ⟨_, there, inside⟩ := locks.reload d held
      cases found.symm.trans there
      exact .inl ⟨rfl, reload inside⟩
    · exact .inr ⟨own, held⟩
  · intro d member
    by_cases own : d = c
    · subst own
      obtain ⟨_, there, inside⟩ := locks.readers d member
      cases found.symm.trans there
      exact .inl ⟨rfl, reads inside⟩
    · exact .inr ⟨own, member⟩

/-- A call takes or gives back `mu`, and has nothing to do with `reloadMu`. -/
theorem Locks.shares (locks : Locks m) (found : m.calls c = some state)
    (outside : state.reloads = false) {mu : RWLock CallID} (nodup : mu.readers.Nodup)
    (readers : ∀ d ∈ mu.readers, (d = c ∧ state'.reads = true) ∨ (d ≠ c ∧ d ∈ m.mu.readers)) :
    Locks { m.goto c state' with mu := mu } := by
  refine locks.move ?_ nodup readers
  intro d held
  refine .inr ⟨?_, held⟩
  rintro rfl
  exact locks.unheld found outside held

theorem Locks.rlocks (locks : Locks m) (found : m.calls c = some state)
    (outside : state.reloads = false) (unread : state.reads = false) {mu : RWLock CallID}
    (locked : m.mu.rlock c = some mu) (reads : state'.reads = true) :
    Locks { m.goto c state' with mu := mu } := by
  obtain ⟨-, -, readers⟩ := RWLock.rlock_some locked
  have absent := locks.outside found unread
  refine locks.shares found outside ?_ ?_
  · rw [readers]
    exact List.nodup_cons.mpr ⟨absent, locks.nodup⟩
  · intro d member
    rw [readers] at member
    rcases List.mem_cons.mp member with rfl | before
    · exact .inl ⟨rfl, reads⟩
    · exact .inr ⟨fun own => absent (own ▸ before), before⟩

theorem Locks.runlocks (locks : Locks m) (found : m.calls c = some state)
    (outside : state.reloads = false) : Locks { m.goto c state' with mu := m.mu.runlock c } := by
  refine locks.shares found outside (locks.nodup.erase c) ?_
  intro d member
  obtain ⟨other, before⟩ := (List.Nodup.mem_erase_iff locks.nodup).mp member
  exact .inr ⟨other, before⟩

/-- **One statement of a call.** -/
theorem Locks.step (locks : Locks m) (found : m.calls c = some state)
    (taken : m.step env c answer state = some m') : Locks m' := by
  cases state with
  | fingerprinting text =>
      obtain ⟨progress, -, rfl⟩ := Option.map_eq_some_iff.mp taken
      cases progress <;> exact locks.goes found (by rintro ⟨⟩) (by rintro ⟨⟩)
  | rlocking fingerprint =>
      obtain ⟨mu, locked, rfl⟩ := Option.map_eq_some_iff.mp taken
      exact locks.rlocks found rfl rfl locked rfl
  | opening =>
      obtain ⟨mu, locked, rfl⟩ := Option.map_eq_some_iff.mp taken
      exact locks.rlocks found rfl rfl locked rfl
  | comparing fingerprint | cloning =>
      obtain rfl := Option.some.inj taken
      exact locks.goes found (by rintro ⟨⟩) (fun _ => rfl)
  | runlocking unchanged =>
      obtain rfl := Option.some.inj taken
      exact locks.runlocks found rfl
  | closing packs =>
      obtain rfl := Option.some.inj taken
      exact locks.runlocks found rfl
  | locking =>
      simp only [Manager.step] at taken
      split at taken <;> cases taken
      have absent := locks.outside found rfl
      refine locks.move ?_ locks.nodup ?_
      · rintro d ⟨⟩
        exact .inl ⟨rfl, rfl⟩
      · exact fun d member => .inr ⟨fun own => absent (own ▸ member), member⟩
  | loading at_ =>
      obtain ⟨progress, -, rfl⟩ := Option.map_eq_some_iff.mp taken
      cases progress <;> exact locks.goes found (fun _ => rfl) (by rintro ⟨⟩)
  | installing load =>
      obtain ⟨mu, locked, rfl⟩ := Option.map_eq_some_iff.mp taken
      obtain ⟨-, -, held⟩ := RWLock.lock_some locked
      have empty : mu.readers = [] := mu.exclusive (by rw [held]; exact Option.some_ne_none c)
      refine locks.move (fun d reloading => ?_) ?_ ?_
      · by_cases own : d = c
        · exact .inl ⟨own, rfl⟩
        · exact .inr ⟨own, reloading⟩
      · rw [empty]
        exact List.nodup_nil
      · rw [empty]
        rintro d ⟨⟩
  | settingPacks load | settingFingerprint load =>
      obtain rfl := Option.some.inj taken
      exact locks.goes found (fun _ => rfl) (by rintro ⟨⟩)
  | installed load =>
      obtain rfl := Option.some.inj taken
      have absent := locks.outside found rfl
      refine locks.move (fun d reloading => ?_) locks.nodup ?_
      · by_cases own : d = c
        · exact .inl ⟨own, rfl⟩
        · exact .inr ⟨own, reloading⟩
      · exact fun d member => .inr ⟨fun own => absent (own ▸ member), member⟩
  | unlocking result =>
      obtain rfl := Option.some.inj taken
      have absent := locks.outside found rfl
      refine locks.move (by rintro d ⟨⟩) locks.nodup ?_
      exact fun d member => .inr ⟨fun own => absent (own ▸ member), member⟩
  | returned result => cases taken

theorem Locks.next {a : Action P} (locks : Locks m) (taken : m.next env a = some m') :
    Locks m' := by
  cases a with
  | enter c op =>
      obtain ⟨-, absent, rfl⟩ := next_enter taken
      refine ⟨?_, locks.nodup, ?_⟩
      · intro d held
        obtain ⟨state, there, inside⟩ := locks.reload d held
        exact ⟨state, update_free absent there, inside⟩
      · intro d member
        obtain ⟨state, there, inside⟩ := locks.readers d member
        exact ⟨state, update_free absent there, inside⟩
  | step c answer =>
      obtain ⟨state, found, taken⟩ := next_step taken
      exact locks.step found taken
  | create =>
      obtain ⟨rfl, -⟩ := next_create taken
      exact ⟨locks.reload, locks.nodup, locks.readers⟩

end Manager

/-- A move of the whole is an action of the manager, or leaves it alone. -/
theorem Watch.next_manager {move : Move P} (taken : w.next env move = some w') :
    w'.manager = w.manager ∨ ∃ a, w.manager.next env a = some w'.manager := by
  cases move with
  | settle d =>
      simp only [Watch.next] at taken
      split at taken <;> cases taken
      exact .inl rfl
  | disturb =>
      cases taken
      exact .inl rfl
  | outside a =>
      simp only [Watch.next] at taken
      split at taken
      · obtain ⟨m', stepped, rfl⟩ := Option.map_eq_some_iff.mp taken
        exact .inr ⟨a, stepped⟩
      · cases taken
  | done =>
      simp only [Watch.next] at taken
      split at taken <;> cases taken
      exact .inl rfl
  | tick c =>
      simp only [Watch.next] at taken
      split at taken
      · obtain ⟨m', entered, rfl⟩ := Option.map_eq_some_iff.mp taken
        exact .inr ⟨_, entered⟩
      · cases taken
  | check free =>
      simp only [Watch.next] at taken
      split at taken
      · cases taken
      · rename_i c _
        split at taken
        · cases taken
        · rename_i state found
          obtain ⟨m', stepped, rfl⟩ := Option.map_eq_some_iff.mp taken
          refine .inr ⟨.step c (answers w.disk w.walk free state), ?_⟩
          simp only [Manager.next, found]
          exact stepped
  | resume c =>
      simp only [Watch.next] at taken
      split at taken
      · rename_i result _
        unfold Watch.proceed at taken
        split at taken
        · cases taken
          exact .inl rfl
        · cases taken
          exact .inl rfl
        · obtain ⟨m', entered, rfl⟩ := Option.map_eq_some_iff.mp taken
          exact .inr ⟨_, entered⟩
        · cases taken
          exact .inl rfl
        · cases taken
      · cases taken

theorem locks (reached : (Watch.machine env).Reachable w) : w.manager.Locks := by
  refine reached.invariant (I := fun w => w.manager.Locks) ?_ ?_
  · exact ⟨by rintro c ⟨⟩, List.nodup_nil, by rintro c ⟨⟩⟩
  · intro w w' move _ locks _ taken
    rcases Watch.next_manager taken with same | ⟨a, stepped⟩
    · rw [same]
      exact locks
    · exact locks.next stepped

/-! ## The check goes on -/

theorem Remains.goes {text : List UInt8} (env : Env P) (remains : Remains d text walk) :
    ∃ progress, fingerprintStep env text (walked walk free) = some progress := by
  obtain ⟨rest, rfl, -⟩ := remains
  cases rest with
  | nil => exact ⟨_, rfl⟩
  | cons e rest =>
      refine ⟨.goes (text ++ terminated 0 e.words), ?_⟩
      simp only [walked, fingerprintStep, e.record_visited]

/-- An access of `load` to a directory that stands still has an answer. -/
theorem LoadState.Follows.goes {at_ : LoadState P} (follows : at_.Follows env d walk) :
    ∃ progress, loadStep env (answers (some d) walk free (.loading at_)) at_ = some progress := by
  cases at_ with
  | ensuring | reensuring _ | listing _ => exact ⟨_, rfl⟩
  | fingerprinting text =>
      obtain ⟨progress, walking⟩ := Remains.goes env follows
      exact ⟨_, Option.map_eq_some_iff.mpr ⟨progress, walking, rfl⟩⟩
  | validating before packs file rest =>
      obtain ⟨-, -, -, begun⟩ := follows
      obtain ⟨left, rfl⟩ := Option.ne_none_iff_exists'.mp begun
      cases left with
      | nil => exact ⟨_, rfl⟩
      | cons e left => cases e <;> exact ⟨_, rfl⟩
  | reading before packs file rest =>
      obtain ⟨-, -, listed⟩ := follows
      have answer : answers (some d) walk free (.loading (.reading before packs file rest)) =
          .read (d.pack file) := if_pos (listed file (List.mem_cons_self ..))
      rw [answer]
      exact ⟨_, rfl⟩
  | refingerprinting before packs text =>
      obtain ⟨progress, walking⟩ := Remains.goes env follows.2.2
      exact ⟨_, Option.map_eq_some_iff.mpr ⟨progress, walking, rfl⟩⟩
  | comparing before packs after =>
      simp only [loadStep]
      split <;> exact ⟨_, rfl⟩

/-- A check waits for nobody but readers. -/
theorem CallState.Follows.goes (c : CallID) (free : Answer P)
    (follows : state.Follows env d reports walk m) (running : state.isReturned = false)
    (unlocked : state = .locking → m.reloadMu = none)
    (unwritten : state.writes = false → m.mu.writer = none) :
    (∃ m', m.step env c (answers (some d) walk free state) state = some m') ∨
      m.mu.readers ≠ [] := by
  cases state with
  | fingerprinting text =>
      obtain ⟨progress, walking⟩ := Remains.goes env follows
      exact .inl ⟨_, Option.map_eq_some_iff.mpr ⟨progress, walking, rfl⟩⟩
  | rlocking fingerprint =>
      left
      simp only [Manager.step, RWLock.rlock, unwritten rfl]
      exact ⟨_, rfl⟩
  | locking =>
      left
      simp only [Manager.step, unlocked rfl]
      exact ⟨_, rfl⟩
  | loading at_ =>
      obtain ⟨progress, loading⟩ := LoadState.Follows.goes follows.2
      exact .inl ⟨_, Option.map_eq_some_iff.mpr ⟨progress, loading, rfl⟩⟩
  | installing load =>
      by_cases empty : m.mu.readers = []
      · left
        have free := unwritten rfl
        simp only [Manager.step, RWLock.lock, free, empty]
        exact ⟨_, rfl⟩
      · exact .inr empty
  | comparing _ | runlocking _ | settingPacks _ | settingFingerprint _ | installed _ | unlocking _ =>
      exact .inl ⟨_, rfl⟩
  | opening | cloning | closing _ => cases follows
  | returned _ => cases running

/-- Whoever reads can go on. -/
theorem Manager.reader_goes (found : m.calls c = some state) (reads : state.reads = true) :
    ∃ m', m.next env (.step c answer) = some m' := by
  simp only [Manager.next, found]
  cases state with
  | comparing _ | runlocking _ | cloning | closing _ => exact ⟨_, rfl⟩
  | _ => cases reads

/-- Nobody but the check holds `reloadMu`, or `mu` for writing. -/
theorem Watched.unlocked (watched : Watched env (w, moments)) (locks : w.manager.Locks)
    (at_ : w.loop = .checking c) (found : w.manager.calls c = some state) :
    (state = .locking → w.manager.reloadMu = none) ∧
      (state.writes = false → w.manager.mu.writer = none) := by
  have own : w.loop.call = some c := by rw [at_]; rfl
  have created := watched.created own
  -- a call that is not passive is the check
  have only : ∀ r other, w.manager.calls r = some other → other.passive = false → other = state := by
    intro r other there active
    by_cases same : w.loop.call = some r
    · cases own.symm.trans same
      exact Option.some.inj (there.symm.trans found)
    · cases (watched.others created r other there same).symm.trans active
  refine ⟨fun locking => ?_, fun outside => ?_⟩
  · by_contra held
    obtain ⟨r, held⟩ := Option.ne_none_iff_exists'.mp held
    obtain ⟨other, there, reloads⟩ := locks.reload r held
    have active : other.passive = false := by cases other <;> first | rfl | cases reloads
    rw [only r other there active, locking] at reloads
    cases reloads
  · by_contra held
    obtain ⟨r, held⟩ := Option.ne_none_iff_exists'.mp held
    obtain ⟨other, there, midway⟩ := watched.sane.busy r held
    have writes := midway.writes
    have active : other.passive = false := by cases other <;> first | rfl | cases writes
    rw [only r other there active, outside] at writes
    cases writes

/-! ## The check ends -/

def Move.isCheck : Move P → Bool
  | .check _ => true
  | _ => false

def Move.isDisturb : Move P → Bool
  | .disturb => true
  | _ => false

/-- The check has returned without an error. -/
def Watch.Done (w : Watch P) (c : CallID) : Prop :=
  w.manager.calls c = some (.returned .unchanged) ∨ w.manager.calls c = some (.returned .reloaded)

/-- A check that began on this directory. -/
structure Underway (env : Env P) (d : Directory P) (c : CallID) (w : Watch P)
    (moments : List (Moment P)) : Prop where
  watched : Watched env (w, moments)
  disk : w.disk = some d
  loop : w.loop = .checking c
  open_ : (phase moments).open_ = true

theorem Underway.follows (under : Underway env d c w moments)
    (found : w.manager.calls c = some state) :
    state.Follows env d (phase moments).reports w.walk w.manager :=
  (under.watched.course d under.disk).check under.open_ c state under.loop found

theorem Underway.done (under : Underway env d c w moments)
    (found : w.manager.calls c = some state) (over_ : state.isReturned = true) : w.Done c := by
  have follows := under.follows found
  cases state with
  | returned result =>
      rcases follows with ⟨rfl, -⟩ | ⟨rfl, -⟩
      · exact .inl found
      · exact .inr found
  | _ => cases over_

/-- **One move.**  A statement of the check brings it nearer to its end, and nobody else moves
it. -/
theorem Underway.next {move : Move P} (under : Underway env d c w moments)
    (found : w.manager.calls c = some state) (running : state.isReturned = false)
    (calm : move.isDisturb = false) (taken : w.next env move = some w') :
    Underway env d c w' (moments ++ w.moments move) ∧
      ∃ state', w'.manager.calls c = some state' ∧
        state'.remaining d w'.walk + move.isCheck.toNat ≤ state.remaining d w.walk := by
  have watched := under.watched.next taken
  have own : w.loop.call = some c := by rw [under.loop]; rfl
  cases move with
  | settle d' => simp [Watch.next, under.disk] at taken
  | disturb => cases calm
  | done => simp [Watch.next, under.loop] at taken
  | tick c' => simp [Watch.next, under.loop] at taken
  | resume c' =>
      simp only [Watch.next, own, Option.bind_some, found] at taken
      cases state with
      | returned _ => cases running
      | _ => cases taken
  | outside a =>
      simp only [Watch.next] at taken
      split at taken
      · rename_i foreign
        obtain ⟨m', stepped, rfl⟩ := Option.map_eq_some_iff.mp taken
        have still : m'.calls c = some state := by
          cases a with
          | enter c' op =>
              obtain ⟨-, absent, rfl⟩ := Manager.next_enter stepped
              exact update_free absent found
          | step c' answer =>
              obtain ⟨other, there, stepped⟩ := Manager.next_step stepped
              obtain ⟨-, after, calls⟩ := Manager.step_frame stepped
              have apart : c ≠ c' := by
                rintro rfl
                exact of_decide_eq_true foreign own
              rw [calls, Function.update_of_ne apart]
              exact found
          | create =>
              obtain ⟨rfl, -⟩ := Manager.next_create stepped
              exact found
        refine ⟨⟨watched, under.disk, under.loop, ?_⟩, state, still, Nat.le_refl _⟩
        rw [Watch.moments, phase_events]
        exact under.open_
      · cases taken
  | check free =>
      simp only [Watch.next, own, found] at taken
      obtain ⟨m', stepped, rfl⟩ := Option.map_eq_some_iff.mp taken
      rw [under.disk] at stepped
      obtain ⟨-, state', there, -, fewer⟩ := (under.follows found).step
        (under.watched.course d under.disk).active stepped
      refine ⟨⟨watched, under.disk, under.loop, ?_⟩, state', there, ?_⟩
      · simp only [Watch.moments, own, found]
        rw [phase_events]
        exact under.open_
      · simp only [there, under.disk, Option.bind_some]
        exact fewer

theorem Underway.ends (moves : List (Move P)) {moments : List (Moment P)} {w w' : Watch P}
    {state : CallState P} (under : Underway env d c w moments)
    (found : w.manager.calls c = some state) (calm : ∀ move ∈ moves, move.isDisturb = false)
    (executed : (Watch.machine env).exec (fun _ _ => True) w moves = some w')
    (enough : state.remaining d w.walk ≤ moves.countP Move.isCheck) :
    ∃ earlier later middle, moves = earlier ++ later ∧
      (Watch.machine env).exec (fun _ _ => True) w earlier = some middle ∧ middle.Done c := by
  induction moves generalizing w moments state with
  | nil =>
      have none_ : state.remaining d w.walk = 0 := Nat.le_zero.mp enough
      have over_ : state.isReturned = true := by
        have follows := under.follows found
        cases state with
        | returned _ => rfl
        | opening | cloning | closing _ => cases follows
        | loading at_ =>
            exfalso
            cases at_ <;> simp only [CallState.remaining, LoadState.remaining] at none_ <;> omega
        | _ =>
            exfalso
            simp only [CallState.remaining] at none_
            omega
      exact ⟨[], [], w, rfl, rfl, under.done found over_⟩
  | cons move rest ih =>
      cases over_ : state.isReturned with
      | true => exact ⟨[], move :: rest, w, rfl, rfl, under.done found over_⟩
      | false =>
          simp only [Machine.exec, if_true] at executed
          obtain ⟨next_, taken, executed⟩ := Option.bind_eq_some_iff.mp executed
          obtain ⟨under', state', there, fewer⟩ := under.next found over_
            (calm move (List.mem_cons_self ..)) taken
          have left : state'.remaining d next_.walk ≤ rest.countP Move.isCheck := by
            rw [List.countP_cons] at enough
            cases kind : move.isCheck <;> simp [kind] at enough fewer <;> omega
          obtain ⟨earlier, later, middle, rfl, reached, done⟩ := ih under' there
            (fun move member => calm move (List.mem_cons_of_mem _ member)) executed left
          refine ⟨move :: earlier, later, middle, rfl, ?_, done⟩
          rw [Machine.exec_cons trivial taken]
          exact reached

/-- **A check ends.**  In every run: a check that began on the directory as it stands, one that
loads without an error, has returned without an error, or it is under way.  Then it can execute
its next statement, unless it waits for calls of `ResourcePacks` that can execute theirs; and
in every continuation in which the directory stays as it is, it has returned without an error
by the time it has executed `remaining` statements. -/
theorem check_ends (reached : ((Watch.machine env).record Watch.moments).Reachable (w, moments))
    (still : w.disk = some d) (open_ : (phase moments).open_ = true)
    (at_ : w.loop = .checking c) :
    w.Done c ∨ ∃ state, w.manager.calls c = some state ∧
      (∀ free, (∃ w', w.next env (.check free) = some w') ∨
        w.manager.mu.readers ≠ [] ∧ ∀ r ∈ w.manager.mu.readers, ∀ answer,
          ∃ m', w.manager.next env (.step r answer) = some m') ∧
      ∀ moves w', (∀ move ∈ moves, move.isDisturb = false) →
        (Watch.machine env).exec (fun _ _ => True) w moves = some w' →
        state.remaining d w.walk ≤ moves.countP Move.isCheck →
        ∃ earlier later middle, moves = earlier ++ later ∧
          (Watch.machine env).exec (fun _ _ => True) w earlier = some middle ∧ middle.Done c := by
  have under : Underway env d c w moments := ⟨watched reached, still, at_, open_⟩
  have locks := locks reached.unrecorded
  have own : w.loop.call = some c := by rw [at_]; rfl
  obtain ⟨state, found⟩ : ∃ state, w.manager.calls c = some state :=
    Option.ne_none_iff_exists'.mp (under.watched.running c own)
  cases over_ : state.isReturned with
  | true => exact .inl (under.done found over_)
  | false =>
      refine .inr ⟨state, found, fun free => ?_, fun moves w' calm executed enough => ?_⟩
      · obtain ⟨unlocked, unwritten⟩ := under.watched.unlocked locks at_ found
        rcases (under.follows found).goes c free over_ unlocked unwritten with ⟨m', stepped⟩ | reading
        · left
          simp only [Watch.next, own, found, still, stepped]
          exact ⟨_, rfl⟩
        · refine .inr ⟨reading, fun r member answer => ?_⟩
          obtain ⟨other, there, reads⟩ := locks.readers r member
          exact Manager.reader_goes there reads
      · exact under.ends moves found calm executed enough

namespace Watch

/-- The check of `appearance` after its first three statements. -/
def comparing : List (Move String) :=
  Manager.creation.map .outside ++ .settle onePack :: .tick 1 :: checks 3

end Watch

/-- It has nineteen more, and ends with them. -/
theorem check_ends_nineteen :
    ∃ w moments, ((Watch.machine Manager.plain).record Watch.moments).Reachable (w, moments) ∧
      w.loop = .checking 1 ∧ ∃ earlier later middle, Watch.checks 19 = earlier ++ later ∧
        (Watch.machine Manager.plain).exec (fun _ _ => True) w earlier = some middle ∧
        middle.Done 1 := by
  obtain ⟨⟨w, moments⟩, executed, open_, disk, at_, found, w', more⟩ :
      ∃ p, ((Watch.machine Manager.plain).record Watch.moments).exec (fun _ _ => True)
        (Watch.initial, []) Watch.comparing = some p ∧ (phase p.2).open_ = true ∧
        p.1.disk = some Watch.onePack ∧ p.1.loop = .checking 1 ∧
        (∃ fingerprint, p.1.manager.calls 1 = some (.comparing fingerprint)) ∧
        ∃ w', (Watch.machine Manager.plain).exec (fun _ _ => True) p.1 (Watch.checks 19) = some w' :=
    ⟨_, rfl, rfl, rfl, rfl, ⟨_, rfl⟩, _, rfl⟩
  have reached := Machine.exec_reach Watch.comparing executed
  refine ⟨w, moments, reached, at_, ?_⟩
  obtain ⟨fingerprint, found⟩ := found
  rcases check_ends reached disk open_ at_ with (done | done) | ⟨state, there, -, ends⟩
  · cases found.symm.trans done
  · cases found.symm.trans done
  · cases found.symm.trans there
    refine ends (Watch.checks 19) w' (by decide) more ?_
    show 3 + (LoadState.ensuring : LoadState String).remaining Watch.onePack none ≤ 19
    decide

end Portal.ResourcePack
