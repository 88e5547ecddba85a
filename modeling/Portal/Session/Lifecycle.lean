/-
# Session.Lifecycle — what a session's join and quit look like on the bus

`announces s actor` is what the next statement of a goroutine adds to the event
bus, and `next_bus` says that nothing else ever gets there.  One statement of the
login goroutine announces the join and one statement of `Close` the quit; each is
behind the goroutine for good once executed, so that neither event is published
twice (`published_once`).

Their order is another matter.  `Close` may run between the end of the login and its
announcement, and the login goroutine looks at nothing of `Close` before it announces:
the join of a session that is gone (`join_after_quit`).  When every `Close` that
gets to its publish finds the login decided (`joinDecided`), the join comes first
(`join_before_quit`).
-/
import Portal.Session.Agreement

namespace Portal

open Portal.Theory.Transition

set_option autoImplicit false

/-- The login goroutine has not passed its publish of the join. -/
def LoginState.mayJoin : LoginState → Bool
  | .unstarted => true
  | .dialing _ => true
  | .assigning _ => true
  | .spawning _ => true
  | .translating _ => true
  | .unlocking r => r = .joined
  | .publishing => true
  | _ => false

/-- `Close` has not passed its publish of the quit. -/
def CloseState.mayQuit : CloseState → Bool
  | .deleting => false
  | .closingClient => false
  | .closingServer => false
  | .closingTemp => false
  | .decrementing => false
  | .done => false
  | _ => true

namespace Session

/-- What the next statement of a goroutine announces. -/
def announces (s : Session) : Actor → List BusEvent
  | .login =>
      match s.login with
      | .publishing => [.playerJoin]
      | _ => []
  | .close =>
      match s.close with
      | .running done => publishTransfer done .closed
      | .publishing => [.playerQuit]
      | _ => []
  | .call i =>
      match s.calls i with
      | some ⟨_, .running o done⟩ => publishTransfer done o
      | _ => []
  | .timer i =>
      match s.timers i with
      | .running srv done => publishTransfer done (.timedOut i srv)
      | _ => []
  | .client =>
      match s.client with
      | .running c done => publishTransfer done (.switched c)
      | _ => []
  | _ => []

/-- The join has been published or never will be: the login goroutine is past that
statement, or `New` has failed and starts none. -/
def joinDecided (s : Session) : Bool :=
  !s.login.mayJoin || s.new = .deleting || s.new = .returned false

/-- Join and quit at most once each, and no join after the quit. -/
structure JoinThenQuit (bus : List BusEvent) : Prop where
  join : bus.count .playerJoin ≤ 1
  quit : bus.count .playerQuit ≤ 1
  order : ¬ [.playerQuit, .playerJoin].Sublist bus

variable {s s' : Session} {a : Action} {input : Input}

/-! ## The bus sees what the statements publish -/

theorem publishTransfer_count {e : BusEvent} (plain : e = .playerJoin ∨ e = .playerQuit)
    (done : Option TransferID) (o : Outcome) : (publishTransfer done o).count e = 0 := by
  obtain rfl | rfl := plain <;> cases done <;> rfl

theorem newStep_bus (taken : s.newStep input s.new = some s') : s'.bus = s.bus := by
  obtain ⟨_, _, _, _, _, rfl⟩ := newStep_frame taken
  rfl

theorem loginStep_bus (taken : s.loginStep input s.login = some s') :
    s'.bus = s.bus ++ s.announces .login := by
  cases at_ : s.login with
  | publishing =>
      rw [at_] at taken
      cases taken
      simp [announces, at_]
  | _ =>
      simp only [at_, loginStep] at taken
      (repeat' split at taken) <;> cases taken <;> simp [announces, at_]

theorem closeStep_bus (taken : s.closeStep s.close = some s') :
    s'.bus = s.bus ++ s.announces .close := by
  cases at_ : s.close with
  | running done | publishing =>
      rw [at_] at taken
      cases taken
      simp [announces, at_]
  | _ =>
      simp only [at_, closeStep] at taken
      (repeat' split at taken) <;> cases taken <;> simp [announces, at_]

theorem callNext_bus {i : TransferID} (taken : s.callNext i input = some s') :
    s'.bus = s.bus ++ s.announces (.call i) := by
  unfold callNext at taken
  cases called : s.calls i with
  | none =>
      simp only [called] at taken
      split at taken
      · obtain ⟨-, rfl⟩ := enter_spec taken
        simp [announces, called, setCall]
      · cases taken
  | some call =>
      simp only [called] at taken
      obtain ⟨target, state⟩ := call
      cases state with
      | running o done =>
          cases taken
          simp [announces, called]
      | _ =>
          simp only [callStep] at taken
          (repeat' split at taken) <;> cases taken <;>
            simp [announces, called, setCall, setTimer, panic]

theorem timerStep_bus {i : TransferID} (taken : s.timerStep i (s.timers i) = some s') :
    s'.bus = s.bus ++ s.announces (.timer i) := by
  cases at_ : s.timers i with
  | running srv done =>
      rw [at_] at taken
      cases taken
      simp [announces, at_]
  | _ =>
      simp only [at_, timerStep] at taken
      (repeat' split at taken) <;> cases taken <;> simp [announces, at_, setTimer]

theorem clientStep_bus (taken : s.clientStep input s.client = some s') :
    s'.bus = s.bus ++ s.announces .client := by
  cases at_ : s.client with
  | running c done =>
      simp only [at_, clientStep] at taken
      cases taken
      simp [announces, at_]
  | reading =>
      simp only [at_, clientStep] at taken
      split at taken <;> cases taken
      · rename_i pk
        obtain ⟨_, _, _, received⟩ := receive_frame s pk
        rw [received]
        simp [announces, at_]
      · simp [announces, at_]
  | translating f rest =>
      cases rest with
      | pure pk =>
          rw [at_] at taken
          cases taken
          simp [announces, at_]
      | ask r k =>
          simp only [at_, clientStep] at taken
          split at taken <;> cases taken <;> simp [announces, at_, panic]
  | locking f pk =>
      simp only [at_, clientStep] at taken
      split at taken <;> cases taken
      · simp [announces, at_]
      · obtain ⟨_, _, stopped⟩ := stopTimer_frame s
        simp [announces, at_, stopped]
  | _ =>
      simp only [at_, clientStep] at taken
      (repeat' split at taken) <;> cases taken <;> simp [announces, at_, panic]

/-- Everything on the bus was published by the statement that stood there. -/
theorem next_bus (taken : s.next a = some s') : s'.bus = s.bus ++ s.announces a.1 := by
  refine next_elim taken ?_ ?_ ?_ ?_ ?_ ?_ ?_ ?_
  · intro actor taken
    rw [newStep_bus taken, actor]
    exact (List.append_nil _).symm
  · intro actor taken
    rw [actor]
    exact loginStep_bus taken
  · intro i actor taken
    rw [actor]
    exact callNext_bus taken
  · intro i actor taken
    rw [actor]
    exact timerStep_bus taken
  · intro actor taken
    rw [actor]
    exact clientStep_bus taken
  · intro actor taken
    obtain ⟨_, _, _, _, _, _, rfl⟩ := serverStep_frame taken
    rw [actor]
    exact (List.append_nil _).symm
  · intro actor taken
    rw [actor]
    exact closeStep_bus taken
  · intro r actor taken
    rw [actor]
    obtain ⟨_, _, rfl⟩ | ⟨_, _, _, -, rfl⟩ := requestStep_frame taken <;>
      exact (List.append_nil _).symm

/-! ## Once each -/

theorem next_new (taken : s.next a = some s') :
    s'.new = s.new ∨ (a.1 = .new ∧ s.newStep a.2 s.new = some s') := by
  by_cases actor : a.1 = .new
  · exact .inr ⟨actor, ownStep_of_next taken actor⟩
  · exact .inl ((next_sides taken).new actor)

theorem next_close (taken : s.next a = some s') : s'.close = s.close ∨
    (a.1 = .close ∧ s.closeStep s.close = some s') := by
  by_cases actor : a.1 = .close
  · exact .inr ⟨actor, ownStep_of_next taken actor⟩
  · exact .inl ((next_sides taken).close actor)

/-- Only the login goroutine publishes a join, and only `Close` a quit. -/
theorem announces_count {e : BusEvent} {actor : Actor} (published : (s.announces actor).count e ≠ 0)
    (plain : e = .playerJoin ∨ e = .playerQuit) :
    (e = .playerJoin ∧ actor = .login ∧ s.login = .publishing) ∨
      (e = .playerQuit ∧ actor = .close ∧ s.close = .publishing) := by
  cases actor with
  | login =>
      simp only [announces] at published
      split at published
      · obtain rfl | rfl := plain
        · exact .inl ⟨rfl, rfl, ‹_›⟩
        · exact absurd rfl published
      · exact absurd rfl published
  | close =>
      simp only [announces] at published
      split at published
      · exact absurd (publishTransfer_count plain _ _) published
      · obtain rfl | rfl := plain
        · exact absurd rfl published
        · exact .inr ⟨rfl, rfl, ‹_›⟩
      · exact absurd rfl published
  | call | timer | client =>
      simp only [announces] at published
      split at published
      · exact absurd (publishTransfer_count plain _ _) published
      · exact absurd rfl published
  | _ => exact absurd rfl published

/-- The publish of the join is never ahead of the login goroutine again. -/
theorem next_mayJoin (w : Wired s) (taken : s.next a = some s')
    (ahead : s'.login.mayJoin = true) : s.login.mayJoin = true := by
  obtain same | ⟨-, taken⟩ | ⟨-, taken⟩ := next_login taken
  · rw [← same]
    exact ahead
  · rw [w.unstarted_of_new taken]
    rfl
  · cases at_ : s.login with
    | unlocking r =>
        cases r with
        | joined => rfl
        | notSpawned | notDialed =>
            rw [at_] at taken
            cases taken
            cases ahead
    | starting =>
        rw [at_] at taken
        cases taken
        cases ahead
    | closing r =>
        simp only [at_, loginStep] at taken
        split at taken <;> cases taken
        cases ahead
    | done r =>
        rw [at_] at taken
        cases taken
    | _ => rfl

theorem closeStep_mayQuit (taken : s.closeStep s.close = some s')
    (ahead : s'.close.mayQuit = true) : s.close.mayQuit = true := by
  cases at_ : s.close with
  | deleting | closingClient | closingServer | closingTemp | decrementing =>
      rw [at_] at taken
      cases taken
      cases ahead
  | done =>
      rw [at_] at taken
      cases taken
  | _ => rfl

/-- What is published of the join is taken from what may still be. -/
theorem next_join (w : Wired s) (taken : s.next a = some s') :
    (s.announces a.1).count .playerJoin + s'.login.mayJoin.toNat ≤ s.login.mayJoin.toNat := by
  by_cases published : (s.announces a.1).count .playerJoin = 0
  · rw [published, Nat.zero_add]
    exact Bool.toNat_le_toNat (next_mayJoin w taken)
  · obtain ⟨-, actor, at_⟩ | ⟨impossible, -⟩ := announces_count published (.inl rfl)
    · have step : s.loginStep a.2 s.login = some s' := ownStep_of_next taken actor
      rw [at_] at step
      cases step
      simp [actor, announces, at_, LoginState.mayJoin]
    · cases impossible

theorem next_quit (taken : s.next a = some s') :
    (s.announces a.1).count .playerQuit + s'.close.mayQuit.toNat ≤ s.close.mayQuit.toNat := by
  by_cases published : (s.announces a.1).count .playerQuit = 0
  · rw [published, Nat.zero_add]
    obtain same | ⟨-, taken⟩ := next_close taken
    · rw [same]
    · exact Bool.toNat_le_toNat (closeStep_mayQuit taken)
  · obtain ⟨impossible, -⟩ | ⟨-, actor, at_⟩ := announces_count published (.inr rfl)
    · cases impossible
    · have step : s.closeStep s.close = some s' := ownStep_of_next taken actor
      rw [at_] at step
      cases step
      simp [actor, announces, at_, CloseState.mayQuit]

/-- An event still to come has not been published yet. -/
structure Once (s : Session) : Prop where
  join : s.bus.count .playerJoin + s.login.mayJoin.toNat ≤ 1
  quit : s.bus.count .playerQuit + s.close.mayQuit.toNat ≤ 1

theorem Once.next (once : Once s) (w : Wired s) (taken : s.next a = some s') : Once s' := by
  have joins := next_join w taken
  have quits := next_quit taken
  obtain ⟨join, quit⟩ := once
  constructor
  · rw [next_bus taken, List.count_append]
    omega
  · rw [next_bus taken, List.count_append]
    omega

/-- In every run, each of the two events is published at most once. -/
theorem published_once {ok : Session → Action → Prop} (reached : machine.Reach ok s) : Once s :=
  reached.invariant ⟨by decide, by decide⟩
    fun _ _ _ before once _ taken => once.next (wired before) taken

/-! ## In order -/

/-- `Close` gets to its publish only once the join has been published or never
will be. -/
def joinFirst (s : Session) (a : Action) : Bool :=
  !(a.1 = .close && s.close = .publishing) || s.joinDecided

theorem newStep_failed (taken : s.newStep input s.new = some s')
    (failed : s.new = .deleting ∨ s.new = .returned false) :
    s'.new = .returned false := by
  obtain at_ | at_ := failed
  · rw [at_] at taken
    cases taken
    rfl
  · rw [at_] at taken
    cases taken

theorem joinDecided_iff : s.joinDecided = true ↔
    s.login.mayJoin = false ∨ s.new = .deleting ∨ s.new = .returned false := by
  simp [joinDecided, or_assoc]

/-- What is decided stays decided. -/
theorem next_joinDecided (w : Wired s) (taken : s.next a = some s')
    (decided : s.joinDecided = true) : s'.joinDecided = true := by
  rw [joinDecided_iff] at decided ⊢
  obtain passed | failed := decided
  · refine .inl (Bool.eq_false_iff.mpr fun ahead => ?_)
    rw [next_mayJoin w taken ahead] at passed
    cases passed
  · refine .inr ?_
    obtain same | ⟨-, taken⟩ := next_new taken
    · rw [same]
      exact failed
    · exact .inr (newStep_failed taken failed)

/-- A session whose `New` failed has no login goroutine. -/
theorem Wired.undecided (w : Wired s) (at_ : s.login = .publishing) : s.joinDecided = false := by
  have returned := w.returned (by rw [at_]; exact nofun)
  simp [joinDecided, at_, returned, LoginState.mayJoin]

/-- The join has come first, and after the quit nothing is left to come. -/
structure Sorted (s : Session) : Prop where
  order : ¬ [.playerQuit, .playerJoin].Sublist s.bus
  decided : .playerQuit ∈ s.bus → s.joinDecided = true

theorem pair_sublist_append {α : Type} {x y : α} {xs ys : List α}
    (pair : [x, y].Sublist (xs ++ ys)) :
    [x, y].Sublist xs ∨ (x ∈ xs ∧ y ∈ ys) ∨ [x, y].Sublist ys := by
  obtain ⟨front, back, parts, left, right⟩ := List.sublist_append_iff.mp pair
  match front, back with
  | [], _ =>
      cases parts
      exact .inr (.inr right)
  | [_], _ =>
      cases parts
      exact .inr (.inl ⟨List.singleton_sublist.mp left, List.singleton_sublist.mp right⟩)
  | _ :: _ :: front, back =>
      obtain ⟨rfl, rfl, rest⟩ : x = _ ∧ y = _ ∧ [] = front ++ back := by simpa using parts
      rw [(List.append_eq_nil_iff.mp rest.symm).1] at left
      exact .inl left

theorem mem_announces {e : BusEvent} {actor : Actor} (published : e ∈ s.announces actor)
    (plain : e = .playerJoin ∨ e = .playerQuit) :
    (e = .playerJoin ∧ actor = .login ∧ s.login = .publishing) ∨
      (e = .playerQuit ∧ actor = .close ∧ s.close = .publishing) :=
  announces_count (Nat.pos_iff_ne_zero.mp (List.count_pos_iff.mpr published)) plain

theorem Sorted.next (sorted : Sorted s) (w : Wired s) (ok : s.joinFirst a = true)
    (taken : s.next a = some s') : Sorted s' := by
  have bus := next_bus taken
  constructor
  · intro pair
    rw [bus] at pair
    obtain before | ⟨quit, join⟩ | both := pair_sublist_append pair
    · exact sorted.order before
    · obtain ⟨-, -, at_⟩ | ⟨impossible, -⟩ := mem_announces join (.inl rfl)
      · have decided := sorted.decided quit
        rw [w.undecided at_] at decided
        cases decided
      · cases impossible
    · -- one statement publishes one of the two
      obtain ⟨impossible, -⟩ | ⟨-, closing, -⟩ :=
        mem_announces (both.subset (List.mem_cons_self)) (.inr rfl)
      · cases impossible
      · obtain ⟨-, login, -⟩ | ⟨impossible, -⟩ :=
          mem_announces (both.subset (List.mem_cons_of_mem _ List.mem_cons_self)) (.inl rfl)
        · cases closing.symm.trans login
        · cases impossible
  · intro quit
    refine next_joinDecided w taken ?_
    rw [bus, List.mem_append] at quit
    obtain before | now := quit
    · exact sorted.decided before
    · obtain ⟨impossible, -⟩ | ⟨-, actor, at_⟩ := mem_announces now (.inr rfl)
      · cases impossible
      · simpa [joinFirst, actor, at_] using ok

/-- In every run in which `Close` publishes the quit only after the login is decided,
the bus sees the join at most once, the quit at most once, and the join first. -/
theorem join_before_quit (reached : machine.Reach (fun s a => s.joinFirst a = true) s) :
    JoinThenQuit s.bus := by
  have once := published_once reached
  have sorted : Sorted s := by
    refine reached.invariant ⟨nofun, nofun⟩ ?_
    intro _ _ _ before sorted ok taken
    exact sorted.next (wired before) ok taken
  exact ⟨Nat.le_of_add_right_le once.join, Nat.le_of_add_right_le once.quit, sorted.order⟩

/-- `Close` outside a transfer, from its first statement to its last. -/
def closingIdle : List Action := steps .close 10

/-- A session that logs in, plays and leaves. -/
theorem join_before_quit_visit : ∃ s, machine.Reach (fun s a => s.joinFirst a = true) s ∧
    s.bus = [.playerJoin, .playerQuit] ∧ JoinThenQuit s.bus := by
  have reached : machine.Reach (fun s a => s.joinFirst a = true) _ :=
    Machine.exec_reach (joining lobby lobbyData ++ closingIdle) rfl
  obtain ⟨s, reached, bus⟩ : ∃ s, machine.Reach (fun s a => s.joinFirst a = true) s ∧
      s.bus = [.playerJoin, .playerQuit] := ⟨_, reached, rfl⟩
  exact ⟨s, reached, bus, join_before_quit reached⟩

/-- The login has succeeded; `Close` runs before the login goroutine publishes, and the
join of the closed session is the last thing the bus sees of it. -/
theorem join_after_quit : ∃ s, machine.Reachable s ∧ s.close = .done ∧ s.stored = false ∧
    s.bus = [.playerQuit, .playerJoin] ∧ ¬ JoinThenQuit s.bus := by
  have reached : machine.Reachable _ := Machine.exec_reach
    (([(.new, .go), (.new, .found (some lobby))] : List Action) ++ steps .new 3 ++
      ([(.login, .dialed lobbyData)] : List Action) ++ steps .login 4 ++ closingIdle ++
      steps .login 2) rfl
  obtain ⟨s, reached, closed, stored, bus⟩ : ∃ s, machine.Reachable s ∧ s.close = .done ∧
      s.stored = false ∧ s.bus = [.playerQuit, .playerJoin] := ⟨_, reached, rfl, rfl, rfl⟩
  refine ⟨s, reached, closed, stored, bus, fun sorted => ?_⟩
  exact sorted.order (bus ▸ List.Sublist.refl _)

end Session

end Portal
