/-
# Session.Waiting — who waits for whom, and for how long

A goroutine of a session waits at three places: at `waitForLogin` while the login
goroutine holds `loginMu`, at `serverMu` while the client loop is inside
`finishTransferDimensionChange`, and in `Close` while another goroutine runs its body.
`asks` is what the next statement asks for and `holder` who has it.

* `blocked_of_waitsFor`: who waits cannot move, whatever the outside answers;
* `moves_of_free`: who has not ended and does not wait can, for some answer;
* `next_remaining`: a holder gets nearer to the release with every statement of its own,
  and nobody else moves it.

So the wait-for graph has no path of two edges, a lock is given back after a bounded number
of statements, and neither mutex is held while a handler or a subscriber runs
(`waiting_ends`).  The third part is what the unlock before `Close`, `Publish` and
`handlePackets` in the login goroutine is for: a callback may call `Server()`, `Conn()`
or `ServerConn()`.  Only the body of `Close` runs its callbacks inside `once`.
-/
import Portal.Session.Lifecycle
import Portal.Session.Provenance

namespace Portal

open Portal.Theory.PartialMap
open Portal.Theory.Transition

set_option autoImplicit false

/-- What goroutines of a session wait for. -/
inductive Lock where
  | loginMu
  | serverMu
  /-- the end of `s.once.Do` -/
  | once
  deriving DecidableEq

/-! ## What the next statement asks for -/

def LoginState.asks : LoginState → Option Lock
  | .closing _ => some .once
  | _ => none

def CallState.asks : CallState → Option Lock
  | .waiting => some .loginMu
  | .awaiting => some .loginMu
  | .reading => some .serverMu
  | .publishing _ => some .serverMu
  | _ => none

def TimerState.asks : TimerState → Option Lock
  | .fired _ => some .serverMu
  | .disconnecting => some .once
  | _ => none

def ServerState.asks : ServerState → Option Lock
  | .picking => some .serverMu
  | .comparing _ => some .serverMu
  | .closing => some .once
  | _ => none

def RequestState.asks : RequestState → Option Lock
  | .connecting _ => some .loginMu
  | .awaiting _ => some .loginMu
  | .reading _ => some .serverMu
  | _ => none

/-! ## How far it is to the release -/

/-- The statements up to and including `unlock()`, at most. -/
def LoginState.untilUnlock : LoginState → Nat
  | .dialing _ => 5
  | .assigning _ => 4
  | .spawning _ => 3
  | .translating _ => 2
  | .unlocking _ => 1
  | _ => 0

/-- The statements up to the end of `finishTransferDimensionChange`. -/
def ClientState.untilUnlock : ClientState → Nat
  | .announcing _ _ => 5
  | .wiping _ _ => 4
  | .reviving _ _ => 3
  | .dropping _ _ => 2
  | .switching _ _ => 1
  | _ => 0

/-- The statements up to the end of the body of `Close`, at most. -/
def CloseState.untilDone : CloseState → Nat
  | .unstarted => 13
  | .comparing => 12
  | .clearing => 11
  | .taking => 10
  | .running _ => 9
  | .quitting => 8
  | .unhandling => 7
  | .publishing => 6
  | .deleting => 5
  | .closingClient => 4
  | .closingServer => 3
  | .closingTemp => 2
  | .decrementing => 1
  | .done => 0

namespace Session

def asks (s : Session) : Actor → Option Lock
  | .login => s.login.asks
  | .call i => (s.calls i).bind fun call => call.state.asks
  | .timer i => (s.timers i).asks
  | .server => s.serverLoop.asks
  | .request r => (s.requests r).asks
  | _ => none

/-- The goroutine that has what others wait for. -/
def holder (s : Session) : Lock → Option Actor
  | .loginMu => if s.loginMu then some .login else none
  | .serverMu => if s.serverMuHeld then some .client else none
  | .once => if s.close = .done then none else some .close

/-- The goroutine that has to move before `a` can. -/
def waitsFor (s : Session) (a : Actor) : Option Actor := (s.asks a).bind s.holder

def remaining (s : Session) : Actor → Nat
  | .login => s.login.untilUnlock
  | .client => s.client.untilUnlock
  | .close => s.close.untilDone
  | _ => 0

/-- The next statement calls a handler of the session or the subscribers of the bus. -/
def callback (s : Session) : Actor → Bool
  | .login =>
      match s.login with
      | .publishing => true
      | _ => false
  | .call i =>
      match s.calls i with
      | some ⟨_, .handling⟩ => true
      | some ⟨_, .running _ _⟩ => true
      | _ => false
  | .timer i =>
      match s.timers i with
      | .running _ _ => true
      | _ => false
  | .client =>
      match s.client with
      | .running _ _ => true
      | .handling _ _ => true
      | _ => false
  | .server =>
      match s.serverLoop with
      | .notifying _ => true
      | .handling _ _ _ => true
      | _ => false
  | .close =>
      match s.close with
      | .running _ => true
      | .quitting => true
      | .publishing => true
      | _ => false
  | _ => false

/-- The goroutine has been started and has not ended. -/
def running (s : Session) : Actor → Bool
  | .new =>
      match s.new with
      | .returned _ => false
      | _ => true
  | .login =>
      match s.login with
      | .unstarted => false
      | .done _ => false
      | _ => true
  | .call i =>
      match s.calls i with
      | none => false
      | some ⟨_, .rejected⟩ => false
      | some ⟨_, .returned _⟩ => false
      | some _ => true
  | .timer i =>
      match s.timers i with
      | .unarmed => false
      | .stopped => false
      | .done => false
      | _ => true
  | .client =>
      match s.client with
      | .unstarted => false
      | .exited => false
      | _ => true
  | .server =>
      match s.serverLoop with
      | .unstarted => false
      | .exited => false
      | _ => true
  | .close =>
      match s.close with
      | .unstarted => false
      | .done => false
      | _ => true
  | .request r =>
      match s.requests r with
      | .unstarted => false
      | .done => false
      | _ => true

/-- For some answer of the outside the next statement can be executed. -/
def Moves (s : Session) (a : Actor) : Prop := ∃ input s', s.next (a, input) = some s'

variable {s s' : Session} {input : Input}

theorem moves_of_step {a : Actor} (alive : s.panicked = false) (input : Input)
    (goes : (s.ownStep input a).isSome = true) : s.Moves a := by
  obtain ⟨s', taken⟩ := Option.isSome_iff_exists.mp goes
  refine ⟨input, s', ?_⟩
  unfold next
  rw [if_neg (by simp [alive])]
  exact taken

/-! ## What is in place when somebody waits -/

/-- `loginMu` is held on the way to the unlock only, and nobody has found the session
before `New` has stored it. -/
structure Seated (s : Session) : Prop where
  loginMu : s.loginMu = true → 0 < s.login.untilUnlock
  stored : s.new = .storing → s.stored = false
  calls : s.new = .storing → ∀ i, s.calls i = none
  requests : s.new = .storing → ∀ r, s.requests r = .unstarted
  fresh : ∃ n, ∀ i, n ≤ i → s.calls i = none

theorem initial_seated : Seated initial where
  loginMu := by simp [initial]
  stored := fun _ => rfl
  calls := fun _ _ => rfl
  requests := fun _ _ => rfl
  fresh := ⟨0, fun _ _ => rfl⟩

/-- A write of one call leaves all but finitely many names unused. -/
theorem fresh_update {calls : TransferID → Option Call} {i : TransferID} {call : Option Call}
    (fresh : ∃ n, ∀ j, n ≤ j → calls j = none) :
    ∃ n, ∀ j, n ≤ j → Function.update calls i call j = none := by
  obtain ⟨n, unused⟩ := fresh
  refine ⟨Nat.max n (i + 1), fun j le => ?_⟩
  have above : i < j := Nat.lt_of_lt_of_le (Nat.lt_succ_self i) (Nat.le_trans (Nat.le_max_right ..) le)
  rw [Function.update_of_ne (Nat.ne_of_gt above)]
  exact unused j (Nat.le_trans (Nat.le_max_left ..) le)

theorem newStep_seated (seated : Seated s) (w : Wired s) (taken : s.newStep input s.new = some s') :
    Seated s' := by
  have before := w.unstarted_of_new taken
  have free : s.loginMu = false := by
    refine Bool.eq_false_iff.mpr fun held => ?_
    have inside := seated.loginMu held
    rw [before] at inside
    exact absurd inside (Nat.lt_irrefl 0)
  revert taken
  fun_cases newStep input s s.new <;> intro taken <;> cases taken <;>
    refine ⟨?_, by simp, by simp, by simp, seated.fresh⟩ <;>
    simp [free, LoginState.untilUnlock]

theorem loginStep_seated (seated : Seated s) (w : Wired s)
    (taken : s.loginStep input s.login = some s') : Seated s' := by
  have returned : s.new = .returned true := by
    refine w.returned fun unstarted => ?_
    rw [unstarted] at taken
    cases taken
  have held := seated.loginMu
  cases at_ : s.login with
  | unlocking r =>
      rw [at_] at taken
      cases taken
      exact ⟨by simp, by simp [returned], by simp [returned], by simp [returned], seated.fresh⟩
  | _ =>
      rw [at_] at held
      simp only [at_, loginStep] at taken
      (repeat' split at taken) <;> cases taken <;>
        refine ⟨?_, by simp [returned], by simp [returned], by simp [returned], seated.fresh⟩ <;>
        simp_all [LoginState.untilUnlock]

theorem callNext_seated {i : TransferID} (seated : Seated s) (taken : s.callNext i input = some s') :
    Seated s' := by
  have known : s'.new = .storing → ∀ j, s'.calls j = none := by
    intro storing
    obtain ⟨_, _, _, _, _, _, _, _, _, _, _, _, _, moved⟩ := callNext_frame taken
    have before : s.new = .storing := by rw [moved] at storing; exact storing
    -- nobody has a call to move, and none can be entered
    unfold callNext at taken
    rw [seated.calls before i] at taken
    simp only at taken
    split at taken
    · simp [enter, before] at taken
    · cases taken
  have moved : ∃ n, ∀ j, n ≤ j → s'.calls j = none := by
    unfold callNext at taken
    split at taken
    · split at taken
      · obtain ⟨-, rfl⟩ := enter_spec taken
        exact fresh_update seated.fresh
      · cases taken
    · obtain same | ⟨_, moved, -⟩ := callStep_calls taken
      · rw [same]
        exact seated.fresh
      · rw [moved]
        exact fresh_update seated.fresh
  obtain ⟨_, _, _, _, _, _, _, _, _, _, _, _, _, rfl⟩ := callNext_frame taken
  exact ⟨seated.loginMu, seated.stored, known, seated.requests, moved⟩

theorem requestStep_seated {r : Nat} (seated : Seated s)
    (taken : s.requestStep r input (s.requests r) = some s') : Seated s' := by
  have arrived : s.new ≠ .storing := by
    intro storing
    rw [seated.requests storing r] at taken
    simp [requestStep, seated.stored storing] at taken
  obtain ⟨_, _, rfl⟩ | ⟨_, _, _, -, rfl⟩ := requestStep_frame taken
  · exact ⟨seated.loginMu, seated.stored, seated.calls, fun storing => absurd storing arrived,
      seated.fresh⟩
  · exact ⟨seated.loginMu, seated.stored, fun storing => absurd storing arrived,
      fun storing => absurd storing arrived, fresh_update seated.fresh⟩

theorem next_seated {a : Action} (seated : Seated s) (w : Wired s) (taken : s.next a = some s') :
    Seated s' := by
  refine next_elim taken ?_ ?_ ?_ ?_ ?_ ?_ ?_ ?_
  · exact fun _ taken => newStep_seated seated w taken
  · exact fun _ taken => loginStep_seated seated w taken
  · exact fun _ _ taken => callNext_seated seated taken
  · intro _ _ taken
    obtain ⟨_, _, _, _, _, _, _, _, rfl⟩ := timerStep_frame taken
    exact { seated with }
  · intro _ taken
    obtain ⟨new, login, calls, -, -, requests, -⟩ := clientStep_others taken
    have same : s'.loginMu = s.loginMu ∧ s'.stored = s.stored := by
      by_cases switch : ∃ f c, s.client = .switching f c
      · obtain ⟨f, c, at_⟩ := switch
        simp only [at_, clientStep] at taken
        split at taken <;> cases taken <;> exact ⟨rfl, rfl⟩
      · obtain ⟨_, _, _, _, _, _, _, _, _, _, _, _, _, rfl⟩ :=
          clientStep_frame (fun f c at_ => switch ⟨f, c, at_⟩) taken
        exact ⟨rfl, rfl⟩
    refine ⟨?_, ?_, ?_, ?_, ?_⟩
    · rw [same.1, login]
      exact seated.loginMu
    · rw [new, same.2]
      exact seated.stored
    · rw [new, calls]
      exact seated.calls
    · rw [new, requests]
      exact seated.requests
    · rw [calls]
      exact seated.fresh
  · intro _ taken
    obtain ⟨_, _, _, _, _, _, rfl⟩ := serverStep_frame taken
    exact { seated with }
  · intro _ taken
    have stored : s'.new = .storing → s'.stored = false := by
      obtain ⟨_, _, _, _, _, _, _, moved⟩ := closeStep_frame taken
      intro storing
      have before : s.new = .storing := by rw [moved] at storing; exact storing
      revert taken
      fun_cases closeStep s s.close <;> intro taken <;> cases taken <;>
        first
        | exact seated.stored before
        | rfl
    obtain ⟨_, _, _, _, _, _, _, rfl⟩ := closeStep_frame taken
    exact { seated with stored := stored }
  · exact fun _ _ taken => requestStep_seated seated taken

theorem seated {ok : Session → Action → Prop} (reached : machine.Reach ok s) : Seated s := by
  have both : Wired s ∧ Seated s :=
    reached.invariant (I := fun s => Wired s ∧ Seated s) ⟨initial_wired, initial_seated⟩
      fun _ _ _ _ inv _ taken => ⟨next_wired inv.1 taken, next_seated inv.2 inv.1 taken⟩
  exact both.2

/-! ## The holder -/

theorem untilUnlock_finishing (held : s.serverMuHeld = true) : 0 < s.client.untilUnlock := by
  unfold serverMuHeld at held
  cases at_ : s.client <;> simp_all [ClientState.finishing, ClientState.untilUnlock]

/-- A goroutine that is waited for has a release ahead of it. -/
theorem holder_remaining (seated : Seated s) {l : Lock} {b : Actor} (held : s.holder l = some b) :
    0 < s.remaining b := by
  cases l with
  | loginMu =>
      simp only [holder] at held
      split at held <;> cases held
      exact seated.loginMu ‹_›
  | serverMu =>
      simp only [holder] at held
      split at held <;> cases held
      exact untilUnlock_finishing ‹_›
  | once =>
      simp only [holder] at held
      split at held <;> cases held
      rename_i open_
      show 0 < s.close.untilDone
      cases at_ : s.close <;> simp_all [CloseState.untilDone]

/-- It waits for nobody itself. -/
theorem holder_free {b : Actor} (inside : 0 < s.remaining b) : s.waitsFor b = none := by
  cases b with
  | login =>
      unfold waitsFor asks
      cases at_ : s.login <;> simp_all [remaining, LoginState.untilUnlock, LoginState.asks]
  | client | close => rfl
  | _ => exact absurd inside (Nat.lt_irrefl 0)

/-- Neither mutex is held over a callback. -/
theorem holder_quiet {b : Actor} (inside : 0 < s.remaining b) : b = .close ∨ s.callback b = false := by
  cases b with
  | login =>
      refine .inr ?_
      unfold callback
      cases at_ : s.login <;> simp_all [remaining, LoginState.untilUnlock]
  | client =>
      refine .inr ?_
      unfold callback
      cases at_ : s.client <;> simp_all [remaining, ClientState.untilUnlock]
  | close => exact .inl rfl
  | _ => exact absurd inside (Nat.lt_irrefl 0)

theorem holder_moves (alive : s.panicked = false) {b : Actor} (inside : 0 < s.remaining b)
    (arrived : b = .close → s.new ≠ .storing) : s.Moves b := by
  cases b with
  | login =>
      cases at_ : s.login with
      | dialing srv => exact moves_of_step alive (.failed "") (by simp [ownStep, at_, loginStep])
      | spawning c | assigning c | translating c | unlocking r =>
          exact moves_of_step alive .go (by simp [ownStep, at_, loginStep])
      | _ => simp [remaining, at_, LoginState.untilUnlock] at inside
  | client =>
      cases at_ : s.client with
      | announcing f c | wiping f c =>
          exact moves_of_step alive .go (by simp [ownStep, at_, clientStep])
      | reviving f c | dropping f c | switching f c =>
          refine moves_of_step alive .go ?_
          simp only [ownStep, at_, clientStep]
          split <;> rfl
      | _ => simp [remaining, at_, ClientState.untilUnlock] at inside
  | close =>
      have started := arrived rfl
      cases at_ : s.close with
      | unstarted => exact moves_of_step alive .go (by simp [ownStep, at_, closeStep, started])
      | comparing =>
          refine moves_of_step alive .go ?_
          simp only [ownStep, at_, closeStep]
          split <;> rfl
      | done => simp [remaining, at_, CloseState.untilDone] at inside
      | _ => exact moves_of_step alive .go (by simp [ownStep, at_, closeStep])
  | _ => exact absurd inside (Nat.lt_irrefl 0)

/-- **The holder gets on**: its own statements bring it nearer to the release, and nobody
else moves it. -/
theorem next_remaining {a : Action} {b : Actor} (w : Wired s) (taken : s.next a = some s')
    (inside : 0 < s.remaining b) :
    (a.1 = b → s'.remaining b < s.remaining b) ∧ (a.1 ≠ b → s'.remaining b = s.remaining b) := by
  cases b with
  | login =>
      show (_ → s'.login.untilUnlock < s.login.untilUnlock) ∧
        (_ → s'.login.untilUnlock = s.login.untilUnlock)
      have inside : 0 < s.login.untilUnlock := inside
      refine ⟨fun own => ?_, fun other => ?_⟩
      · have taken := ownStep_of_next taken own
        simp only [ownStep] at taken
        cases at_ : s.login with
        | unlocking r =>
            rw [at_] at taken
            cases taken
            cases r <;> exact Nat.zero_lt_one
        | _ =>
            rw [at_] at inside
            simp only [at_, loginStep] at taken
            (repeat' split at taken) <;> cases taken <;> simp_all [LoginState.untilUnlock]
      · obtain same | ⟨-, new⟩ | ⟨own, -⟩ := next_login taken
        · rw [same]
        · rw [w.unstarted_of_new new] at inside
          exact absurd inside (Nat.lt_irrefl 0)
        · exact absurd own other
  | client =>
      show (_ → s'.client.untilUnlock < s.client.untilUnlock) ∧
        (_ → s'.client.untilUnlock = s.client.untilUnlock)
      have inside : 0 < s.client.untilUnlock := inside
      have started : s.client ≠ .unstarted := by
        intro unstarted
        rw [unstarted] at inside
        exact absurd inside (Nat.lt_irrefl 0)
      refine ⟨fun own => ?_, fun other => ?_⟩
      · have taken := ownStep_of_next taken own
        simp only [ownStep] at taken
        obtain ⟨⟨srv, server⟩, ⟨current, conn⟩, t, translator⟩ := w.set_of_joined (w.client started)
        cases at_ : s.client with
        | switching f c =>
            have temp := w.finishing c (by rw [at_]; rfl)
            have pending := w.pending
            rw [temp] at pending
            simp only [at_, clientStep, server, pending, Option.map_some, Option.some.injEq] at taken
            subst taken
            exact Nat.le_refl _
        | announcing f c | wiping f c | reviving f c | dropping f c =>
            simp only [at_, clientStep, conn, translator, Option.some.injEq] at taken
            subst taken
            exact Nat.le_refl _
        | _ => simp [at_, ClientState.untilUnlock] at inside
      · refine congrArg ClientState.untilUnlock ?_
        refine next_elim_loops taken ?_ ?_ ?_ ?_ ?_
        · intro _ new
          obtain ⟨_, _, _, _, _, rfl⟩ := newStep_frame new
          rfl
        · intro _ login
          rw [w.client started] at login
          cases login
        · exact fun own _ => absurd own other
        · intro _ server
          obtain ⟨_, _, _, _, _, _, rfl⟩ := serverStep_frame server
          rfl
        · exact fun same => same.client
  | close =>
      show (_ → s'.close.untilDone < s.close.untilDone) ∧
        (_ → s'.close.untilDone = s.close.untilDone)
      refine ⟨fun own => ?_, fun other => ?_⟩
      · have taken := ownStep_of_next taken own
        simp only [ownStep] at taken
        cases at_ : s.close <;> simp only [at_, closeStep] at taken <;>
          (try split at taken) <;> cases taken <;> simp [CloseState.untilDone]
      · rw [(next_sides taken).close other]
  | _ => exact absurd inside (Nat.lt_irrefl 0)

/-! ## Who waits and who moves -/

/-- A call of a mutex's `Lock` that returns finds it free. -/
theorem holder_loginMu {b : Actor} (held : s.holder .loginMu = some b) : s.loginMu = true := by
  simp only [holder] at held
  split at held
  · assumption
  · cases held

theorem holder_serverMu {b : Actor} (held : s.holder .serverMu = some b) : s.serverMuHeld = true := by
  simp only [holder] at held
  split at held
  · assumption
  · cases held

theorem holder_once {b : Actor} (held : s.holder .once = some b) : s.close ≠ .done := by
  simp only [holder] at held
  split at held
  · cases held
  · assumption

/-- Who waits cannot move, whatever the outside answers. -/
theorem blocked_of_waitsFor {a b : Actor} (waits : s.waitsFor a = some b) (input : Input) :
    s.ownStep input a = none := by
  obtain ⟨l, asks, held⟩ := Option.bind_eq_some_iff.mp waits
  cases a with
  | login =>
      simp only [Session.asks] at asks
      cases at_ : s.login with
      | closing r =>
          rw [at_] at asks
          cases asks
          simp [ownStep, at_, loginStep, holder_once held]
      | _ =>
          rw [at_] at asks
          cases asks
  | call i =>
      obtain ⟨⟨target, state⟩, called, asks⟩ := Option.bind_eq_some_iff.mp asks
      simp only [ownStep, callNext, called]
      cases state with
      | waiting | awaiting =>
          cases asks
          simp [callStep, holder_loginMu held]
      | reading | publishing c =>
          cases asks
          simp [callStep, holder_serverMu held]
      | _ => cases asks
  | timer i =>
      simp only [Session.asks] at asks
      cases at_ : s.timers i with
      | fired srv =>
          rw [at_] at asks
          cases asks
          simp [ownStep, at_, timerStep, holder_serverMu held]
      | disconnecting =>
          rw [at_] at asks
          cases asks
          simp [ownStep, at_, timerStep, holder_once held]
      | _ =>
          rw [at_] at asks
          cases asks
  | server =>
      simp only [Session.asks] at asks
      cases at_ : s.serverLoop with
      | picking | comparing c =>
          rw [at_] at asks
          cases asks
          simp [ownStep, at_, serverStep, holder_serverMu held]
      | closing =>
          rw [at_] at asks
          cases asks
          simp [ownStep, at_, serverStep, holder_once held]
      | _ =>
          rw [at_] at asks
          cases asks
  | request r =>
      simp only [Session.asks] at asks
      cases at_ : s.requests r with
      | connecting req | awaiting req =>
          rw [at_] at asks
          cases asks
          simp [ownStep, at_, requestStep, holder_loginMu held]
      | reading req =>
          rw [at_] at asks
          cases asks
          simp [ownStep, at_, requestStep, holder_serverMu held]
      | _ =>
          rw [at_] at asks
          cases asks
  | _ => cases asks

/-- A lock that is asked for in vain is held by somebody. -/
theorem free_of_asks {a : Actor} {l : Lock} (free : s.waitsFor a = none) (asks : s.asks a = some l) :
    s.holder l = none := by
  unfold waitsFor at free
  rw [asks] at free
  exact free

theorem loginMu_free (free : s.holder .loginMu = none) : s.loginMu = false := by
  refine Bool.eq_false_iff.mpr fun held => ?_
  simp [holder, held] at free

theorem serverMu_free (free : s.holder .serverMu = none) : s.serverMuHeld = false := by
  refine Bool.eq_false_iff.mpr fun held => ?_
  simp [holder, held] at free

theorem once_free (free : s.holder .once = none) : s.close = .done := by
  refine Classical.byContradiction fun open_ => ?_
  simp [holder, open_] at free

/-- A call that has not ended and does not wait can move. -/
theorem call_moves_of_free (alive : s.panicked = false) {i : TransferID}
    (started : s.running (.call i) = true) (free : s.waitsFor (.call i) = none) :
    s.Moves (.call i) := by
  simp only [running] at started
  cases called : s.calls i with
  | none =>
      rw [called] at started
      cases started
  | some call =>
      obtain ⟨target, state⟩ := call
      rw [called] at started
      have asks : s.asks (.call i) = state.asks := by simp [Session.asks, called]
      have step : ∀ input, s.ownStep input (.call i) = s.callStep i target input state := by
        intro input
        simp only [ownStep, callNext, called]
      cases state with
      | waiting | awaiting =>
          have unlocked := loginMu_free (free_of_asks free asks)
          exact moves_of_step alive .go (by simp [step, callStep, unlocked])
      | reading =>
          have unlocked := serverMu_free (free_of_asks free asks)
          refine moves_of_step alive .go ?_
          simp only [step, callStep, unlocked, Bool.false_eq_true, if_false]
          split <;> rfl
      | publishing c =>
          have unlocked := serverMu_free (free_of_asks free asks)
          exact moves_of_step alive .go (by simp [step, callStep, unlocked])
      | handling => exact moves_of_step alive (.verdict true) (by simp [step, callStep])
      | dialing retried =>
          refine moves_of_step alive (.failed "") ?_
          simp only [step, callStep]
          split <;> rfl
      | spawning c => exact moves_of_step alive .go (by simp [step, callStep])
      | comparing | selecting c =>
          refine moves_of_step alive .go ?_
          simp only [step, callStep]
          split <;> rfl
      | respawning =>
          refine moves_of_step alive .go ?_
          simp only [step, callStep]
          split
          · split <;> rfl
          · rfl
      | rejected | returned err => cases started
      | _ => exact moves_of_step alive .go (by simp [step, callStep])

theorem timer_moves_of_free (alive : s.panicked = false) {i : TransferID}
    (started : s.running (.timer i) = true) (free : s.waitsFor (.timer i) = none) :
    s.Moves (.timer i) := by
  simp only [running] at started
  have asks : s.asks (.timer i) = (s.timers i).asks := rfl
  cases at_ : s.timers i with
  | fired srv =>
      rw [at_] at asks
      have unlocked := serverMu_free (free_of_asks free asks)
      exact moves_of_step alive .go (by simp [ownStep, at_, timerStep, unlocked])
  | disconnecting =>
      rw [at_] at asks
      have ended := once_free (free_of_asks free asks)
      exact moves_of_step alive .go (by simp [ownStep, at_, timerStep, ended])
  | unarmed | stopped | done =>
      rw [at_] at started
      cases started
  | _ => exact moves_of_step alive .go (by simp [ownStep, at_, timerStep])

theorem client_moves_of_free (alive : s.panicked = false) (started : s.running .client = true) :
    s.Moves .client := by
  simp only [running] at started
  cases at_ : s.client with
  | unstarted | exited =>
      rw [at_] at started
      cases started
  | reading => exact moves_of_step alive (.failed "") (by simp [ownStep, at_, clientStep])
  | handling f pk => exact moves_of_step alive (.verdict true) (by simp [ownStep, at_, clientStep])
  | translating f rest =>
      cases rest with
      | pure pk => exact moves_of_step alive .go (by simp [ownStep, at_, clientStep])
      | ask r k =>
          refine moves_of_step alive .go ?_
          simp only [ownStep, at_, clientStep]
          split <;> rfl
  | writing f pk c => exact moves_of_step alive .go (by simp [ownStep, at_, clientStep])
  | _ =>
      refine moves_of_step alive .go ?_
      simp only [ownStep, at_, clientStep]
      (try split) <;> rfl

theorem server_moves_of_free (alive : s.panicked = false) (started : s.running .server = true)
    (free : s.waitsFor .server = none) : s.Moves .server := by
  simp only [running] at started
  have asks : s.asks .server = s.serverLoop.asks := rfl
  cases at_ : s.serverLoop with
  | unstarted | exited =>
      rw [at_] at started
      cases started
  | picking =>
      rw [at_] at asks
      have unlocked := serverMu_free (free_of_asks free asks)
      refine moves_of_step alive .go ?_
      simp only [ownStep, at_, serverStep, unlocked, Bool.false_eq_true, if_false]
      split <;> rfl
  | comparing c =>
      rw [at_] at asks
      have unlocked := serverMu_free (free_of_asks free asks)
      refine moves_of_step alive .go ?_
      simp only [ownStep, at_, serverStep, unlocked, Bool.false_eq_true, if_false]
      split <;> rfl
  | closing =>
      rw [at_] at asks
      have ended := once_free (free_of_asks free asks)
      exact moves_of_step alive .go (by simp [ownStep, at_, serverStep, ended])
  | reading c => exact moves_of_step alive (.failed "") (by simp [ownStep, at_, serverStep])
  | notifying c => exact moves_of_step alive (.verdict true) (by simp [ownStep, at_, serverStep])
  | handling c read pk =>
      exact moves_of_step alive (.verdict true) (by simp [ownStep, at_, serverStep])
  | translating c read rest =>
      cases rest with
      | pure pk => exact moves_of_step alive .go (by simp [ownStep, at_, serverStep])
      | ask r k =>
          refine moves_of_step alive .go ?_
          simp only [ownStep, at_, serverStep]
          split <;> rfl
  | _ =>
      refine moves_of_step alive .go ?_
      simp only [ownStep, at_, serverStep]
      (try split) <;> rfl

theorem request_moves_of_free (seated : Seated s) (alive : s.panicked = false) {r : Nat}
    (started : s.running (.request r) = true) (free : s.waitsFor (.request r) = none) :
    s.Moves (.request r) := by
  have arrived : s.new ≠ .storing := by
    intro storing
    simp [running, seated.requests storing r] at started
  simp only [running] at started
  have asks : s.asks (.request r) = (s.requests r).asks := rfl
  cases at_ : s.requests r with
  | unstarted | done =>
      rw [at_] at started
      cases started
  | connecting req | awaiting req =>
      rw [at_] at asks
      have unlocked := loginMu_free (free_of_asks free asks)
      exact moves_of_step alive .go (by simp [ownStep, at_, requestStep, unlocked])
  | reading req =>
      rw [at_] at asks
      have unlocked := serverMu_free (free_of_asks free asks)
      refine moves_of_step alive .go ?_
      simp only [ownStep, at_, requestStep, unlocked, Bool.false_eq_true, if_false]
      cases s.server with
      | none => rfl
      | some srv => cases req <;> rfl
  | calling target =>
      -- a call gets a name nobody has used
      obtain ⟨n, unused⟩ := seated.fresh
      have entered : s.calls n = none := unused n (Nat.le_refl n)
      exact moves_of_step alive (.call n) (by simp [ownStep, at_, requestStep, enter, arrived, entered])

/-- Who has been started, has not ended and does not wait can move. -/
theorem moves_of_free (seated : Seated s) (alive : s.panicked = false) {a : Actor}
    (started : s.running a = true) (free : s.waitsFor a = none) : s.Moves a := by
  cases a with
  | new =>
      simp only [running] at started
      cases at_ : s.new with
      | finding => exact moves_of_step alive (.found none) (by simp [ownStep, at_, newStep])
      | returned ok =>
          rw [at_] at started
          cases started
      | _ => exact moves_of_step alive .go (by simp [ownStep, at_, newStep])
  | login =>
      simp only [running] at started
      have asks : s.asks .login = s.login.asks := rfl
      cases at_ : s.login with
      | unstarted | done r =>
          rw [at_] at started
          cases started
      | dialing srv => exact moves_of_step alive (.failed "") (by simp [ownStep, at_, loginStep])
      | closing r =>
          rw [at_] at asks
          have ended := once_free (free_of_asks free asks)
          exact moves_of_step alive .go (by simp [ownStep, at_, loginStep, ended])
      | _ => exact moves_of_step alive .go (by simp [ownStep, at_, loginStep])
  | call i => exact call_moves_of_free alive started free
  | timer i => exact timer_moves_of_free alive started free
  | client => exact client_moves_of_free alive started
  | server => exact server_moves_of_free alive started free
  | close =>
      simp only [running] at started
      cases at_ : s.close with
      | unstarted | done =>
          rw [at_] at started
          cases started
      | comparing =>
          refine moves_of_step alive .go ?_
          simp only [ownStep, at_, closeStep]
          split <;> rfl
      | _ => exact moves_of_step alive .go (by simp [ownStep, at_, closeStep])
  | request r => exact request_moves_of_free seated alive started free

/-! ## Every run -/

/-- Who waits for the end of `Close` got hold of the session after `New` had stored it. -/
theorem arrived_of_once (w : Wired s) (tr : Traced s) (seated : Seated s) {a : Actor}
    (asks : s.asks a = some .once) : s.new ≠ .storing := by
  cases a with
  | login =>
      rw [w.returned fun unstarted => by simp [Session.asks, unstarted, LoginState.asks] at asks]
      simp
  | server =>
      have joined := w.serverLoop fun unstarted => by
        simp [Session.asks, unstarted, ServerState.asks] at asks
      rw [w.returned (by rw [joined]; simp)]
      simp
  | timer i =>
      obtain ⟨srv, call, called, -⟩ := tr.timers i fun unarmed => by
        simp [Session.asks, unarmed, TimerState.asks] at asks
      intro storing
      rw [seated.calls storing i] at called
      cases called
  | call i =>
      obtain ⟨call, -, asks⟩ := Option.bind_eq_some_iff.mp asks
      cases at_ : call.state <;> simp [at_, CallState.asks] at asks
  | request r =>
      simp only [Session.asks] at asks
      cases at_ : s.requests r <;> simp [at_, RequestState.asks] at asks
  | _ => cases asks

theorem waits_moves (w : Wired s) (tr : Traced s) (seated : Seated s) (alive : s.panicked = false)
    {a b : Actor} (waits : s.waitsFor a = some b) : s.Moves b := by
  obtain ⟨l, asks, held⟩ := Option.bind_eq_some_iff.mp waits
  refine holder_moves alive (holder_remaining seated held) ?_
  rintro rfl
  cases l with
  | once => exact arrived_of_once w tr seated asks
  | loginMu | serverMu =>
      simp only [holder] at held
      split at held <;> cases held

/-- While `a` waits for `b`, every statement of `b` is one of the few left before the
release. -/
theorem waiting_bounded {a b : Actor} (actions : List Action) :
    ∀ {s s' : Session}, Wired s → Seated s → s.waitsFor a = some b →
      machine.exec (fun _ _ => True) s actions = some s' →
      s.remaining b ≤ actions.countP (fun act => decide (act.1 = b)) →
      ∃ earlier later middle, actions = earlier ++ later ∧
        machine.exec (fun _ _ => True) s earlier = some middle ∧ middle.waitsFor a ≠ some b := by
  induction actions with
  | nil =>
      intro s s' w seated waits _ enough
      obtain ⟨l, -, held⟩ := Option.bind_eq_some_iff.mp waits
      have ahead := holder_remaining seated held
      exact absurd (Nat.lt_of_lt_of_le ahead enough) (Nat.lt_irrefl 0)
  | cons act rest ih =>
      intro s s' w seated waits ran enough
      obtain ⟨l, -, held⟩ := Option.bind_eq_some_iff.mp waits
      simp only [Machine.exec, if_true] at ran
      obtain ⟨s₁, taken, ran⟩ := Option.bind_eq_some_iff.mp ran
      have first : machine.exec (fun _ _ => True) s [act] = some s₁ := by
        rw [Machine.exec_cons trivial taken]
        rfl
      by_cases still : s₁.waitsFor a = some b
      · obtain ⟨own, other⟩ := next_remaining w taken (holder_remaining seated held)
        have left : s₁.remaining b ≤ rest.countP (fun act => decide (act.1 = b)) := by
          by_cases mine : act.1 = b
          · have fewer := own mine
            rw [List.countP_cons_of_pos (by simp [mine])] at enough
            omega
          · rw [List.countP_cons_of_neg (by simp [mine])] at enough
            rw [other mine]
            exact enough
        obtain ⟨earlier, later, middle, rfl, reached, free⟩ :=
          ih (next_wired w taken) (next_seated seated w taken) still ran left
        refine ⟨act :: earlier, later, middle, rfl, ?_, free⟩
        rw [Machine.exec_cons trivial taken]
        exact reached
      · exact ⟨[act], rest, s₁, rfl, first, still⟩

theorem remaining_le (s : Session) (b : Actor) : s.remaining b ≤ 13 := by
  cases b with
  | login =>
      show s.login.untilUnlock ≤ 13
      cases s.login <;> simp [LoginState.untilUnlock]
  | client =>
      show s.client.untilUnlock ≤ 13
      cases s.client <;> simp [ClientState.untilUnlock]
  | close =>
      show s.close.untilDone ≤ 13
      cases s.close <;> simp [CloseState.untilDone]
  | _ => exact Nat.zero_le _

/-- **Nobody waits for ever.**  In every state of every run, a goroutine of the session that
has not ended can execute its next statement for some answer of the outside, or waits for
one other goroutine `b`.  Then `b` can move and waits for nobody, it is not inside a handler
or a subscriber unless it runs the body of `Close`, and in every continuation the wait is
over by the time `b` has executed 13 statements. -/
theorem waiting_ends (reached : machine.Reachable s) (alive : s.panicked = false) {a : Actor}
    (started : s.running a = true) :
    s.Moves a ∨ ∃ b, s.waitsFor a = some b ∧ s.Moves b ∧ s.waitsFor b = none ∧
      (b = .close ∨ s.callback b = false) ∧
      ∀ actions s', machine.exec (fun _ _ => True) s actions = some s' →
        13 ≤ actions.countP (fun act => decide (act.1 = b)) →
        ∃ earlier later middle, actions = earlier ++ later ∧
          machine.exec (fun _ _ => True) s earlier = some middle ∧ middle.waitsFor a ≠ some b := by
  have w := wired reached
  have seat := seated reached
  cases waits : s.waitsFor a with
  | none => exact .inl (moves_of_free seat alive started waits)
  | some b =>
      obtain ⟨l, -, held⟩ := Option.bind_eq_some_iff.mp waits
      have inside := holder_remaining seat held
      refine .inr ⟨b, rfl, waits_moves w (traced reached) seat alive waits, holder_free inside,
        holder_quiet inside, ?_⟩
      intro actions s' ran enough
      exact waiting_bounded actions w seat waits ran (Nat.le_trans (remaining_le s b) enough)

/-- The timer of a transfer has fired while the client loop is confirming it: it waits for
the client loop, which can move and is not in a callback. -/
theorem waiting_ends_fired : ∃ s, machine.Reachable s ∧ s.panicked = false ∧
    s.running (.timer 0) = true ∧ s.waitsFor (.timer 0) = some .client ∧ s.Moves .client ∧
    s.callback .client = false := by
  obtain ⟨s, reached, alive, started, waits⟩ : ∃ s, machine.Reachable s ∧ s.panicked = false ∧
      s.running (.timer 0) = true ∧ s.waitsFor (.timer 0) = some .client := by
    have reached : machine.Reachable _ :=
      Machine.exec_reach (joining lobby lobbyData ++ transferCall 0 game gameData ++
        steps (.timer 0) 1 ++ acknowledging ++ steps .client 1) rfl
    exact ⟨_, reached, rfl, rfl, rfl⟩
  refine ⟨s, reached, alive, started, waits, ?_⟩
  rcases waiting_ends reached alive started with ⟨input, s', taken⟩ | ⟨b, holds, moves, -, quiet, -⟩
  · have step : s.ownStep input (.timer 0) = some s' := ownStep_of_next taken rfl
    rw [blocked_of_waitsFor waits input] at step
    cases step
  · rw [waits] at holds
    cases holds
    exact ⟨moves, quiet.resolve_left (by simp)⟩

end Session

end Portal
