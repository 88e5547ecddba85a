/-
# Session.Agreement — the server and the connection of a session move together

`Wired` is what holds of the shared pointers at every point of every run: which
of them are set follows from how far `New` and the login goroutine have come,
the current connection was dialed to the current server, the pending one to the
pending server, and while `finishTransferDimensionChange` holds `serverMu` the
connection it switches to stays in `tempServerConn`.  It is kept statement by
statement (`next_wired`), so every reachable session has it (`wired`).

`server_conn_agree` reads off what a reader of `Server()` and `ServerConn()`
relies on.
-/
import Portal.Session.Machine

namespace Portal

open Portal.Theory.Transition

set_option autoImplicit false

/-- `New` has assigned `s.server`. -/
def NewState.assigned : NewState → Bool
  | .locking _ => true
  | .returned ok => ok
  | _ => false

/-- The login goroutine has assigned `s.serverConn`. -/
def LoginState.dialed : LoginState → Bool
  | .spawning _ => true
  | .translating _ => true
  | .unlocking r => r ≠ .notDialed
  | .publishing => true
  | .starting => true
  | .closing r => r ≠ .notDialed
  | .done r => r ≠ .notDialed
  | _ => false

/-- The login goroutine has assigned `s.translator`: the login succeeded. -/
def LoginState.joined : LoginState → Bool
  | .unlocking r => r = .joined
  | .publishing => true
  | .starting => true
  | .closing r => r = .joined
  | .done r => r = .joined
  | _ => false

theorem LoginState.dialed_of_joined {login : LoginState} (joined : login.joined = true) :
    login.dialed = true := by
  cases login with
  | unlocking r | closing r | done r => cases r <;> simp_all [LoginState.joined, LoginState.dialed]
  | _ => simp_all [LoginState.joined, LoginState.dialed]

/-- The server the login goroutine is dialing or has dialed. -/
def LoginState.target : LoginState → Option Server
  | .dialing srv => some srv
  | .assigning c => some c.server
  | _ => none

/-- The connection the login goroutine is logging in on. -/
def LoginState.conn : LoginState → Option Conn
  | .spawning c => some c
  | .translating c => some c
  | _ => none

/-- The connection a call of `Transfer` holds. -/
def CallState.conn : CallState → Option Conn
  | .spawning c => some c
  | .publishing c => some c
  | .selecting c => some c
  | .changing c _ => some c
  | _ => none

namespace Session

/-- Which shared pointers are set, and that they point to one another's servers. -/
structure Wired (s : Session) : Prop where
  returned : s.login ≠ .unstarted → s.new = .returned true
  unassigned : s.new.assigned = false → s.server = none
  assigned : s.new.assigned = true → s.server ≠ none
  located : ∀ srv, s.new = .locking srv → s.server = some srv
  undialed : s.login.dialed = false → s.serverConn = none
  dialed : s.login.dialed = true → s.serverConn ≠ none
  joined : s.login.joined = true → s.translator ≠ none
  target : ∀ srv, s.login.target = some srv → s.server = some srv
  spawned : ∀ c, s.login.conn = some c → s.serverConn = some c
  agree : ∀ c, s.serverConn = some c → s.server = some c.server
  client : s.client ≠ .unstarted → s.login = .done .joined
  serverLoop : s.serverLoop ≠ .unstarted → s.login = .done .joined
  pending : s.pendingServer = s.tempServerConn.map Conn.server
  calls : ∀ i call c, s.calls i = some call → call.state.conn = some c →
    c.dialer = .transfer i ∧ c.server = call.target
  finishing : ∀ c, s.client.finishing = some c → s.tempServerConn = some c

theorem initial_wired : Wired initial where
  returned := by simp [initial]
  unassigned := by simp [initial]
  assigned := by simp [initial, NewState.assigned]
  located := by simp [initial]
  undialed := by simp [initial]
  dialed := by simp [initial, LoginState.dialed]
  joined := by simp [initial, LoginState.joined]
  target := by simp [initial, LoginState.target]
  spawned := by simp [initial, LoginState.conn]
  agree := by simp [initial]
  client := by simp [initial]
  serverLoop := by simp [initial]
  pending := rfl
  calls := by simp [initial]
  finishing := by simp [initial, ClientState.finishing]

variable {s s' : Session} {input : Input}

/-- Outside `finishTransferDimensionChange` nothing is being switched to. -/
theorem finishing_eq_none (free : ¬ s.serverMuHeld = true) : s.client.finishing = none := by
  simpa [serverMuHeld] using free

/-! ## `New` -/

/-- Before `s.server = srv` the login goroutine has not been started. -/
theorem Wired.unstarted (w : Wired s) (before : s.new ≠ .returned true) : s.login = .unstarted :=
  Classical.byContradiction fun started => before (w.returned started)

theorem Wired.unstarted_of_new (w : Wired s) (taken : s.newStep input s.new = some s') :
    s.login = .unstarted := by
  refine w.unstarted fun returned => ?_
  rw [returned] at taken
  cases taken

/-- The loops start at the end of a login that succeeds. -/
theorem Wired.loops_unstarted (w : Wired s) (unjoined : s.login ≠ .done .joined) :
    s.client = .unstarted ∧ s.serverLoop = .unstarted :=
  ⟨Classical.byContradiction fun started => unjoined (w.client started),
    Classical.byContradiction fun started => unjoined (w.serverLoop started)⟩

theorem Wired.new_moves (w : Wired s) {new : NewState} {stored : Bool}
    (before : s.new.assigned = false) (unassigned : new.assigned = false)
    (unlocked : ∀ srv, new ≠ .locking srv) : Wired { s with new := new, stored := stored } where
  __ := w
  returned := fun started => by simp [w.returned started, NewState.assigned] at before
  unassigned := fun _ => w.unassigned before
  assigned := by simp [unassigned]
  located := fun srv locking => absurd locking (unlocked srv)

theorem newStep_wired (w : Wired s) (taken : s.newStep input s.new = some s') : Wired s' := by
  cases at_ : s.new with
  | storing | incrementing srv | deleting =>
      simp only [at_, newStep, Option.some.injEq] at taken
      subst taken
      exact w.new_moves (by simp [at_, NewState.assigned]) rfl (by simp)
  | finding =>
      simp only [at_, newStep] at taken
      split at taken <;> cases taken <;>
        exact w.new_moves (by simp [at_, NewState.assigned]) rfl (by simp)
  | assigning srv =>
      have login := w.unstarted (by simp [at_])
      have undialed : s.serverConn = none := w.undialed (by simp [login, LoginState.dialed])
      simp only [at_, newStep, Option.some.injEq] at taken
      subst taken
      exact { w with
        returned := fun started => absurd login started
        unassigned := by simp [NewState.assigned]
        assigned := by simp
        located := by simp
        target := by simp [login, LoginState.target]
        agree := by simp [undialed] }
  | locking srv =>
      have login := w.unstarted (by simp [at_])
      have undialed : s.serverConn = none := w.undialed (by simp [login, LoginState.dialed])
      have located : s.server = some srv := w.located srv at_
      simp only [at_, newStep, Option.some.injEq] at taken
      subst taken
      exact { w with
        returned := fun _ => rfl
        unassigned := by simp [NewState.assigned]
        assigned := by simp [located]
        located := by simp
        undialed := fun _ => undialed
        dialed := by simp [LoginState.dialed]
        joined := by simp [LoginState.joined]
        target := by simp [LoginState.target, located]
        spawned := by simp [LoginState.conn]
        client := fun started => absurd (w.client started) (by simp [login])
        serverLoop := fun started => absurd (w.serverLoop started) (by simp [login]) }
  | returned ok => simp [at_, newStep] at taken

/-! ## The login goroutine -/

/-- The login goroutine moves on within a stage: nothing is dialed or joined by it. -/
theorem Wired.login_moves (w : Wired s) {before login : LoginState} {loginMu : Bool}
    {bus : List BusEvent} (at_ : s.login = before)
    (running : before ≠ .unstarted ∧ before ≠ .done .joined)
    (dialed : login.dialed = before.dialed) (joined : login.joined = before.joined)
    (target : ∀ srv, login.target = some srv → s.server = some srv)
    (spawned : ∀ c, login.conn = some c → s.serverConn = some c) :
    Wired { s with login := login, loginMu := loginMu, bus := bus } := by
  subst at_
  exact { w with
    returned := fun _ => w.returned running.1
    undialed := fun before => w.undialed (dialed ▸ before)
    dialed := fun after => w.dialed (dialed ▸ after)
    joined := fun after => w.joined (joined ▸ after)
    target := target
    spawned := spawned
    client := fun started => absurd (w.client started) running.2
    serverLoop := fun started => absurd (w.serverLoop started) running.2 }

theorem loginStep_wired (w : Wired s) (taken : s.loginStep input s.login = some s') : Wired s' := by
  cases at_ : s.login with
  | unstarted => simp [at_, loginStep] at taken
  | dialing srv =>
      have target : s.server = some srv := w.target srv (by simp [at_, LoginState.target])
      simp only [at_, loginStep] at taken
      split at taken <;> cases taken
      · exact w.login_moves at_ (by simp) rfl rfl (by simp [LoginState.target, target])
          (by simp [LoginState.conn])
      · exact w.login_moves at_ (by simp) rfl rfl (by simp [LoginState.target])
          (by simp [LoginState.conn])
  | assigning c =>
      have target : s.server = some c.server := w.target c.server (by simp [at_, LoginState.target])
      simp only [at_, loginStep, Option.some.injEq] at taken
      subst taken
      exact { w with
        returned := fun _ => w.returned (by simp [at_])
        undialed := by simp [LoginState.dialed]
        dialed := by simp
        joined := by simp [LoginState.joined]
        target := by simp [LoginState.target]
        spawned := by simp [LoginState.conn]
        agree := by simp [target]
        client := fun started => absurd (w.client started) (by simp [at_])
        serverLoop := fun started => absurd (w.serverLoop started) (by simp [at_]) }
  | spawning c =>
      have spawned : s.serverConn = some c := w.spawned c (by simp [at_, LoginState.conn])
      simp only [at_, loginStep] at taken
      split at taken <;> cases taken
      · exact w.login_moves at_ (by simp) rfl rfl (by simp [LoginState.target])
          (by simp [LoginState.conn, spawned])
      · exact w.login_moves at_ (by simp) rfl rfl (by simp [LoginState.target])
          (by simp [LoginState.conn])
  | translating c =>
      have spawned : s.serverConn = some c := w.spawned c (by simp [at_, LoginState.conn])
      simp only [at_, loginStep, Option.some.injEq] at taken
      subst taken
      exact { w with
        returned := fun _ => w.returned (by simp [at_])
        undialed := by simp [LoginState.dialed]
        dialed := by simp [spawned]
        joined := by simp
        target := by simp [LoginState.target]
        spawned := by simp [LoginState.conn]
        client := fun started => absurd (w.client started) (by simp [at_])
        serverLoop := fun started => absurd (w.serverLoop started) (by simp [at_]) }
  | unlocking r =>
      simp only [at_, loginStep, Option.some.injEq] at taken
      subst taken
      cases r <;>
        exact w.login_moves at_ (by simp) rfl rfl (by simp [LoginState.target])
          (by simp [LoginState.conn])
  | publishing =>
      simp only [at_, loginStep, Option.some.injEq] at taken
      subst taken
      exact w.login_moves at_ (by simp) rfl rfl (by simp [LoginState.target])
        (by simp [LoginState.conn])
  | starting =>
      simp only [at_, loginStep, Option.some.injEq] at taken
      subst taken
      exact { w with
        returned := fun _ => w.returned (by simp [at_])
        undialed := by simp [LoginState.dialed]
        dialed := fun _ => w.dialed (by simp [at_, LoginState.dialed])
        joined := fun _ => w.joined (by simp [at_, LoginState.joined])
        target := by simp [LoginState.target]
        spawned := by simp [LoginState.conn]
        client := fun _ => rfl
        serverLoop := fun _ => rfl
        finishing := by simp [ClientState.finishing] }
  | closing r =>
      simp only [at_, loginStep] at taken
      split at taken <;> cases taken
      exact w.login_moves at_ (by simp) rfl rfl (by simp [LoginState.target])
        (by simp [LoginState.conn])
  | done r => simp [at_, loginStep] at taken

/-! ## `Transfer`, its timer and the requests -/

/-- A step of call `i` that sets neither pending field. -/
theorem Wired.call_moves (w : Wired s) (i : TransferID) {target : Server} {state : CallState}
    {transferring postTransfer dead panicked : Bool} {done : Option TransferID}
    {closed : List (Closer × Dialer)} {unacked : List Sender} {bus : List BusEvent}
    (held : ∀ c, state.conn = some c → c.dialer = .transfer i ∧ c.server = target) :
    Wired { s with
      calls := Function.update s.calls i (some ⟨target, state⟩)
      transferring := transferring, postTransfer := postTransfer, dead := dead
      transferDone := done, closed := closed, unacked := unacked, bus := bus
      panicked := panicked } where
  __ := w
  calls := by
    intro j call c called holds
    rcases calls_update called with ⟨rfl, rfl⟩ | ⟨-, before⟩
    · exact held c holds
    · exact w.calls j call c before holds

theorem callStep_wired {i : TransferID} {call : Call} (w : Wired s) (called : s.calls i = some call)
    (taken : s.callStep i call.target input call.state = some s') : Wired s' := by
  have held := fun c => w.calls i call c called
  cases at_ : call.state with
  | spawning c | selecting c =>
      have kept := held c (by simp [at_, CallState.conn])
      simp only [at_, callStep] at taken
      split at taken <;> cases taken <;>
        first
        | exact { w with }
        | exact w.call_moves i (by simp [CallState.conn, kept])
  | publishing c =>
      have kept := held c (by simp [at_, CallState.conn])
      simp only [at_, callStep] at taken
      split at taken <;> cases taken
      rename_i free
      have moved : Wired (s.setCall i call.target (.selecting c)) :=
        w.call_moves i (by simp [CallState.conn, kept])
      exact { moved with
        pending := by simp [kept.2]
        finishing := by simp [setCall, setTimer, finishing_eq_none free] }
  | _ =>
      -- no other statement takes over a connection
      simp only [at_, callStep] at taken
      (repeat' split at taken) <;> cases taken <;>
        first
        | exact { w with }
        | exact w.call_moves i (by simp [CallState.conn])

theorem callNext_wired {i : TransferID} (w : Wired s) (taken : s.callNext i input = some s') :
    Wired s' := by
  unfold callNext at taken
  split at taken
  · split at taken
    · obtain ⟨-, rfl⟩ := enter_spec taken
      exact w.call_moves i (by simp [CallState.conn])
    · cases taken
  · rename_i call called
    exact callStep_wired w called taken

theorem timerStep_wired {i : TransferID} {st : TimerState} (w : Wired s)
    (taken : s.timerStep i st = some s') : Wired s' := by
  cases st with
  | fired srv =>
      simp only [timerStep] at taken
      split at taken <;> cases taken
      rename_i free
      exact { w with
        pending := rfl
        finishing := by simp [setTimer, finishing_eq_none free] }
  | _ =>
      simp only [timerStep] at taken
      (try split at taken) <;> cases taken <;> exact { w with }

theorem requestStep_wired {r : Nat} {st : RequestState} (w : Wired s)
    (taken : s.requestStep r input st = some s') : Wired s' := by
  obtain ⟨_, _, rfl⟩ | ⟨i, target, _, -, rfl⟩ := requestStep_frame taken
  · exact { w with }
  · have moved : Wired (s.setCall i target .waiting) := w.call_moves i (by simp [CallState.conn])
    exact { moved with }

/-! ## The client loop -/

/-- A step of the running client loop outside the switch. -/
theorem Wired.client_moves (w : Wired s) {client : ClientState}
    {transferring postTransfer dead panicked : Bool} {done timer : Option TransferID}
    {timers : TransferID → TimerState} {tracked : Tracked} {closed : List (Closer × Dialer)}
    {unacked : List Sender} {bus : List BusEvent} (running : s.client ≠ .unstarted)
    (finishing : ∀ c, client.finishing = some c → s.tempServerConn = some c) :
    Wired { s with
      client := client, transferring := transferring, postTransfer := postTransfer, dead := dead
      transferDone := done, transferConfirmTimer := timer, timers := timers, tracked := tracked
      closed := closed, unacked := unacked, bus := bus, panicked := panicked } where
  __ := w
  client := fun _ => w.client running
  finishing := finishing

theorem clientStep_wired (w : Wired s) (taken : s.clientStep input s.client = some s') :
    Wired s' := by
  cases at_ : s.client with
  | unstarted | exited => simp [at_, clientStep] at taken
  | reading =>
      simp only [at_, clientStep] at taken
      split at taken <;> cases taken
      · unfold receive
        (repeat' split) <;>
          first
          | exact { w with }
          | exact w.client_moves (by simp [at_]) (by simp [ClientState.finishing])
      · exact w.client_moves (by simp [at_]) (by simp [ClientState.finishing])
  | translating f rest =>
      cases rest with
      | pure pk =>
          simp only [at_, clientStep, Option.some.injEq] at taken
          subst taken
          exact w.client_moves (by simp [at_]) (by simp [ClientState.finishing])
      | ask r k =>
          simp only [at_, clientStep] at taken
          split at taken <;> cases taken
          · exact { w with }
          · exact w.client_moves (by simp [at_]) (by simp [ClientState.finishing])
  | locking f pk =>
      simp only [at_, clientStep] at taken
      split at taken <;> cases taken
      · exact w.client_moves (by simp [at_]) (by simp [ClientState.finishing])
      · rename_i c temp
        obtain ⟨timers, timer, stopped⟩ := stopTimer_frame s
        rw [stopped]
        exact w.client_moves (by simp [at_]) (by simp [ClientState.finishing, temp])
  | announcing f c | wiping f c | reviving f c | dropping f c =>
      have temp : s.tempServerConn = some c := w.finishing c (by simp [at_, ClientState.finishing])
      simp only [at_, clientStep] at taken
      (try split at taken) <;> cases taken <;>
        first
        | exact { w with }
        | exact w.client_moves (by simp [at_]) (by simp [ClientState.finishing, temp])
  | switching f c =>
      have temp : s.tempServerConn = some c := w.finishing c (by simp [at_, ClientState.finishing])
      have login : s.login = .done .joined := w.client (by simp [at_])
      simp only [at_, clientStep] at taken
      split at taken <;> cases taken
      · rename_i pending _ set
        have target : pending = c.server := by
          have agreed := w.pending
          simpa [set, temp] using agreed
        subst target
        have returned : s.new = .returned true := w.returned (by simp [login])
        exact { w with
          unassigned := by simp [returned, NewState.assigned]
          assigned := by simp
          located := by simp [returned]
          undialed := by simp [login, LoginState.dialed]
          dialed := by simp [temp]
          target := by simp [login, LoginState.target]
          spawned := by simp [login, LoginState.conn]
          agree := by simp [temp]
          client := fun _ => login
          pending := rfl
          finishing := by simp [ClientState.finishing] }
      · exact { w with }
  | storingRuntimeID c | storingUniqueID c =>
      have login : s.login = .done .joined := w.client (by simp [at_])
      simp only [at_, clientStep] at taken
      split at taken <;> cases taken
      · exact { w with }
      · exact { w with
          joined := by simp
          client := fun _ => login
          finishing := by simp [ClientState.finishing] }
  | _ =>
      simp only [at_, clientStep] at taken
      (repeat' split at taken) <;> cases taken <;>
        first
        | exact { w with }
        | exact w.client_moves (by simp [at_]) (by simp [ClientState.finishing])

/-! ## Every run -/

theorem serverStep_wired (w : Wired s) (taken : s.serverStep input s.serverLoop = some s') :
    Wired s' := by
  have running : s.serverLoop ≠ .unstarted := by
    intro at_
    simp [at_, serverStep] at taken
  obtain ⟨_, _, _, _, _, _, rfl⟩ := serverStep_frame taken
  exact { w with serverLoop := fun _ => w.serverLoop running }

theorem closeStep_wired {st : CloseState} (w : Wired s) (taken : s.closeStep st = some s') :
    Wired s' := by
  obtain ⟨_, _, _, _, _, _, _, rfl⟩ := closeStep_frame taken
  exact { w with }

theorem next_wired {a : Action} (w : Wired s) (taken : s.next a = some s') : Wired s' :=
  next_elim taken (fun _ => newStep_wired w) (fun _ => loginStep_wired w) (fun _ _ => callNext_wired w)
    (fun _ _ => timerStep_wired w) (fun _ => clientStep_wired w) (fun _ => serverStep_wired w)
    (fun _ => closeStep_wired w) (fun _ _ => requestStep_wired w)

theorem wired {ok : Session → Action → Prop} (reached : machine.Reach ok s) : Wired s :=
  reached.invariant initial_wired fun _ _ _ _ w _ taken => next_wired w taken

/-- The loops start after a login that succeeded: every pointer is set. -/
theorem Wired.set_of_joined (w : Wired s) (joined : s.login = .done .joined) :
    (∃ srv, s.server = some srv) ∧ (∃ c, s.serverConn = some c) ∧ ∃ t, s.translator = some t := by
  have returned := w.returned (by rw [joined]; simp)
  exact ⟨Option.ne_none_iff_exists'.mp (w.assigned (by rw [returned]; rfl)),
    Option.ne_none_iff_exists'.mp (w.dialed (by rw [joined]; rfl)),
    Option.ne_none_iff_exists'.mp (w.joined (by rw [joined]; rfl))⟩

theorem clientStep_panicked (w : Wired s) (taken : s.clientStep input s.client = some s') :
    s'.panicked = s.panicked := by
  by_cases unstarted : s.client = .unstarted
  · simp [unstarted, clientStep] at taken
  · obtain ⟨⟨srv, server⟩, ⟨current, conn⟩, t, translator⟩ := w.set_of_joined (w.client unstarted)
    cases at_ : s.client with
    | reading =>
        simp only [at_, clientStep] at taken
        split at taken <;> cases taken
        · simp only [receive, translator]
          split <;> rfl
        · rfl
    | locking f pk =>
        simp only [at_, clientStep] at taken
        split at taken <;> cases taken
        · rfl
        · obtain ⟨_, _, stopped⟩ := stopTimer_frame s
          rw [stopped]
    | switching f c =>
        have temp := w.finishing c (by rw [at_]; rfl)
        have pending := w.pending
        rw [temp] at pending
        simp only [at_, clientStep, server, pending, Option.map_some, Option.some.injEq] at taken
        subst taken
        rfl
    | translating f rest =>
        cases rest with
        | pure pk =>
            simp only [at_, clientStep, Option.some.injEq] at taken
            subst taken
            rfl
        | ask r k =>
            simp only [at_, clientStep, translator, Option.some.injEq] at taken
            subst taken
            rfl
    | _ =>
        simp only [at_, clientStep, server, conn, translator] at taken
        (try split at taken) <;> cases taken <;> rfl

/-- **Server and connection agree.**  Once the login has succeeded, whatever
transfers, confirmations, late aborts and `Close` do: the current connection was
dialed to the current server, `tempServerConn` and `pendingServer` are set
together and belong together, and no statement of `finishTransferDimensionChange`
meets a nil pointer. -/
theorem server_conn_agree (reached : machine.Reachable s) (joined : s.login.joined = true) :
    (∃ c, s.serverConn = some c ∧ s.server = some c.server) ∧
      (s.tempServerConn = none ↔ s.pendingServer = none) ∧
      (∀ c, s.tempServerConn = some c → s.pendingServer = some c.server) ∧
      ∀ c input s', s.client.finishing = some c → s.next (.client, input) = some s' →
        s'.panicked = false := by
  have w := wired reached
  obtain ⟨current, set⟩ :=
    Option.ne_none_iff_exists'.mp (w.dialed (LoginState.dialed_of_joined joined))
  have server := w.agree current set
  have together : ∀ c, s.tempServerConn = some c → s.pendingServer = some c.server := by
    intro c temp
    rw [w.pending, temp]
    rfl
  refine ⟨⟨current, set, server⟩, ?_, together, ?_⟩
  · rw [w.pending]
    simp
  · intro c input s' inside taken
    obtain ⟨running, taken⟩ := next_eq_some taken
    rw [clientStep_panicked w taken]
    exact running

theorem server_conn_agree_pending :
    ∃ s, machine.Reachable s ∧ s.login.joined = true ∧
      s.tempServerConn = some ⟨.transfer 0, game, gameData⟩ ∧ s.pendingServer = some game := by
  have reached : machine.Reachable _ :=
    Machine.exec_reach (joining lobby lobbyData ++ transferCall 0 game gameData) rfl
  exact ⟨_, reached, rfl, rfl, (server_conn_agree reached rfl).2.2.1 _ rfl⟩

end Session

end Portal
