/-
# Session.Leak — every backend connection dialed gets closed

The login goroutine and every call of `Transfer` may dial a backend.  `recorder`
runs the session and lists the connections dialed (`dials`); `Quiescent` is a
session that is closed and for which nothing runs any more.

`Close` closes what `serverConn` and `tempServerConn` hold when it looks, and looks
once.  A connection stored later is closed by nobody: the login goroutine that
finishes its dial after `Close` leaves one open (`late_login_leaks`).

`Held s c` lists the places where a connection is safe: a goroutine has it in hand
and will close or store it, or it stands in a field that `Close` or the transfer's
timer will still look at.  `timely` says of a step that it moves no connection out
of these places; in runs of such steps every connection dialed is closed or held
(`kept`), and in a quiescent session nothing is held (`closed_session_holds_none`).
-/
import Portal.Session.Straggler

namespace Portal

open Portal.Theory.Transition

set_option autoImplicit false

/-- No login goroutine is left. -/
def LoginState.ended : LoginState → Bool
  | .unstarted => true
  | .done _ => true
  | _ => false

/-- The call has returned. -/
def CallState.ended : CallState → Bool
  | .rejected => true
  | .returned _ => true
  | _ => false

/-- Neither armed nor aborting. -/
def TimerState.ended : TimerState → Bool
  | .unarmed => true
  | .stopped => true
  | .done => true
  | _ => false

/-- The connection a call has dialed and not published yet. -/
def CallState.unpublished : CallState → Option Conn
  | .spawning c => some c
  | .publishing c => some c
  | _ => none

/-- `Close` has not looked at `serverConn` yet. -/
def CloseState.serverOpen : CloseState → Bool
  | .closingTemp => false
  | .decrementing => false
  | .done => false
  | _ => true

/-- `Close` has not looked at `tempServerConn` yet. -/
def CloseState.tempOpen : CloseState → Bool
  | .decrementing => false
  | .done => false
  | _ => true

namespace Session

/-- The connection a step dials. -/
def dials (s : Session) (a : Action) : List Conn :=
  match a with
  | (.login, .dialed data) =>
      match s.login with
      | .dialing srv => [⟨.login, srv, data⟩]
      | _ => []
  | (.call i, .dialed data) =>
      match s.calls i with
      | some ⟨srv, .dialing _⟩ => [⟨.transfer i, srv, data⟩]
      | _ => []
  | _ => []

/-- The session beside the list of the connections it has dialed. -/
def recorder : Machine (Session × List Conn) Action := machine.record dials

/-- `Close` has completed, and no login goroutine, call of `Transfer`, armed timer or
abort is left. -/
structure Quiescent (s : Session) : Prop where
  close : s.close = .done
  login : s.login.ended = true
  calls : ∀ i call, s.calls i = some call → call.state.ended = true
  timers : ∀ i, (s.timers i).ended = true

/-- The connection has been closed, by whichever code. -/
def isClosed (s : Session) (c : Conn) : Bool := s.closed.any fun e => e.2 = c.dialer

/-- A step that stores a connection does it while somebody will still look there: the
login before `Close` has looked at `serverConn`; a call of `Transfer` where no
connection is overwritten that is open; `finishTransferDimensionChange` takes the
pending connection over before `Close` has looked at `tempServerConn`, and switches
before it has looked at `serverConn`. -/
def timely (s : Session) (a : Action) : Bool :=
  match a.1 with
  | .login =>
      match s.login with
      | .assigning _ => s.close.serverOpen
      | _ => true
  | .call i =>
      match s.calls i, s.tempServerConn with
      | some ⟨_, .publishing _⟩, some c => s.isClosed c
      | _, _ => true
  | .client =>
      match s.client, s.tempServerConn with
      | .locking _ _, some c => s.close.tempOpen || s.isClosed c
      | .switching _ c, _ => s.close.serverOpen || s.isClosed c
      | _, _ => true
  | _ => true

variable {s s' : Session} {input : Input} {c : Conn}

theorem isClosed_iff : s.isClosed c = true ↔ ∃ k, (k, c.dialer) ∈ s.closed := by
  simp [isClosed]

/-! ## A pending connection has a timer -/

/-- A timer is running that will look at `tempServerConn`. -/
def Watched (s : Session) : Prop := ∃ i, (s.timers i).looks = true

/-- Between its `serverMu` section and its confirmation a transfer has a timer. -/
def Timed (s : Session) : Prop :=
  ∀ c, s.tempServerConn = some c → s.client.finishing = none → s.Watched

theorem Watched.setTimer (watched : s.Watched) {i : TransferID} {state : TimerState}
    (looks : (s.timers i).looks = true → state.looks = true) : (s.setTimer i state).Watched := by
  obtain ⟨j, running⟩ := watched
  by_cases same : j = i
  · subst same
    exact ⟨j, by simpa [Session.setTimer] using looks running⟩
  · exact ⟨j, by simpa [Session.setTimer, Function.update_of_ne same] using running⟩

theorem callNext_timed {i : TransferID} (timed : s.Timed) (taken : s.callNext i input = some s') :
    s'.Timed := by
  unfold callNext at taken
  split at taken
  · split at taken
    · obtain ⟨-, rfl⟩ := enter_spec taken
      exact timed
    · cases taken
  · rename_i call called
    cases at_ : call.state with
    | publishing c =>
        simp only [at_, callStep] at taken
        split at taken <;> cases taken
        exact fun _ _ _ => ⟨i, by simp [Session.setTimer, TimerState.looks]⟩
    | _ =>
        simp only [at_, callStep] at taken
        (repeat' split at taken) <;> cases taken <;> exact timed

theorem timerStep_timed {i : TransferID} (timed : s.Timed)
    (taken : s.timerStep i (s.timers i) = some s') : s'.Timed := by
  cases at_ : s.timers i with
  | fired srv =>
      simp only [at_, timerStep] at taken
      split at taken <;> cases taken
      exact fun _ pending => by cases pending
  | _ =>
      simp only [at_, timerStep] at taken
      (try split at taken) <;> cases taken
      all_goals exact fun c pending free =>
        (timed c pending free).setTimer (by simp [at_, TimerState.looks])

/-- The client loop touches a timer only as it enters
`finishTransferDimensionChange`, and leaves that with nothing pending. -/
theorem clientStep_timed (timed : s.Timed) (taken : s.clientStep input s.client = some s') :
    s'.Timed := by
  cases at_ : s.client with
  | locking f pk =>
      simp only [at_, clientStep] at taken
      split at taken <;> cases taken
      · rename_i none_
        exact fun c pending => by cases none_.symm.trans pending
      · exact fun _ _ free => by cases free
  | switching f c =>
      simp only [at_, clientStep] at taken
      split at taken <;> cases taken
      · exact fun _ pending => by cases pending
      · exact timed
  | reading =>
      have free : s.client.finishing = none := by rw [at_]; rfl
      simp only [at_, clientStep] at taken
      split at taken <;> cases taken
      · rename_i pk
        obtain ⟨_, _, _, received⟩ := receive_frame s pk
        rw [received]
        exact fun c pending _ => timed c pending free
      · exact fun c pending _ => timed c pending free
  | translating f rest =>
      have free : s.client.finishing = none := by rw [at_]; rfl
      cases rest with
      | pure pk =>
          simp only [at_, clientStep, Option.some.injEq] at taken
          subst taken
          exact fun c pending _ => timed c pending free
      | ask r k =>
          simp only [at_, clientStep] at taken
          split at taken <;> cases taken <;> exact fun c pending _ => timed c pending free
  | announcing f c | wiping f c | reviving f c | dropping f c =>
      simp only [at_, clientStep] at taken
      (try split at taken) <;> cases taken <;>
        first
        | exact timed
        | exact fun _ _ free => by cases free
  | _ =>
      have free : s.client.finishing = none := by rw [at_]; rfl
      simp only [at_, clientStep] at taken
      (repeat' split at taken) <;> cases taken <;> exact fun c pending _ => timed c pending free

theorem timed {ok : Session → Action → Prop} (reached : machine.Reach ok s) : s.Timed := by
  refine reached.invariant (I := Timed) (fun _ pending => by cases pending) ?_
  intro s s' a before timed _ taken
  refine next_elim taken ?_ ?_ ?_ ?_ ?_ ?_ ?_ ?_
  · intro _ taken
    obtain ⟨_, _, _, _, _, rfl⟩ := newStep_frame taken
    exact timed
  · intro _ taken
    obtain ⟨unstarted, -⟩ := (wired before).loops_unstarted (loginStep_unjoined taken)
    obtain ⟨_, _, _, _, _, _, _, -, -, rfl⟩ := loginStep_frame taken
    exact fun c pending _ => timed c pending (by rw [unstarted]; rfl)
  · intro i _ taken
    exact callNext_timed timed taken
  · intro i _ taken
    exact timerStep_timed timed taken
  · intro _ taken
    exact clientStep_timed timed taken
  · intro _ taken
    obtain ⟨_, _, _, _, _, _, rfl⟩ := serverStep_frame taken
    exact timed
  · intro _ taken
    obtain ⟨_, _, _, _, _, _, _, rfl⟩ := closeStep_frame taken
    exact timed
  · intro _ _ taken
    obtain ⟨_, _, rfl⟩ | ⟨_, _, _, -, rfl⟩ := requestStep_frame taken <;> exact timed

/-! ## The places of an open connection -/

/-- Where a connection is that somebody will still close or store. -/
inductive Held (s : Session) (c : Conn) : Prop
  | login (at_ : s.login = .assigning c)
  | call (i : TransferID) (call : Call) (called : s.calls i = some call)
      (local_ : call.state.unpublished = some c)
  | server (current : s.serverConn = some c) (ahead : s.close.serverOpen = true)
  | temp (pending : s.tempServerConn = some c)
      (ahead : s.close.tempOpen = true ∨ s.client.finishing = none)
  | abort (i : TransferID) (srv : Server) (at_ : s.timers i = .closing srv c)

/-- Closed, or on the way. -/
def Kept (s : Session) (c : Conn) : Prop := s.isClosed c = true ∨ s.Held c

/-- A step that takes no connection out of its place. -/
theorem Held.moves (held : s.Held c) (login : s.login = .assigning c → s'.login = .assigning c)
    (calls : ∀ i call, s.calls i = some call → call.state.unpublished = some c →
      s'.calls i = some call)
    (conn : s'.serverConn = s.serverConn) (temp : s'.tempServerConn = s.tempServerConn)
    (close : s'.close = s.close) (client : s.client.finishing = none → s'.client.finishing = none)
    (timers : ∀ i srv, s.timers i = .closing srv c → s'.timers i = .closing srv c) : s'.Held c := by
  cases held with
  | login at_ => exact .login (login at_)
  | call i call called local_ => exact .call i call (calls i call called local_) local_
  | server current ahead => exact .server (conn ▸ current) (close ▸ ahead)
  | temp pending ahead => exact .temp (temp ▸ pending) (ahead.imp (close ▸ ·) client)
  | abort i srv at_ => exact .abort i srv (timers i srv at_)

theorem loginStep_kept (w : Wired s) (held : s.Held c) (ok : s.timely (.login, input) = true)
    (taken : s.loginStep input s.login = some s') : s'.Kept c := by
  obtain ⟨unstarted, -⟩ := w.loops_unstarted (loginStep_unjoined taken)
  cases at_ : s.login with
  | assigning d =>
      have undialed : s.serverConn = none := w.undialed (by simp [at_, LoginState.dialed])
      simp only [at_, loginStep, Option.some.injEq] at taken
      subst taken
      cases held with
      | login here =>
          cases at_.symm.trans here
          exact .inr (.server rfl (by simpa [timely, at_] using ok))
      | call i call called local_ => exact .inr (.call i call called local_)
      | server current ahead => cases undialed.symm.trans current
      | temp pending ahead => exact .inr (.temp pending ahead)
      | abort i srv aborts => exact .inr (.abort i srv aborts)
  | _ =>
      have elsewhere : s.login ≠ .assigning c := by simp [at_]
      simp only [at_, loginStep] at taken
      (try split at taken) <;> cases taken
      all_goals exact .inr (held.moves (fun here => absurd here elsewhere) (fun _ _ called _ => called)
        rfl rfl rfl (fun _ => by first | exact ‹_› | rfl) (fun _ _ aborts => aborts))

/-- A step of a call that has no hold on the connection. -/
theorem Held.call_moves (held : s.Held c) {i : TransferID} {call : Call}
    (called : s.calls i = some call) (empty : call.state.unpublished ≠ some c) {target : Server}
    {state : CallState} {transferring postTransfer dead : Bool} {done : Option TransferID}
    {closed : List (Closer × Dialer)} {unacked : List Sender} {bus : List BusEvent} :
    Held { s with
      calls := Function.update s.calls i (some ⟨target, state⟩)
      transferring := transferring, postTransfer := postTransfer, dead := dead
      transferDone := done, closed := closed, unacked := unacked, bus := bus } c := by
  refine held.moves id ?_ rfl rfl rfl id (fun _ _ aborts => aborts)
  intro j other found local_
  have apart : j ≠ i := by
    rintro rfl
    rw [called, Option.some.injEq] at found
    exact empty (found ▸ local_)
  exact (Function.update_of_ne apart ..).trans found

/-- The call that publishes hands its connection over to its timer and to `Close`. -/
theorem Held.publish {i : TransferID} {call : Call} {d : Conn} (held : s.Held c) (t : Traced s)
    (free : ¬ s.serverMuHeld = true) (called : s.calls i = some call)
    (at_ : call.state = .publishing d)
    (overwrites : s.tempServerConn = some c → s.isClosed c = true) :
    Kept { (s.setCall i call.target (.selecting d)).setTimer i (.armed call.target) with
      tempServerConn := some d
      pendingServer := some call.target
      transferConfirmTimer := some i } c := by
  by_cases mine : d = c
  · subst mine
    exact .inr (.temp rfl (.inr (finishing_eq_none free)))
  · have empty : call.state.unpublished ≠ some c := by
      rw [at_]
      exact fun same => mine (Option.some.inj same)
    have moved : (s.setCall i call.target (.selecting d)).Held c := held.call_moves called empty
    cases moved with
    | login here => exact .inr (.login here)
    | call j other found local_ => exact .inr (.call j other found local_)
    | server current ahead => exact .inr (.server current ahead)
    | temp pending ahead => exact .inl (overwrites pending)
    | abort j srv aborts =>
        have apart : j ≠ i := by
          rintro rfl
          obtain ⟨srv', past⟩ := t.timers j (by rw [show s.timers j = _ from aborts]; simp)
          exact not_past_of_ready called (by rw [at_]; rfl) past
        exact .inr (.abort j srv ((Function.update_of_ne apart ..).trans aborts))

theorem callStep_kept {i : TransferID} {call : Call} (t : Traced s) (held : s.Held c)
    (called : s.calls i = some call) (ok : s.timely (.call i, input) = true)
    (taken : s.callStep i call.target input call.state = some s') : s'.Kept c := by
  cases at_ : call.state with
  | spawning d =>
      simp only [at_, callStep] at taken
      by_cases mine : d = c
      · subst mine
        split at taken <;> cases taken
        · exact .inr (.call i _ (Function.update_self ..) rfl)
        · exact .inl (by simp [isClosed])
      · have empty : call.state.unpublished ≠ some c := by
          rw [at_]
          exact fun same => mine (Option.some.inj same)
        split at taken <;> cases taken <;> exact .inr (held.call_moves called empty)
  | publishing d =>
      simp only [at_, callStep] at taken
      split at taken <;> cases taken
      rename_i free
      refine held.publish t free called at_ fun pending => ?_
      obtain ⟨target, state⟩ := call
      cases at_
      simpa [timely, called, pending] using ok
  | _ =>
      have empty : call.state.unpublished ≠ some c := by simp [at_, CallState.unpublished]
      simp only [at_, callStep] at taken
      (repeat' split at taken) <;> cases taken <;>
        first
        | exact .inr (held.call_moves called empty)
        | exact .inr (held.moves id (fun _ _ found _ => found) rfl rfl rfl id
            (fun _ _ aborts => aborts))

/-- A new call has no connection. -/
theorem Held.enter {i : TransferID} {srv : Server} {requests : Nat → RequestState}
    (held : s.Held c) (fresh : s.calls i = none) :
    Held { s.setCall i srv .waiting with requests := requests } c := by
  refine held.moves id ?_ rfl rfl rfl id (fun _ _ aborts => aborts)
  intro j other found _
  have apart : j ≠ i := by
    rintro rfl
    cases fresh.symm.trans found
  exact (Function.update_of_ne apart ..).trans found

theorem callNext_kept {i : TransferID} (t : Traced s) (held : s.Held c)
    (ok : s.timely (.call i, input) = true) (taken : s.callNext i input = some s') : s'.Kept c := by
  unfold callNext at taken
  split at taken
  · split at taken
    · obtain ⟨fresh, rfl⟩ := enter_spec taken
      exact .inr (held.enter fresh)
    · cases taken
  · rename_i call called
    exact callStep_kept t held called ok taken

/-- A step of a timer that has no hold on the connection. -/
theorem Held.timer_moves (held : s.Held c) {i : TransferID}
    (empty : ∀ srv, s.timers i ≠ .closing srv c) {state : TimerState} {transferring : Bool}
    {done : Option TransferID} {closed : List (Closer × Dialer)} {bus : List BusEvent} :
    Held { s.setTimer i state with
      transferring := transferring, transferDone := done, closed := closed, bus := bus } c := by
  refine held.moves id (fun _ _ found _ => found) rfl rfl rfl id ?_
  intro j srv aborts
  have apart : j ≠ i := by
    rintro rfl
    exact empty srv aborts
  exact (Function.update_of_ne apart ..).trans aborts

/-- An abort takes what is pending, and closes it. -/
theorem timerStep_kept {i : TransferID} (held : s.Held c)
    (taken : s.timerStep i (s.timers i) = some s') : s'.Kept c := by
  cases at_ : s.timers i with
  | fired srv =>
      have kept (st : TimerState) (pending : s.tempServerConn = some c → st = .closing srv c) :
          ({ s.setTimer i st with
            tempServerConn := none
            pendingServer := none
            transferConfirmTimer := none } : Session).Kept c := by
        have moved : (s.setTimer i st).Held c := held.timer_moves (by simp [at_])
        cases moved with
        | login here => exact .inr (.login here)
        | call j call found local_ => exact .inr (.call j call found local_)
        | server current ahead => exact .inr (.server current ahead)
        | temp its ahead =>
            refine .inr (.abort i srv ?_)
            simp [setTimer, pending its]
        | abort j srv' aborts => exact .inr (.abort j srv' aborts)
      simp only [at_, timerStep] at taken
      split at taken <;> cases taken
      apply kept
      intro its
      rw [its]
  | closing srv d =>
      simp only [at_, timerStep, Option.some.injEq] at taken
      subst taken
      by_cases mine : d = c
      · subst mine
        exact .inl (by simp [isClosed])
      · exact .inr (held.timer_moves (by simp [at_, mine]))
  | _ =>
      simp only [at_, timerStep] at taken
      (try split at taken) <;> cases taken <;> exact .inr (held.timer_moves (by simp [at_]))

theorem clientStep_free (unlocked : ∀ f pk, s.client ≠ .locking f pk)
    (taken : s.clientStep input s.client = some s') (free : s.client.finishing = none) :
    s'.client.finishing = none := by
  cases at_ : s.client with
  | locking f pk => exact absurd at_ (unlocked f pk)
  | reading =>
      simp only [at_, clientStep] at taken
      split at taken <;> cases taken
      · unfold receive
        (repeat' split) <;> first | exact free | rfl
      · rfl
  | translating f rest =>
      cases rest with
      | pure pk =>
          simp only [at_, clientStep, Option.some.injEq] at taken
          subst taken
          rfl
      | ask r k =>
          simp only [at_, clientStep] at taken
          split at taken <;> cases taken <;> first | exact free | rfl
  | announcing f c | wiping f c | reviving f c | dropping f c | switching f c =>
      rw [at_] at free
      cases free
  | _ =>
      simp only [at_, clientStep] at taken
      (repeat' split at taken) <;> cases taken
      all_goals first
        | exact free
        | rfl

theorem clientStep_kept (w : Wired s) (dropped : Dropped s) (held : s.Held c)
    (ok : s.timely (.client, input) = true) (taken : s.clientStep input s.client = some s') :
    s'.Kept c := by
  cases at_ : s.client with
  | locking f pk =>
      have free : s.client.finishing = none := by rw [at_]; rfl
      simp only [at_, clientStep] at taken
      split at taken <;> cases taken
      · exact .inr (held.moves id (fun _ _ found _ => found) rfl rfl rfl (fun _ => rfl)
          (fun _ _ aborts => aborts))
      · rename_i d pending
        have timers := stopTimer_timers s
        obtain ⟨_, _, stopped⟩ := stopTimer_frame s
        rw [stopped] at timers ⊢
        cases held with
        | login here => exact .inr (.login here)
        | call j call found local_ => exact .inr (.call j call found local_)
        | server current ahead => exact .inr (.server current ahead)
        | temp here ahead =>
            cases pending.symm.trans here
            simp only [timely, at_, pending, Bool.or_eq_true] at ok
            exact ok.elim (fun ahead => .inr (.temp pending (.inl ahead))) .inl
        | abort j srv aborts =>
            refine .inr (.abort j srv ?_)
            rcases timers j with same | ⟨_, armed, -⟩
            · exact same.trans aborts
            · cases aborts.symm.trans armed
  | switching f d =>
      have pending : s.tempServerConn = some d := w.finishing d (by rw [at_]; rfl)
      simp only [at_, clientStep] at taken
      split at taken <;> cases taken
      · cases held with
        | login here => exact .inr (.login here)
        | call j call found local_ => exact .inr (.call j call found local_)
        | server current ahead =>
            exact .inl (isClosed_iff.mpr ⟨.finish, dropped f d c at_ current⟩)
        | temp here ahead =>
            cases pending.symm.trans here
            simp only [timely, at_, Bool.or_eq_true] at ok
            exact ok.elim (fun ahead => .inr (.server pending ahead)) .inl
        | abort j srv aborts => exact .inr (.abort j srv aborts)
      · exact .inr (held.moves id (fun _ _ found _ => found) rfl rfl rfl id
          (fun _ _ aborts => aborts))
  | dropping f d =>
      have inside : s.client.finishing ≠ none := by simp [at_, ClientState.finishing]
      simp only [at_, clientStep] at taken
      split at taken <;> cases taken
      all_goals exact .inr (held.moves id (fun _ _ found _ => found) rfl rfl rfl
        (fun free => absurd free inside) (fun _ _ aborts => aborts))
  | _ =>
      have free := clientStep_free (by simp [at_]) taken
      obtain ⟨-, timers⟩ := clientStep_quiet (by simp [at_]) taken
      have aborting : ∀ j srv, s.timers j = .closing srv c → s'.timers j = .closing srv c := by
        intro j srv aborts
        rcases timers j with same | ⟨_, armed, -⟩
        · exact same.trans aborts
        · cases aborts.symm.trans armed
      obtain ⟨_, _, _, _, _, _, _, _, _, _, _, _, _, rfl⟩ := clientStep_frame (by simp [at_]) taken
      exact .inr (held.moves id (fun _ _ found _ => found) rfl rfl rfl free aborting)

/-- `Close` closes what it finds. -/
theorem closeStep_kept (held : s.Held c) (taken : s.closeStep s.close = some s') : s'.Kept c := by
  cases at_ : s.close with
  | closingServer =>
      simp only [at_, closeStep, Option.some.injEq] at taken
      subst taken
      cases held with
      | login here => exact .inr (.login here)
      | call j call found local_ => exact .inr (.call j call found local_)
      | server current ahead => exact .inl (by simp [isClosed, closing, current])
      | temp pending ahead => exact .inr (.temp pending (.inl rfl))
      | abort j srv aborts => exact .inr (.abort j srv aborts)
  | closingTemp =>
      simp only [at_, closeStep, Option.some.injEq] at taken
      subst taken
      cases held with
      | login here => exact .inr (.login here)
      | call j call found local_ => exact .inr (.call j call found local_)
      | server current ahead => simp [at_, CloseState.serverOpen] at ahead
      | temp pending ahead => exact .inl (by simp [isClosed, closing, pending])
      | abort j srv aborts => exact .inr (.abort j srv aborts)
  | decrementing =>
      simp only [at_, closeStep, Option.some.injEq] at taken
      subst taken
      cases held with
      | login here => exact .inr (.login here)
      | call j call found local_ => exact .inr (.call j call found local_)
      | server current ahead => simp [at_, CloseState.serverOpen] at ahead
      | temp pending ahead =>
          refine .inr (.temp pending (.inr (ahead.resolve_left ?_)))
          simp [at_, CloseState.tempOpen]
      | abort j srv aborts => exact .inr (.abort j srv aborts)
  | _ =>
      -- the statements before the closes leave `Close` ahead of both fields
      simp only [at_, closeStep] at taken
      (try split at taken) <;> cases taken
      all_goals cases held with
      | login here => exact .inr (.login here)
      | call j call found local_ => exact .inr (.call j call found local_)
      | server current ahead => exact .inr (.server current rfl)
      | temp pending ahead => exact .inr (.temp pending (.inl rfl))
      | abort j srv aborts => exact .inr (.abort j srv aborts)

theorem next_kept {a : Action} (w : Wired s) (t : Traced s) (dropped : Dropped s) (held : s.Held c)
    (ok : s.timely a = true) (taken : s.next a = some s') : s'.Kept c := by
  obtain ⟨actor, input⟩ := a
  refine next_elim taken ?_ ?_ ?_ ?_ ?_ ?_ ?_ ?_
  · intro _ taken
    have unstarted := w.unstarted_of_new taken
    obtain ⟨_, _, _, _, _, rfl⟩ := newStep_frame taken
    refine .inr (held.moves (fun here => ?_) (fun _ _ found _ => found) rfl rfl rfl id
      (fun _ _ aborts => aborts))
    cases unstarted.symm.trans here
  · rintro rfl taken
    exact loginStep_kept w held ok taken
  · rintro i rfl taken
    exact callNext_kept t held ok taken
  · intro i _ taken
    exact timerStep_kept held taken
  · rintro rfl taken
    exact clientStep_kept w dropped held ok taken
  · intro _ taken
    obtain ⟨_, _, _, _, _, _, rfl⟩ := serverStep_frame taken
    exact .inr (held.moves id (fun _ _ found _ => found) rfl rfl rfl id (fun _ _ aborts => aborts))
  · intro _ taken
    exact closeStep_kept held taken
  · intro _ _ taken
    obtain ⟨_, _, rfl⟩ | ⟨_, _, _, fresh, rfl⟩ := requestStep_frame taken
    · exact .inr (held.moves id (fun _ _ found _ => found) rfl rfl rfl id
        (fun _ _ aborts => aborts))
    · exact .inr (held.enter fresh)

/-! ## Every run -/

/-- The goroutine that dials a connection holds it. -/
theorem dials_held {a : Action} (dialed : c ∈ s.dials a) (taken : s.next a = some s') :
    s'.Held c := by
  obtain ⟨actor, input⟩ := a
  refine next_elim taken ?_ ?_ ?_ ?_ ?_ ?_ ?_ ?_
  · rintro rfl _
    cases dialed
  · rintro rfl taken
    cases input with
    | dialed data =>
        simp only [dials] at dialed
        split at dialed
        · rename_i srv at_
          rw [List.mem_singleton.mp dialed]
          simp only [at_, loginStep, Option.some.injEq] at taken
          subst taken
          exact .login rfl
        · cases dialed
    | _ => cases dialed
  · rintro i rfl taken
    cases input with
    | dialed data =>
        simp only [dials] at dialed
        split at dialed
        · rename_i srv retried called
          rw [List.mem_singleton.mp dialed]
          simp only [callNext, called, callStep, Option.some.injEq] at taken
          subst taken
          exact .call i _ (Function.update_self ..) rfl
        · cases dialed
    | _ => cases dialed
  all_goals intros; subst_vars; cases dialed

/-- **Every connection dialed is closed or held**, in runs of timely steps. -/
theorem kept {dialed : List Conn}
    (reached : recorder.Reach (fun p a => p.1.timely a = true) (s, dialed)) :
    ∀ c ∈ dialed, s.Kept c := by
  refine reached.invariant (I := fun p => ∀ c ∈ p.2, p.1.Kept c) (by simp [recorder, Machine.record])
    ?_
  intro p p' a before kept ok taken c member
  obtain ⟨taken, log⟩ := Machine.record_next taken
  have erased : machine.Reach (fun s a => s.timely a = true) p.1 := Machine.Reach.erase before
  rw [log, List.mem_append] at member
  rcases member with old | new
  · rcases kept c old with closed | held
    · obtain ⟨k, closed⟩ := isClosed_iff.mp closed
      exact .inl (isClosed_iff.mpr ⟨k, next_closed taken _ closed⟩)
    · exact next_kept (wired erased) (traced erased) (dropped erased) held ok taken
  · exact .inr (dials_held new taken)

/-- Where nothing runs any more, nothing is held. -/
theorem Quiescent.none_held (quiet : s.Quiescent) (timed : s.Timed) : ¬ s.Held c := by
  intro held
  cases held with
  | login here =>
      have ended := quiet.login
      rw [here] at ended
      cases ended
  | call i call called local_ =>
      have ended := quiet.calls i call called
      cases at_ : call.state <;> simp_all [CallState.ended, CallState.unpublished]
  | server current ahead =>
      rw [quiet.close] at ahead
      cases ahead
  | temp pending ahead =>
      rcases ahead with ahead | free
      · rw [quiet.close] at ahead
        cases ahead
      · obtain ⟨i, looks⟩ := timed c pending free
        have ended := quiet.timers i
        cases at_ : s.timers i <;> simp_all [TimerState.ended, TimerState.looks]
  | abort i srv at_ =>
      have ended := quiet.timers i
      rw [at_] at ended
      cases ended

/-- **No orphaned connection.**  In every run of timely steps: when `Close` has
completed and no login goroutine, call of `Transfer`, armed timer or abort is left,
every backend connection the session dialed has been closed. -/
theorem closed_session_holds_none {dialed : List Conn}
    (reached : recorder.Reach (fun p a => p.1.timely a = true) (s, dialed)) (quiet : s.Quiescent) :
    ∀ c ∈ dialed, ∃ k, (k, c.dialer) ∈ s.closed := by
  intro c member
  have erased : machine.Reach (fun s a => s.timely a = true) s :=
    Machine.Reach.erase (p := (s, dialed)) reached
  exact isClosed_iff.mp ((kept reached c member).resolve_right (quiet.none_held (timed erased)))

/-- A session that was closed while its second connection was pending. -/
theorem closed_session_holds_none_midTransfer :
    ∃ s, recorder.Reach (fun p a => p.1.timely a = true)
        (s, [⟨.login, lobby, lobbyData⟩, ⟨.transfer 0, game, gameData⟩]) ∧ s.Quiescent ∧
      (∃ k, (k, .login) ∈ s.closed) ∧ ∃ k, (k, .transfer 0) ∈ s.closed := by
  have reached : recorder.Reach (fun p a => p.1.timely a = true) _ :=
    Machine.exec_reach (joining lobby lobbyData ++ transferCall 0 game gameData ++
      closingMidTransfer ++ steps (.timer 0) 7) rfl
  obtain ⟨s, reached, quiet⟩ : ∃ s, recorder.Reach (fun p a => p.1.timely a = true)
      (s, [⟨.login, lobby, lobbyData⟩, ⟨.transfer 0, game, gameData⟩]) ∧ s.Quiescent := by
    refine ⟨_, reached, rfl, rfl, ?_, ?_⟩
    · intro i call called
      cases i with
      | zero => cases called; rfl
      | succ i => cases called
    · intro i
      cases i with
      | zero => rfl
      | succ i => rfl
  have closed := closed_session_holds_none reached quiet
  exact ⟨s, reached, quiet, closed _ (.head _), closed _ (.tail _ (.head _))⟩

/-- `Close` completes while the login goroutine is dialing; the connection it gets is
assigned, the login fails on the closed client connection, and the one to the backend stays
open. -/
theorem late_login_leaks :
    ∃ s, recorder.Reachable (s, [⟨.login, lobby, lobbyData⟩]) ∧ s.Quiescent ∧ s.closed = [] := by
  have reached : recorder.Reachable _ :=
    Machine.exec_reach (([(.new, .go), (.new, .found (some lobby))] : List Action) ++ steps .new 3 ++
      steps .close 10 ++ ([(.login, .dialed lobbyData), (.login, .go),
        (.login, .failed "use of closed network connection")] : List Action) ++ steps .login 2) rfl
  refine ⟨_, reached, ⟨rfl, rfl, ?_, ?_⟩, rfl⟩
  · intro i call called
    cases called
  · intro i
    rfl

/-- `Close` lets a second transfer begin before it has closed the first one's
connection, which that transfer overwrites; both timers abort the second. -/
theorem overwritten_transfer_leaks :
    ∃ s, recorder.Reachable (s, [⟨.login, lobby, lobbyData⟩, ⟨.transfer 0, game, gameData⟩,
        ⟨.transfer 1, lobby, lobbyData⟩]) ∧
      s.close = .done ∧ s.timers 0 = .done ∧ s.timers 1 = .done ∧
      s.closed = [(.close, .login), (.close, .transfer 1), (.abort, .transfer 1)] := by
  have reached : recorder.Reachable _ :=
    Machine.exec_reach (joining lobby lobbyData ++ transferCall 0 game gameData ++ steps .close 5 ++
      transferCall 1 lobby lobbyData ++ steps .close 8 ++ steps (.timer 0) 7 ++
      steps (.timer 1) 2) rfl
  exact ⟨_, reached, rfl, rfl, rfl, rfl⟩

/-- The client confirms a transfer between the looks of `Close` at `serverConn` and at
`tempServerConn`: the timer is stopped, and nobody looks at the new `serverConn` any more. -/
theorem late_confirmation_leaks :
    ∃ s, recorder.Reachable (s, [⟨.login, lobby, lobbyData⟩, ⟨.transfer 0, game, gameData⟩]) ∧
      s.close = .done ∧ s.timers 0 = .stopped ∧ s.client = .reading ∧
      s.closed = [(.close, .login), (.finish, .login)] := by
  have reached : recorder.Reachable _ :=
    Machine.exec_reach (joining lobby lobbyData ++ steps .close 2 ++ transferCall 0 game gameData ++
      acknowledging ++ steps .close 6 ++ confirming ++ steps .close 2) rfl
  exact ⟨_, reached, rfl, rfl, rfl, rfl⟩

end Session

end Portal
