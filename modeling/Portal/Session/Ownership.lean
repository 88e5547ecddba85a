/-
# Session.Ownership — one transfer at a time owns the shared transfer state

`transferDone`, `tempServerConn` and the confirmation timer are single slots that
every transfer uses, and `transferring` is cleared before a transfer is done with
them.  `Orderly` says of a step that it does not make use of the gap: a call
stores its callback only when nothing of another transfer is left (`Quiet`), and
publishes its connection only when no timer has fired and still waits for
`serverMu`.

In runs of orderly steps one transfer owns everything that is set (`Owned`): the
callback in the slot, the pending connection, the armed timer, and whatever a
call, an abort or a confirmation is about to complete.
-/
import Portal.Session.Provenance

namespace Portal

open Portal.Theory.Transition

set_option autoImplicit false

/-- The call has stored its callback and neither published its connection nor
taken the callback back. -/
def CallState.pending : CallState → Bool
  | .handling => true
  | .respawning => true
  | .dialing _ => true
  | .spawning _ => true
  | .publishing _ => true
  | .resetting _ => true
  | .taking _ => true
  | _ => false

/-- The abort has taken a pending connection and not yet the callback. -/
def TimerState.aborting : TimerState → Bool
  | .closing _ _ => true
  | .resetting _ => true
  | .taking _ => true
  | _ => false

/-- The timer has fired and waits for `serverMu`. -/
def TimerState.hasFired : TimerState → Bool
  | .fired _ => true
  | _ => false

/-- The client loop has switched to a connection and not yet taken the callback. -/
def ClientState.completing : ClientState → Option Conn
  | .storingRuntimeID c => some c
  | .storingUniqueID c => some c
  | .lowering c => some c
  | .raising c => some c
  | .logging c => some c
  | .taking c => some c
  | _ => none

namespace Session

/-- Nothing of any transfer is left in the shared state. -/
structure Quiet (s : Session) : Prop where
  slot : s.transferDone = none
  temp : s.tempServerConn = none
  calls : ∀ j call, s.calls j = some call → call.state.pending = false
  timers : ∀ j, (s.timers j).aborting = false
  client : s.client.completing = none

/-- A call stores its callback only in a quiet session, and publishes its
connection only when no timer waits to abort. -/
def Orderly (s : Session) (a : Action) : Prop :=
  ∀ k call, a.1 = .call k → s.calls k = some call →
    (call.state = .installing → s.Quiet) ∧
      ∀ c, call.state = .publishing c → ∀ j, (s.timers j).hasFired = false

/-- What is set in the shared state belongs to transfer `cur`. -/
structure Owned (cur : TransferID) (s : Session) : Prop where
  slot : ∀ j, s.transferDone = some j → j = cur
  temp : ∀ c, s.tempServerConn = some c → c.dialer = .transfer cur
  calls : ∀ j call, s.calls j = some call → call.state.pending = true → j = cur
  aborting : ∀ j, (s.timers j).aborting = true → j = cur
  closing : ∀ j srv c, s.timers j = .closing srv c → c.dialer = .transfer j
  armed : ∀ j srv, s.timers j = .armed srv →
    s.transferConfirmTimer = some j ∧ ∃ c, s.tempServerConn = some c ∧ c.dialer = .transfer j
  fired : ∀ j c, (s.timers j).hasFired = true → s.tempServerConn = some c → c.dialer = .transfer j
  disarmed : s.client.finishing ≠ none → ∀ j srv, s.timers j ≠ .armed srv
  completing : ∀ c, s.client.completing = some c → c.dialer = .transfer cur

variable {s s' : Session} {input : Input} {cur : TransferID}

theorem initial_owned : Owned cur initial where
  slot := by simp [initial]
  temp := by simp [initial]
  calls := by simp [initial]
  aborting := by simp [initial, TimerState.aborting]
  closing := by simp [initial]
  armed := by simp [initial]
  fired := by simp [initial]
  disarmed := by simp [initial]
  completing := by simp [initial, ClientState.completing]

/-! ## `Transfer` -/

/-- A step of call `i` that leaves the pending connection alone, and the slot, too,
or empties it. -/
theorem Owned.call_moves (o : Owned cur s) (i : TransferID) {target : Server} {state : CallState}
    {transferring postTransfer dead panicked : Bool} {done : Option TransferID}
    {closed : List (Closer × Dialer)} {unacked : List Sender} {bus : List BusEvent}
    {requests : Nat → RequestState}
    (pending : state.pending = true → i = cur) (kept : ∀ j, done = some j → s.transferDone = some j) :
    Owned cur { s with
      calls := Function.update s.calls i (some ⟨target, state⟩)
      transferring := transferring, postTransfer := postTransfer, dead := dead
      transferDone := done, closed := closed, unacked := unacked, bus := bus
      requests := requests, panicked := panicked } where
  __ := o
  slot := fun j set => o.slot j (kept j set)
  calls := by
    intro j call called holds
    rcases calls_update called with ⟨rfl, rfl⟩ | ⟨-, before⟩
    · exact pending holds
    · exact o.calls j call before holds

/-- A call that stores its callback in a quiet session becomes the owner. -/
theorem Quiet.install (q : s.Quiet) (o : Owned cur s) (i : TransferID) (target : Server) :
    Owned i { s.setCall i target .handling with transferDone := some i } where
  slot := by
    intro j set
    exact (Option.some.inj set).symm
  temp := by simp [setCall, q.temp]
  calls := by
    intro j call called holds
    rcases calls_update called with ⟨same, -⟩ | ⟨-, before⟩
    · exact same
    · rw [q.calls j call before] at holds
      cases holds
  aborting := by
    intro j holds
    exact absurd (holds.symm.trans (q.timers j)) (by decide)
  closing := o.closing
  armed := o.armed
  fired := o.fired
  disarmed := o.disarmed
  completing := by simp [setCall, q.client]

/-- The owner publishes its connection: no other timer is running. -/
theorem Owned.publish {i : TransferID} {target : Server} {c : Conn} (o : Owned cur s) (owner : i = cur)
    (free : ¬ s.serverMuHeld = true) (dialer : c.dialer = .transfer i) (unarmed : s.timers i = .unarmed)
    (unfired : ∀ j, (s.timers j).hasFired = false) :
    Owned cur { (s.setCall i target (.selecting c)).setTimer i (.armed target) with
      tempServerConn := some c
      pendingServer := some target
      transferConfirmTimer := some i } := by
  subst owner
  have moved : Owned i (s.setCall i target (.selecting c)) :=
    o.call_moves i (by simp [CallState.pending]) (fun _ set => set)
  -- an armed timer would be that of a pending connection, which is the owner's
  have alone : ∀ j srv, s.timers j ≠ .armed srv := by
    intro j srv armed
    obtain ⟨-, c', pending, other⟩ := o.armed j srv armed
    have own := o.temp c' pending
    rw [other, Dialer.transfer.injEq] at own
    subst own
    rw [unarmed] at armed
    cases armed
  have timers : ∀ j, j ≠ i → Function.update s.timers i (.armed target) j = s.timers j :=
    fun j other => Function.update_of_ne other ..
  exact {
    slot := o.slot
    temp := by
      intro c' set
      cases set
      exact dialer
    calls := moved.calls
    aborting := by
      intro j holds
      by_cases same : j = i
      · exact same
      · exact o.aborting j (by simpa [setTimer, setCall, timers j same] using holds)
    closing := by
      intro j srv c' at_
      by_cases same : j = i
      · subst same
        simp [setTimer] at at_
      · exact o.closing j srv c' (by simpa [setTimer, setCall, timers j same] using at_)
    armed := by
      intro j srv at_
      by_cases same : j = i
      · subst same
        exact ⟨rfl, c, rfl, dialer⟩
      · exact absurd (by simpa [setTimer, setCall, timers j same] using at_) (alone j srv)
    fired := by
      intro j c' holds set
      by_cases same : j = i
      · subst same
        simp [setTimer, TimerState.hasFired] at holds
      · simp [setTimer, setCall, timers j same, unfired j] at holds
    disarmed := by simp [setTimer, setCall, finishing_eq_none free]
    completing := o.completing }

theorem callStep_owned {i : TransferID} {call : Call} (w : Wired s) (t : Traced s) (o : Owned cur s)
    (called : s.calls i = some call)
    (orderly : (call.state = .installing → s.Quiet) ∧
      ∀ c, call.state = .publishing c → ∀ j, (s.timers j).hasFired = false)
    (taken : s.callStep i call.target input call.state = some s') : ∃ cur', Owned cur' s' := by
  cases at_ : call.state with
  | installing =>
      simp only [at_, callStep, Option.some.injEq] at taken
      subst taken
      exact ⟨i, (orderly.1 at_).install o i call.target⟩
  | publishing c =>
      have owner : i = cur := o.calls i call called (by simp [at_, CallState.pending])
      have dialer := (w.calls i call c called (by simp [at_, CallState.conn])).1
      have unarmed : s.timers i = .unarmed := by
        by_contra armed
        obtain ⟨srv, past⟩ := t.timers i armed
        exact not_past_of_ready called (by simp [at_, CallState.ready]) past
      simp only [at_, callStep] at taken
      split at taken <;> cases taken
      rename_i free
      exact ⟨cur, o.publish owner free dialer unarmed (orderly.2 c at_)⟩
  | _ =>
      have owner := o.calls i call called
      simp only [at_, callStep] at taken
      refine ⟨cur, ?_⟩
      (repeat' split at taken) <;> cases taken <;>
        first
        | exact { o with }
        | exact o.call_moves i (by simp_all [CallState.pending]) (fun _ set => set)
        | exact o.call_moves i (by simp_all [CallState.pending]) (fun _ set => by cases set)

theorem callNext_owned {i : TransferID} {a : Action} (w : Wired s) (t : Traced s) (o : Owned cur s)
    (orderly : s.Orderly a) (actor : a.1 = .call i) (taken : s.callNext i input = some s') :
    ∃ cur', Owned cur' s' := by
  unfold callNext at taken
  split at taken
  · split at taken
    · obtain ⟨-, rfl⟩ := enter_spec taken
      exact ⟨cur, o.call_moves i (by simp [CallState.pending]) (fun _ set => set)⟩
    · cases taken
  · rename_i call called
    exact callStep_owned w t o called (orderly i call actor called) taken

/-! ## The timer -/

/-- A step of timer `i` that leaves the pending connection alone. -/
theorem Owned.timer_moves (o : Owned cur s) (i : TransferID) {state : TimerState}
    {transferring : Bool} {done : Option TransferID} {closed : List (Closer × Dialer)}
    {bus : List BusEvent} (aborting : state.aborting = true → i = cur)
    (unclosing : ∀ srv c, state ≠ .closing srv c) (unarmed : ∀ srv, state ≠ .armed srv)
    (fired : ∀ c, state.hasFired = true → s.tempServerConn = some c → c.dialer = .transfer i)
    (kept : ∀ j, done = some j → s.transferDone = some j) :
    Owned cur { s with
      timers := Function.update s.timers i state
      transferring := transferring, transferDone := done, closed := closed, bus := bus } where
  __ := o
  slot := fun j set => o.slot j (kept j set)
  aborting := by
    intro j holds
    by_cases same : j = i
    · subst same
      exact aborting (by simpa using holds)
    · exact o.aborting j (by simpa [Function.update_of_ne same] using holds)
  closing := by
    intro j srv c at_
    by_cases same : j = i
    · subst same
      exact absurd (by simpa using at_) (unclosing srv c)
    · exact o.closing j srv c (by simpa [Function.update_of_ne same] using at_)
  armed := by
    intro j srv at_
    by_cases same : j = i
    · subst same
      exact absurd (by simpa using at_) (unarmed srv)
    · exact o.armed j srv (by simpa [Function.update_of_ne same] using at_)
  fired := by
    intro j c holds set
    by_cases same : j = i
    · subst same
      exact fired c (by simpa using holds) set
    · exact o.fired j c (by simpa [Function.update_of_ne same] using holds) set
  disarmed := by
    intro inside j srv at_
    by_cases same : j = i
    · subst same
      exact unarmed srv (by simpa using at_)
    · exact o.disarmed inside j srv (by simpa [Function.update_of_ne same] using at_)

/-- The section of `abortStuckTransfer` finds its own connection or none. -/
theorem Owned.abort {i : TransferID} (o : Owned cur s) (free : ¬ s.serverMuHeld = true)
    (fired : (s.timers i).hasFired = true)
    {state : TimerState}
    (next : state = .done ∨ ∃ srv c, s.tempServerConn = some c ∧ state = .closing srv c) :
    Owned cur { s.setTimer i state with
      tempServerConn := none
      pendingServer := none
      transferConfirmTimer := none } where
  slot := o.slot
  temp := by simp
  calls := o.calls
  aborting := by
    intro j holds
    by_cases same : j = i
    · subst same
      rcases next with rfl | ⟨srv, c, pending, rfl⟩
      · simp [setTimer, TimerState.aborting] at holds
      · have own := o.temp c pending
        rw [o.fired j c fired pending, Dialer.transfer.injEq] at own
        exact own
    · exact o.aborting j (by simpa [setTimer, Function.update_of_ne same] using holds)
  closing := by
    intro j srv c at_
    by_cases same : j = i
    · subst same
      rcases next with rfl | ⟨srv', c', pending, rfl⟩
      · simp [setTimer] at at_
      · simp only [setTimer, Function.update_self, TimerState.closing.injEq] at at_
        rw [← at_.2]
        exact o.fired j c' fired pending
    · exact o.closing j srv c (by simpa [setTimer, Function.update_of_ne same] using at_)
  armed := by
    intro j srv at_
    by_cases same : j = i
    · subst same
      rcases next with rfl | ⟨srv', c', pending, rfl⟩ <;> simp [setTimer] at at_
    · -- the armed timer is that of the pending connection, and so the one that fired
      have before : s.timers j = .armed srv := by
        simpa [setTimer, Function.update_of_ne same] using at_
      obtain ⟨-, c, pending, dialer⟩ := o.armed j srv before
      rw [o.fired i c fired pending, Dialer.transfer.injEq] at dialer
      exact absurd dialer.symm same
  fired := by simp
  disarmed := by simp [setTimer, finishing_eq_none free]
  completing := o.completing

theorem timerStep_owned {i : TransferID} (o : Owned cur s)
    (taken : s.timerStep i (s.timers i) = some s') : Owned cur s' := by
  have owner := o.aborting i
  cases at_ : s.timers i with
  | unarmed | stopped | done => simp [at_, timerStep] at taken
  | armed srv =>
      obtain ⟨-, c, pending, dialer⟩ := o.armed i srv at_
      simp only [at_, timerStep, Option.some.injEq] at taken
      subst taken
      refine o.timer_moves i (by simp [TimerState.aborting]) (by simp) (by simp) ?_
        (fun _ set => set)
      intro c' _ set
      rw [pending, Option.some.injEq] at set
      exact set ▸ dialer
  | fired srv =>
      simp only [at_, timerStep] at taken
      split at taken <;> cases taken
      rename_i free
      refine o.abort free (by simp [at_, TimerState.hasFired]) ?_
      cases pending : s.tempServerConn with
      | none => exact .inl rfl
      | some c => exact .inr ⟨srv, c, rfl, rfl⟩
  | closing srv c | resetting srv | running srv done =>
      simp only [at_, timerStep, Option.some.injEq] at taken
      subst taken
      exact o.timer_moves i (by simp_all [TimerState.aborting]) (by simp) (by simp)
        (by simp [TimerState.hasFired]) (fun _ set => set)
  | taking srv =>
      simp only [at_, timerStep, Option.some.injEq] at taken
      subst taken
      exact o.timer_moves i (by simp [TimerState.aborting]) (by simp) (by simp)
        (by simp [TimerState.hasFired]) (by simp)
  | disconnecting =>
      simp only [at_, timerStep] at taken
      split at taken <;> cases taken
      exact o.timer_moves i (by simp [TimerState.aborting]) (by simp) (by simp)
        (by simp [TimerState.hasFired]) (fun _ set => set)

/-! ## The client loop and `Close` -/

/-- A step of the client loop that leaves the connections and timers alone. -/
theorem Owned.client_moves (o : Owned cur s) {client : ClientState}
    {translator : Option Translator} {transferring postTransfer dead panicked : Bool}
    {done : Option TransferID} {tracked : Tracked} {closed : List (Closer × Dialer)}
    {unacked : List Sender} {bus : List BusEvent}
    (finishing : client.finishing ≠ none → s.client.finishing ≠ none)
    (completing : ∀ c, client.completing = some c → c.dialer = .transfer cur)
    (kept : ∀ j, done = some j → s.transferDone = some j) :
    Owned cur { s with
      client := client, translator := translator, transferring := transferring
      postTransfer := postTransfer, dead := dead, transferDone := done, tracked := tracked
      closed := closed, unacked := unacked, bus := bus, panicked := panicked } where
  __ := o
  slot := fun j set => o.slot j (kept j set)
  disarmed := fun inside => o.disarmed (finishing inside)
  completing := completing

/-- The stop of the timer finds the one of the pending connection. -/
theorem stopTimer_disarmed (o : Owned cur s) (j : TransferID) (srv : Server) :
    s.stopTimer.timers j ≠ .armed srv := by
  intro at_
  rcases stopTimer_timers s j with same | ⟨_, -, stopped⟩
  · rw [same] at at_
    have pointed := (o.armed j srv at_).1
    simp [stopTimer, pointed, at_, setTimer] at same
  · rw [stopped] at at_
    cases at_

theorem Owned.lock (o : Owned cur s) (client : ClientState) (completing : client.completing = none) :
    Owned cur { s.stopTimer with client := client } := by
  have timers := stopTimer_timers s
  have disarmed := stopTimer_disarmed o
  obtain ⟨_, _, frame⟩ := stopTimer_frame s
  rw [frame] at timers disarmed ⊢
  exact { o with
    aborting := by
      intro j holds
      rcases timers j with same | ⟨_, -, stopped⟩
      · exact o.aborting j (same ▸ holds)
      · have ended := congrArg TimerState.aborting stopped
        exact absurd (holds.symm.trans ended) (by decide)
    closing := by
      intro j srv c at_
      rcases timers j with same | ⟨_, -, stopped⟩
      · exact o.closing j srv c (same ▸ at_)
      · rw [stopped] at at_
        cases at_
    armed := fun j srv at_ => absurd at_ (disarmed j srv)
    fired := by
      intro j c holds set
      rcases timers j with same | ⟨_, -, stopped⟩
      · exact o.fired j c (same ▸ holds) set
      · have ended := congrArg TimerState.hasFired stopped
        exact absurd (holds.symm.trans ended) (by decide)
    disarmed := fun _ => disarmed
    completing := by simp [completing] }

theorem clientStep_owned (w : Wired s) (o : Owned cur s)
    (taken : s.clientStep input s.client = some s') : Owned cur s' := by
  have completing := o.completing
  cases at_ : s.client with
  | unstarted | exited => simp [at_, clientStep] at taken
  | reading =>
      simp only [at_, clientStep] at taken
      split at taken <;> cases taken
      · unfold receive
        (repeat' split) <;>
          first
          | exact { o with }
          | exact o.client_moves (by simp [ClientState.finishing])
              (by simp [ClientState.completing]) (fun _ set => set)
      · exact o.client_moves (by simp [ClientState.finishing]) (by simp [ClientState.completing])
          (fun _ set => set)
  | translating f rest =>
      cases rest with
      | pure pk =>
          simp only [at_, clientStep, Option.some.injEq] at taken
          subst taken
          exact o.client_moves (by simp [ClientState.finishing]) (by simp [ClientState.completing])
            (fun _ set => set)
      | ask r k =>
          simp only [at_, clientStep] at taken
          split at taken <;> cases taken
          · exact { o with }
          · exact o.client_moves (by simp [ClientState.finishing])
              (by simp [ClientState.completing]) (fun _ set => set)
  | locking f pk =>
      simp only [at_, clientStep] at taken
      split at taken <;> cases taken
      · exact o.client_moves (by simp [ClientState.finishing]) (by simp [ClientState.completing])
          (fun _ set => set)
      · exact o.lock _ rfl
  | switching f c =>
      have pending := w.finishing c (by simp [at_, ClientState.finishing])
      have owner := o.temp c pending
      have disarmed := o.disarmed (by simp [at_, ClientState.finishing])
      simp only [at_, clientStep] at taken
      split at taken <;> cases taken
      · exact { o with
          temp := by simp
          armed := fun j srv armed => absurd armed (disarmed j srv)
          fired := by simp
          disarmed := by simp [ClientState.finishing]
          completing := by
            intro c' at_
            simp only [ClientState.completing, Option.some.injEq] at at_
            exact at_ ▸ owner }
      · exact { o with }
  | taking c =>
      simp only [at_, clientStep, Option.some.injEq] at taken
      subst taken
      exact o.client_moves (by simp [ClientState.finishing]) (by simp [ClientState.completing])
        (by simp)
  | _ =>
      simp only [at_, ClientState.completing] at completing
      simp only [at_, clientStep] at taken
      (repeat' split at taken) <;> cases taken <;>
        first
        | exact { o with }
        | exact o.client_moves (by simp [at_, ClientState.finishing])
            (by simp_all [ClientState.completing]) (fun _ set => set)

theorem closeStep_owned {st : CloseState} (o : Owned cur s) (taken : s.closeStep st = some s') :
    Owned cur s' := by
  revert taken
  fun_cases closeStep s st <;> intro taken <;> cases taken <;>
    first
    | exact { o with }
    | exact { o with slot := by simp }

/-! ## Every run -/

theorem next_owned {a : Action} (w : Wired s) (t : Traced s) (o : Owned cur s)
    (orderly : s.Orderly a) (taken : s.next a = some s') : ∃ cur', Owned cur' s' := by
  refine next_elim taken ?_ ?_ ?_ ?_ ?_ ?_ ?_ ?_
  · intro _ taken
    obtain ⟨_, _, _, _, _, rfl⟩ := newStep_frame taken
    exact ⟨cur, { o with }⟩
  · intro _ taken
    obtain ⟨_, _, _, _, _, _, _, rfl | rfl, -, rfl⟩ := loginStep_frame taken
    · exact ⟨cur, { o with }⟩
    · exact ⟨cur, { o with
        disarmed := by simp [ClientState.finishing]
        completing := by simp [ClientState.completing] }⟩
  · intro i actor taken
    exact callNext_owned w t o orderly actor taken
  · intro i _ taken
    exact ⟨cur, timerStep_owned o taken⟩
  · intro _ taken
    exact ⟨cur, clientStep_owned w o taken⟩
  · intro _ taken
    obtain ⟨_, _, _, _, _, _, rfl⟩ := serverStep_frame taken
    exact ⟨cur, { o with }⟩
  · intro _ taken
    exact ⟨cur, closeStep_owned o taken⟩
  · intro r _ taken
    obtain ⟨_, _, rfl⟩ | ⟨i, target, _, -, rfl⟩ := requestStep_frame taken
    · exact ⟨cur, { o with }⟩
    · exact ⟨cur, o.call_moves i (by simp [CallState.pending]) (fun _ set => set)⟩

theorem owned (reached : machine.Reach Orderly s) : ∃ cur, Owned cur s :=
  reached.invariant (I := fun s => ∃ cur, Owned cur s) ⟨0, initial_owned⟩ fun _ _ _ before ⟨_, o⟩ orderly taken =>
    next_owned (wired before) (traced before) o orderly taken

end Session

end Portal
