/-
# Session.Outcome — every transfer's callback runs once, with its own outcome

A callback is stored in `transferDone`, taken out by one of the four goroutines
that call `completeTransfer`, and run.  `share s k` counts the places transfer
`k`'s callback can be in, runs included: the slot, a goroutine's local variable,
the event bus.  In runs of orderly steps it is 1 from the store of the callback
on, so the callback is neither run twice nor lost, and a callback that is still in
the slot has somebody left who will take it (`Accounted`).

`transfer_outcome` puts that together.  `overlap_mixes_transfers` has two runs that
are not orderly: a call that stores its callback before the confirmation of the
previous transfer has taken that one's, and an abort that fires for one transfer
and takes the pending connection of the next.
-/
import Portal.Theory.Tally
import Portal.Session.Ownership

namespace Portal

open Portal.Theory Portal.Theory.Transition

set_option autoImplicit false

/-- The outcome a call is about to complete with. -/
def CallState.outcome : CallState → Option Outcome
  | .resetting o => some o
  | .taking o => some o
  | .running o _ => some o
  | _ => none

/-- The call has stored its callback. -/
def CallState.installed : CallState → Bool
  | .waiting => false
  | .comparing => false
  | .rejected => false
  | .clearing => false
  | .awaiting => false
  | .reading => false
  | .installing => false
  | _ => true

def CallState.holds : CallState → Option TransferID
  | .running _ callback => callback
  | _ => none

/-- The callback a call has taken and not run yet. -/
def heldBy (call : Option Call) : Option TransferID := call.bind fun call => call.state.holds

/-- How many callbacks the call has stored: one, once it has got there. -/
def dueRuns (call : Option Call) : Int :=
  if call.any fun call => call.state.installed then 1 else 0

def TimerState.holds : TimerState → Option TransferID
  | .running _ callback => callback
  | _ => none

def ClientState.holds : ClientState → Option TransferID
  | .running _ callback => callback
  | _ => none

def CloseState.holds : CloseState → Option TransferID
  | .running callback => callback
  | _ => none

/-- The connection the client loop has switched to and not reported yet. -/
def ClientState.switched : ClientState → Option Conn
  | .running c _ => some c
  | st => st.completing

/-- The timer and its abort are over, or never began. -/
def TimerState.finished : TimerState → Bool
  | .unarmed => true
  | .stopped => true
  | .disconnecting => true
  | .done => true
  | _ => false

/-- The outcome, if the event is one of transfer `i`. -/
def BusEvent.outcomeOf (i : TransferID) : BusEvent → Option Outcome
  | .transfer j o => if j = i then some o else none
  | _ => none

namespace Session

/-- The outcomes published for transfer `i`, in order. -/
def published (s : Session) (i : TransferID) : List Outcome := s.bus.filterMap (BusEvent.outcomeOf i)

/-- In how many places the callback of transfer `k` is, its runs included. -/
def share (s : Session) (k : TransferID) : Int :=
  unit s.transferDone k + unit (heldBy (s.calls k)) k + unit (s.timers k).holds k +
    unit s.client.holds k + unit s.close.holds k + (s.published k).length

/-- Somebody is left who will take the callback of transfer `k`: its call, its
timer with the pending connection, or the client loop. -/
def Outstanding (s : Session) (k : TransferID) : Prop :=
  (∃ call, s.calls k = some call ∧ call.state.pending = true) ∨
  (∃ c, s.tempServerConn = some c ∧ c.dialer = .transfer k ∧
    ((∃ srv, s.timers k = .armed srv) ∨ (s.timers k).hasFired = true)) ∨
  (s.timers k).aborting = true ∨
  ∃ c, (s.client.finishing = some c ∨ s.client.completing = some c) ∧ c.dialer = .transfer k

/-- Where callbacks and outcomes are. -/
structure Accounted (s : Session) : Prop where
  outcome : ∀ j call o, s.calls j = some call → call.state.outcome = some o →
    o.dialer = some (.transfer j) ∧ ∀ c, o ≠ .switched c
  callHolds : ∀ j call k, s.calls j = some call → call.state.holds = some k → k = j
  timerHolds : ∀ j k, (s.timers j).holds = some k → k = j
  clientHolds : ∀ c k, s.client = .running c (some k) → c.dialer = .transfer k
  switched : ∀ c, s.client.switched = some c → c ∈ s.switches
  published : ∀ k, ∀ o ∈ s.published k, (o = .closed ∨ o.dialer = some (.transfer k)) ∧
    ∀ c, o = .switched c → c ∈ s.switches
  once : ∀ k, s.share k = dueRuns (s.calls k)
  outstanding : ∀ k, s.transferDone = some k → s.Outstanding k

theorem initial_accounted : Accounted initial where
  outcome := by simp [initial]
  callHolds := by simp [initial]
  timerHolds := by simp [initial, TimerState.holds]
  clientHolds := by simp [initial]
  switched := by simp [initial, ClientState.switched, ClientState.completing]
  published := by simp [initial, Session.published]
  once := by simp [initial, share, heldBy, dueRuns, Session.published, TimerState.holds,
    ClientState.holds, CloseState.holds]
  outstanding := by simp [initial]

variable {s s' : Session} {input : Input} {cur : TransferID}

/-! ## Running a callback -/

theorem mem_published {bus : List BusEvent} {callback : Option TransferID} {o o' : Outcome}
    {k : TransferID} (member : o' ∈ (bus ++ publishTransfer callback o).filterMap (BusEvent.outcomeOf k)) :
    o' ∈ bus.filterMap (BusEvent.outcomeOf k) ∨ (callback = some k ∧ o' = o) := by
  rw [List.filterMap_append, List.mem_append] at member
  refine member.imp_right fun new => ?_
  cases callback with
  | none => simp [publishTransfer] at new
  | some j =>
      by_cases own : j = k
      · subst own
        simpa [publishTransfer, BusEvent.outcomeOf] using new
      · simp [publishTransfer, BusEvent.outcomeOf, own] at new

theorem length_published (bus : List BusEvent) (callback : Option TransferID) (o : Outcome)
    (k : TransferID) :
    (((bus ++ publishTransfer callback o).filterMap (BusEvent.outcomeOf k)).length : Int) =
      (bus.filterMap (BusEvent.outcomeOf k)).length + unit callback k := by
  rw [List.filterMap_append, List.length_append]
  cases callback with
  | none => simp [publishTransfer]
  | some j =>
      by_cases own : j = k <;> simp [publishTransfer, BusEvent.outcomeOf, own, unit]

/-- Other events publish no outcome. -/
theorem filterMap_append_other (bus : List BusEvent) {e : BusEvent} {k : TransferID}
    (other : e.outcomeOf k = none) :
    (bus ++ [e]).filterMap (BusEvent.outcomeOf k) = bus.filterMap (BusEvent.outcomeOf k) := by
  rw [List.filterMap_append, List.filterMap_cons_none other, List.filterMap_nil, List.append_nil]

/-- A callback that somebody of transfer `i` has taken is `i`'s own. -/
theorem unit_of_own {x : Option TransferID} {i k : TransferID} (own : ∀ j, x = some j → j = i)
    (other : k ≠ i) : unit x k = 0 := by
  unfold unit
  split
  · rename_i set
    exact absurd (own k set) other
  · rfl

/-! ## `Transfer` -/

section Call

variable {i : TransferID} {call : Call}

theorem Accounted.outcome_update (acc : Accounted s) {target : Server} {state : CallState}
    (own : ∀ o, state.outcome = some o → o.dialer = some (.transfer i) ∧ ∀ c, o ≠ .switched c)
    (j : TransferID) (found : Call) (o : Outcome)
    (called : Function.update s.calls i (some ⟨target, state⟩) j = some found)
    (completes : found.state.outcome = some o) :
    o.dialer = some (.transfer j) ∧ ∀ c, o ≠ .switched c := by
  rcases calls_update called with ⟨rfl, rfl⟩ | ⟨-, before⟩
  · exact own o completes
  · exact acc.outcome j found o before completes

theorem Accounted.callHolds_update (acc : Accounted s) {target : Server} {state : CallState}
    (own : ∀ k, state.holds = some k → k = i) (j : TransferID) (found : Call) (k : TransferID)
    (called : Function.update s.calls i (some ⟨target, state⟩) j = some found)
    (holds : found.state.holds = some k) : k = j := by
  rcases calls_update called with ⟨rfl, rfl⟩ | ⟨-, before⟩
  · exact own k holds
  · exact acc.callHolds j found k before holds

theorem Accounted.timerHolds_update (acc : Accounted s) {state : TimerState}
    (own : ∀ k, state.holds = some k → k = i) (j k : TransferID)
    (holds : (Function.update s.timers i state j).holds = some k) : k = j := by
  by_cases same : j = i
  · subst same
    rw [Function.update_self] at holds
    exact own k holds
  · rw [Function.update_of_ne same] at holds
    exact acc.timerHolds j k holds

/-- A step of call `i` that handles no callback. -/
theorem Accounted.call_moves (acc : Accounted s) (called : s.calls i = some call)
    {state : CallState} {transferring postTransfer dead panicked : Bool}
    {closed : List (Closer × Dialer)} {unacked : List Sender}
    (outcome : ∀ o, state.outcome = some o → o.dialer = some (.transfer i) ∧ ∀ c, o ≠ .switched c)
    (unheld : call.state.holds = none) (empty : state.holds = none)
    (installed : state.installed = call.state.installed)
    (pending : call.state.pending = true → state.pending = true) :
    Accounted { s with
      calls := Function.update s.calls i (some ⟨call.target, state⟩)
      transferring := transferring, postTransfer := postTransfer, dead := dead
      closed := closed, unacked := unacked, panicked := panicked } where
  __ := acc
  outcome := acc.outcome_update outcome
  callHolds := acc.callHolds_update (by simp [empty])
  once := by
    intro k
    have before := acc.once k
    by_cases same : k = i
    · subst same
      simp only [share, called, heldBy, dueRuns, Option.bind_some, Option.any_some, unheld]
        at before
      simp only [share, Function.update_self, heldBy, dueRuns, Option.bind_some,
        Option.any_some, empty, installed]
      exact before
    · simp only [share, Function.update_of_ne same]
      exact before
  outstanding := by
    intro k set
    rcases acc.outstanding k set with ⟨found, called', holds⟩ | rest
    · by_cases same : k = i
      · subst same
        rw [called, Option.some.injEq] at called'
        subst called'
        exact .inl ⟨_, Function.update_self .., pending holds⟩
      · exact .inl ⟨found, by simpa [Function.update_of_ne same] using called', holds⟩
    · exact .inr rest

/-- `s.transferDone = publishTransfer` in a quiet session. -/
theorem Accounted.install (acc : Accounted s) (q : s.Quiet) (called : s.calls i = some call)
    (at_ : call.state = .installing) :
    Accounted { s.setCall i call.target .handling with transferDone := some i } where
  __ := acc
  outcome := acc.outcome_update (by simp [CallState.outcome])
  callHolds := acc.callHolds_update (by simp [CallState.holds])
  once := by
    intro k
    have before := acc.once k
    by_cases same : k = i
    · subst same
      simp only [share, q.slot, called, at_, heldBy, dueRuns, Option.bind_some, Option.any_some,
        CallState.holds, CallState.installed, unit_none, Bool.false_eq_true, if_false] at before
      simp only [share, setCall, Function.update_self, heldBy, dueRuns, Option.bind_some,
        Option.any_some, CallState.holds, CallState.installed, unit_none, unit_some, if_true]
      simp only [Session.published] at before ⊢
      omega
    · simp only [share, q.slot] at before
      simp only [share, setCall, Function.update_of_ne same, unit_of_own (fun j set => (Option.some.inj set).symm) same]
      exact before
  outstanding := by
    intro k set
    cases set
    exact .inl ⟨⟨call.target, .handling⟩, Function.update_self .., rfl⟩

/-- `completeTransfer` of a failed call takes the call's own callback, if any. -/
theorem Accounted.call_take {o : Outcome} (acc : Accounted s) (called : s.calls i = some call)
    (at_ : call.state = .taking o) (own : ∀ j, s.transferDone = some j → j = i) :
    Accounted { s.setCall i call.target (.running o s.transferDone) with transferDone := none } where
  __ := acc
  outcome := acc.outcome_update fun o' completes =>
    acc.outcome i call o' called (by rw [at_]; exact completes)
  callHolds := acc.callHolds_update own
  once := by
    intro k
    have before := acc.once k
    by_cases same : k = i
    · subst same
      simp only [share, called, at_, heldBy, dueRuns, Option.bind_some, Option.any_some,
        CallState.holds, CallState.installed, unit_none, if_true] at before
      simp only [share, setCall, Function.update_self, heldBy, dueRuns, Option.bind_some,
        Option.any_some, CallState.holds, CallState.installed, unit_none, if_true]
      simp only [Session.published] at before ⊢
      omega
    · simp only [share, unit_of_own own same] at before
      simp only [share, setCall, Function.update_of_ne same, unit_none]
      exact before
  outstanding := by
    intro k set
    cases set

/-- `done(err)` of a failed call. -/
theorem Accounted.call_run {o : Outcome} {callback : Option TransferID} (acc : Accounted s)
    (called : s.calls i = some call) (at_ : call.state = .running o callback) :
    Accounted { s.setCall i call.target (.returned o.err) with
      bus := s.bus ++ publishTransfer callback o } := by
  have own : ∀ k, callback = some k → k = i := by
    intro k held
    exact acc.callHolds i call k called (by rw [at_]; exact held)
  have origin := acc.outcome i call o called (by rw [at_]; rfl)
  exact { acc with
    outcome := acc.outcome_update (by simp [CallState.outcome])
    callHolds := acc.callHolds_update (by simp [CallState.holds])
    published := by
      intro k o' member
      rcases mem_published member with before | ⟨held, rfl⟩
      · exact acc.published k o' before
      · rw [own k held]
        exact ⟨.inr origin.1, fun c switched => absurd switched (origin.2 c)⟩
    once := by
      intro k
      have before := acc.once k
      by_cases same : k = i
      · subst same
        simp only [share, called, at_, heldBy, dueRuns, Option.bind_some, Option.any_some,
          CallState.holds, CallState.installed, if_true, Session.published] at before
        simp only [share, setCall, Function.update_self, heldBy, dueRuns, Option.bind_some,
          Option.any_some, CallState.holds, CallState.installed, unit_none, if_true,
          Session.published, length_published]
        omega
      · simp only [share, Session.published] at before
        simp only [share, setCall, Function.update_of_ne same, Session.published, length_published,
          unit_of_own own same]
        omega
    outstanding := by
      intro k set
      rcases acc.outstanding k set with ⟨found, called', pending⟩ | rest
      · have other : k ≠ i := by
          rintro rfl
          rw [called, Option.some.injEq] at called'
          subst called'
          simp [at_, CallState.pending] at pending
        exact .inl ⟨found, by simpa [setCall, Function.update_of_ne other] using called', pending⟩
      · exact .inr rest }

/-- The owner publishes its connection: its timer is left to take the callback. -/
theorem Accounted.publish {c : Conn} (acc : Accounted s) (called : s.calls i = some call)
    (at_ : call.state = .publishing c) (unarmed : s.timers i = .unarmed)
    (own : ∀ j, s.transferDone = some j → j = i) (dialer : c.dialer = .transfer i) :
    Accounted { (s.setCall i call.target (.selecting c)).setTimer i (.armed call.target) with
      tempServerConn := some c
      pendingServer := some call.target
      transferConfirmTimer := some i } where
  __ := acc
  outcome := acc.outcome_update (by simp [CallState.outcome])
  callHolds := acc.callHolds_update (by simp [CallState.holds])
  timerHolds := acc.timerHolds_update (by simp [TimerState.holds])
  once := by
    intro k
    have before := acc.once k
    by_cases same : k = i
    · subst same
      simp only [share, called, at_, unarmed, heldBy, dueRuns, Option.bind_some,
        Option.any_some, CallState.holds, CallState.installed, TimerState.holds] at before
      simp only [share, setTimer, setCall, Function.update_self, heldBy, dueRuns,
        Option.bind_some, Option.any_some, CallState.holds, CallState.installed, TimerState.holds]
      exact before
    · simp only [share, setTimer, setCall, Function.update_of_ne same]
      exact before
  outstanding := by
    intro k set
    have same := own k set
    subst same
    exact .inr (.inl ⟨c, rfl, dialer, .inl ⟨call.target, Function.update_self ..⟩⟩)

theorem callStep_accounted (w : Wired s) (t : Traced s) (o : Owned cur s) (acc : Accounted s)
    (called : s.calls i = some call) (quiet : call.state = .installing → s.Quiet)
    (taken : s.callStep i call.target input call.state = some s') : Accounted s' := by
  have own : call.state.pending = true → ∀ j, s.transferDone = some j → j = i := by
    intro pending j set
    rw [o.slot j set, o.calls i call called pending]
  have origin := acc.outcome i call
  cases at_ : call.state with
  | installing =>
      simp only [at_, callStep, Option.some.injEq] at taken
      subst taken
      exact acc.install (quiet at_) called at_
  | publishing c =>
      have unarmed : s.timers i = .unarmed := by
        by_contra armed
        obtain ⟨srv, past⟩ := t.timers i armed
        exact not_past_of_ready called (by simp [at_, CallState.ready]) past
      have dialer := (w.calls i call c called (by simp [at_, CallState.conn])).1
      simp only [at_, callStep] at taken
      split at taken <;> cases taken
      exact acc.publish called at_ unarmed (own (by rw [at_]; rfl)) dialer
  | taking outcome =>
      simp only [at_, callStep, Option.some.injEq] at taken
      subst taken
      exact acc.call_take called at_ (own (by rw [at_]; rfl))
  | running outcome callback =>
      simp only [at_, callStep, Option.some.injEq] at taken
      subst taken
      exact acc.call_run called at_
  | resetting outcome =>
      simp only [at_, callStep, Option.some.injEq] at taken
      subst taken
      refine acc.call_moves called ?_ (by rw [at_]; rfl) rfl (by rw [at_]; rfl) (fun _ => rfl)
      rintro _ ⟨⟩
      exact origin _ called (by rw [at_]; rfl)
  | _ =>
      simp only [at_, callStep] at taken
      (repeat' split at taken) <;> cases taken <;>
        first
        | exact { acc with }
        | exact acc.call_moves called (by simp [CallState.outcome, Outcome.dialer])
            (by simp [at_, CallState.holds]) (by simp [CallState.holds])
            (by simp [at_, CallState.installed]) (by simp [at_, CallState.pending])

end Call

/-! ## The timer -/

section Timer

variable {i : TransferID}

/-- A step of timer `i` that handles neither the callback nor the connection. -/
theorem Accounted.timer_moves (acc : Accounted s) (i : TransferID) {state : TimerState}
    {transferring : Bool} {closed : List (Closer × Dialer)}
    (unheld : (s.timers i).holds = none) (empty : state.holds = none)
    (running : (∃ srv, s.timers i = .armed srv) ∨ (s.timers i).hasFired = true →
      state.hasFired = true)
    (aborting : (s.timers i).aborting = true → state.aborting = true) :
    Accounted { s with
      timers := Function.update s.timers i state
      transferring := transferring, closed := closed } where
  __ := acc
  timerHolds := acc.timerHolds_update (by simp [empty])
  once := by
    intro k
    have before := acc.once k
    by_cases same : k = i
    · subst same
      simp only [share, unheld] at before
      simp only [share, Function.update_self, empty]
      exact before
    · simp only [share, Function.update_of_ne same]
      exact before
  outstanding := by
    intro k set
    rcases acc.outstanding k set with call | ⟨c, temp, dialer, timed⟩ | mid | client
    · exact .inl call
    · by_cases same : k = i
      · subst same
        exact .inr (.inl ⟨c, temp, dialer, .inr (by simpa using running timed)⟩)
      · exact .inr (.inl ⟨c, temp, dialer, by simpa [Function.update_of_ne same] using timed⟩)
    · by_cases same : k = i
      · subst same
        exact .inr (.inr (.inl (by simpa using aborting mid)))
      · exact .inr (.inr (.inl (by simpa [Function.update_of_ne same] using mid)))
    · exact .inr (.inr (.inr client))

/-- The section of `abortStuckTransfer`: if it finds a connection it is its own. -/
theorem Accounted.abort {state : TimerState} (o : Owned cur s) (acc : Accounted s)
    (fired : (s.timers i).hasFired = true)
    (next : (s.tempServerConn = none ∧ state = .done) ∨
      ∃ srv c, s.tempServerConn = some c ∧ state = .closing srv c) :
    Accounted { s.setTimer i state with
      tempServerConn := none
      pendingServer := none
      transferConfirmTimer := none } := by
  have unheld : (s.timers i).holds = none := by
    cases at_ : s.timers i <;> simp [at_, TimerState.hasFired, TimerState.holds] at fired ⊢
  have unaborting : (s.timers i).aborting = false := by
    cases at_ : s.timers i <;> simp [at_, TimerState.hasFired, TimerState.aborting] at fired ⊢
  have empty : state.holds = none := by
    rcases next with ⟨-, rfl⟩ | ⟨srv, c, -, rfl⟩ <;> rfl
  exact { acc with
    timerHolds := acc.timerHolds_update (by simp [empty])
    once := by
      intro k
      have before := acc.once k
      by_cases same : k = i
      · subst same
        simp only [share, unheld] at before
        simp only [share, setTimer, Function.update_self, empty]
        exact before
      · simp only [share, setTimer, Function.update_of_ne same]
        exact before
    outstanding := by
      intro k set
      rcases acc.outstanding k set with call | ⟨c, temp, dialer, -⟩ | mid | client
      · exact .inl call
      · -- the pending connection is the one of the transfer that timed out
        have same : k = i := by
          rw [o.fired i c fired temp, Dialer.transfer.injEq] at dialer
          exact dialer.symm
        subst same
        rcases next with ⟨none, -⟩ | ⟨srv, c', -, rfl⟩
        · rw [none] at temp
          cases temp
        · exact .inr (.inr (.inl (by simp [setTimer, TimerState.aborting])))
      · have other : k ≠ i := by
          rintro rfl
          rw [unaborting] at mid
          cases mid
        exact .inr (.inr (.inl (by simpa [setTimer, Function.update_of_ne other] using mid)))
      · exact .inr (.inr (.inr client)) }

theorem Accounted.timer_take {srv : Server} (acc : Accounted s) (at_ : s.timers i = .taking srv)
    (own : ∀ j, s.transferDone = some j → j = i) :
    Accounted { s.setTimer i (.running srv s.transferDone) with transferDone := none } where
  __ := acc
  timerHolds := acc.timerHolds_update own
  once := by
    intro k
    have before := acc.once k
    by_cases same : k = i
    · subst same
      simp only [share, at_, TimerState.holds, unit_none, Session.published] at before
      simp only [share, setTimer, Function.update_self, TimerState.holds, unit_none,
        Session.published]
      omega
    · simp only [share, unit_of_own own same] at before
      simp only [share, setTimer, Function.update_of_ne same, unit_none]
      exact before
  outstanding := by
    intro k set
    cases set

theorem Accounted.timer_run {srv : Server} {callback : Option TransferID} (acc : Accounted s)
    (at_ : s.timers i = .running srv callback) :
    Accounted { s.setTimer i .disconnecting with
      bus := s.bus ++ publishTransfer callback (.timedOut i srv) } := by
  have own : ∀ k, callback = some k → k = i := by
    intro k held
    exact acc.timerHolds i k (by rw [at_]; exact held)
  exact { acc with
    timerHolds := acc.timerHolds_update (by simp [TimerState.holds])
    published := by
      intro k o member
      rcases mem_published member with before | ⟨held, rfl⟩
      · exact acc.published k o before
      · rw [own k held]
        exact ⟨.inr rfl, by simp⟩
    once := by
      intro k
      have before := acc.once k
      by_cases same : k = i
      · subst same
        simp only [share, at_, TimerState.holds, Session.published] at before
        simp only [share, setTimer, Function.update_self, TimerState.holds, unit_none,
          Session.published, length_published]
        omega
      · simp only [share, Session.published] at before
        simp only [share, setTimer, Function.update_of_ne same, Session.published,
          length_published, unit_of_own own same]
        omega
    outstanding := by
      intro k set
      rcases acc.outstanding k set with call | ⟨c, temp, dialer, timed⟩ | mid | client
      · exact .inl call
      · have other : k ≠ i := by
          rintro rfl
          simp [at_, TimerState.hasFired] at timed
        exact .inr (.inl ⟨c, temp, dialer, by
          simpa [setTimer, Function.update_of_ne other] using timed⟩)
      · have other : k ≠ i := by
          rintro rfl
          simp [at_, TimerState.aborting] at mid
        exact .inr (.inr (.inl (by simpa [setTimer, Function.update_of_ne other] using mid)))
      · exact .inr (.inr (.inr client)) }

theorem timerStep_accounted (o : Owned cur s) (acc : Accounted s)
    (taken : s.timerStep i (s.timers i) = some s') : Accounted s' := by
  cases at_ : s.timers i with
  | unarmed | stopped | done => simp [at_, timerStep] at taken
  | fired srv =>
      simp only [at_, timerStep] at taken
      split at taken <;> cases taken
      refine acc.abort o (by simp [at_, TimerState.hasFired]) ?_
      cases pending : s.tempServerConn with
      | none => exact .inl ⟨rfl, rfl⟩
      | some c => exact .inr ⟨srv, c, rfl, rfl⟩
  | taking srv =>
      have own : ∀ j, s.transferDone = some j → j = i := by
        intro j set
        rw [o.slot j set, o.aborting i (by simp [at_, TimerState.aborting])]
      simp only [at_, timerStep, Option.some.injEq] at taken
      subst taken
      exact acc.timer_take at_ own
  | running srv callback =>
      simp only [at_, timerStep, Option.some.injEq] at taken
      subst taken
      exact acc.timer_run at_
  | _ =>
      simp only [at_, timerStep] at taken
      (try split at taken) <;> cases taken
      all_goals
        exact acc.timer_moves i (by simp [at_, TimerState.holds]) rfl
          (by simp [at_, TimerState.hasFired]) (by simp [at_, TimerState.aborting])

end Timer

/-! ## The client loop -/

/-- A step of the client loop that handles no callback. -/
theorem Accounted.client_moves (acc : Accounted s) {client : ClientState}
    {translator : Option Translator} {transferring postTransfer dead panicked : Bool}
    {tracked : Tracked} {closed : List (Closer × Dialer)} {unacked : List Sender}
    (unheld : s.client.holds = none) (empty : client.holds = none)
    (switched : ∀ c, client.switched = some c → s.client.switched = some c)
    (onward : ∀ c, s.client.finishing = some c ∨ s.client.completing = some c →
      client.finishing = some c ∨ client.completing = some c) :
    Accounted { s with
      client := client, translator := translator, transferring := transferring
      postTransfer := postTransfer, dead := dead, tracked := tracked, closed := closed
      unacked := unacked, panicked := panicked } where
  __ := acc
  clientHolds := by
    intro c k at_
    simp only at at_
    rw [at_] at empty
    cases empty
  switched := fun c holds => acc.switched c (switched c holds)
  once := by
    intro k
    have before := acc.once k
    simp only [share, unheld] at before
    simp only [share, empty]
    exact before
  outstanding := by
    intro k set
    rcases acc.outstanding k set with call | timer | mid | ⟨c, inside, dialer⟩
    · exact .inl call
    · exact .inr (.inl timer)
    · exact .inr (.inr (.inl mid))
    · exact .inr (.inr (.inr ⟨c, onward c inside, dialer⟩))

/-- A step of the client loop outside the confirmation of a transfer. -/
theorem Accounted.client_idles (acc : Accounted s) {client : ClientState}
    {dead panicked : Bool} {unacked : List Sender}
    (idle : s.client.holds = none ∧ s.client.finishing = none ∧ s.client.completing = none)
    (empty : client.holds = none) (unswitched : client.switched = none) :
    Accounted { s with client := client, dead := dead, unacked := unacked, panicked := panicked } := by
  obtain ⟨unheld, unfinished, uncompleted⟩ := idle
  refine acc.client_moves unheld empty ?_ ?_
  · intro c switched
    cases unswitched.symm.trans switched
  · rintro c (finishing | completing)
    · cases unfinished.symm.trans finishing
    · cases uncompleted.symm.trans completing

/-- `finishTransferDimensionChange` stops the timer and takes over from it. -/
theorem Accounted.lock (acc : Accounted s) {f : Inbound} {pk : Packet} {c : Conn}
    (at_ : s.client = .locking f pk) (temp : s.tempServerConn = some c) :
    Accounted { s.stopTimer with client := .announcing f c } := by
  have timers := stopTimer_timers s
  have unheld : ∀ k, (s.stopTimer.timers k).holds = (s.timers k).holds := by
    intro k
    rcases timers k with same | ⟨srv, armed, stopped⟩
    · rw [same]
    · rw [stopped, armed]
      rfl
  have mid : ∀ k, (s.stopTimer.timers k).aborting = (s.timers k).aborting := by
    intro k
    rcases timers k with same | ⟨srv, armed, stopped⟩
    · rw [same]
    · rw [stopped, armed]
      rfl
  obtain ⟨_, _, frame⟩ := stopTimer_frame s
  rw [frame] at unheld mid ⊢
  exact { acc with
    timerHolds := fun j k holds => acc.timerHolds j k ((unheld j).symm.trans holds)
    clientHolds := by simp
    switched := by simp [ClientState.switched, ClientState.completing]
    once := by
      intro k
      have before := acc.once k
      have same := unheld k
      simp only [share, at_, ClientState.holds] at before
      simp only at same
      simp only [share, same, ClientState.holds]
      exact before
    outstanding := by
      intro k set
      rcases acc.outstanding k set with call | ⟨c', pending, dialer, -⟩ | aborting | ⟨c', inside, -⟩
      · exact .inl call
      · rw [temp, Option.some.injEq] at pending
        subst pending
        exact .inr (.inr (.inr ⟨c, .inl rfl, dialer⟩))
      · exact .inr (.inr (.inl ((mid k).trans aborting)))
      · simp [at_, ClientState.finishing, ClientState.completing] at inside }

/-- The switch: the pending connection is now the client loop's to report. -/
theorem Accounted.switch (acc : Accounted s) {f : Inbound} {c : Conn} {pending : Server}
    (at_ : s.client = .switching f c) (temp : s.tempServerConn = some c) :
    Accounted { s with
      serverConn := s.tempServerConn
      tempServerConn := none
      server := some pending
      pendingServer := none
      switches := s.switches ++ [c]
      client := .storingRuntimeID c } where
  __ := acc
  clientHolds := by simp
  switched := by
    intro c' holds
    simp only [ClientState.switched, ClientState.completing, Option.some.injEq] at holds
    simp [holds]
  published := by
    intro k o member
    obtain ⟨own, before⟩ := acc.published k o member
    exact ⟨own, fun c' switched => List.mem_append_left _ (before c' switched)⟩
  once := by
    intro k
    have before := acc.once k
    simp only [share, at_, ClientState.holds] at before
    simp only [share, ClientState.holds]
    exact before
  outstanding := by
    intro k set
    rcases acc.outstanding k set with call | ⟨c', pending, dialer, -⟩ | mid | ⟨c', inside, dialer⟩
    · exact .inl call
    · rw [temp, Option.some.injEq] at pending
      subst pending
      exact .inr (.inr (.inr ⟨c, .inr rfl, dialer⟩))
    · exact .inr (.inr (.inl mid))
    · simp only [at_, ClientState.finishing, ClientState.completing, Option.some.injEq,
        reduceCtorEq, or_false] at inside
      subst inside
      exact .inr (.inr (.inr ⟨c, .inr rfl, dialer⟩))

theorem Accounted.client_take (acc : Accounted s) {c : Conn} (at_ : s.client = .taking c)
    (own : ∀ j, s.transferDone = some j → c.dialer = .transfer j) :
    Accounted { s with transferDone := none, client := .running c s.transferDone } where
  __ := acc
  clientHolds := by
    intro c' k holds
    simp only [ClientState.running.injEq] at holds
    rw [← holds.1]
    exact own k holds.2
  switched := by
    intro c' holds
    simp only [ClientState.switched, Option.some.injEq] at holds
    subst holds
    exact acc.switched c (by simp [at_, ClientState.switched, ClientState.completing])
  once := by
    intro k
    have before := acc.once k
    simp only [share, at_, ClientState.holds, unit_none, Session.published] at before
    simp only [share, ClientState.holds, unit_none, Session.published]
    omega
  outstanding := by
    intro k set
    cases set

theorem Accounted.client_run (acc : Accounted s) {c : Conn} {callback : Option TransferID}
    (at_ : s.client = .running c callback) :
    Accounted { s with
      bus := s.bus ++ publishTransfer callback (.switched c), client := .reading } where
  __ := acc
  clientHolds := by simp
  switched := by simp [ClientState.switched, ClientState.completing]
  published := by
    intro k o member
    rcases mem_published member with before | ⟨held, rfl⟩
    · exact acc.published k o before
    · refine ⟨.inr ?_, ?_⟩
      · rw [Outcome.dialer, acc.clientHolds c k (by rw [at_, held])]
      · intro c' same
        cases same
        exact acc.switched c (by simp [at_, ClientState.switched])
  once := by
    intro k
    have before := acc.once k
    simp only [share, at_, ClientState.holds, Session.published] at before
    simp only [share, ClientState.holds, unit_none, Session.published, length_published]
    omega
  outstanding := by
    intro k set
    rcases acc.outstanding k set with call | timer | mid | ⟨c', inside, -⟩
    · exact .inl call
    · exact .inr (.inl timer)
    · exact .inr (.inr (.inl mid))
    · simp [at_, ClientState.finishing, ClientState.completing] at inside

theorem clientStep_accounted (w : Wired s) (o : Owned cur s) (acc : Accounted s)
    (taken : s.clientStep input s.client = some s') : Accounted s' := by
  cases at_ : s.client with
  | unstarted | exited => simp [at_, clientStep] at taken
  | reading =>
      have idle : s.client.holds = none ∧ s.client.finishing = none ∧ s.client.completing = none := by
        rw [at_]
        exact ⟨rfl, rfl, rfl⟩
      simp only [at_, clientStep] at taken
      split at taken <;> cases taken
      · unfold receive
        (repeat' split) <;> first
          | exact acc.client_idles idle rfl rfl
          | exact { acc with }
      · exact acc.client_idles idle rfl rfl
  | translating f rest =>
      have idle : s.client.holds = none ∧ s.client.finishing = none ∧ s.client.completing = none := by
        rw [at_]
        exact ⟨rfl, rfl, rfl⟩
      cases rest with
      | pure pk =>
          simp only [at_, clientStep, Option.some.injEq] at taken
          subst taken
          exact acc.client_idles idle rfl rfl
      | ask r k =>
          simp only [at_, clientStep] at taken
          split at taken <;> cases taken
          · exact { acc with }
          · exact acc.client_idles idle rfl rfl
  | locking f pk =>
      simp only [at_, clientStep] at taken
      split at taken <;> cases taken
      · refine acc.client_idles ?_ rfl rfl
        rw [at_]
        exact ⟨rfl, rfl, rfl⟩
      · rename_i c temp
        exact acc.lock at_ temp
  | switching f c =>
      have temp := w.finishing c (by simp [at_, ClientState.finishing])
      simp only [at_, clientStep] at taken
      split at taken <;> cases taken
      · exact acc.switch at_ temp
      · exact { acc with }
  | taking c =>
      have own : ∀ j, s.transferDone = some j → c.dialer = .transfer j := by
        intro j set
        rw [o.completing c (by simp [at_, ClientState.completing]), o.slot j set]
      simp only [at_, clientStep, Option.some.injEq] at taken
      subst taken
      exact acc.client_take at_ own
  | running c callback =>
      simp only [at_, clientStep, Option.some.injEq] at taken
      subst taken
      exact acc.client_run at_
  | _ =>
      simp only [at_, clientStep] at taken
      (repeat' split at taken) <;> cases taken <;>
        first
        | exact { acc with }
        | exact acc.client_moves (by simp [at_, ClientState.holds]) (by simp [ClientState.holds])
            (by simp [at_, ClientState.switched, ClientState.completing])
            (by simp [at_, ClientState.finishing, ClientState.completing])

/-! ## `Close` -/

theorem closeStep_accounted (acc : Accounted s) (taken : s.closeStep s.close = some s') :
    Accounted s' := by
  cases at_ : s.close with
  | taking =>
      simp only [at_, closeStep, Option.some.injEq] at taken
      subst taken
      exact { acc with
        once := by
          intro k
          have before := acc.once k
          simp only [share, at_, CloseState.holds, unit_none, Session.published] at before
          simp only [share, CloseState.holds, unit_none, Session.published]
          omega
        outstanding := by
          intro k set
          cases set }
  | running callback =>
      simp only [at_, closeStep, Option.some.injEq] at taken
      subst taken
      exact { acc with
        published := by
          intro k o member
          rcases mem_published member with before | ⟨held, rfl⟩
          · exact acc.published k o before
          · exact ⟨.inl rfl, by simp⟩
        once := by
          intro k
          have before := acc.once k
          simp only [share, at_, CloseState.holds, Session.published] at before
          simp only [share, CloseState.holds, unit_none, Session.published, length_published]
          omega }
  | publishing =>
      have quit : ∀ k, (s.bus ++ [BusEvent.playerQuit]).filterMap (BusEvent.outcomeOf k) = s.published k :=
        fun k => filterMap_append_other s.bus rfl
      simp only [at_, closeStep, Option.some.injEq] at taken
      subst taken
      exact { acc with
        published := by
          intro k o member
          simp only [Session.published, quit] at member
          exact acc.published k o member
        once := by
          intro k
          have before := acc.once k
          simp only [share, at_, CloseState.holds] at before
          simp only [share, CloseState.holds, Session.published, quit]
          exact before }
  | done => simp [at_, closeStep] at taken
  | _ =>
      simp only [at_, closeStep] at taken
      (try split at taken) <;> cases taken
      all_goals
        exact { acc with
          once := by
            intro k
            have before := acc.once k
            simp only [share, at_, CloseState.holds] at before
            simp only [share, CloseState.holds]
            exact before }

/-! ## Every run -/

theorem loginStep_accounted (w : Wired s) (acc : Accounted s)
    (taken : s.loginStep input s.login = some s') : Accounted s' := by
  obtain ⟨unstarted, -⟩ := w.loops_unstarted (loginStep_unjoined taken)
  have joined : ∀ {bus : List BusEvent}, bus = s.bus ∨ bus = s.bus ++ [BusEvent.playerJoin] → ∀ k,
      bus.filterMap (BusEvent.outcomeOf k) = s.published k := by
    rintro _ (rfl | rfl) k
    · rfl
    · exact filterMap_append_other s.bus rfl
  have idle : ∀ {client : ClientState}, client = s.client ∨ client = .reading →
      client.holds = none ∧ client.switched = none ∧ ∀ c d, client ≠ .running c d := by
    rintro _ (rfl | rfl) <;>
      simp [unstarted, ClientState.holds, ClientState.switched, ClientState.completing]
  obtain ⟨_, _, _, _, bus, client, _, started, published, rfl⟩ := loginStep_frame taken
  obtain ⟨unheld, unswitched, idle⟩ := idle started
  exact { acc with
    clientHolds := fun c k at_ => absurd at_ (idle c (some k))
    switched := by simp [unswitched]
    published := by
      intro k o member
      simp only [Session.published, joined published] at member
      exact acc.published k o member
    once := by
      intro k
      have before := acc.once k
      simp only [share, unstarted, ClientState.holds] at before
      simp only [share, unheld, Session.published, joined published]
      exact before
    outstanding := by
      intro k set
      rcases acc.outstanding k set with call | timer | mid | ⟨c, inside, -⟩
      · exact .inl call
      · exact .inr (.inl timer)
      · exact .inr (.inr (.inl mid))
      · simp [unstarted, ClientState.finishing, ClientState.completing] at inside }

/-- A call that is entered has stored nothing. -/
theorem Accounted.enter {i : TransferID} {target : Server} {requests : Nat → RequestState}
    (acc : Accounted s) (fresh : s.calls i = none) :
    Accounted { s.setCall i target .waiting with requests := requests } where
  __ := acc
  outcome := acc.outcome_update (by simp [CallState.outcome])
  callHolds := acc.callHolds_update (by simp [CallState.holds])
  once := by
    intro k
    have before := acc.once k
    by_cases same : k = i
    · subst same
      simp only [share, fresh, heldBy, dueRuns, Option.bind_none, Option.any_none] at before
      simp only [share, setCall, Function.update_self, heldBy, dueRuns, Option.bind_some,
        Option.any_some, CallState.holds, CallState.installed]
      exact before
    · simp only [share, setCall, Function.update_of_ne same]
      exact before
  outstanding := by
    intro k set
    rcases acc.outstanding k set with ⟨found, called, pending⟩ | rest
    · have other : k ≠ i := by
        rintro rfl
        rw [fresh] at called
        cases called
      exact .inl ⟨found, by simpa [setCall, Function.update_of_ne other] using called, pending⟩
    · exact .inr rest

theorem callNext_accounted {i : TransferID} {a : Action} (w : Wired s) (t : Traced s)
    (o : Owned cur s) (acc : Accounted s) (orderly : s.Orderly a) (actor : a.1 = .call i)
    (taken : s.callNext i input = some s') : Accounted s' := by
  unfold callNext at taken
  split at taken
  · rename_i fresh
    split at taken
    · obtain ⟨-, rfl⟩ := enter_spec taken
      exact acc.enter fresh
    · cases taken
  · rename_i call called
    exact callStep_accounted w t o acc called (orderly i call actor called).1 taken

theorem next_accounted {a : Action} (w : Wired s) (t : Traced s) (o : Owned cur s)
    (acc : Accounted s) (orderly : s.Orderly a) (taken : s.next a = some s') : Accounted s' := by
  refine next_elim taken ?_ ?_ ?_ ?_ ?_ ?_ ?_ ?_
  · intro _ taken
    obtain ⟨_, _, _, _, _, rfl⟩ := newStep_frame taken
    exact { acc with }
  · intro _ taken
    exact loginStep_accounted w acc taken
  · intro i actor taken
    exact callNext_accounted w t o acc orderly actor taken
  · intro i _ taken
    exact timerStep_accounted o acc taken
  · intro _ taken
    exact clientStep_accounted w o acc taken
  · intro _ taken
    obtain ⟨_, _, _, _, _, _, rfl⟩ := serverStep_frame taken
    exact { acc with }
  · intro _ taken
    exact closeStep_accounted acc taken
  · intro r _ taken
    obtain ⟨_, _, rfl⟩ | ⟨i, target, _, fresh, rfl⟩ := requestStep_frame taken
    · exact { acc with }
    · exact acc.enter fresh

theorem accounted (reached : machine.Reach Orderly s) : Accounted s := by
  refine reached.invariant initial_accounted ?_
  intro s s' a before acc orderly taken
  obtain ⟨cur, o⟩ := owned before
  exact next_accounted (wired before) (traced before) o acc orderly taken

/-! ## The outcome of a transfer -/

/-- No step of transfer `i` remains: its call has returned, its timer is over, the
client loop is not confirming it, and `Close` does not have its callback. -/
structure Settled (s : Session) (i : TransferID) : Prop where
  call : ∃ target err, s.calls i = some ⟨target, .returned err⟩
  timer : (s.timers i).finished = true
  client : ∀ c, s.client.finishing = some c ∨ s.client.switched = some c → c.dialer ≠ .transfer i
  close : s.close.holds ≠ some i

theorem Accounted.at_most_once (acc : Accounted s) (i : TransferID) : (s.published i).length ≤ 1 := by
  have balance := acc.once i
  have bound : dueRuns (s.calls i) ≤ 1 := by
    unfold dueRuns
    split <;> omega
  have slot := unit_nonneg s.transferDone i
  have call := unit_nonneg (heldBy (s.calls i)) i
  have timer := unit_nonneg (s.timers i).holds i
  have client := unit_nonneg s.client.holds i
  have close := unit_nonneg s.close.holds i
  unfold share at balance
  omega

/-- When nothing of the transfer remains its callback is nowhere but on the bus. -/
theorem Accounted.exactly_once {i : TransferID} (acc : Accounted s) (settled : s.Settled i) :
    (s.published i).length = 1 := by
  obtain ⟨⟨target, err, called⟩, timer, client, close⟩ := settled
  have slot : s.transferDone ≠ some i := by
    intro set
    rcases acc.outstanding i set with ⟨call, called', pending⟩ | ⟨_, -, -, armed⟩ | mid | ⟨c, inside, dialer⟩
    · rw [called, Option.some.injEq] at called'
      subst called'
      cases pending
    · rcases armed with ⟨srv, armed⟩ | fired
      · rw [armed] at timer
        cases timer
      · cases at_ : s.timers i <;> simp [at_, TimerState.finished, TimerState.hasFired] at timer fired
    · cases at_ : s.timers i <;> simp [at_, TimerState.finished, TimerState.aborting] at timer mid
    · refine client c (inside.imp_right fun completing => ?_) dialer
      cases at_ : s.client <;> simp_all [ClientState.switched, ClientState.completing]
  have untimed : (s.timers i).holds = none := by
    cases at_ : s.timers i <;> simp [at_, TimerState.finished, TimerState.holds] at timer ⊢
  have unheld : s.client.holds ≠ some i := by
    intro held
    cases at_ : s.client with
    | running c callback =>
        rw [at_] at held
        simp only [ClientState.holds] at held
        subst held
        exact client c (.inr (by simp [at_, ClientState.switched])) (acc.clientHolds c i at_)
    | _ => simp [at_, ClientState.holds] at held
  have balance := acc.once i
  simp only [share, called, heldBy, dueRuns, Option.bind_some, Option.any_some, CallState.holds,
    CallState.installed, untimed, unit, slot, unheld, close, reduceCtorEq, if_false, if_true] at balance
  omega

/-- **The outcome of a transfer.**  In every run of orderly steps and for every
transfer `i`: its callback runs at most once, with its own outcome or because the
session is closed, without an error only if the session switched to the target of
`i`, and exactly once when nothing of `i` remains.  The abort of `i` clears and
closes no pending connection but that of `i`. -/
theorem transfer_outcome (reached : machine.Reach Orderly s) (i : TransferID) :
    (s.published i).length ≤ 1 ∧
      (∀ o ∈ s.published i, o = .closed ∨ o.dialer = some (.transfer i)) ∧
      (∀ o ∈ s.published i, o.err = none → ∃ c call, c ∈ s.switches ∧ c.dialer = .transfer i ∧
        s.calls i = some call ∧ c.server = call.target) ∧
      (s.Settled i → (s.published i).length = 1) ∧
      ∀ input s', s.next (.timer i, input) = some s' →
        (∀ c, s.tempServerConn = some c → s'.tempServerConn ≠ some c → c.dialer = .transfer i) ∧
          (s'.closed = s.closed ∨ s'.closed = s.closed ++ [(.abort, .transfer i)]) := by
  have acc := accounted reached
  obtain ⟨cur, o⟩ := owned reached
  refine ⟨acc.at_most_once i, fun o member => (acc.published i o member).1, ?_, acc.exactly_once, ?_⟩
  · intro o member success
    obtain ⟨own, switched⟩ := acc.published i o member
    cases o with
    | switched c =>
        have member := switched c rfl
        obtain ⟨j, dialer, call, called, target, -⟩ := (traced reached).switched c member
        rcases own with closed | own
        · cases closed
        · simp only [Outcome.dialer, Option.some.injEq] at own
          rw [own, Dialer.transfer.injEq] at dialer
          subst dialer
          exact ⟨c, call, member, own, called, target.symm⟩
    | _ => simp [Outcome.err] at success
  · intro input s' taken
    have taken : s.timerStep i (s.timers i) = some s' := ownStep_of_next taken rfl
    cases at_ : s.timers i with
    | fired srv =>
        simp only [at_, timerStep] at taken
        split at taken <;> cases taken
        exact ⟨fun c temp _ => o.fired i c (by simp [at_, TimerState.hasFired]) temp, .inl rfl⟩
    | closing srv c =>
        have own := o.closing i srv c at_
        simp only [at_, timerStep, Option.some.injEq] at taken
        subst taken
        exact ⟨fun c temp cleared => absurd temp cleared, .inr (by rw [own])⟩
    | _ =>
        simp only [at_, timerStep] at taken
        (try split at taken) <;> cases taken
        all_goals exact ⟨fun c temp cleared => absurd temp cleared, .inl rfl⟩

/-- A statement that `Orderly` says nothing about. -/
def unguarded (s : Session) (a : Action) : Bool :=
  match a.1 with
  | .call k =>
      match s.calls k with
      | some ⟨_, .installing⟩ => false
      | some ⟨_, .publishing _⟩ => false
      | _ => true
  | _ => true

theorem orderly_of_unguarded (s : Session) (a : Action) (free : s.unguarded a = true) :
    Orderly s a := by
  intro k call actor called
  simp only [unguarded, actor, called] at free
  refine ⟨fun at_ => ?_, fun c at_ => ?_⟩ <;>
  · obtain ⟨target, state⟩ := call
    simp only at at_
    subst at_
    cases free

theorem orderly_install {k : TransferID} {target : Server} (quiet : s.Quiet)
    (called : s.calls k = some ⟨target, .installing⟩) : Orderly s (.call k, input) := by
  intro j call actor called'
  cases actor
  rw [called, Option.some.injEq] at called'
  subst called'
  exact ⟨fun _ => quiet, nofun⟩

theorem orderly_publish {k : TransferID} {target : Server} {c : Conn}
    (idle : ∀ j, (s.timers j).hasFired = false)
    (called : s.calls k = some ⟨target, .publishing c⟩) : Orderly s (.call k, input) := by
  intro j call actor called'
  cases actor
  rw [called, Option.some.injEq] at called'
  subst called'
  exact ⟨nofun, fun _ _ => idle⟩

/-- A transfer that the client confirms has nothing left and one outcome. -/
theorem transfer_outcome_confirmed :
    ∃ s, machine.Reach Orderly s ∧ s.Settled 0 ∧ (s.published 0).length = 1 ∧
      s.published 0 = [.switched ⟨.transfer 0, game, gameData⟩] := by
  have entered : machine.Reach Orderly _ := Machine.Reach.start.exec orderly_of_unguarded
    (joining lobby lobbyData ++ ([(.call 0, .transfer game)] : List Action) ++
      steps (.call 0) 5) rfl
  have installed : machine.Reach Orderly _ := entered.step (a := (.call 0, .go))
    (orderly_install ⟨rfl, rfl, by
      rintro (_ | j) call called <;> cases called
      rfl, fun _ => rfl, rfl⟩ rfl) rfl
  have dialed : machine.Reach Orderly _ := installed.exec orderly_of_unguarded
    [(.call 0, .verdict false), (.call 0, .go), (.call 0, .dialed gameData), (.call 0, .go)] rfl
  have published : machine.Reach Orderly _ := dialed.step (a := (.call 0, .go))
    (orderly_publish (fun _ => rfl) rfl) rfl
  have confirmed : machine.Reach Orderly _ := published.exec orderly_of_unguarded
    (steps (.call 0) 2 ++ acknowledging ++ confirming) rfl
  obtain ⟨s, confirmed, settled, outcome⟩ : ∃ s, machine.Reach Orderly s ∧ s.Settled 0 ∧
      s.published 0 = [.switched ⟨.transfer 0, game, gameData⟩] :=
    ⟨_, confirmed, ⟨⟨game, none, rfl⟩, rfl, fun c at_ => (at_.elim nofun nofun), nofun⟩, rfl⟩
  exact ⟨s, confirmed, settled, (transfer_outcome confirmed 0).2.2.2.1 settled, outcome⟩

/-- The confirmation of transfer 0 has cleared `transferring` and not yet taken
its callback when transfer 1 stores its own: 1 is told that it succeeded, before
it has dialed, and 0 is told nothing. -/
def overwriting : List Action :=
  joining lobby lobbyData ++ transferCall 0 game gameData ++ acknowledging ++ steps .client 9 ++
    [(.call 1, .transfer lobby)] ++ steps (.call 1) 6 ++ steps .client 4

/-- The timer of transfer 0 has fired when the client confirms; it gets to its
first statement after transfer 1 has published its connection. -/
def abortingLate : List Action :=
  joining lobby lobbyData ++ transferCall 0 game gameData ++ [(.timer 0, .go)] ++
    acknowledging ++ confirming ++ transferCall 1 lobby lobbyData ++ steps (.timer 0) 5

theorem overlap_mixes_transfers :
    (∃ s, machine.Reachable s ∧ s.Settled 0 ∧ s.published 0 = [] ∧
      s.published 1 = [.switched ⟨.transfer 0, game, gameData⟩]) ∧
    ∃ s, machine.Reachable s ∧ (.abort, .transfer 1) ∈ s.closed ∧ s.tempServerConn = none ∧
      s.published 1 = [.timedOut 0 game] := by
  have overwritten : machine.Reachable _ := Machine.exec_reach overwriting rfl
  have aborted : machine.Reachable _ := Machine.exec_reach abortingLate rfl
  refine ⟨⟨_, overwritten, ?_, rfl, rfl⟩, ⟨_, aborted, by decide, rfl, rfl⟩⟩
  exact ⟨⟨game, none, rfl⟩, rfl, fun c at_ => (at_.elim nofun nofun), nofun⟩

end Session

end Portal
