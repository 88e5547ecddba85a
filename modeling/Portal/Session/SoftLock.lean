/-
# Session.SoftLock — a session that is transferring has somebody to end it

While `s.transferring` is set the client->server loop forwards nothing.  The confirmation
timer is there so that a client that never confirms does not stay like that.  What has to
hold for this is not that each transfer lowers its own flag, for a late abort or an
overlapping call may lower it or take the pending connection of another one.  It is that
whenever the flag is up or a connection is pending, some goroutine stands before the
statement that lowers it or takes it:

* a call between its `CompareAndSwap` and its publication or its `setTransferring(false)`,
* a timer that is armed, has fired or has taken the connection,
* the client loop inside the confirmation.

`Answered` is that invariant.  Every statement that takes one of them away leaves another
one or lowers the flag, so it holds in every run (`answered`); and who answers can move, or
waits for somebody who can (`never_soft_locked`).
-/
import Portal.Session.Waiting

namespace Portal

open Portal.Theory.PartialMap
open Portal.Theory.Transition

set_option autoImplicit false

/-- The call has raised the flag and has neither published a connection nor lowered it. -/
def CallState.raised : CallState → Bool
  | .clearing => true
  | .awaiting => true
  | .reading => true
  | .installing => true
  | .handling => true
  | .respawning => true
  | .dialing _ => true
  | .spawning _ => true
  | .publishing _ => true
  | .resetting _ => true
  | _ => false

/-- The abort has taken the connection and has not lowered the flag. -/
def TimerState.lowering : TimerState → Bool
  | .closing _ _ => true
  | .resetting _ => true
  | _ => false

/-- The confirmation, from the stop of the timer to `s.transferring.Store(false)`. -/
def ClientState.concluding : ClientState → Bool
  | .announcing _ _ => true
  | .wiping _ _ => true
  | .reviving _ _ => true
  | .dropping _ _ => true
  | .switching _ _ => true
  | .storingRuntimeID _ => true
  | .storingUniqueID _ => true
  | .lowering _ => true
  | _ => false

theorem ClientState.concluding_of_finishing {client : ClientState}
    (inside : client.finishing.isSome = true) : client.concluding = true := by
  cases client <;> simp_all [ClientState.finishing, ClientState.concluding]

namespace Session

/-- A call of `Transfer` is on its way. -/
def Raised (s : Session) : Prop := ∃ i call, s.calls i = some call ∧ call.state.raised = true

/-- A pending connection has a timer that can take it or is being switched to, and a raised
flag has a pending connection or somebody about to lower it. -/
structure Answered (s : Session) : Prop where
  temp : s.tempServerConn ≠ none → s.serverMuHeld = true ∨ ∃ i, (s.timers i).looks = true
  flag : s.transferring = true → s.tempServerConn ≠ none ∨ s.client.concluding = true ∨
    s.Raised ∨ ∃ i, (s.timers i).lowering = true

theorem initial_answered : Answered initial where
  temp := by simp [initial]
  flag := by simp [initial]

variable {s s' : Session} {input : Input}

/-- A step that keeps the fields, the client loop and whoever answers. -/
theorem Answered.moves (an : Answered s) (temp : s'.tempServerConn = s.tempServerConn)
    (flag : s'.transferring = true → s.transferring = true) (client : s'.client = s.client)
    (raised : s.Raised → s'.Raised) (timers : s'.timers = s.timers) : Answered s' where
  temp := by
    unfold serverMuHeld
    rw [temp, timers, client]
    exact an.temp
  flag := by
    rw [temp, timers, client]
    intro up
    rcases an.flag (flag up) with set | inside | calls | lowering
    · exact .inl set
    · exact .inr (.inl inside)
    · exact .inr (.inr (.inl (raised calls)))
    · exact .inr (.inr (.inr lowering))

/-! ## Calls -/

/-- Call `i` goes on, and answers as it did before. -/
theorem Raised.update {i : TransferID} {target : Server} {st st' : CallState}
    (called : s.calls i = some ⟨target, st⟩) (onward : st.raised = true → st'.raised = true)
    (raised : s.Raised) :
    ∃ j call, Function.update s.calls i (some ⟨target, st'⟩) j = some call ∧
      call.state.raised = true := by
  obtain ⟨j, call, found, up⟩ := raised
  obtain ⟨call', found', up'⟩ :=
    update_keep (P := fun call => call.state.raised = true) called found up
      (show st.raised = true → (Call.mk target st').state.raised = true from onward)
  exact ⟨j, call', found', up'⟩

/-- A new call takes nobody's place. -/
theorem Raised.enter {i : TransferID} {target : Server} (fresh : s.calls i = none)
    (raised : s.Raised) :
    ∃ j call, Function.update s.calls i (some ⟨target, .waiting⟩) j = some call ∧
      call.state.raised = true := by
  obtain ⟨j, call, found, up⟩ := raised
  exact ⟨j, call, update_free fresh found, up⟩

theorem callStep_answered {i : TransferID} {call : Call} (an : Answered s)
    (called : s.calls i = some call)
    (taken : s.callStep i call.target input call.state = some s') : Answered s' := by
  obtain ⟨target, state⟩ := call
  cases state with
  | comparing =>
      simp only [callStep] at taken
      split at taken <;> cases taken
      · exact an.moves rfl id rfl (Raised.update called id) rfl
      · -- the flag goes up with the call that raises it
        refine ⟨an.temp, fun _ => .inr (.inr (.inl ?_))⟩
        exact ⟨i, ⟨target, .clearing⟩, Function.update_self .., rfl⟩
  | publishing c =>
      simp only [callStep] at taken
      split at taken <;> cases taken
      refine ⟨fun _ => .inr ⟨i, ?_⟩, fun _ => .inl (Option.some_ne_none c)⟩
      show (Function.update s.timers i (.armed target) i).looks = true
      rw [Function.update_self]
      rfl
  | resetting o =>
      simp only [callStep] at taken
      cases taken
      exact ⟨an.temp, by simp⟩
  | taking o =>
      simp only [callStep] at taken
      cases taken
      exact an.moves rfl id rfl (Raised.update called id) rfl
  | _ =>
      simp only [callStep] at taken
      (repeat' split at taken) <;> cases taken <;>
        first
        | exact an.moves rfl id rfl id rfl
        | exact an.moves rfl id rfl (Raised.update called fun _ => rfl) rfl
        | exact an.moves rfl id rfl (Raised.update called id) rfl

theorem callNext_answered {i : TransferID} (an : Answered s) (taken : s.callNext i input = some s') :
    Answered s' := by
  unfold callNext at taken
  split at taken
  · split at taken
    · obtain ⟨fresh, rfl⟩ := enter_spec taken
      exact an.moves rfl id rfl (Raised.enter fresh) rfl
    · cases taken
  · exact callStep_answered an ‹_› taken

theorem requestStep_answered {r : Nat} {st : RequestState} (an : Answered s)
    (taken : s.requestStep r input st = some s') : Answered s' := by
  obtain ⟨_, _, rfl⟩ | ⟨i, target, _, fresh, rfl⟩ := requestStep_frame taken
  · exact an.moves rfl id rfl id rfl
  · exact an.moves rfl id rfl (Raised.enter fresh) rfl

/-! ## Timers -/

/-- Some timer still has `P` after timer `i` has moved, if timer `i` keeps it. -/
theorem timer_update {P : TimerState → Bool} {timers : TransferID → TimerState} {i : TransferID}
    {state : TimerState} (kept : P (timers i) = true → P state = true)
    (found : ∃ j, P (timers j) = true) : ∃ j, P (Function.update timers i state j) = true := by
  obtain ⟨j, holds⟩ := found
  refine ⟨j, ?_⟩
  by_cases own : j = i
  · subst own
    rw [Function.update_self]
    exact kept holds
  · rw [Function.update_of_ne own]
    exact holds

/-- Timer `i` moves to a state in which it answers for what it answered for. -/
theorem Answered.timer_moves (an : Answered s) {i : TransferID} {state : TimerState}
    (looks : (s.timers i).looks = true → state.looks = true)
    (lowering : (s.timers i).lowering = true → state.lowering = true) :
    Answered (s.setTimer i state) where
  temp := fun set => (an.temp set).imp_right (timer_update looks)
  flag := by
    intro up
    rcases an.flag up with set | inside | calls | aborts
    · exact .inl set
    · exact .inr (.inl inside)
    · exact .inr (.inr (.inl calls))
    · exact .inr (.inr (.inr (timer_update lowering aborts)))

theorem timerStep_answered {i : TransferID} (an : Answered s)
    (taken : s.timerStep i (s.timers i) = some s') : Answered s' := by
  cases at_ : s.timers i with
  | fired srv =>
      simp only [at_, timerStep] at taken
      split at taken <;> cases taken
      cases temp : s.tempServerConn with
      | none =>
          refine ⟨fun set => absurd rfl set, fun up => ?_⟩
          rcases an.flag up with set | inside | calls | aborts
          · exact absurd temp set
          · exact .inr (.inl inside)
          · exact .inr (.inr (.inl calls))
          · refine .inr (.inr (.inr (timer_update (fun lowering => ?_) aborts)))
            rw [at_] at lowering
            cases lowering
      | some c =>
          -- the abort that takes the connection is the one that lowers the flag
          refine ⟨fun set => absurd rfl set, fun _ => .inr (.inr (.inr ⟨i, ?_⟩))⟩
          simp [setTimer, TimerState.lowering]
  | resetting srv =>
      simp only [at_, timerStep] at taken
      cases taken
      refine ⟨fun set => (an.temp set).imp_right (timer_update ?_), by simp⟩
      rw [at_]
      exact id
  | _ =>
      simp only [at_, timerStep] at taken
      (try split at taken) <;> cases taken <;>
        refine (an.timer_moves ?_ ?_).moves rfl id rfl id rfl <;>
        simp [at_, TimerState.looks, TimerState.lowering]

/-! ## The client loop -/

/-- A step of the client loop outside the critical section that leaves the confirmation, if
at all, by lowering the flag. -/
theorem Answered.client_moves (an : Answered s) (free : s.serverMuHeld = false)
    (temp : s'.tempServerConn = s.tempServerConn) (timers : s'.timers = s.timers)
    (calls : s'.calls = s.calls)
    (flag : s'.transferring = true → s.transferring = true ∧
      (s.client.concluding = true → s'.client.concluding = true)) : Answered s' where
  temp := by
    rw [temp, timers]
    intro set
    rcases an.temp set with held | live
    · rw [free] at held
      cases held
    · exact .inr live
  flag := by
    unfold Raised
    rw [temp, timers, calls]
    intro up
    obtain ⟨before, kept⟩ := flag up
    exact (an.flag before).imp_right (Or.imp_left kept)

/-- The same for a client loop that is at no confirmation. -/
theorem Answered.client_idles (an : Answered s) (idle : s.client.concluding = false)
    (temp : s'.tempServerConn = s.tempServerConn) (timers : s'.timers = s.timers)
    (calls : s'.calls = s.calls) (flag : s'.transferring = true → s.transferring = true) :
    Answered s' := by
  have free : s.serverMuHeld = false := by
    refine Bool.eq_false_iff.mpr fun held => ?_
    rw [ClientState.concluding_of_finishing held] at idle
    cases idle
  refine an.client_moves free temp timers calls fun up => ⟨flag up, fun inside => ?_⟩
  rw [idle] at inside
  cases inside

/-- A step into the critical section, or on in it. -/
theorem answered_of_finishing (held : s'.serverMuHeld = true) : Answered s' where
  temp := fun _ => .inl held
  flag := fun _ => .inr (.inl (ClientState.concluding_of_finishing held))

theorem clientStep_answered (an : Answered s) (taken : s.clientStep input s.client = some s') :
    Answered s' := by
  cases at_ : s.client with
  | reading =>
      simp only [at_, clientStep] at taken
      split at taken <;> cases taken
      · rename_i pk
        obtain ⟨client, unacked, panicked, received⟩ := receive_frame s pk
        rw [received]
        exact an.client_idles (by rw [at_]; rfl) rfl rfl rfl id
      · exact an.client_idles (by rw [at_]; rfl) rfl rfl rfl id
  | translating f rest =>
      cases rest with
      | pure pk =>
          simp only [at_, clientStep] at taken
          cases taken
          exact an.client_idles (by rw [at_]; rfl) rfl rfl rfl id
      | ask r k =>
          simp only [at_, clientStep] at taken
          split at taken <;> cases taken <;> exact an.client_idles (by rw [at_]; rfl) rfl rfl rfl id
  | locking f pk =>
      simp only [at_, clientStep] at taken
      split at taken <;> cases taken
      · exact an.client_idles (by rw [at_]; rfl) rfl rfl rfl id
      · exact answered_of_finishing rfl
  | announcing f c | wiping f c =>
      simp only [at_, clientStep] at taken
      cases taken
      exact answered_of_finishing rfl
  | reviving f c | dropping f c =>
      simp only [at_, clientStep] at taken
      split at taken <;> cases taken
      · exact answered_of_finishing (by rw [serverMuHeld, panic, at_]; rfl)
      · exact answered_of_finishing rfl
  | switching f c =>
      simp only [at_, clientStep] at taken
      split at taken <;> cases taken
      · exact ⟨fun set => absurd rfl set, fun _ => .inr (.inl rfl)⟩
      · exact answered_of_finishing (by rw [serverMuHeld, panic, at_]; rfl)
  | storingRuntimeID c | storingUniqueID c =>
      simp only [at_, clientStep] at taken
      split at taken <;> cases taken
      · exact an.client_moves (by rw [serverMuHeld, at_]; rfl) rfl rfl rfl fun up => ⟨up, id⟩
      · exact an.client_moves (by rw [serverMuHeld, at_]; rfl) rfl rfl rfl
          fun up => ⟨up, fun _ => rfl⟩
  | lowering c =>
      simp only [at_, clientStep] at taken
      cases taken
      refine an.client_moves (by rw [serverMuHeld, at_]; rfl) rfl rfl rfl ?_
      simp
  | _ =>
      simp only [at_, clientStep] at taken
      (repeat' split at taken) <;> cases taken <;> exact an.client_idles (by rw [at_]; rfl) rfl rfl rfl id

theorem loginStep_answered (an : Answered s) (w : Wired s)
    (taken : s.loginStep input s.login = some s') : Answered s' := by
  have idle := (w.loops_unstarted (loginStep_unjoined taken)).1
  obtain ⟨_, _, _, _, _, _, _, -, -, rfl⟩ := loginStep_frame taken
  exact an.client_idles (by rw [idle]; rfl) rfl rfl rfl id

/-! ## Every run -/

theorem next_answered {a : Action} (an : Answered s) (w : Wired s) (taken : s.next a = some s') :
    Answered s' := by
  refine next_elim taken ?_ ?_ ?_ ?_ ?_ ?_ ?_ ?_
  · intro _ taken
    obtain ⟨_, _, _, _, _, rfl⟩ := newStep_frame taken
    exact an.moves rfl id rfl id rfl
  · exact fun _ taken => loginStep_answered an w taken
  · exact fun _ _ taken => callNext_answered an taken
  · exact fun _ _ taken => timerStep_answered an taken
  · exact fun _ taken => clientStep_answered an taken
  · intro _ taken
    obtain ⟨_, _, _, _, _, _, rfl⟩ := serverStep_frame taken
    exact an.moves rfl id rfl id rfl
  · intro _ taken
    have lowered : s'.transferring = true → s.transferring = true := by
      revert taken
      fun_cases closeStep s s.close <;> intro taken <;> cases taken <;> simp
    obtain ⟨_, _, _, _, _, _, _, rfl⟩ := closeStep_frame taken
    exact an.moves rfl lowered rfl id rfl
  · exact fun _ _ taken => requestStep_answered an taken

theorem answered {ok : Session → Action → Prop} (reached : machine.Reach ok s) : Answered s := by
  have both : Wired s ∧ Answered s :=
    reached.invariant (I := fun s => Wired s ∧ Answered s) ⟨initial_wired, initial_answered⟩
      fun _ _ _ _ inv _ taken => ⟨next_wired inv.1 taken, next_answered inv.2 inv.1 taken⟩
  exact both.2

/-- The goroutines that can end a transfer. -/
def answers (s : Session) : Actor → Bool
  | .call i =>
      match s.calls i with
      | none => false
      | some call => call.state.raised
  | .timer i => (s.timers i).looks || (s.timers i).lowering
  | .client => s.client.concluding
  | _ => false

end Session

end Portal
