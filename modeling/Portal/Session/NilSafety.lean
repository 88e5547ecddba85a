/-
# Session.NilSafety — which dereferences can meet a nil pointer

The session is in the store from the first statement of `New` on, before
`s.server`, `s.serverConn` and the translator are assigned.  What stands between a
request and a nil pointer is `waitForLogin`: it lets a request pass before
`loginMu` is locked, and again after a login that failed.

`prepared` says of a step that it does not make use of that: the wait inside
`s.Server()` ends only after `New` has assigned `s.server`, and a call of
`Transfer` publishes its connection only after the login goroutine has assigned
`s.serverConn`.  Every other dereference, of the packet loops, of
`finishTransferDimensionChange` and of the forced respawn, is safe in any case.
-/
import Portal.Session.Agreement

namespace Portal

open Portal.Theory.Transition

set_option autoImplicit false

namespace Session

/-- The step does not get ahead of the assignments of `New` and of the login
goroutine. -/
def prepared (s : Session) (a : Action) : Bool :=
  match a.1 with
  | .call k =>
      match s.calls k with
      | some ⟨_, .awaiting⟩ => s.new.assigned
      | some ⟨_, .publishing _⟩ => s.login.dialed
      | _ => true
  | .request r =>
      match s.requests r with
      | .awaiting _ => s.new.assigned
      | _ => true
  | _ => true

/-- Nobody has dereferenced a nil pointer, and who stands right before a
dereference comes late enough. -/
structure Guarded (s : Session) : Prop where
  running : s.panicked = false
  reading : ∀ k target, s.calls k = some ⟨target, .reading⟩ → s.new.assigned = true
  selecting : ∀ k target c, s.calls k = some ⟨target, .selecting c⟩ → s.login.dialed = true
  requests : ∀ r req, s.requests r = .reading req → s.new.assigned = true
  dead : s.dead = true → s.login = .done .joined

theorem initial_guarded : Guarded initial where
  running := rfl
  reading := by simp [initial]
  selecting := by simp [initial]
  requests := by simp [initial]
  dead := by simp [initial]

variable {s s' : Session} {input : Input}

/-! ## `New` and the login goroutine -/

theorem newStep_assigned (taken : s.newStep input s.new = some s') (before : s.new.assigned = true) :
    s'.new.assigned = true := by
  cases at_ : s.new with
  | locking srv =>
      simp only [at_, newStep, Option.some.injEq] at taken
      subst taken
      rfl
  | returned ok => simp [at_, newStep] at taken
  | _ =>
      rw [at_] at before
      cases before

theorem newStep_guarded (g : Guarded s) (w : Wired s) (taken : s.newStep input s.new = some s') :
    Guarded s' := by
  have later := newStep_assigned taken
  have unstarted := w.unstarted_of_new taken
  obtain ⟨_, _, _, _, _, rfl⟩ := newStep_frame taken
  exact {
    running := g.running
    reading := fun k target called => later (g.reading k target called)
    selecting := by
      intro k target c called
      have dialed := g.selecting k target c called
      rw [unstarted] at dialed
      cases dialed
    requests := fun r req at_ => later (g.requests r req at_)
    dead := by
      intro dead
      have joined := g.dead dead
      rw [unstarted] at joined
      cases joined }

theorem loginStep_dialed (taken : s.loginStep input s.login = some s')
    (before : s.login.dialed = true) : s'.login.dialed = true := by
  cases at_ : s.login with
  | unlocking r =>
      rw [at_] at before
      simp only [at_, loginStep, Option.some.injEq] at taken
      subst taken
      cases r <;> first | rfl | cases before
  | closing r =>
      rw [at_] at before
      simp only [at_, loginStep] at taken
      split at taken <;> cases taken
      exact before
  | spawning c =>
      simp only [at_, loginStep] at taken
      split at taken <;> cases taken <;> rfl
  | translating c | publishing | starting =>
      simp only [at_, loginStep, Option.some.injEq] at taken
      subst taken
      rfl
  | done r => simp [at_, loginStep] at taken
  | _ =>
      rw [at_] at before
      cases before

theorem loginStep_guarded (g : Guarded s) (taken : s.loginStep input s.login = some s') :
    Guarded s' := by
  have later := loginStep_dialed taken
  have unjoined := loginStep_unjoined taken
  obtain ⟨_, _, _, _, _, _, _, -, -, rfl⟩ := loginStep_frame taken
  exact { g with
    selecting := fun k target c called => later (g.selecting k target c called)
    dead := fun dead => absurd (g.dead dead) unjoined }

/-! ## `Transfer` and the requests -/

/-- Call `i` moves on; what it stands before is safe. -/
theorem Guarded.call_moves (g : Guarded s) (i : TransferID) {target : Server} {state : CallState}
    {timers : TransferID → TimerState} {temp : Option Conn} {pending : Option Server}
    {timer callback : Option TransferID} {transferring postTransfer dead : Bool}
    {closed : List (Closer × Dialer)} {unacked : List Sender} {bus : List BusEvent}
    {requests : Nat → RequestState}
    (reading : state = .reading → s.new.assigned = true)
    (selecting : ∀ c, state = .selecting c → s.login.dialed = true)
    (requested : ∀ r req, requests r = .reading req → s.new.assigned = true)
    (dies : dead = true → s.dead = true) :
    Guarded { s with
      calls := Function.update s.calls i (some ⟨target, state⟩)
      timers := timers, tempServerConn := temp, pendingServer := pending
      transferConfirmTimer := timer, transferDone := callback, transferring := transferring
      postTransfer := postTransfer, dead := dead, closed := closed, unacked := unacked, bus := bus
      requests := requests } where
  running := g.running
  reading := by
    intro k target' called
    rcases calls_update called with ⟨-, moved⟩ | ⟨-, before⟩
    · exact reading (Call.mk.inj moved).2.symm
    · exact g.reading k target' before
  selecting := by
    intro k target' c called
    rcases calls_update called with ⟨-, moved⟩ | ⟨-, before⟩
    · exact selecting c (Call.mk.inj moved).2.symm
    · exact g.selecting k target' c before
  requests := requested
  dead := fun set => g.dead (dies set)

theorem callStep_guarded {i : TransferID} {call : Call} (g : Guarded s) (w : Wired s)
    (called : s.calls i = some call) (ok : s.prepared (.call i, input) = true)
    (taken : s.callStep i call.target input call.state = some s') : Guarded s' := by
  obtain ⟨target, state⟩ := call
  simp only [prepared, called] at ok
  cases state with
  | awaiting =>
      simp only [callStep] at taken
      split at taken <;> cases taken
      exact g.call_moves i (fun _ => ok) (by simp) g.requests id
  | publishing c =>
      simp only [callStep] at taken
      split at taken <;> cases taken
      exact g.call_moves i (by simp) (fun _ _ => ok) g.requests id
  | reading =>
      obtain ⟨srv, server⟩ := Option.ne_none_iff_exists'.mp (w.assigned (g.reading i target called))
      simp only [callStep, server] at taken
      split at taken <;> cases taken
      exact g.call_moves i (by simp) (by simp) g.requests id
  | selecting c =>
      obtain ⟨current, conn⟩ :=
        Option.ne_none_iff_exists'.mp (w.dialed (g.selecting i target c called))
      simp only [callStep, conn, Option.some.injEq] at taken
      subst taken
      exact g.call_moves i (by simp) (by simp) g.requests id
  | respawning =>
      simp only [callStep] at taken
      split at taken
      · rename_i dead
        obtain ⟨t, translator⟩ :=
          Option.ne_none_iff_exists'.mp (w.joined (by rw [g.dead dead]; rfl))
        simp only [translator, Option.some.injEq] at taken
        subst taken
        exact g.call_moves i (by simp) (by simp) g.requests (by simp)
      · cases taken
        exact g.call_moves i (by simp) (by simp) g.requests id
  | _ =>
      simp only [callStep] at taken
      (repeat' split at taken) <;> cases taken
      all_goals exact g.call_moves i (by simp) (by simp) g.requests id

theorem callNext_guarded {i : TransferID} (g : Guarded s) (w : Wired s)
    (ok : s.prepared (.call i, input) = true) (taken : s.callNext i input = some s') :
    Guarded s' := by
  unfold callNext at taken
  split at taken
  · split at taken
    · obtain ⟨-, rfl⟩ := enter_spec taken
      exact g.call_moves i (by simp) (by simp) g.requests id
    · cases taken
  · rename_i call called
    exact callStep_guarded g w called ok taken

/-- Request `r` moves on; what it stands before is safe. -/
theorem Guarded.request_moves (g : Guarded s) (r : Nat) {state : RequestState}
    (reading : ∀ req, state = .reading req → s.new.assigned = true) (r' : Nat) (req : Request)
    (at_ : Function.update s.requests r state r' = .reading req) : s.new.assigned = true := by
  by_cases same : r' = r
  · subst same
    rw [Function.update_self] at at_
    exact reading req at_
  · rw [Function.update_of_ne same] at at_
    exact g.requests r' req at_

theorem requestStep_guarded {r : Nat} (g : Guarded s) (w : Wired s)
    (ok : s.prepared (.request r, input) = true)
    (taken : s.requestStep r input (s.requests r) = some s') : Guarded s' := by
  cases at_ : s.requests r with
  | awaiting req =>
      simp only [prepared, at_] at ok
      simp only [at_, requestStep] at taken
      split at taken <;> cases taken
      exact { g with requests := g.request_moves r fun _ _ => ok }
  | reading req =>
      obtain ⟨srv, server⟩ := Option.ne_none_iff_exists'.mp (w.assigned (g.requests r req at_))
      simp only [at_, requestStep, server] at taken
      (repeat' split at taken) <;> cases taken
      all_goals exact { g with requests := g.request_moves r (by simp) }
  | calling target =>
      simp only [at_, requestStep] at taken
      split at taken
      · rename_i i
        simp only [Option.map_eq_some_iff] at taken
        obtain ⟨entered, taken, rfl⟩ := taken
        obtain ⟨-, rfl⟩ := enter_spec taken
        exact g.call_moves i (by simp) (by simp) (g.request_moves r (by simp)) id
      · cases taken
  | _ =>
      simp only [at_, requestStep] at taken
      (repeat' split at taken) <;> cases taken
      all_goals exact { g with requests := g.request_moves r (by simp) }

/-! ## The packet loops -/

theorem clientStep_guarded (g : Guarded s) (w : Wired s)
    (taken : s.clientStep input s.client = some s') : Guarded s' := by
  have started : s.client ≠ .unstarted := by
    intro unstarted
    simp [unstarted, clientStep] at taken
  have running := (clientStep_panicked w taken).trans g.running
  obtain ⟨new, login, calls, -, -, requests, -⟩ := clientStep_others taken
  exact {
    running := running
    reading := by rw [calls, new]; exact g.reading
    selecting := by rw [calls, login]; exact g.selecting
    requests := by rw [requests, new]; exact g.requests
    dead := fun _ => login.trans (w.client started) }

theorem serverStep_panicked (w : Wired s) (taken : s.serverStep input s.serverLoop = some s') :
    s'.panicked = s.panicked := by
  by_cases unstarted : s.serverLoop = .unstarted
  · simp [unstarted, serverStep] at taken
  · obtain ⟨-, ⟨current, conn⟩, t, translator⟩ := w.set_of_joined (w.serverLoop unstarted)
    cases at_ : s.serverLoop with
    | translating c read rest =>
        cases rest with
        | pure pk =>
            simp only [at_, serverStep, Option.some.injEq] at taken
            subst taken
            rfl
        | ask r k =>
            simp only [at_, serverStep, translator, Option.some.injEq] at taken
            subst taken
            rfl
    | _ =>
        simp only [at_, serverStep, conn, translator] at taken
        (repeat' split at taken) <;> cases taken <;> rfl

theorem serverStep_guarded (g : Guarded s) (w : Wired s)
    (taken : s.serverStep input s.serverLoop = some s') : Guarded s' := by
  have started : s.serverLoop ≠ .unstarted := by
    intro unstarted
    simp [unstarted, serverStep] at taken
  have running := (serverStep_panicked w taken).trans g.running
  obtain ⟨_, _, _, _, _, _, rfl⟩ := serverStep_frame taken
  exact { g with
    running := running
    dead := fun _ => w.serverLoop started }

/-! ## Every run -/

theorem next_guarded {a : Action} (g : Guarded s) (w : Wired s) (ok : s.prepared a = true)
    (taken : s.next a = some s') : Guarded s' := by
  obtain ⟨actor, input⟩ := a
  refine next_elim taken ?_ ?_ ?_ ?_ ?_ ?_ ?_ ?_
  · intro _ taken
    exact newStep_guarded g w taken
  · intro _ taken
    exact loginStep_guarded g taken
  · rintro i rfl taken
    exact callNext_guarded g w ok taken
  · intro i _ taken
    obtain ⟨_, _, _, _, _, _, _, _, rfl⟩ := timerStep_frame taken
    exact { g with }
  · intro _ taken
    exact clientStep_guarded g w taken
  · intro _ taken
    exact serverStep_guarded g w taken
  · intro _ taken
    obtain ⟨_, _, _, _, _, _, _, rfl⟩ := closeStep_frame taken
    exact { g with }
  · rintro r rfl taken
    exact requestStep_guarded g w ok taken

/-- **No nil dereference.**  In every run of prepared steps no statement of any
goroutine dereferences a nil `s.server`, `s.serverConn` or translator. -/
theorem no_nil_dereference (reached : machine.Reach (fun s a => s.prepared a = true) s) :
    s.panicked = false := by
  have g : Guarded s := reached.invariant initial_guarded fun s s' a before g ok taken =>
    next_guarded g (wired before) ok taken
  exact g.running

/-- A request and a transfer of a player who has joined. -/
theorem no_nil_dereference_joined :
    ∃ s, machine.Reach (fun s a => s.prepared a = true) s ∧ s.requests 0 = .done ∧
      s.calls 0 = some ⟨game, .returned none⟩ ∧ s.panicked = false := by
  have reached : machine.Reach (fun s a => s.prepared a = true) _ :=
    Machine.exec_reach (joining lobby lobbyData ++
      ([(.request 0, .request .listPlayers)] : List Action) ++
      steps (.request 0) 3 ++ transferCall 0 game gameData) rfl
  exact ⟨_, reached, rfl, rfl, no_nil_dereference reached⟩

/-- A request takes the session from the store right after `store.Store(s)`: it
does not wait, since `loginMu` is not locked yet. -/
def listingEarly : List Action :=
  [(.new, .go), (.request 0, .request .listPlayers)] ++ steps (.request 0) 3

/-- The login goroutine fails to dial and unlocks `loginMu`; a transfer that was
waiting for the login dials its own target. -/
def transferringUndialed : List Action :=
  [(.new, .go), (.new, .found (some lobby))] ++ steps .new 3 ++
    [(.login, .failed "connection refused")] ++ steps .login 1 ++
    publishingCall 0 game gameData ++ steps (.call 0) 1

theorem early_request_panics :
    (∃ s, machine.Reachable s ∧ s.new = .finding ∧ s.server = none ∧ s.panicked = true) ∧
    ∃ s, machine.Reachable s ∧ s.server = some lobby ∧ s.serverConn = none ∧ s.panicked = true := by
  have listed : machine.Reachable _ := Machine.exec_reach listingEarly rfl
  have transferred : machine.Reachable _ := Machine.exec_reach transferringUndialed rfl
  exact ⟨⟨_, listed, rfl, rfl, rfl⟩, _, transferred, rfl, rfl, rfl⟩

end Session

end Portal
