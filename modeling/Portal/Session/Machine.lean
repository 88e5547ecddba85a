/-
# Session.Machine — every interleaving of the goroutines of one session

An action picks a goroutine and gives its next statement the input it needs.
`next` executes that statement, so the runs of `machine` are the interleavings
of the goroutines at the grain of single statements.  After a nil dereference
nothing runs any more: a goroutine that panics takes the proxy down.  (The packet
loops would recover, but no statement of theirs dereferences nil.)

The `…_frame` lemmas say which fields a goroutine can write at all.
-/
import Portal.Theory.PartialMap
import Portal.Theory.Transition
import Portal.Session.Loops

namespace Portal

open Portal.Theory.PartialMap Portal.Theory.Transition

set_option autoImplicit false

/-- The goroutines of a session. -/
inductive Actor where
  | new
  | login
  | call (i : TransferID)
  | timer (i : TransferID)
  | client
  | server
  | close
  | request (r : Nat)
  deriving DecidableEq

/-- One statement of one goroutine, with its input. -/
abbrev Action := Actor × Input

namespace Session

/-- One statement of a call of `Transfer`, its first one included. -/
def callNext (i : TransferID) (input : Input) (s : Session) : Option Session :=
  match s.calls i with
  | none =>
      match input with
      | .transfer srv => s.enter i srv
      | _ => none
  | some call => s.callStep i call.target input call.state

/-- The next statement of one goroutine. -/
def ownStep (s : Session) (input : Input) : Actor → Option Session
  | .new => s.newStep input s.new
  | .login => s.loginStep input s.login
  | .call i => s.callNext i input
  | .timer i => s.timerStep i (s.timers i)
  | .client => s.clientStep input s.client
  | .server => s.serverStep input s.serverLoop
  | .close => s.closeStep s.close
  | .request r => s.requestStep r input (s.requests r)

/-- A panic ends the process. -/
def next (s : Session) (a : Action) : Option Session :=
  if s.panicked then none else s.ownStep a.2 a.1

/-- The session as a machine. -/
def machine : Machine Session Action where
  start := initial
  next := next

/-! ## What one goroutine can write -/

variable {input : Input} {s s' : Session}

theorem newStep_frame {st : NewState} (taken : s.newStep input st = some s') :
    ∃ stored new server loginMu login, s' = { s with
      stored := stored, new := new, server := server, loginMu := loginMu, login := login } := by
  revert taken
  fun_cases newStep input s st <;> intro taken <;> cases taken <;> exact ⟨_, _, _, _, _, rfl⟩

/-- The login goroutine starts the client loop and publishes the join, if it gets
that far. -/
theorem loginStep_frame {st : LoginState} (taken : s.loginStep input st = some s') :
    ∃ login serverConn translator loginMu bus client serverLoop,
      (client = s.client ∨ client = .reading) ∧ (bus = s.bus ∨ bus = s.bus ++ [.playerJoin]) ∧
      s' = { s with
        login := login, serverConn := serverConn, translator := translator, loginMu := loginMu,
        bus := bus, client := client, serverLoop := serverLoop } := by
  revert taken
  fun_cases loginStep input s st <;> intro taken <;> cases taken <;>
    refine ⟨_, _, _, _, _, _, _, ?_, ?_, rfl⟩ <;> simp

theorem loginStep_serverLoop {st : LoginState} (taken : s.loginStep input st = some s') :
    s'.serverLoop = s.serverLoop ∨ s'.serverLoop = .picking := by
  revert taken
  fun_cases loginStep input s st <;> intro taken <;> cases taken <;>
    first
    | exact .inl rfl
    | exact .inr rfl

theorem loginStep_unjoined (taken : s.loginStep input s.login = some s') :
    s.login ≠ .done .joined := by
  intro joined
  rw [joined] at taken
  cases taken

theorem timerStep_frame {i : TransferID} {st : TimerState} (taken : s.timerStep i st = some s') :
    ∃ state temp pending timer closed transferring done bus, s' = { s.setTimer i state with
      tempServerConn := temp, pendingServer := pending, transferConfirmTimer := timer,
      closed := closed, transferring := transferring, transferDone := done, bus := bus } := by
  revert taken
  fun_cases timerStep i s st <;> intro taken <;> cases taken <;>
    exact ⟨_, _, _, _, _, _, _, _, rfl⟩

/-- A timer puts no connection into `tempServerConn`. -/
theorem timerStep_temp {i : TransferID} {st : TimerState} (taken : s.timerStep i st = some s') :
    ∀ c, s'.tempServerConn = some c → s.tempServerConn = some c := by
  revert taken
  fun_cases timerStep i s st <;> intro taken <;> cases taken <;> simp [setTimer]

theorem stopTimer_frame (s : Session) :
    ∃ timers timer, s.stopTimer = { s with timers := timers, transferConfirmTimer := timer } := by
  unfold stopTimer
  split
  · exact ⟨_, _, rfl⟩
  · split <;> exact ⟨_, _, rfl⟩

theorem receive_frame (s : Session) (pk : Packet) :
    ∃ client unacked panicked, s.receive pk = { s with
      client := client, unacked := unacked, panicked := panicked } := by
  unfold receive
  (repeat' split) <;> exact ⟨_, _, _, rfl⟩

/-- Only the switch itself writes the two servers and the two connections. -/
theorem clientStep_frame {st : ClientState} (still : ∀ f c, st ≠ .switching f c)
    (taken : s.clientStep input st = some s') :
    ∃ client translator transferring postTransfer dead done timer timers tracked closed unacked bus
      panicked, s' = { s with
        client := client, translator := translator, transferring := transferring,
        postTransfer := postTransfer, dead := dead, transferDone := done,
        transferConfirmTimer := timer, timers := timers, tracked := tracked, closed := closed,
        unacked := unacked, bus := bus, panicked := panicked } := by
  cases st with
  | switching f c => exact absurd rfl (still f c)
  | reading =>
      simp only [clientStep] at taken
      split at taken <;> cases taken
      · rename_i pk
        obtain ⟨_, _, _, received⟩ := receive_frame s pk
        exact ⟨_, _, _, _, _, _, _, _, _, _, _, _, _, received⟩
      · exact ⟨_, _, _, _, _, _, _, _, _, _, _, _, _, rfl⟩
  | translating f rest =>
      cases rest with
      | pure pk => cases taken; exact ⟨_, _, _, _, _, _, _, _, _, _, _, _, _, rfl⟩
      | ask r k =>
          simp only [clientStep] at taken
          split at taken <;> cases taken <;> exact ⟨_, _, _, _, _, _, _, _, _, _, _, _, _, rfl⟩
  | locking f pk =>
      simp only [clientStep] at taken
      split at taken <;> cases taken
      · exact ⟨_, _, _, _, _, _, _, _, _, _, _, _, _, rfl⟩
      · obtain ⟨_, _, stopped⟩ := stopTimer_frame s
        rw [stopped]
        exact ⟨_, _, _, _, _, _, _, _, _, _, _, _, _, rfl⟩
  | _ =>
      simp only [clientStep] at taken
      (repeat' split at taken) <;> cases taken <;>
        exact ⟨_, _, _, _, _, _, _, _, _, _, _, _, _, rfl⟩

/-- The client loop moves no other goroutine, the timer it stops apart. -/
theorem clientStep_others {st : ClientState} (taken : s.clientStep input st = some s') :
    s'.new = s.new ∧ s'.login = s.login ∧ s'.calls = s.calls ∧ s'.serverLoop = s.serverLoop ∧
      s'.close = s.close ∧ s'.requests = s.requests ∧ s'.disconnects = s.disconnects := by
  by_cases switch : ∃ f c, st = .switching f c
  · obtain ⟨f, c, rfl⟩ := switch
    simp only [clientStep] at taken
    split at taken <;> cases taken <;> exact ⟨rfl, rfl, rfl, rfl, rfl, rfl, rfl⟩
  · obtain ⟨_, _, _, _, _, _, _, _, _, _, _, _, _, rfl⟩ :=
      clientStep_frame (fun f c at_ => switch ⟨f, c, at_⟩) taken
    exact ⟨rfl, rfl, rfl, rfl, rfl, rfl, rfl⟩

theorem serverStep_frame {st : ServerState} (taken : s.serverStep input st = some s') :
    ∃ loop disconnects dead tracked unacked panicked, s' = { s with
      serverLoop := loop, disconnects := disconnects, dead := dead, tracked := tracked,
      unacked := unacked, panicked := panicked } := by
  revert taken
  fun_cases serverStep input s st <;> intro taken <;> cases taken <;>
    exact ⟨_, _, _, _, _, _, rfl⟩

theorem closeStep_frame {st : CloseState} (taken : s.closeStep st = some s') :
    ∃ close transferring postTransfer done bus stored closed, s' = { s with
      close := close, transferring := transferring, postTransfer := postTransfer,
      transferDone := done, bus := bus, stored := stored, closed := closed } := by
  revert taken
  fun_cases closeStep s st <;> intro taken <;> cases taken <;>
    exact ⟨_, _, _, _, _, _, _, rfl⟩

/-- A call that is found after call `i` has moved to `state`. -/
theorem calls_update {calls : TransferID → Option Call} {target : Server} {state : CallState}
    {i j : TransferID} {found : Call}
    (called : Function.update calls i (some ⟨target, state⟩) j = some found) :
    (j = i ∧ found = ⟨target, state⟩) ∨ (j ≠ i ∧ calls j = some found) :=
  (update_some called).imp_left fun ⟨same, written⟩ => ⟨same, (Option.some.inj written).symm⟩

/-- A call that is entered starts out waiting, under a name nobody used. -/
theorem enter_spec {i : TransferID} {srv : Server} (taken : s.enter i srv = some s') :
    s.calls i = none ∧ s' = s.setCall i srv .waiting := by
  revert taken
  fun_cases enter s i srv <;> intro taken <;> cases taken
  exact ⟨‹_›, rfl⟩

theorem callNext_frame {i : TransferID} (taken : s.callNext i input = some s') :
    ∃ calls timers temp pending timer transferring postTransfer dead done closed unacked bus
      panicked, s' = { s with
        calls := calls, timers := timers, tempServerConn := temp, pendingServer := pending,
        transferConfirmTimer := timer, transferring := transferring, postTransfer := postTransfer,
        dead := dead, transferDone := done, closed := closed, unacked := unacked, bus := bus,
        panicked := panicked } := by
  unfold callNext at taken
  split at taken
  · split at taken
    · obtain ⟨-, rfl⟩ := enter_spec taken
      exact ⟨_, _, _, _, _, _, _, _, _, _, _, _, _, rfl⟩
    · cases taken
  · rename_i call called
    revert taken
    fun_cases callStep i call.target input s call.state <;> intro taken <;> cases taken <;>
      exact ⟨_, _, _, _, _, _, _, _, _, _, _, _, _, rfl⟩

/-- A request writes its own control point, may panic, and may enter a call. -/
theorem requestStep_frame {r : Nat} {st : RequestState}
    (taken : s.requestStep r input st = some s') :
    (∃ requests panicked, s' = { s with requests := requests, panicked := panicked }) ∨
      ∃ i target requests, s.calls i = none ∧
        s' = { s.setCall i target .waiting with requests := requests } := by
  cases st with
  | calling target =>
      simp only [requestStep] at taken
      split at taken
      · rename_i i
        simp only [Option.map_eq_some_iff] at taken
        obtain ⟨entered, taken, rfl⟩ := taken
        obtain ⟨fresh, rfl⟩ := enter_spec taken
        exact .inr ⟨i, target, _, fresh, rfl⟩
      · cases taken
  | _ =>
      simp only [requestStep] at taken
      repeat' split at taken
      all_goals cases taken
      all_goals exact .inl ⟨_, _, rfl⟩

theorem next_eq_some {a : Action} (taken : s.next a = some s') :
    s.panicked = false ∧ s.ownStep a.2 a.1 = some s' := by
  unfold next at taken
  split at taken
  · cases taken
  · rename_i alive
    exact ⟨eq_false_of_ne_true alive, taken⟩

theorem ownStep_of_next {a : Action} {actor : Actor} (taken : s.next a = some s')
    (own : a.1 = actor) : s.ownStep a.2 actor = some s' := own ▸ (next_eq_some taken).2

/-- **The step rule**: what every goroutine's step establishes, every step does. -/
theorem next_elim {a : Action} {motive : Prop} (taken : s.next a = some s')
    (new : a.1 = .new → s.newStep a.2 s.new = some s' → motive)
    (login : a.1 = .login → s.loginStep a.2 s.login = some s' → motive)
    (call : ∀ i, a.1 = .call i → s.callNext i a.2 = some s' → motive)
    (timer : ∀ i, a.1 = .timer i → s.timerStep i (s.timers i) = some s' → motive)
    (client : a.1 = .client → s.clientStep a.2 s.client = some s' → motive)
    (server : a.1 = .server → s.serverStep a.2 s.serverLoop = some s' → motive)
    (close : a.1 = .close → s.closeStep s.close = some s' → motive)
    (request : ∀ r, a.1 = .request r → s.requestStep r a.2 (s.requests r) = some s' → motive) :
    motive := by
  cases actor : a.1 with
  | new => exact new actor (ownStep_of_next taken actor)
  | login => exact login actor (ownStep_of_next taken actor)
  | call i => exact call i actor (ownStep_of_next taken actor)
  | timer i => exact timer i actor (ownStep_of_next taken actor)
  | client => exact client actor (ownStep_of_next taken actor)
  | server => exact server actor (ownStep_of_next taken actor)
  | close => exact close actor (ownStep_of_next taken actor)
  | request r => exact request r actor (ownStep_of_next taken actor)

/-- What a call of `Transfer`, a timer, `Close` and a request leave alone: the login,
the two loops and the connection these work on. -/
structure SameLoops (s s' : Session) : Prop where
  login : s'.login = s.login
  translator : s'.translator = s.translator
  serverConn : s'.serverConn = s.serverConn
  switches : s'.switches = s.switches
  client : s'.client = s.client
  serverLoop : s'.serverLoop = s.serverLoop
  disconnects : s'.disconnects = s.disconnects

/-- The step rule for what only `New`, the login goroutine and the loops write. -/
theorem next_elim_loops {a : Action} {motive : Prop} (taken : s.next a = some s')
    (new : a.1 = .new → s.newStep a.2 s.new = some s' → motive)
    (login : a.1 = .login → s.loginStep a.2 s.login = some s' → motive)
    (client : a.1 = .client → s.clientStep a.2 s.client = some s' → motive)
    (server : a.1 = .server → s.serverStep a.2 s.serverLoop = some s' → motive)
    (others : SameLoops s s' → motive) : motive := by
  refine next_elim taken new login ?_ ?_ client server ?_ ?_
  · intro i _ taken
    obtain ⟨_, _, _, _, _, _, _, _, _, _, _, _, _, rfl⟩ := callNext_frame taken
    exact others ⟨rfl, rfl, rfl, rfl, rfl, rfl, rfl⟩
  · intro i _ taken
    obtain ⟨_, _, _, _, _, _, _, _, rfl⟩ := timerStep_frame taken
    exact others ⟨rfl, rfl, rfl, rfl, rfl, rfl, rfl⟩
  · intro _ taken
    obtain ⟨_, _, _, _, _, _, _, rfl⟩ := closeStep_frame taken
    exact others ⟨rfl, rfl, rfl, rfl, rfl, rfl, rfl⟩
  · intro _ _ taken
    obtain ⟨_, _, rfl⟩ | ⟨_, _, _, -, rfl⟩ := requestStep_frame taken <;>
      exact others ⟨rfl, rfl, rfl, rfl, rfl, rfl, rfl⟩

/-- Only `New`, by starting it, and its own statements move the login goroutine. -/
theorem next_login {a : Action} (taken : s.next a = some s') : s'.login = s.login ∨
    (a.1 = .new ∧ s.newStep a.2 s.new = some s') ∨
      (a.1 = .login ∧ s.loginStep a.2 s.login = some s') := by
  refine next_elim_loops taken ?_ ?_ ?_ ?_ ?_
  · exact fun actor taken => .inr (.inl ⟨actor, taken⟩)
  · exact fun actor taken => .inr (.inr ⟨actor, taken⟩)
  · exact fun _ taken => .inl (clientStep_others taken).2.1
  · intro _ taken
    obtain ⟨_, _, _, _, _, _, rfl⟩ := serverStep_frame taken
    exact .inl rfl
  · exact fun same => .inl same.login

/-- What is moved by its own goroutines only. -/
structure Sides (actor : Actor) (s s' : Session) : Prop where
  new : actor ≠ .new → s'.new = s.new
  close : actor ≠ .close → s'.close = s.close
  tracked : actor ≠ .client → actor ≠ .server → s'.tracked = s.tracked

theorem next_sides {a : Action} (taken : s.next a = some s') : Sides a.1 s s' := by
  refine next_elim taken ?_ ?_ ?_ ?_ ?_ ?_ ?_ ?_
  · intro actor taken
    obtain ⟨_, _, _, _, _, rfl⟩ := newStep_frame taken
    exact ⟨fun other => absurd actor other, fun _ => rfl, fun _ _ => rfl⟩
  · intro _ taken
    obtain ⟨_, _, _, _, _, _, _, -, -, rfl⟩ := loginStep_frame taken
    exact ⟨fun _ => rfl, fun _ => rfl, fun _ _ => rfl⟩
  · intro _ _ taken
    obtain ⟨_, _, _, _, _, _, _, _, _, _, _, _, _, rfl⟩ := callNext_frame taken
    exact ⟨fun _ => rfl, fun _ => rfl, fun _ _ => rfl⟩
  · intro _ _ taken
    obtain ⟨_, _, _, _, _, _, _, _, rfl⟩ := timerStep_frame taken
    exact ⟨fun _ => rfl, fun _ => rfl, fun _ _ => rfl⟩
  · intro actor taken
    obtain ⟨new, -, -, -, close, -⟩ := clientStep_others taken
    exact ⟨fun _ => new, fun _ => close, fun other => absurd actor other⟩
  · intro actor taken
    obtain ⟨_, _, _, _, _, _, rfl⟩ := serverStep_frame taken
    exact ⟨fun _ => rfl, fun _ => rfl, fun _ other => absurd actor other⟩
  · intro actor taken
    obtain ⟨_, _, _, _, _, _, _, rfl⟩ := closeStep_frame taken
    exact ⟨fun _ => rfl, fun other => absurd actor other, fun _ _ => rfl⟩
  · intro _ _ taken
    obtain ⟨_, _, rfl⟩ | ⟨_, _, _, -, rfl⟩ := requestStep_frame taken <;>
      exact ⟨fun _ => rfl, fun _ => rfl, fun _ _ => rfl⟩

/-! ## Schedules

Stretches of a run in which one goroutine moves alone, and two backends with
their game data; concrete schedules are put together from them. -/

def lobby : Server := .new 0 "lobby" "127.0.0.1:19133" .rakNet "" 1 false

def game : Server := .new 1 "game" "127.0.0.1:19134" .rakNet "" 1 true

def lobbyData : GameData := ⟨1, 1, 0⟩

def gameData : GameData := ⟨2, 2, 0⟩

/-- `k` statements of one goroutine that need no input. -/
def steps (actor : Actor) (k : Nat) : List Action := List.replicate k (actor, .go)

/-- `New` and a login that succeeds, up to the start of the packet loops. -/
def joining (srv : Server) (data : GameData) : List Action :=
  [(.new, .go), (.new, .found (some srv))] ++ steps .new 3 ++ [(.login, .dialed data)] ++
    steps .login 6

/-- A call of `Transfer` up to and including its `serverMu` section. -/
def publishingCall (i : TransferID) (srv : Server) (data : GameData) : List Action :=
  [(.call i, .transfer srv)] ++ steps (.call i) 6 ++
    [(.call i, .verdict false), (.call i, .go), (.call i, .dialed data)] ++ steps (.call i) 2

/-- A call of `Transfer` that succeeds, to its return. -/
def transferCall (i : TransferID) (srv : Server) (data : GameData) : List Action :=
  publishingCall i srv data ++ steps (.call i) 2

/-- The client's acknowledgement of a `ChangeDimension`. -/
def dimensionChangeDone : Packet := .playerAction 0 .dimensionChangeDone

/-- The client loop reads an acknowledgement and loads `transferring`. -/
def acknowledging : List Action := (.client, .packet dimensionChangeDone) :: steps .client 4

/-- The client loop, having loaded true, switches and completes the transfer. -/
def confirming : List Action := steps .client 13

/-- `Close`, during a transfer, from its first statement to its last. -/
def closingMidTransfer : List Action := steps .close 13

end Session

end Portal
