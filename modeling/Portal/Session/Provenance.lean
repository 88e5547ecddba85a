/-
# Session.Provenance — where a connection comes from, and that it is used once

A connection is named by who dialed it.  Once a call of `Transfer` is past its
`serverMu` section it never comes back to it (`callNext_past`), so the connection in
`tempServerConn`, the one in `serverConn` and those that
`finishTransferDimensionChange` has closed are three different ones: `Traced`,
kept by every statement of every goroutine.

The connection that is being replaced stands in `serverConn` and among the closed
ones together only inside the critical section, between its close and the switch.
-/
import Portal.Session.Agreement

namespace Portal

open Portal.Theory.Transition

set_option autoImplicit false

/-- The call has not run its `serverMu` section and can still get there. -/
def CallState.ready : CallState → Bool
  | .waiting => true
  | .comparing => true
  | .clearing => true
  | .awaiting => true
  | .reading => true
  | .installing => true
  | .handling => true
  | .respawning => true
  | .dialing _ => true
  | .spawning _ => true
  | .publishing _ => true
  | _ => false

namespace Session

/-- Call `i`, made for `srv`, can no longer run its `serverMu` section. -/
def Past (s : Session) (i : TransferID) (srv : Server) : Prop :=
  ∃ call, s.calls i = some call ∧ call.target = srv ∧ call.state.ready = false

/-- The connection belongs to a call that is past its `serverMu` section. -/
def Launched (s : Session) (c : Conn) : Prop := ∃ i, c.dialer = .transfer i ∧ s.Past i c.server

variable {s s' : Session} {input : Input}

theorem Launched.mono {c : Conn} (launched : s.Launched c)
    (later : ∀ i srv, s.Past i srv → s'.Past i srv) : s'.Launched c := by
  obtain ⟨i, dialer, past⟩ := launched
  exact ⟨i, dialer, later i c.server past⟩

/-! ## Calls only go forward -/

/-- What a statement of call `i` does to the calls: nothing, or it moves call `i`
and keeps its target. -/
theorem callStep_calls {i : TransferID} {srv : Server} {st : CallState}
    (taken : s.callStep i srv input st = some s') :
    s'.calls = s.calls ∨
      ∃ st', s'.calls = Function.update s.calls i (some ⟨srv, st'⟩) ∧
        (st.ready = false → st'.ready = false) := by
  revert taken
  fun_cases callStep i srv input s st <;> intro taken <;> cases taken <;>
    first
    | exact .inl rfl
    | exact .inr ⟨_, rfl, by simp [CallState.ready]⟩

theorem Past.update {i j : TransferID} {srv target : Server} {st st' : CallState}
    (past : s.Past i srv) (called : s.calls j = some ⟨target, st⟩)
    (moved : s'.calls = Function.update s.calls j (some ⟨target, st'⟩))
    (onward : st.ready = false → st'.ready = false) : s'.Past i srv := by
  obtain ⟨call, found, aimed, gone⟩ := past
  by_cases same : i = j
  · subst same
    rw [called, Option.some.injEq] at found
    subst found
    exact ⟨⟨target, st'⟩, by rw [moved, Function.update_self], aimed, onward gone⟩
  · exact ⟨call, by rw [moved, Function.update_of_ne same]; exact found, aimed, gone⟩

/-- A new call takes nobody's place. -/
theorem Past.enter {i j : TransferID} {srv target : Server} (past : s.Past i srv)
    (fresh : s.calls j = none)
    (moved : s'.calls = Function.update s.calls j (some ⟨target, .waiting⟩)) : s'.Past i srv := by
  obtain ⟨call, found, aimed, gone⟩ := past
  have other : i ≠ j := by
    rintro rfl
    rw [fresh] at found
    cases found
  exact ⟨call, by rw [moved, Function.update_of_ne other]; exact found, aimed, gone⟩

/-- **Calls only go forward.** -/
theorem callNext_past {j : TransferID} (taken : s.callNext j input = some s') (i : TransferID)
    (srv : Server) (past : s.Past i srv) : s'.Past i srv := by
  unfold callNext at taken
  split at taken
  · split at taken
    · obtain ⟨fresh, rfl⟩ := enter_spec taken
      exact past.enter fresh rfl
    · cases taken
  · rename_i call called
    obtain same | ⟨st', moved, onward⟩ := callStep_calls taken
    · obtain ⟨call', found, aimed, gone⟩ := past
      exact ⟨call', by rw [same]; exact found, aimed, gone⟩
    · exact past.update called moved onward

/-! ## The three places of a connection -/

/-- The connection pending, the current one and those replaced are different
connections of calls that are past their `serverMu` section. -/
structure Traced (s : Session) : Prop where
  dialed : ∀ c, s.login = .assigning c → c.dialer = .login
  temp : ∀ c, s.tempServerConn = some c → s.Launched c
  conn : ∀ c, s.serverConn = some c → c.dialer = .login ∨ s.Launched c
  timers : ∀ i, s.timers i ≠ .unarmed → ∃ srv, s.Past i srv
  switched : ∀ c ∈ s.switches, s.Launched c
  distinct : ∀ c c', s.serverConn = some c → s.tempServerConn = some c' → c.dialer ≠ c'.dialer
  closed : ∀ d, (.finish, d) ∈ s.closed →
    s.login = .done .joined ∧ (d = .login ∨ ∃ i srv, d = .transfer i ∧ s.Past i srv)
  notTemp : ∀ c, s.tempServerConn = some c → (.finish, c.dialer) ∉ s.closed
  notConn : ∀ c, s.serverConn = some c → (.finish, c.dialer) ∈ s.closed →
    ∃ f c', s.client = .switching f c'

theorem initial_traced : Traced initial where
  dialed := by simp [initial]
  temp := by simp [initial]
  conn := by simp [initial]
  timers := by simp [initial]
  switched := by simp [initial]
  distinct := by simp [initial]
  closed := by simp [initial]
  notTemp := by simp [initial]
  notConn := by simp [initial]

/-- A step that puts no connection anywhere. -/
theorem Traced.moves (t : Traced s) (later : ∀ i srv, s.Past i srv → s'.Past i srv)
    (temp : ∀ c, s'.tempServerConn = some c → s.tempServerConn = some c)
    (conn : s'.serverConn = s.serverConn)
    (timers : ∀ i, s'.timers i ≠ .unarmed → s.timers i ≠ .unarmed)
    (switches : s'.switches = s.switches)
    (login : s'.login = s.login)
    (closed : ∀ d, (.finish, d) ∈ s'.closed → (.finish, d) ∈ s.closed)
    (client : ∀ f c, s.client = .switching f c → s'.client = .switching f c) : Traced s' where
  dialed := fun c at_ => t.dialed c (login ▸ at_)
  temp := fun c set => (t.temp c (temp c set)).mono later
  conn := fun c set => (t.conn c (conn ▸ set)).imp_right fun launched => launched.mono later
  timers := by
    intro i armed
    obtain ⟨srv, past⟩ := t.timers i (timers i armed)
    exact ⟨srv, later i srv past⟩
  switched := fun c member => (t.switched c (switches ▸ member)).mono later
  distinct := fun c c' current pending => t.distinct c c' (conn ▸ current) (temp c' pending)
  closed := by
    intro d member
    obtain ⟨joined, origin⟩ := t.closed d (closed d member)
    refine ⟨login ▸ joined, origin.imp_right ?_⟩
    rintro ⟨i, srv, dialer, past⟩
    exact ⟨i, srv, dialer, later i srv past⟩
  notTemp := fun c set member => t.notTemp c (temp c set) (closed c.dialer member)
  notConn := by
    intro c set member
    obtain ⟨f, c', at_⟩ := t.notConn c (conn ▸ set) (closed c.dialer member)
    exact ⟨f, c', client f c' at_⟩

/-- Until the login has succeeded nothing has been replaced. -/
theorem Traced.unclosed (t : Traced s) (unjoined : s.login ≠ .done .joined) (d : Dialer) :
    (.finish, d) ∉ s.closed :=
  fun member => unjoined (t.closed d member).1

/-- A step of `New` or of the login goroutine that assigns no connection. -/
theorem Traced.login_moves (t : Traced s) {login : LoginState} {new : NewState}
    {server : Option Server} {translator : Option Translator} {loginMu stored : Bool}
    {bus : List BusEvent} {client : ClientState} {serverLoop : ServerState}
    (unjoined : s.login ≠ .done .joined)
    (dialed : ∀ c, login = .assigning c → c.dialer = .login) :
    Traced { s with
      login := login, new := new, server := server, translator := translator, loginMu := loginMu
      stored := stored, bus := bus, client := client, serverLoop := serverLoop } where
  __ := t
  dialed := dialed
  closed := fun d member => absurd member (t.unclosed unjoined d)
  notConn := fun _ _ member => absurd member (t.unclosed unjoined _)

theorem newStep_traced (t : Traced s) (w : Wired s) (taken : s.newStep input s.new = some s') :
    Traced s' := by
  have login := w.unstarted_of_new taken
  revert taken
  fun_cases newStep input s s.new <;> intro taken <;> cases taken <;>
    exact t.login_moves (by simp [login]) (by simp [login])

theorem loginStep_traced (t : Traced s) (taken : s.loginStep input s.login = some s') :
    Traced s' := by
  have unjoined := loginStep_unjoined taken
  cases at_ : s.login with
  | assigning c =>
      have origin := t.dialed c at_
      simp only [at_, loginStep, Option.some.injEq] at taken
      subst taken
      exact { t with
        dialed := by simp
        conn := by
          intro c' set
          cases set
          exact .inl origin
        distinct := by
          intro c' pending set temp
          cases set
          obtain ⟨i, dialer, -⟩ := t.temp pending temp
          simp [origin, dialer]
        closed := fun d member => absurd member (t.unclosed unjoined d)
        notConn := fun _ _ member => absurd member (t.unclosed unjoined _) }
  | unlocking r =>
      simp only [at_, loginStep, Option.some.injEq] at taken
      subst taken
      exact t.login_moves unjoined (by split <;> simp)
  | _ =>
      simp only [at_, loginStep] at taken
      (try split at taken) <;> cases taken <;> exact t.login_moves unjoined (by simp)

theorem timerStep_traced {i : TransferID} (t : Traced s)
    (taken : s.timerStep i (s.timers i) = some s') : Traced s' := by
  have armed : s.timers i ≠ .unarmed := by
    intro at_
    simp [at_, timerStep] at taken
  have kept : ∀ j, s'.timers j ≠ .unarmed → s.timers j ≠ .unarmed := by
    intro j active
    obtain ⟨_, _, _, _, _, _, _, _, rfl⟩ := timerStep_frame taken
    by_cases same : j = i
    · exact same ▸ armed
    · simpa [setTimer, Function.update_of_ne same] using active
  have temp := timerStep_temp taken
  have closed : ∀ d, (.finish, d) ∈ s'.closed → (.finish, d) ∈ s.closed := by
    revert taken
    fun_cases timerStep i s (s.timers i) <;> intro taken <;> cases taken <;> simp [setTimer]
  obtain ⟨_, _, _, _, _, _, _, _, rfl⟩ := timerStep_frame taken
  exact t.moves (fun _ _ past => past) temp rfl kept rfl rfl closed (fun _ _ at_ => at_)

theorem closeStep_traced {st : CloseState} (t : Traced s) (taken : s.closeStep st = some s') :
    Traced s' := by
  have closed : ∀ d, (.finish, d) ∈ s'.closed → (.finish, d) ∈ s.closed := by
    revert taken
    fun_cases closeStep s st <;> intro taken <;> cases taken <;>
      first
      | exact fun _ member => member
      | (unfold closing; split <;> simp)
  obtain ⟨_, _, _, _, _, _, _, rfl⟩ := closeStep_frame taken
  exact t.moves (fun _ _ past => past) (fun _ set => set) rfl (fun _ armed => armed) rfl rfl closed
    (fun _ _ at_ => at_)

theorem serverStep_traced {st : ServerState} (t : Traced s)
    (taken : s.serverStep input st = some s') : Traced s' := by
  obtain ⟨_, _, _, _, _, _, rfl⟩ := serverStep_frame taken
  exact { t with }

theorem requestStep_traced {r : Nat} {st : RequestState} (t : Traced s)
    (taken : s.requestStep r input st = some s') : Traced s' := by
  obtain ⟨_, _, rfl⟩ | ⟨i, target, _, fresh, rfl⟩ := requestStep_frame taken
  · exact { t with }
  · exact t.moves (fun _ _ past => past.enter fresh rfl) (fun _ set => set) rfl
      (fun _ armed => armed) rfl rfl (fun _ member => member) (fun _ _ at_ => at_)

/-! ## `Transfer` publishes, `finishTransferDimensionChange` replaces -/

theorem not_past_of_ready {i : TransferID} {call : Call} {srv : Server}
    (called : s.calls i = some call) (ready : call.state.ready = true) : ¬ s.Past i srv := by
  rintro ⟨call', found, -, gone⟩
  rw [called, Option.some.injEq] at found
  subst found
  rw [ready] at gone
  cases gone

/-- The connection a call is about to publish stands nowhere yet. -/
theorem Traced.publish {i : TransferID} {call : Call} {c : Conn} (t : Traced s) (w : Wired s)
    (called : s.calls i = some call) (at_ : call.state = .publishing c)
    (later : ∀ j srv, s.Past j srv → (s.setCall i call.target (.selecting c)).Past j srv) :
    Traced { (s.setCall i call.target (.selecting c)).setTimer i (.armed call.target) with
      tempServerConn := some c
      pendingServer := some call.target
      transferConfirmTimer := some i } := by
  obtain ⟨dialer, aimed⟩ := w.calls i call c called (by simp [at_, CallState.conn])
  have unused : ∀ srv, ¬ s.Past i srv :=
    fun srv => not_past_of_ready called (by simp [at_, CallState.ready])
  have past : (s.setCall i call.target (.selecting c)).Past i c.server :=
    ⟨⟨call.target, .selecting c⟩, Function.update_self .., aimed.symm, rfl⟩
  exact {
    dialed := t.dialed
    temp := by
      intro c' set
      cases set
      exact ⟨i, dialer, past⟩
    conn := fun c' set => (t.conn c' set).imp_right fun launched => launched.mono later
    timers := by
      intro j armed
      by_cases same : j = i
      · exact ⟨c.server, same ▸ past⟩
      · obtain ⟨srv, before⟩ := t.timers j (by
          simpa [setTimer, setCall, Function.update_of_ne same] using armed)
        exact ⟨srv, later j srv before⟩
    switched := fun c' member => (t.switched c' member).mono later
    distinct := by
      intro current c' set pending
      cases pending
      rw [dialer]
      rcases t.conn current set with login | ⟨j, other, before⟩
      · simp [login]
      · rw [other]
        rintro same
        cases same
        exact unused _ before
    closed := by
      intro d member
      obtain ⟨joined, origin⟩ := t.closed d member
      refine ⟨joined, origin.imp_right ?_⟩
      rintro ⟨j, srv, other, before⟩
      exact ⟨j, srv, other, later j srv before⟩
    notTemp := by
      intro c' set member
      cases set
      rcases (t.closed _ member).2 with login | ⟨j, srv, other, before⟩
      · rw [dialer] at login
        cases login
      · rw [dialer] at other
        cases other
        exact unused srv before
    notConn := t.notConn }

theorem callNext_traced {i : TransferID} (t : Traced s) (w : Wired s)
    (taken : s.callNext i input = some s') : Traced s' := by
  have later := callNext_past taken
  have frame := callNext_frame taken
  unfold callNext at taken
  split at taken
  · split at taken
    · obtain ⟨-, rfl⟩ := enter_spec taken
      exact t.moves later (fun _ set => set) rfl (fun _ armed => armed) rfl rfl
        (fun _ member => member) (fun _ _ at_ => at_)
    · cases taken
  · rename_i call called
    by_cases publish : ∃ c, call.state = .publishing c
    · obtain ⟨c, at_⟩ := publish
      simp only [at_, callStep] at taken
      split at taken <;> cases taken
      exact t.publish w called at_ later
    · have quiet : s'.tempServerConn = s.tempServerConn ∧ s'.timers = s.timers ∧
          ∀ d, (.finish, d) ∈ s'.closed → (.finish, d) ∈ s.closed := by
        cases at_ : call.state with
        | publishing c => exact absurd ⟨c, at_⟩ publish
        | _ =>
            simp only [at_, callStep] at taken
            (repeat' split at taken) <;> cases taken <;>
              exact ⟨rfl, rfl, by simp [panic, setCall]⟩
      obtain ⟨temp, timers, closed⟩ := quiet
      obtain ⟨_, _, _, _, _, _, _, _, _, _, _, _, _, rfl⟩ := frame
      exact t.moves later (fun _ set => temp ▸ set) rfl (fun _ armed => timers ▸ armed) rfl rfl
        closed (fun _ _ at_ => at_)

theorem stopTimer_timers (s : Session) (i : TransferID) :
    s.stopTimer.timers i = s.timers i ∨
      ∃ srv, s.timers i = .armed srv ∧ s.stopTimer.timers i = .stopped := by
  unfold stopTimer
  split
  · exact .inl rfl
  · rename_i j _
    split
    · rename_i srv armed
      by_cases same : i = j
      · subst same
        exact .inr ⟨srv, armed, Function.update_self ..⟩
      · exact .inl (Function.update_of_ne same ..)
    · exact .inl rfl

/-- Only the drop of the old connection closes one, and only the stop of the timer
touches a timer. -/
theorem clientStep_quiet {st : ClientState} (undropped : ∀ f c, st ≠ .dropping f c)
    (taken : s.clientStep input st = some s') :
    s'.closed = s.closed ∧
      ∀ i, s'.timers i = s.timers i ∨ ∃ srv, s.timers i = .armed srv ∧ s'.timers i = .stopped := by
  cases st with
  | dropping f c => exact absurd rfl (undropped f c)
  | reading =>
      simp only [clientStep] at taken
      split at taken <;> cases taken
      · rename_i pk
        obtain ⟨_, _, _, received⟩ := receive_frame s pk
        rw [received]
        exact ⟨rfl, fun _ => .inl rfl⟩
      · exact ⟨rfl, fun _ => .inl rfl⟩
  | translating f rest =>
      cases rest with
      | pure pk =>
          cases taken
          exact ⟨rfl, fun _ => .inl rfl⟩
      | ask r k =>
          simp only [clientStep] at taken
          split at taken <;> cases taken <;> exact ⟨rfl, fun _ => .inl rfl⟩
  | locking f pk =>
      simp only [clientStep] at taken
      split at taken <;> cases taken
      · exact ⟨rfl, fun _ => .inl rfl⟩
      · refine ⟨?_, stopTimer_timers s⟩
        obtain ⟨_, _, stopped⟩ := stopTimer_frame s
        rw [stopped]
  | _ =>
      simp only [clientStep] at taken
      (repeat' split at taken) <;> cases taken <;> exact ⟨rfl, fun _ => .inl rfl⟩

theorem clientStep_traced (t : Traced s) (w : Wired s)
    (taken : s.clientStep input s.client = some s') : Traced s' := by
  cases at_ : s.client with
  | dropping f c =>
      have joined := w.client (by simp [at_])
      have pending := w.finishing c (by simp [at_, ClientState.finishing])
      simp only [at_, clientStep] at taken
      split at taken <;> cases taken
      · exact { t with }
      · rename_i old current
        have apart := t.distinct old c current pending
        exact { t with
          closed := by
            intro d member
            simp only [List.mem_append, List.mem_singleton, Prod.mk.injEq, true_and] at member
            rcases member with member | rfl
            · exact t.closed d member
            · refine ⟨joined, (t.conn old current).imp_right ?_⟩
              rintro ⟨i, dialer, past⟩
              exact ⟨i, _, dialer, past⟩
          notTemp := by
            intro c' set member
            simp only [List.mem_append, List.mem_singleton, Prod.mk.injEq, true_and] at member
            rcases member with member | same
            · exact t.notTemp c' set member
            · have : c' = c := Option.some.inj (set.symm.trans pending)
              exact apart (this ▸ same.symm)
          notConn := fun _ _ _ => ⟨f, c, rfl⟩ }
  | switching f c =>
      have pending := w.finishing c (by simp [at_, ClientState.finishing])
      simp only [at_, clientStep] at taken
      split at taken <;> cases taken
      · exact { t with
          temp := by simp
          conn := fun c' set => .inr (t.temp c' set)
          switched := by
            intro c' member
            simp only [List.mem_append, List.mem_singleton] at member
            rcases member with member | rfl
            · exact t.switched c' member
            · exact t.temp c' pending
          distinct := by simp
          notTemp := by simp
          notConn := fun c' set member => absurd member (t.notTemp c' set) }
      · exact { t with }
  | _ =>
      have still : ∀ f c, s.client ≠ .switching f c := by simp [at_]
      obtain ⟨closed, timers⟩ := clientStep_quiet (by simp [at_]) taken
      have kept : ∀ i, s'.timers i ≠ .unarmed → s.timers i ≠ .unarmed := by
        intro i active
        rcases timers i with same | ⟨srv, armed, -⟩
        · exact same ▸ active
        · simp [armed]
      obtain ⟨_, _, _, _, _, _, _, _, _, _, _, _, _, rfl⟩ := clientStep_frame still taken
      exact t.moves (fun _ _ past => past) (fun _ set => set) rfl kept rfl rfl
        (fun _ member => closed ▸ member) (fun f c switching => absurd switching (still f c))

/-! ## Every run -/

theorem next_traced {a : Action} (w : Wired s) (t : Traced s) (taken : s.next a = some s') :
    Traced s' :=
  next_elim taken (fun _ => newStep_traced t w) (fun _ => loginStep_traced t)
    (fun _ _ => callNext_traced t w) (fun _ _ => timerStep_traced t)
    (fun _ => clientStep_traced t w) (fun _ => serverStep_traced t) (fun _ => closeStep_traced t)
    (fun _ _ => requestStep_traced t)

theorem traced {ok : Session → Action → Prop} (reached : machine.Reach ok s) : Traced s :=
  reached.invariant initial_traced fun _ _ _ before t _ taken => next_traced (wired before) t taken

end Session

end Portal
