/-
# Session.Disconnect — when the server->client loop reports a dead connection

After a failed read the loop looks at `currentServerConn()` a second time: if the
connection was replaced in the meantime it goes on with the new one.
`finishTransferDimensionChange` closes the old connection and switches inside one
`serverMu` section, which that second look has to wait for, so the loop never
reports a connection the proxy itself closed there (`replaced_connection_spared`).

A handler that cancels the event sends the loop round again.  If the connection is
still the current one, it is dead still, and is reported again
(`cancelled_event_repeats`).  In runs in which a handler cancels only once the
connection has been replaced, every connection is reported at most once
(`disconnect_once`): a connection that has been replaced is never current again.
-/
import Portal.Session.Provenance

namespace Portal

open Portal.Theory.Transition

set_option autoImplicit false

namespace Session

variable {s s' : Session} {input : Input}

/-! ## The second look -/

/-- Outside the critical section the current connection is not one that was
replaced. -/
theorem Traced.current_open (t : Traced s) (free : ¬ s.serverMuHeld = true) {c : Conn}
    (current : s.serverConn = some c) : (.finish, c.dialer) ∉ s.closed := by
  intro member
  obtain ⟨f, c', at_⟩ := t.notConn c current member
  have outside := finishing_eq_none free
  rw [at_] at outside
  cases outside

/-- What the loop does about a failed read: the disconnect is reported of the
connection that is current, or nothing is. -/
theorem serverStep_disconnects (taken : s.serverStep input s.serverLoop = some s') :
    (s'.disconnects = s.disconnects ∧
      ∀ c, s'.serverLoop = .notifying c → s.serverLoop = .notifying c) ∨
      ∃ c, s.serverLoop = .comparing c ∧ ¬ s.serverMuHeld = true ∧ s.serverConn = some c ∧
        s' = { s with disconnects := s.disconnects ++ [c], serverLoop := .notifying c } := by
  cases at_ : s.serverLoop with
  | comparing c =>
      simp only [at_, serverStep] at taken
      split at taken
      · cases taken
      · rename_i free
        split at taken <;> cases taken
        · rename_i current
          exact .inr ⟨c, rfl, free, current, rfl⟩
        · exact .inl ⟨rfl, by simp⟩
  | translating c read rest =>
      cases rest with
      | pure pk =>
          simp only [at_, serverStep, Option.some.injEq] at taken
          subst taken
          exact .inl ⟨rfl, by simp⟩
      | ask r k =>
          simp only [at_, serverStep] at taken
          split at taken <;> cases taken
          · exact .inl ⟨rfl, by simp [panic, at_]⟩
          · exact .inl ⟨rfl, by simp⟩
  | _ =>
      simp only [at_, serverStep] at taken
      (repeat' split at taken) <;> cases taken
      all_goals exact .inl ⟨rfl, by simp [panic, at_]⟩

/-- The event that is being handled is the one reported last. -/
theorem notifying_last {ok : Session → Action → Prop} (reached : machine.Reach ok s) :
    ∀ c, s.serverLoop = .notifying c → s.disconnects.getLast? = some c := by
  refine reached.invariant (I := fun s => ∀ c, s.serverLoop = .notifying c →
    s.disconnects.getLast? = some c) (by simp [machine, initial]) ?_
  intro s s' a _ last _ taken
  refine next_elim_loops taken ?_ ?_ ?_ ?_ ?_
  · intro _ taken
    obtain ⟨_, _, _, _, _, rfl⟩ := newStep_frame taken
    exact last
  · intro _ taken c out
    have loop := loginStep_serverLoop taken
    obtain ⟨_, _, _, _, _, _, _, -, -, rfl⟩ := loginStep_frame taken
    rcases loop with same | picking
    · exact last c (same ▸ out)
    · cases picking.symm.trans out
  · intro _ taken
    obtain ⟨-, -, -, loop, -, -, disconnects⟩ := clientStep_others taken
    rw [loop, disconnects]
    exact last
  · intro _ taken c out
    rcases serverStep_disconnects taken with ⟨same, before⟩ | ⟨c', -, -, -, rfl⟩
    · rw [same]
      exact last c (before c out)
    · cases out
      exact List.getLast?_concat ..
  · intro same
    rw [same.serverLoop, same.disconnects]
    exact last

theorem serverStep_closing (taken : s.serverStep input s.serverLoop = some s')
    (closing : s'.serverLoop = .closing) : ∃ c, s.serverLoop = .notifying c := by
  cases at_ : s.serverLoop with
  | notifying c => exact ⟨c, rfl⟩
  | translating c read rest =>
      cases rest with
      | pure pk =>
          simp only [at_, serverStep, Option.some.injEq] at taken
          subst taken
          cases closing
      | ask r k =>
          simp only [at_, serverStep] at taken
          split at taken <;> cases taken
          · rw [show s.serverLoop = .closing from closing] at at_
            cases at_
          · cases closing
  | _ =>
      simp only [at_, serverStep] at taken
      (repeat' split at taken) <;> cases taken
      all_goals first
        | cases closing
        | (rw [show s.serverLoop = .closing from closing] at at_; cases at_)

/-- **The proxy's own close does not end the session.**  A step of the
server->client loop that calls `HandleServerDisconnect` does so for the connection
whose read failed, which is `s.serverConn` at that moment and which
`finishTransferDimensionChange` has not closed; and the loop calls `Close` only
after such an event, for the connection it was about. -/
theorem replaced_connection_spared (reached : machine.Reachable s)
    (taken : s.next (.server, input) = some s') :
    (s'.disconnects ≠ s.disconnects → ∃ c, s.serverLoop = .comparing c ∧
      s'.disconnects = s.disconnects ++ [c] ∧ s.serverConn = some c ∧
      (.finish, c.dialer) ∉ s.closed) ∧
    (s'.serverLoop = .closing → ∃ c, s.serverLoop = .notifying c ∧
      s.disconnects.getLast? = some c) := by
  have taken : s.serverStep input s.serverLoop = some s' := ownStep_of_next taken rfl
  refine ⟨fun reports => ?_, fun closing => ?_⟩
  · rcases serverStep_disconnects taken with ⟨same, -⟩ | ⟨c, at_, free, current, rfl⟩
    · exact absurd same reports
    · exact ⟨c, at_, rfl, current, (traced reached).current_open free current⟩
  · obtain ⟨c, at_⟩ := serverStep_closing taken closing
    exact ⟨c, at_, notifying_last reached c at_⟩

/-- The server->client loop picks the current connection and fails to read. -/
def failingRead : List Action := [(.server, .go), (.server, .failed "use of closed network connection")]

/-- A read of the old connection fails after a transfer, which has closed it, and is not
reported.  The new backend goes away on its own, and is. -/
theorem replaced_connection_spared_dead :
    ∃ s s', machine.Reachable s ∧ (.finish, .login) ∈ s.closed ∧ s.disconnects = [] ∧
      s.next (.server, .go) = some s' ∧ s'.disconnects ≠ s.disconnects ∧
      ∃ c, s.serverLoop = .comparing c ∧ s'.disconnects = s.disconnects ++ [c] ∧
        s.serverConn = some c ∧ (.finish, c.dialer) ∉ s.closed := by
  have reached : machine.Reachable _ :=
    Machine.exec_reach (joining lobby lobbyData ++ steps .server 1 ++
      transferCall 0 game gameData ++ acknowledging ++ confirming ++
      ([(.server, .failed "use of closed network connection"), (.server, .go)] : List Action) ++
      failingRead) rfl
  obtain ⟨s, s', reached, replaced, unreported, taken, reports⟩ : ∃ s s', machine.Reachable s ∧
      (.finish, .login) ∈ s.closed ∧ s.disconnects = [] ∧ s.next (.server, .go) = some s' ∧
      s'.disconnects ≠ s.disconnects :=
    ⟨_, _, reached, List.mem_singleton_self _, rfl, rfl, List.cons_ne_nil _ _⟩
  exact ⟨s, s', reached, replaced, unreported, taken, reports,
    (replaced_connection_spared reached taken).1 reports⟩

/-! ## What has been reported -/

/-- What was closed stays closed. -/
theorem next_closed {a : Action} (taken : s.next a = some s') (e : Closer × Dialer)
    (member : e ∈ s.closed) : e ∈ s'.closed := by
  refine next_elim taken ?_ ?_ ?_ ?_ ?_ ?_ ?_ ?_
  · intro _ taken
    obtain ⟨_, _, _, _, _, rfl⟩ := newStep_frame taken
    exact member
  · intro _ taken
    obtain ⟨_, _, _, _, _, _, _, -, -, rfl⟩ := loginStep_frame taken
    exact member
  · intro i _ taken
    unfold callNext at taken
    split at taken
    · split at taken
      · obtain ⟨-, rfl⟩ := enter_spec taken
        exact member
      · cases taken
    · rename_i call called
      revert taken
      fun_cases callStep i call.target a.2 s call.state <;> intro taken <;> cases taken <;>
        first
        | exact member
        | exact List.mem_append_left _ member
  · intro i _ taken
    revert taken
    fun_cases timerStep i s (s.timers i) <;> intro taken <;> cases taken <;>
      first
      | exact member
      | exact List.mem_append_left _ member
  · intro _ taken
    by_cases drops : ∃ f c, s.client = .dropping f c
    · obtain ⟨f, c, at_⟩ := drops
      simp only [at_, clientStep] at taken
      split at taken <;> cases taken
      · exact member
      · exact List.mem_append_left _ member
    · rw [(clientStep_quiet (fun f c at_ => drops ⟨f, c, at_⟩) taken).1]
      exact member
  · intro _ taken
    obtain ⟨_, _, _, _, _, _, rfl⟩ := serverStep_frame taken
    exact member
  · intro _ taken
    revert taken
    fun_cases closeStep s s.close <;> intro taken <;> cases taken <;>
      first
      | exact member
      | exact List.mem_append_left _ member
  · intro r _ taken
    obtain ⟨_, _, rfl⟩ | ⟨i, target, _, fresh, rfl⟩ := requestStep_frame taken <;> exact member

/-! ## A connection that was current -/

/-- The loop comes to the switch from the close of the old connection only. -/
theorem clientStep_switching {f : Inbound} {c : Conn} (undropped : ∀ f c, s.client ≠ .dropping f c)
    (taken : s.clientStep input s.client = some s') (at_' : s'.client = .switching f c) :
    s.client = .switching f c := by
  suffices same : s'.client = s.client from same ▸ at_'
  cases at_ : s.client with
  | dropping f c => exact absurd at_ (undropped f c)
  | reading =>
      simp only [at_, clientStep] at taken
      split at taken <;> cases taken
      · unfold receive at at_' ⊢
        repeat' split at at_'
        all_goals simp_all [panic]
      · cases at_'
  | locking f pk =>
      simp only [at_, clientStep] at taken
      split at taken <;> cases taken <;> cases at_'
  | translating f rest =>
      cases rest with
      | pure pk =>
          simp only [at_, clientStep, Option.some.injEq] at taken
          subst taken
          cases at_'
      | ask r k =>
          simp only [at_, clientStep] at taken
          split at taken <;> cases taken
          · exact at_
          · cases at_'
  | _ =>
      simp only [at_, clientStep] at taken
      (try split at taken) <;> cases taken
      all_goals first
        | exact at_
        | cases at_'
        | split at at_' <;> cases at_'

/-- At the switch the old connection has been closed. -/
def Dropped (s : Session) : Prop :=
  ∀ f c old, s.client = .switching f c → s.serverConn = some old → (.finish, old.dialer) ∈ s.closed

theorem Dropped.moves (d : Dropped s) (conn : s'.serverConn = s.serverConn)
    (closed : ∀ e ∈ s.closed, e ∈ s'.closed)
    (client : ∀ f c, s'.client = .switching f c → s.client = .switching f c) : Dropped s' := by
  intro f c old at_ current
  rw [conn] at current
  exact closed _ (d f c old (client f c at_) current)

theorem clientStep_dropped (d : Dropped s) (taken : s.clientStep input s.client = some s') :
    Dropped s' := by
  cases at_ : s.client with
  | dropping f c =>
      simp only [at_, clientStep] at taken
      split at taken <;> cases taken
      · exact d.moves rfl (fun _ member => member) (fun _ _ out => out)
      · rename_i old current
        intro _ _ old' _ current'
        cases current.symm.trans current'
        exact List.mem_append_right _ (List.mem_singleton_self _)
  | switching f c =>
      simp only [at_, clientStep] at taken
      split at taken <;> cases taken
      · exact fun _ _ _ out => by cases out
      · exact d.moves rfl (fun _ member => member) (fun _ _ out => out)
  | _ =>
      have undropped : ∀ f c, s.client ≠ .dropping f c := by simp [at_]
      have still : ∀ f c, s.client ≠ .switching f c := by simp [at_]
      have kept : ∀ f c, s'.client = .switching f c → s.client = .switching f c :=
        fun _ _ => clientStep_switching undropped taken
      have closed := (clientStep_quiet undropped taken).1
      obtain ⟨_, _, _, _, _, _, _, _, _, _, _, _, _, rfl⟩ := clientStep_frame still taken
      exact d.moves rfl (fun _ member => closed ▸ member) kept

theorem next_dropped {a : Action} (d : Dropped s) (w : Wired s) (taken : s.next a = some s') :
    Dropped s' := by
  have closed := next_closed taken
  refine next_elim_loops taken ?_ ?_ ?_ ?_ ?_
  · intro _ taken
    obtain ⟨_, _, _, _, _, rfl⟩ := newStep_frame taken
    exact d.moves rfl closed (fun _ _ out => out)
  · -- the client loop has not been started, or is started here
    intro _ taken
    obtain ⟨unstarted, -⟩ := w.loops_unstarted (loginStep_unjoined taken)
    obtain ⟨_, _, _, _, _, _, _, client, -, rfl⟩ := loginStep_frame taken
    rintro f c _ rfl
    rw [unstarted] at client
    rcases client with out | out <;> cases out
  · intro _ taken
    exact clientStep_dropped d taken
  · intro _ taken
    obtain ⟨_, _, _, _, _, _, rfl⟩ := serverStep_frame taken
    exact d.moves rfl closed (fun _ _ out => out)
  · intro same
    exact d.moves same.serverConn closed (fun _ _ out => same.client ▸ out)

theorem dropped {ok : Session → Action → Prop} (reached : machine.Reach ok s) : Dropped s :=
  reached.invariant (by simp [Dropped, machine, initial]) fun _ _ _ before d _ taken =>
    next_dropped d (wired before) taken

/-- The connection is the current one, or `finishTransferDimensionChange` has closed it. -/
def Placed (s : Session) (c : Conn) : Prop :=
  s.serverConn = some c ∨ (.finish, c.dialer) ∈ s.closed

/-- A connection that was current stays so until it is replaced, and is closed before. -/
theorem next_placed {a : Action} {c : Conn} (d : Dropped s) (w : Wired s) (placed : s.Placed c)
    (taken : s.next a = some s') : s'.Placed c := by
  rcases placed with current | closed
  · refine next_elim_loops taken ?_ ?_ ?_ ?_ ?_
    · intro _ taken
      obtain ⟨_, _, _, _, _, rfl⟩ := newStep_frame taken
      exact .inl current
    · intro _ taken
      cases at_ : s.login with
      | assigning d =>
          have undialed := w.undialed (by rw [at_]; rfl)
          cases undialed.symm.trans current
      | _ =>
          simp only [at_, loginStep] at taken
          (repeat' split at taken) <;> cases taken <;> exact .inl current
    · intro _ taken
      by_cases switch : ∃ f c, s.client = .switching f c
      · obtain ⟨f, d', at_⟩ := switch
        have closed := d f d' c at_ current
        simp only [at_, clientStep] at taken
        split at taken <;> cases taken <;> exact .inr closed
      · obtain ⟨_, _, _, _, _, _, _, _, _, _, _, _, _, rfl⟩ :=
          clientStep_frame (fun f c at_ => switch ⟨f, c, at_⟩) taken
        exact .inl current
    · intro _ taken
      obtain ⟨_, _, _, _, _, _, rfl⟩ := serverStep_frame taken
      exact .inl current
    · exact fun same => .inl (same.serverConn.trans current)
  · exact .inr (next_closed taken _ closed)

/-! ## One report for each connection -/

/-- A connection that has been reported is current, or was replaced.  The first
only as long as the loop has not gone on. -/
structure Reported (s : Session) : Prop where
  distinct : (s.disconnects.map Conn.dialer).Nodup
  place : ∀ c ∈ s.disconnects, s.Placed c
  replaced : ∀ c ∈ s.disconnects, (.finish, c.dialer) ∈ s.closed ∨ s.serverLoop = .notifying c ∨
    s.serverLoop = .closing ∨ s.serverLoop = .exited

theorem initial_reported : Reported initial where
  distinct := by simp [initial]
  place := by simp [initial]
  replaced := by simp [initial]

theorem Reported.moves (r : Reported s) (disconnects : s'.disconnects = s.disconnects)
    (placed : ∀ c, s.Placed c → s'.Placed c) (loop : s'.serverLoop = s.serverLoop)
    (closed : ∀ e ∈ s.closed, e ∈ s'.closed) : Reported s' where
  distinct := by rw [disconnects]; exact r.distinct
  place := by
    rw [disconnects]
    exact fun c member => placed c (r.place c member)
  replaced := by
    rw [disconnects, loop]
    exact fun c member => (r.replaced c member).imp_left (closed _)

/-- Nothing is reported before the loops run. -/
theorem Reported.unreported (r : Reported s) (t : Traced s) (w : Wired s)
    (unjoined : s.login ≠ .done .joined) : s.disconnects = [] := by
  obtain ⟨-, unstarted⟩ := w.loops_unstarted unjoined
  rw [List.eq_nil_iff_forall_not_mem]
  intro c member
  rcases r.replaced c member with closed | at_ | at_ | at_
  · exact t.unclosed unjoined c.dialer closed
  · rw [unstarted] at at_
    cases at_
  · rw [unstarted] at at_
    cases at_
  · rw [unstarted] at at_
    cases at_

theorem loginStep_reported (r : Reported s) (t : Traced s) (w : Wired s)
    (taken : s.loginStep input s.login = some s') : Reported s' := by
  have none_ := r.unreported t w (loginStep_unjoined taken)
  obtain ⟨_, _, _, _, _, _, _, -, -, rfl⟩ := loginStep_frame taken
  exact ⟨r.distinct, by simp [none_], by simp [none_]⟩

/-- The handler cancels the event only once the connection has been replaced. -/
def conclusive (s : Session) (a : Action) : Bool :=
  match a, s.serverLoop with
  | (.server, .verdict true), .notifying c => s.serverConn ≠ some c
  | _, _ => true

theorem serverStep_reported (r : Reported s) (t : Traced s)
    (ok : s.conclusive (.server, input) = true)
    (taken : s.serverStep input s.serverLoop = some s') : Reported s' := by
  rcases serverStep_disconnects taken with ⟨same, -⟩ | ⟨c, at_, free, current, rfl⟩
  · have replaced : ∀ c ∈ s.disconnects, (.finish, c.dialer) ∈ s.closed ∨
        s'.serverLoop = .notifying c ∨ s'.serverLoop = .closing ∨ s'.serverLoop = .exited := by
      intro c member
      rcases r.replaced c member with closed | at_ | at_ | at_
      · exact .inl closed
      · simp only [at_, serverStep] at taken
        split at taken <;> cases taken
        · simp only [conclusive, at_, ne_eq, decide_not, Bool.not_eq_true', decide_eq_false_iff_not]
            at ok
          exact .inl ((r.place c member).resolve_left ok)
        · exact .inr (.inr (.inl rfl))
        · exact .inr (.inr (.inr rfl))
      · simp only [at_, serverStep] at taken
        split at taken <;> cases taken
        exact .inr (.inr (.inr rfl))
      · simp [at_, serverStep] at taken
    obtain ⟨_, _, _, _, _, _, rfl⟩ := serverStep_frame taken
    simp only at same
    subst same
    exact { r with replaced := replaced }
  · have closed : ∀ d ∈ s.disconnects, (.finish, d.dialer) ∈ s.closed := by
      intro d member
      rcases r.replaced d member with closed | out | out | out
      · exact closed
      all_goals
        rw [at_] at out
        cases out
    have fresh : (.finish, c.dialer) ∉ s.closed := t.current_open free current
    exact {
      distinct := by
        rw [List.map_append, List.nodup_append]
        refine ⟨r.distinct, List.nodup_singleton _, ?_⟩
        intro d reported d' new same
        obtain ⟨old, member, rfl⟩ := List.mem_map.mp reported
        rw [List.mem_singleton.mp new] at same
        exact fresh (same ▸ closed old member)
      place := by
        intro d member
        rcases List.mem_append.mp member with old | new
        · exact .inr (closed d old)
        · exact .inl (List.mem_singleton.mp new ▸ current)
      replaced := by
        intro d member
        rcases List.mem_append.mp member with old | new
        · exact .inl (closed d old)
        · rw [List.mem_singleton.mp new]
          exact .inr (.inl rfl) }

theorem next_reported {a : Action} (r : Reported s) (t : Traced s) (w : Wired s) (d : Dropped s)
    (ok : s.conclusive a = true) (taken : s.next a = some s') : Reported s' := by
  have closed := next_closed taken
  have placed : ∀ c, s.Placed c → s'.Placed c := fun c placed => next_placed d w placed taken
  obtain ⟨actor, input⟩ := a
  refine next_elim_loops taken ?_ ?_ ?_ ?_ ?_
  · intro _ taken
    obtain ⟨_, _, _, _, _, rfl⟩ := newStep_frame taken
    exact r.moves rfl placed rfl closed
  · intro _ taken
    exact loginStep_reported r t w taken
  · intro _ taken
    obtain ⟨-, -, -, loop, -, -, disconnects⟩ := clientStep_others taken
    exact r.moves disconnects placed loop closed
  · rintro rfl taken
    exact serverStep_reported r t ok taken
  · intro same
    exact r.moves same.disconnects placed same.serverLoop closed

/-- **One disconnect event per connection.**  In every run in which the handler
cancels `HandleServerDisconnect` only once the connection has been replaced, the
loop calls it at most once for each backend connection. -/
theorem disconnect_once (reached : machine.Reach (fun s a => s.conclusive a = true) s) :
    (s.disconnects.map Conn.dialer).Nodup := by
  have r : Reported s := reached.invariant initial_reported fun s s' a before r ok taken =>
    next_reported r (traced before) (wired before) (dropped before) ok taken
  exact r.distinct

/-- The handler moves the player before it cancels; the next backend dies, too. -/
theorem disconnect_once_fallback :
    ∃ s, machine.Reach (fun s a => s.conclusive a = true) s ∧
      s.disconnects = [⟨.login, lobby, lobbyData⟩, ⟨.transfer 0, game, gameData⟩] ∧
      (s.disconnects.map Conn.dialer).Nodup := by
  have reached : machine.Reach (fun s a => s.conclusive a = true) _ :=
    Machine.exec_reach (joining lobby lobbyData ++ failingRead ++ steps .server 1 ++
      transferCall 0 game gameData ++ acknowledging ++ confirming ++
      ([(.server, .verdict true)] : List Action) ++
      failingRead ++ steps .server 1) rfl
  exact ⟨_, reached, rfl, disconnect_once reached⟩

/-- The handler starts a transfer, cancels and returns: while the transfer is
pending the dead connection is read, and reported, again. -/
theorem cancelled_event_repeats :
    ∃ s, machine.Reachable s ∧ s.tempServerConn = some ⟨.transfer 0, game, gameData⟩ ∧
      s.disconnects = [⟨.login, lobby, lobbyData⟩, ⟨.login, lobby, lobbyData⟩] := by
  have reached : machine.Reachable _ :=
    Machine.exec_reach (joining lobby lobbyData ++ failingRead ++ steps .server 1 ++
      transferCall 0 game gameData ++ ([(.server, .verdict true)] : List Action) ++
      failingRead ++ steps .server 1) rfl
  exact ⟨_, reached, rfl, rfl⟩

end Session

end Portal
