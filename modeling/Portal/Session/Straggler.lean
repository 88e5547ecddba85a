/-
# Session.Straggler — packets of the old server that arrive after the switch

The server->client loop picks a connection, reads a packet from it, translates
it, updates the tracking sets and writes it to the client, and takes no lock for
any of that but the first.  `finishTransferDimensionChange` clears the tracking
sets and switches in the middle of it.

After a failed read the loop looks at `currentServerConn()` again; after a read
that succeeded it does not.  So a packet that is in flight at the switch is
still tracked and written (`late_packet_shown`): the client keeps an entity of
a server it has left.

A packet can be in flight in two ways only: the loop holds one of the old
connection when the switch happens, or a read of the old connection returns one
afterwards.  In runs without either (`settled`) every packet the loop holds was
read from the current connection (`held_current`), and nothing of a replaced
server reaches the client (`replaced_server_unseen`).
-/
import Portal.Session.Disconnect

namespace Portal

open Portal.Theory.Transition

set_option autoImplicit false

/-- The connection the packet in the hands of the loop was read from. -/
def ServerState.inFlight : ServerState → Option Conn
  | .translating c _ _ => some c
  | .tracking c _ _ => some c
  | .loading c _ _ => some c
  | .handling c _ _ => some c
  | .writing c _ _ => some c
  | _ => none

/-- The connection the loop is reading from or has read from. -/
def ServerState.conn : ServerState → Option Conn
  | .reading c => some c
  | st => st.inFlight

/-- No set has an ID that it did not have. -/
structure Tracked.Within (t t' : Tracked) : Prop where
  entities : t.entities ⊆ t'.entities
  playerList : t.playerList ⊆ t'.playerList
  effects : t.effects ⊆ t'.effects
  bossBars : t.bossBars ⊆ t'.bossBars
  scoreboards : t.scoreboards ⊆ t'.scoreboards

namespace Session

/-- `finishTransferDimensionChange` has closed `c` and switched to its successor. -/
def Replaced (s : Session) (c : Conn) : Prop :=
  (.finish, c.dialer) ∈ s.closed ∧ s.serverConn ≠ some c

instance (s : Session) (c : Conn) : Decidable (s.Replaced c) :=
  inferInstanceAs (Decidable (_ ∧ _))

/-- No packet is in flight across a switch: the loop holds none when it happens, and
a connection that was replaced returns none. -/
def settled (s : Session) (a : Action) : Bool :=
  match a with
  | (.client, _) =>
      match s.client with
      | .switching _ _ => s.serverLoop.inFlight.isNone
      | _ => true
  | (.server, .packet _) =>
      match s.serverLoop with
      | .reading c => ¬ s.Replaced c
      | _ => true
  | _ => true

variable {s s' : Session} {input : Input}

/-! ## The connection of the loop -/

/-- The loop comes to a connection by picking the current one, and to a packet by
reading it. -/
theorem serverStep_conn (taken : s.serverStep input s.serverLoop = some s') (c : Conn) :
    (s'.serverLoop.conn = some c → s.serverLoop.conn = some c ∨ s.serverConn = some c) ∧
      (s'.serverLoop.inFlight = some c → s.serverLoop.inFlight = some c ∨
        ∃ pk, s.serverLoop = .reading c ∧ input = .packet pk) := by
  cases at_ : s.serverLoop with
  | reading d =>
      simp only [at_, serverStep] at taken
      split at taken
      · split at taken <;> cases taken
        · simp +contextual [panic, at_, ServerState.conn, ServerState.inFlight]
        · simp +contextual [ServerState.conn, ServerState.inFlight]
      · cases taken
        simp [ServerState.conn, ServerState.inFlight]
      · cases taken
  | translating d read rest =>
      cases rest with
      | pure pk =>
          simp only [at_, serverStep, Option.some.injEq] at taken
          subst taken
          simp +contextual [ServerState.conn, ServerState.inFlight]
      | ask r k =>
          simp only [at_, serverStep] at taken
          split at taken <;> cases taken <;>
            simp +contextual [panic, at_, ServerState.conn, ServerState.inFlight]
  | loading d read pk =>
      simp only [at_, serverStep, Option.some.injEq] at taken
      subst taken
      cases s.postTransfer <;> simp +contextual [ServerState.conn, ServerState.inFlight]
  | _ =>
      simp only [at_, serverStep] at taken
      (repeat' split at taken) <;> cases taken <;>
        simp_all [panic, ServerState.conn, ServerState.inFlight]

/-- The loop reads from the current connection, or from one that is closed. -/
def Followed (s : Session) : Prop := ∀ c, s.serverLoop.conn = some c → s.Placed c

theorem next_followed {a : Action} (m : Followed s) (w : Wired s) (d : Dropped s)
    (taken : s.next a = some s') : Followed s' := by
  have placed : ∀ c, s.Placed c → s'.Placed c := fun c placed => next_placed d w placed taken
  refine next_elim_loops taken ?_ ?_ ?_ ?_ ?_
  · intro _ taken c holds
    obtain ⟨_, _, _, _, _, rfl⟩ := newStep_frame taken
    exact placed c (m c holds)
  · intro _ taken c holds
    obtain ⟨-, waiting⟩ := w.loops_unstarted (loginStep_unjoined taken)
    rcases loginStep_serverLoop taken with loop | loop
    · rw [loop, waiting] at holds
      cases holds
    · rw [loop] at holds
      cases holds
  · intro _ taken c holds
    obtain ⟨-, -, -, loop, -⟩ := clientStep_others taken
    rw [loop] at holds
    exact placed c (m c holds)
  · intro _ taken c holds
    rcases (serverStep_conn taken c).1 holds with before | current
    · exact placed c (m c before)
    · exact placed c (.inl current)
  · intro same c holds
    rw [same.serverLoop] at holds
    exact placed c (m c holds)

theorem followed {ok : Session → Action → Prop} (reached : machine.Reach ok s) : Followed s :=
  reached.invariant (by simp [Followed, machine, initial, ServerState.conn, ServerState.inFlight])
    fun _ _ _ before m _ taken => next_followed m (wired before) (dropped before) taken

/-! ## Runs in which no packet is in flight across a switch -/

theorem clientStep_held (held : ∀ c, s.serverLoop.inFlight = some c → s.serverConn = some c)
    (ok : s.settled (.client, input) = true) (taken : s.clientStep input s.client = some s') :
    ∀ c, s'.serverLoop.inFlight = some c → s'.serverConn = some c := by
  obtain ⟨-, -, -, loop, -⟩ := clientStep_others taken
  rw [loop]
  by_cases switch : ∃ f c, s.client = .switching f c
  · obtain ⟨f, c, at_⟩ := switch
    intro c' holds
    simp only [settled, at_, holds] at ok
    cases ok
  · obtain ⟨_, _, _, _, _, _, _, _, _, _, _, _, _, rfl⟩ :=
      clientStep_frame (fun f c at_ => switch ⟨f, c, at_⟩) taken
    exact held

/-- A packet is read from the current connection, or the run is not settled. -/
theorem serverStep_held (held : ∀ c, s.serverLoop.inFlight = some c → s.serverConn = some c)
    (m : Followed s) (ok : s.settled (.server, input) = true)
    (taken : s.serverStep input s.serverLoop = some s') :
    ∀ c, s'.serverLoop.inFlight = some c → s'.serverConn = some c := by
  intro c holds
  have origin := (serverStep_conn taken c).2 holds
  obtain ⟨_, _, _, _, _, _, rfl⟩ := serverStep_frame taken
  rcases origin with before | ⟨pk, at_, rfl⟩
  · exact held c before
  · simp only [settled, at_, Replaced, not_and, not_not, decide_eq_true_eq] at ok
    exact (m c (by rw [at_]; rfl)).elim id ok

/-- **What the loop holds is of the current connection.** -/
theorem held_current (reached : machine.Reach (fun s a => s.settled a = true) s) :
    ∀ c, s.serverLoop.inFlight = some c → s.serverConn = some c := by
  refine reached.invariant (I := fun s => ∀ c, s.serverLoop.inFlight = some c →
    s.serverConn = some c) (by simp [machine, initial, ServerState.inFlight]) ?_
  rintro s s' ⟨actor, input⟩ before held ok taken
  refine next_elim_loops taken ?_ ?_ ?_ ?_ ?_
  · intro _ taken
    obtain ⟨_, _, _, _, _, rfl⟩ := newStep_frame taken
    exact held
  · intro _ taken c holds
    obtain ⟨-, waiting⟩ := (wired before).loops_unstarted (loginStep_unjoined taken)
    rcases loginStep_serverLoop taken with loop | loop
    · rw [loop, waiting] at holds
      cases holds
    · rw [loop] at holds
      cases holds
  · rintro rfl taken
    exact clientStep_held held ok taken
  · rintro rfl taken
    exact serverStep_held held (followed before) ok taken
  · intro same
    rw [same.serverLoop, same.serverConn]
    exact held

/-- **Nothing of the old server after the switch.**  In every run in which no packet
is in flight across a switch: once `finishTransferDimensionChange` has replaced `c`,
the server->client loop writes no packet read from `c` to the client, and no step of
it that looks at such a packet adds an ID to a tracking set. -/
theorem replaced_server_unseen (reached : machine.Reach (fun s a => s.settled a = true) s)
    {c : Conn} (replaced : s.Replaced c) :
    (∀ read pk s', s.serverLoop = .writing c read pk → s.next (.server, .go) ≠ some s') ∧
      ∀ read pk s', s.serverLoop = .tracking c read pk → s.next (.server, .go) = some s' →
        s'.tracked.Within s.tracked := by
  have foreign : s.serverLoop.inFlight ≠ some c :=
    fun holds => replaced.2 (held_current reached c holds)
  constructor
  · intro read pk s' at_
    exact absurd (by rw [at_]; rfl) foreign
  · intro read pk s' at_
    exact absurd (by rw [at_]; rfl) foreign

/-- A server shows the client an entity. -/
def addPainting : Packet := .addPainting 7 7

/-- The loop waits in the read across the switch, whose close of the old connection
ends that read, and goes on with the new one. -/
theorem replaced_server_unseen_waiting :
    ∃ s, machine.Reach (fun s a => s.settled a = true) s ∧
      s.Replaced ⟨.login, lobby, lobbyData⟩ ∧
      s.serverLoop = .writing ⟨.transfer 0, game, gameData⟩ addPainting addPainting ∧
      ∀ read pk s', s.serverLoop = .writing ⟨.login, lobby, lobbyData⟩ read pk →
        s.next (.server, .go) ≠ some s' := by
  have reached : machine.Reach (fun s a => s.settled a = true) _ :=
    Machine.exec_reach (joining lobby lobbyData ++ steps .server 1 ++ transferCall 0 game gameData ++
      acknowledging ++ confirming ++
      ([(.server, .failed "use of closed network connection")] : List Action) ++
      steps .server 2 ++ ([(.server, .packet addPainting)] : List Action) ++ steps .server 4 ++
      [(.server, .verdict false)]) rfl
  obtain ⟨s, reached, replaced, at_⟩ : ∃ s, machine.Reach (fun s a => s.settled a = true) s ∧
      s.Replaced ⟨.login, lobby, lobbyData⟩ ∧
      s.serverLoop = .writing ⟨.transfer 0, game, gameData⟩ addPainting addPainting :=
    ⟨_, reached, by decide, rfl⟩
  exact ⟨s, reached, replaced, at_, (replaced_server_unseen reached replaced).1⟩

/-- A packet read before the switch is tracked after it, and then written. -/
theorem late_packet_shown :
    ∃ s s' s'' s''', machine.Reachable s ∧ s.Replaced ⟨.login, lobby, lobbyData⟩ ∧
      s.serverLoop = .tracking ⟨.login, lobby, lobbyData⟩ addPainting addPainting ∧
      s.next (.server, .go) = some s' ∧ s.tracked.entities = ∅ ∧ s'.tracked.entities = {7} ∧
      s'.next (.server, .verdict false) = some s'' ∧ s''.Replaced ⟨.login, lobby, lobbyData⟩ ∧
      s''.serverLoop = .writing ⟨.login, lobby, lobbyData⟩ addPainting addPainting ∧
      s''.next (.server, .go) = some s''' := by
  have reached : machine.Reachable _ :=
    Machine.exec_reach (joining lobby lobbyData ++ steps .server 1 ++
      ([(.server, .packet addPainting)] : List Action) ++ steps .server 3 ++
      transferCall 0 game gameData ++
      acknowledging ++ confirming) rfl
  exact ⟨_, _, _, _, reached, by decide, rfl, rfl, rfl, rfl, rfl, by decide, rfl, rfl⟩

end Session

end Portal
