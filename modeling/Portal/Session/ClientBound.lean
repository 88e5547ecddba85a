/-
# Session.ClientBound — what the server->client loop makes of the packets it reads

The loop picks the current connection, reads one packet from it and settles it: it shows it
to the client, or answers it itself.  `client_bound_relay` says what every run makes of the
packets of all the servers the player has been on.  They are settled in the order they were
read, each once, and the stream is put together in the order of the switches.  A late packet
of an old server may reach the client after the switch (`client_bound_relay_late`), but none
does once a packet of the new one was read: a connection has a place among those the session
has had (`seat`), and the loop never goes back to an earlier one (`Lined`).
-/
import Portal.Session.ServerBound

namespace Portal

open Portal.Theory Portal.Theory.Transition Portal.Theory.Relay

set_option autoImplicit false

/-- What becomes of a packet of a backend. -/
inductive Showing where
  /-- written to the client as `pk` -/
  | shown (pk : Packet)
  /-- a `Respawn` that the proxy answered itself -/
  | answered
  | cancelled
  | lost

/-- The packet the server->client loop has read and not settled. -/
def ServerState.inHand : ServerState → Option (Conn × Packet)
  | .translating c read _ => some (c, read)
  | .tracking c read _ => some (c, read)
  | .loading c read _ => some (c, read)
  | .handling c read _ => some (c, read)
  | .writing c read _ => some (c, read)
  | _ => none

def Packet.isSearching : Packet → Bool
  | .respawn _ .searchingForSpawn => true
  | _ => false

/-- What looks like a `Respawn{SearchingForSpawn}` was read as one. -/
def ServerState.Marked : ServerState → Prop
  | .translating _ read rest => rest.Every fun pk => pk.isSearching = read.isSearching
  | .tracking _ read pk => pk.isSearching = read.isSearching
  | .loading _ read _ => read.isSearching = true
  | _ => True

/-- A translation rewrites IDs; what a `Respawn` asks for stays. -/
theorem translatePacket_isSearching (original : EntityIDs) (pk : Packet) :
    (translatePacket original pk).Every fun pk' => pk'.isSearching = pk.isSearching := by
  unfold translatePacket
  split <;>
    repeat' first
      | rfl
      | exact Query.every_map _ _ fun _ => rfl
      | refine Query.every_bind _ fun _ => ?_
      | split
      | cases ‹RespawnState› <;> rfl

namespace Session

variable {s s' : Session} {input : Input}

/-- What a step does with a packet of a backend. -/
def serverTurns (s : Session) (a : Action) : List (Turn (Conn × Packet) Showing) :=
  match a with
  | (.server, input) =>
      match s.serverLoop, input with
      | .reading c, .packet pk => [.took (c, pk)]
      | .loading c read _, _ => if s.postTransfer then [.settled (c, read) .answered] else []
      | .handling c read _, .verdict true => [.settled (c, read) .cancelled]
      | .handling c read _, .failed _ => [.settled (c, read) .lost]
      | .writing c read pk, .go => [.settled (c, read) (.shown pk)]
      | .writing c read _, .failed _ => [.settled (c, read) .lost]
      | _, _ => []
  | _ => []

/-! ## The order of the connections -/

/-- A connection the session has had. -/
def Had (switches : List Conn) (c : Conn) : Prop := c.dialer = .login ∨ c ∈ switches

/-- The place of a connection among those the session has had: the login's is the first. -/
def seat (switches : List Conn) (c : Conn) : Nat :=
  if c.dialer = .login then 0 else switches.idxOf c + 1

theorem Latest.had {switches : List Conn} {c : Conn} (latest : Latest switches c) :
    Had switches c := by
  unfold Latest at latest
  split at latest
  · exact .inl latest
  · rename_i last found
    subst latest
    exact .inr (List.mem_of_getLast? found)

theorem Had.append {switches : List Conn} {c : Conn} (had : Had switches c) (d : Conn) :
    Had (switches ++ [d]) c :=
  had.imp_right (List.mem_append_left _)

/-- A switch moves nobody. -/
theorem seat_append {switches : List Conn} {c : Conn} (had : Had switches c) (d : Conn) :
    seat (switches ++ [d]) c = seat switches c := by
  unfold seat
  split
  · rfl
  · rename_i other
    rw [List.idxOf_append_of_mem (had.resolve_left other)]

theorem seat_le {switches : List Conn} {c : Conn} (had : Had switches c) :
    seat switches c ≤ switches.length := by
  unfold seat
  split
  · exact Nat.zero_le _
  · rename_i other
    exact List.idxOf_lt_length_of_mem (had.resolve_left other)

/-- The last connection has the last place. -/
theorem Latest.seat_eq {switches : List Conn} {c : Conn} (latest : Latest switches c)
    (nodup : switches.Nodup) (switched : ∀ c ∈ switches, c.dialer ≠ .login) :
    seat switches c = switches.length := by
  unfold Latest at latest
  rcases List.eq_nil_or_concat switches with rfl | ⟨before, last, rfl⟩
  · exact if_pos latest
  · rw [List.concat_eq_append] at *
    simp only [List.getLast?_append, List.getLast?_singleton, Option.some_or] at latest
    subst latest
    have fresh : c ∉ before := fun member =>
      (List.nodup_append.mp nodup).2.2 c member c (List.mem_singleton_self c) rfl
    rw [seat, if_neg (switched c (by simp)), List.idxOf_append_of_notMem fresh]
    simp

/-! ## The loop -/

/-- Packets were read from `conns`, and the next one is going to be read from `now`. -/
structure Lined (switches conns : List Conn) (now : Option Conn) : Prop where
  had : ∀ c ∈ conns, Had switches c
  present : ∀ c, now = some c → Had switches c
  sorted : conns.Pairwise fun c c' => seat switches c ≤ seat switches c'
  ahead : ∀ c ∈ conns, ∀ c', now = some c' → seat switches c ≤ seat switches c'

section Lined

variable {switches conns : List Conn} {now : Option Conn}

theorem Lined.switch (lined : Lined switches conns now) (d : Conn) :
    Lined (switches ++ [d]) conns now where
  had := fun c member => (lined.had c member).append d
  present := fun c set => (lined.present c set).append d
  sorted := by
    refine lined.sorted.imp_of_mem fun {c c'} member member' before => ?_
    rwa [seat_append (lined.had c member), seat_append (lined.had c' member')]
  ahead := by
    intro c member c' set
    rw [seat_append (lined.had c member), seat_append (lined.present c' set)]
    exact lined.ahead c member c' set

theorem Lined.read {c : Conn} (lined : Lined switches conns (some c)) :
    Lined switches (conns ++ [c]) (some c) where
  had := by
    intro c' member
    rcases List.mem_append.mp member with before | own
    · exact lined.had c' before
    · cases List.mem_singleton.mp own
      exact lined.present c rfl
  present := lined.present
  sorted := by
    rw [List.pairwise_append]
    refine ⟨lined.sorted, List.pairwise_singleton .., fun c' member d own => ?_⟩
    cases List.mem_singleton.mp own
    exact lined.ahead c' member c rfl
  ahead := by
    intro c' member d set
    cases set
    rcases List.mem_append.mp member with before | own
    · exact lined.ahead c' before c rfl
    · cases List.mem_singleton.mp own
      exact Nat.le_refl _

/-- The loop lets go of its connection, or picks the last one. -/
theorem Lined.pick {next : Option Conn} (lined : Lined switches conns now)
    (nodup : switches.Nodup) (switched : ∀ c ∈ switches, c.dialer ≠ .login)
    (onward : ∀ c, next = some c → now = some c ∨ Latest switches c) :
    Lined switches conns next where
  had := lined.had
  present := fun c set => (onward c set).elim (lined.present c) Latest.had
  sorted := lined.sorted
  ahead := by
    intro c member c' set
    rcases onward c' set with before | latest
    · exact lined.ahead c member c' before
    · rw [latest.seat_eq nodup switched]
      exact seat_le (lined.had c member)

end Lined

/-- One step of the server->client loop, as far as its log tells. -/
inductive Screens (s s' : Session) : List (Turn (Conn × Packet) Showing) → Prop where
  | works (hand : s'.serverLoop.inHand = s.serverLoop.inHand) : Screens s s' []
  | takes (c : Conn) (pk : Packet) (at_ : s.serverLoop = .reading c)
      (hand : s'.serverLoop.inHand = some (c, pk)) : Screens s s' [.took (c, pk)]
  | settles (item : Conn × Packet) (fate : Showing) (hand : s.serverLoop.inHand = some item)
      (free : s'.serverLoop.inHand = none)
      (answered : fate = .answered → item.2.isSearching = true ∧ s.postTransfer = true)
      (lost : fate = .lost → s'.serverLoop = .exited) : Screens s s' [.settled item fate]

theorem serverStep_screens (w : Wired s) (marked : s.serverLoop.Marked)
    (taken : s.serverStep input s.serverLoop = some s') :
    Screens s s' (s.serverTurns (.server, input)) := by
  by_cases unstarted : s.serverLoop = .unstarted
  · simp [unstarted, serverStep] at taken
  obtain ⟨-, ⟨current, conn⟩, t, translator⟩ := w.set_of_joined (w.serverLoop unstarted)
  cases at_ : s.serverLoop with
  | reading c =>
      simp only [at_, serverStep, translator] at taken
      split at taken <;> cases taken <;> simp only [serverTurns, at_]
      · exact .takes c _ at_ rfl
      · exact .works (by rw [at_]; rfl)
  | translating c read rest =>
      cases rest with
      | pure pk =>
          simp only [at_, serverStep, Option.some.injEq] at taken
          subst taken
          simp only [serverTurns, at_]
          exact .works (by rw [at_]; rfl)
      | ask r k =>
          simp only [at_, serverStep, translator, Option.some.injEq] at taken
          subst taken
          simp only [serverTurns, at_]
          exact .works (by rw [at_]; rfl)
  | loading c read pk =>
      rw [at_] at marked
      simp only [at_, serverStep, Option.some.injEq] at taken
      subst taken
      simp only [serverTurns, at_]
      by_cases up : s.postTransfer = true
      · simp only [up, if_true]
        exact .settles (c, read) .answered (by rw [at_]; rfl) rfl (fun _ => ⟨marked, up⟩) (by simp)
      · simp only [up]
        exact .works (by rw [at_]; rfl)
  | handling c read pk =>
      simp only [at_, serverStep] at taken
      split at taken <;> cases taken <;> simp only [serverTurns, at_]
      · exact .settles (c, read) .cancelled (by rw [at_]; rfl) rfl (by simp) (by simp)
      · exact .works (by rw [at_]; rfl)
      · exact .settles (c, read) .lost (by rw [at_]; rfl) rfl (by simp) (by simp)
  | writing c read pk =>
      simp only [at_, serverStep] at taken
      split at taken <;> cases taken <;> simp only [serverTurns, at_]
      · exact .settles (c, read) (.shown pk) (by rw [at_]; rfl) rfl (by simp) (by simp)
      · exact .settles (c, read) .lost (by rw [at_]; rfl) rfl (by simp) (by simp)
  | _ =>
      simp only [at_, serverStep, conn] at taken
      simp only [serverTurns, at_]
      (repeat' split at taken) <;> cases taken
      all_goals
        refine .works ?_
        rw [at_]
        rfl

theorem serverStep_marked (marked : s.serverLoop.Marked)
    (taken : s.serverStep input s.serverLoop = some s') : s'.serverLoop.Marked := by
  cases at_ : s.serverLoop with
  | reading c =>
      simp only [at_, serverStep] at taken
      (repeat' split at taken) <;> cases taken
      · exact at_ ▸ marked
      · exact translatePacket_isSearching _ _
      · trivial
  | translating c read rest =>
      rw [at_] at marked
      cases rest with
      | pure pk =>
          simp only [at_, serverStep, Option.some.injEq] at taken
          subst taken
          exact marked
      | ask r k =>
          simp only [at_, serverStep] at taken
          split at taken <;> cases taken
          · show s.serverLoop.Marked
            rw [at_]
            exact marked
          · exact marked _
  | tracking c read pk =>
      rw [at_] at marked
      simp only [at_, serverStep] at taken
      split at taken <;> cases taken
      · exact marked.symm
      · trivial
      · trivial
  | _ =>
      simp only [at_, serverStep] at taken
      (repeat' split at taken) <;> cases taken
      all_goals trivial

/-- The other goroutines leave the server loop where it is, or start it. -/
theorem next_serverLoop {a : Action} (w : Wired s) (other : a.1 ≠ .server)
    (taken : s.next a = some s') :
    s'.serverLoop = s.serverLoop ∨ s.serverLoop = .unstarted ∧ s'.serverLoop = .picking := by
  refine next_elim_loops taken ?_ ?_ ?_ ?_ ?_
  · intro _ taken
    obtain ⟨_, _, _, _, _, rfl⟩ := newStep_frame taken
    exact .inl rfl
  · intro _ taken
    obtain ⟨-, unstarted⟩ := w.loops_unstarted (loginStep_unjoined taken)
    exact (loginStep_serverLoop taken).imp_right fun started => ⟨unstarted, started⟩
  · exact fun _ taken => .inl (clientStep_others taken).2.2.2.1
  · exact fun actor _ => absurd actor other
  · exact fun same => .inl same.serverLoop

theorem serverTurns_other {a : Action} (other : a.1 ≠ .server) : s.serverTurns a = [] := by
  obtain ⟨actor, input⟩ := a
  cases actor with
  | server => exact absurd rfl other
  | _ => rfl

/-- What a step does with the packets of the backends, and with the connection they are
read from. -/
theorem next_screens {a : Action} (w : Wired s) (marked : s.serverLoop.Marked)
    (taken : s.next a = some s') :
    Screens s s' (s.serverTurns a) ∧ s'.serverLoop.Marked ∧
      ∀ c, s'.serverLoop.conn = some c → s.serverLoop.conn = some c ∨ s.serverConn = some c := by
  by_cases own : a.1 = .server
  · have stepped : s.serverStep a.2 s.serverLoop = some s' := ownStep_of_next taken own
    obtain ⟨actor, input⟩ := a
    cases own
    exact ⟨serverStep_screens w marked stepped, serverStep_marked marked stepped,
      fun c => (serverStep_conn stepped c).1⟩
  · rw [serverTurns_other own]
    rcases next_serverLoop w own taken with same | ⟨unstarted, started⟩
    · rw [same]
      exact ⟨.works (by rw [same]), marked, fun _ => .inl⟩
    · refine ⟨.works (by rw [unstarted, started]; rfl), by rw [started]; trivial, ?_⟩
      rw [started]
      rintro c ⟨⟩

/-- Nothing moves a server loop that has ended. -/
theorem next_serverLoop_exited {a : Action} (w : Wired s) (exited : s.serverLoop = .exited)
    (taken : s.next a = some s') : s'.serverLoop = .exited := by
  by_cases own : a.1 = .server
  · have stepped : s.serverStep a.2 s.serverLoop = some s' := ownStep_of_next taken own
    rw [exited] at stepped
    cases stepped
  · rcases next_serverLoop w own taken with same | ⟨unstarted, -⟩
    · exact same.trans exited
    · cases unstarted.symm.trans exited

/-- One step switches once or not at all. -/
theorem Handles.switches_eq {turns : List (Turn Packet Fate)} (handles : Handles s s' turns) :
    s'.switches = s.switches ∨ ∃ d, s'.switches = s.switches ++ [d] := by
  cases handles with
  | works _ switches _ => exact .inl switches
  | takes _ _ _ switches _ => exact .inl switches
  | settles pk fate _ _ switches _ _ _ _ _ =>
      cases fate with
      | confirmed c => exact .inr ⟨c, switches⟩
      | _ => exact .inl (switches.trans (List.append_nil _))

/-- The acknowledgements that are going to be swallowed belong to switches. -/
theorem due_le {ok : Session → Action → Prop} (reached : machine.Reach ok s) :
    s.client.Marked ∧ s.due ≤ s.switches.length := by
  refine reached.invariant (I := fun s => s.client.Marked ∧ s.due ≤ s.switches.length)
    ⟨trivial, Nat.le_refl _⟩ ?_
  intro s s' a before ⟨marked, le⟩ _ taken
  obtain ⟨handles, marked'⟩ := next_handles (wired before) marked taken
  refine ⟨marked', ?_⟩
  generalize s.clientTurns a = turns at handles
  cases handles with
  | works hand switches due =>
      rw [switches]
      exact due.trans le
  | takes pk free hand switches due =>
      rw [switches]
      exact due.trans le
  | settles pk fate hand free switches due sent ack dropped lost =>
      rw [switches, List.length_append]
      omega

/-- What the server->client loop had to settle a packet this way. -/
def Excused (s : Session) : (Conn × Packet) × Showing → Prop
  | ((_, read), .answered) => read.isSearching = true ∧ s.switches ≠ []
  | _ => True

/-- What holds between two steps of a run and its log. -/
structure Screened (p : Session × List (Turn (Conn × Packet) Showing)) : Prop where
  order : InOrder p.2 p.1.serverLoop.inHand
  marked : p.1.serverLoop.Marked
  lined : Lined p.1.switches ((Relay.taken p.2).map Prod.fst) p.1.serverLoop.conn
  excused : ∀ outcome ∈ outcomes p.2, p.1.Excused outcome
  lost : ∀ outcome ∈ outcomes p.2, outcome.2 = .lost → p.1.serverLoop = .exited

/-- The step lemma. -/
theorem Screened.next {p p' : Session × List (Turn (Conn × Packet) Showing)} {a : Action}
    (reached : machine.Reachable p.1) (screened : Screened p)
    (taken : (machine.record serverTurns).next p a = some p') : Screened p' := by
  obtain ⟨stepped, log⟩ := Machine.record_next taken
  have w := wired reached
  have h := headed reached
  obtain ⟨screens, marked, conn⟩ := next_screens w screened.marked stepped
  have switches := (next_handles w (due_le reached).1 stepped).1.switches_eq
  have excused : ∀ outcome, p.1.Excused outcome → p'.1.Excused outcome := by
    rintro ⟨item, fate⟩ excused
    cases fate with
    | answered =>
        refine ⟨excused.1, ?_⟩
        rcases switches with same | ⟨d, more⟩
        · exact same ▸ excused.2
        · simp [more]
    | _ => trivial
  have onward : ∀ outcome ∈ outcomes p.2, p'.1.Excused outcome :=
    fun outcome member => excused outcome (screened.excused outcome member)
  have ended : ∀ outcome ∈ outcomes p.2, outcome.2 = .lost → p'.1.serverLoop = .exited :=
    fun outcome member lost => next_serverLoop_exited w (screened.lost outcome member lost) stepped
  -- the connections are in line before a switch is added to it
  have line : ∀ conns, Lined p.1.switches conns p.1.serverLoop.conn →
      Lined p'.1.switches conns p'.1.serverLoop.conn := by
    intro conns lined
    have picked := lined.pick h.nodup.of_map
      (fun c member => by
        obtain ⟨i, dialer, -⟩ := (traced reached).switched c member
        simp [dialer])
      fun c set => (conn c set).imp_right (h.current c)
    rcases switches with same | ⟨d, more⟩
    · rwa [same]
    · rw [more]
      exact picked.switch d
  have order := screened.order
  generalize p.1.serverTurns a = turns at log screens
  cases screens with
  | works hand =>
      rw [List.append_nil] at log
      exact ⟨by rwa [log, hand], marked, by rw [log]; exact line _ screened.lined,
        by rwa [log], by rwa [log]⟩
  | takes c pk at_ hand =>
      rw [at_] at order
      refine ⟨by rw [log, hand]; exact order.take _, marked, ?_, by rwa [log, outcomes_took],
        by rwa [log, outcomes_took]⟩
      rw [log, taken_took, List.map_append]
      refine line _ ?_
      have lined := screened.lined
      rw [at_] at lined ⊢
      exact lined.read
  | settles item fate hand free answered lost =>
      rw [hand] at order
      refine ⟨by rw [log, free]; exact order.settle fate, marked, ?_, ?_, ?_⟩
      · rw [log, taken_settled]
        exact line _ screened.lined
      · rw [log, outcomes_settled]
        intro outcome member
        rcases List.mem_append.mp member with before | last
        · exact onward outcome before
        · cases List.mem_singleton.mp last
          refine excused _ ?_
          cases fate with
          | answered =>
              obtain ⟨searching, up⟩ := answered rfl
              refine ⟨searching, fun none_ => ?_⟩
              have le := (due_le reached).2
              simp [due, up, none_] at le
          | _ => trivial
      · rw [log, outcomes_settled]
        intro outcome member fatal
        rcases List.mem_append.mp member with before | last
        · exact ended outcome before fatal
        · cases List.mem_singleton.mp last
          exact lost fatal

theorem screened {p : Session × List (Turn (Conn × Packet) Showing)}
    (reached : (machine.record serverTurns).Reachable p) : Screened p := by
  refine reached.invariant (I := Screened) ?_ ?_
  · refine ⟨inOrder_nil, trivial, ?_, by simp [outcomes, Machine.record],
      by simp [outcomes, Machine.record]⟩
    exact ⟨by simp [Relay.taken, Machine.record], by rintro c ⟨⟩, List.Pairwise.nil,
      by simp [Relay.taken, Machine.record]⟩
  · intro p p' a before screened _ taken
    exact screened.next before.unrecorded taken

/-- **What becomes of the packets of the backends.**  In every run the server->client loop
settles the packets it reads in the order it reads them, each once.  The session never goes
back to a connection: those it switches to are all different, and the packets were read from
them in the order of the switches.  So once a packet of a server was read, none of a server
before it reaches the client.  The proxy answers a packet itself only if that is a
`Respawn{SearchingForSpawn}`, and only after a switch. -/
theorem client_bound_relay {log : List (Turn (Conn × Packet) Showing)}
    (reached : (machine.record serverTurns).Reachable (s, log)) :
    InOrder log s.serverLoop.inHand ∧
      (s.switches.map Conn.dialer).Nodup ∧
      (∀ item ∈ Relay.taken log, Had s.switches item.1) ∧
      (Relay.taken log).Pairwise (fun item later =>
        seat s.switches item.1 ≤ seat s.switches later.1) ∧
      (∀ outcome ∈ outcomes log, s.Excused outcome) ∧
      ∀ outcome ∈ outcomes log, outcome.2 = .lost → s.serverLoop = .exited := by
  have screen := screened reached
  refine ⟨screen.order, (headed reached.unrecorded).nodup, ?_, ?_, screen.excused, screen.lost⟩
  · intro item member
    exact screen.lined.had item.1 (List.mem_map_of_mem member)
  · have sorted := screen.lined.sorted
    rwa [List.pairwise_map] at sorted

/-- The server loop shows the client an entity. -/
def showingPainting : List Action :=
  ([(.server, .go), (.server, .packet addPainting)] : List Action) ++ steps .server 4 ++
    ([(.server, .verdict false)] : List Action) ++ steps .server 1

/-- The loop holds a packet of the first server across the switch and shows it after it, and
then one of the second server. -/
theorem client_bound_relay_late :
    ∃ s log, (machine.record serverTurns).Reachable (s, log) ∧
      s.switches = [⟨.transfer 0, game, gameData⟩] ∧
      outcomes log = [((⟨.login, lobby, lobbyData⟩, addPainting), .shown addPainting),
        ((⟨.transfer 0, game, gameData⟩, addPainting), .shown addPainting)] ∧
      (Relay.taken log).Pairwise (fun item later =>
        seat s.switches item.1 ≤ seat s.switches later.1) := by
  obtain ⟨s, log, reached, switches, settled⟩ :
      ∃ s log, (machine.record serverTurns).Reachable (s, log) ∧
        s.switches = [⟨.transfer 0, game, gameData⟩] ∧
        outcomes log = [((⟨.login, lobby, lobbyData⟩, addPainting), .shown addPainting),
          ((⟨.transfer 0, game, gameData⟩, addPainting), .shown addPainting)] := by
    have reached : (machine.record serverTurns).Reachable _ :=
      Machine.exec_reach (joining lobby lobbyData ++
        ([(.server, .go), (.server, .packet addPainting)] : List Action) ++
        transferCall 0 game gameData ++ acknowledging ++ confirming ++ steps .server 4 ++
        ([(.server, .verdict false)] : List Action) ++ steps .server 1 ++ showingPainting) rfl
    exact ⟨_, _, reached, rfl, rfl⟩
  exact ⟨s, log, reached, switches, settled, (client_bound_relay reached).2.2.2.1⟩

end Session

end Portal
