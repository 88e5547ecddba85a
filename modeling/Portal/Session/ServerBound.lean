/-
# Session.ServerBound — what the client->server loop makes of the packets it reads

The loop takes one packet at a time and settles it before it reads the next: it forwards it,
or it has one of its reasons not to.  The machine is recorded with these turns
(`clientTurns`), and `server_bound_relay` says what every run makes of the whole stream.
Packets are settled in the order they were read, each once.  A packet that is forwarded goes
to the connection of the last confirmation before it, translated with that server's IDs and
cleared for it; only acknowledgements are kept from the servers while no transfer is on, and
there is one for every switch.

`Handles` says once what one step of the loop can do with a packet; the run lemma
(`Relayed.next`) looks at nothing else.
-/
import Portal.Theory.History
import Portal.Theory.Relay
import Portal.Session.Numbering
import Portal.Session.Straggler
import Portal.Session.Effects

namespace Portal

open Portal.Theory Portal.Theory.Transition Portal.Theory.History Portal.Theory.Relay

set_option autoImplicit false

/-- What becomes of a packet of the client. -/
inductive Fate where
  /-- written to `c` as `pk` -/
  | forwarded (c : Conn) (pk : Packet)
  /-- the acknowledgement that made the session switch to `c` -/
  | confirmed (c : Conn)
  /-- the acknowledgement of the second `ChangeDimension` -/
  | swallowed
  /-- read while the session was transferring -/
  | dropped
  /-- cancelled by the handler -/
  | cancelled
  /-- a panic of the handler or of the write ended the loop -/
  | lost

def Fate.switch? : Fate → Option Conn
  | .confirmed c => some c
  | _ => none

def Fate.isSwallowed : Fate → Bool
  | .swallowed => true
  | _ => false

/-- A fate that only an acknowledgement has. -/
def Fate.isAcknowledgement : Fate → Bool
  | .confirmed _ => true
  | .swallowed => true
  | _ => false

/-- The packet the client->server loop has read and not settled. -/
def ClientState.inHand : ClientState → Option Packet
  | .translating f _ => some f.read
  | .clearing f _ => some f.read
  | .loading f _ => some f.read
  | .locking f _ => some f.read
  | .announcing f _ => some f.read
  | .wiping f _ => some f.read
  | .reviving f _ => some f.read
  | .dropping f _ => some f.read
  | .switching f _ => some f.read
  | .swapping f _ => some f.read
  | .checking f _ => some f.read
  | .handling f _ => some f.read
  | .picking f _ => some f.read
  | .writing f _ _ => some f.read
  | _ => none

/-- From the switch to `s.postTransfer.Store(true)`. -/
def ClientState.raises : ClientState → Bool
  | .storingRuntimeID _ => true
  | .storingUniqueID _ => true
  | .lowering _ => true
  | .raising _ => true
  | _ => false

/-- What looks like an acknowledgement in the hands of the loop was read as one. -/
def ClientState.Marked : ClientState → Prop
  | .translating f rest => rest.Every fun pk => pk.isDimensionChangeDone = f.read.isDimensionChangeDone
  | .clearing f pk => pk.isDimensionChangeDone = f.read.isDimensionChangeDone
  | .loading f _ | .locking f _ | .swapping f _ | .announcing f _ | .wiping f _ | .reviving f _
  | .dropping f _ | .switching f _ => f.read.isDimensionChangeDone = true
  | _ => True

namespace Session

/-- What a step does with a packet of the client. -/
def clientTurns (s : Session) (a : Action) : List (Turn Packet Fate) :=
  match a with
  | (.client, input) =>
      match s.client, input with
      | .reading, .packet pk => [.took pk]
      | .switching f c, _ => [.settled f.read (.confirmed c)]
      | .swapping f _, _ => if s.postTransfer then [.settled f.read .swallowed] else []
      | .checking f _, _ => if s.transferring then [.settled f.read .dropped] else []
      | .handling f _, .verdict true => [.settled f.read .cancelled]
      | .handling f _, .failed _ => [.settled f.read .lost]
      | .writing f pk c, .go => [.settled f.read (.forwarded c pk)]
      | .writing f _ _, .failed _ => [.settled f.read .lost]
      | _, _ => []
  | _ => []

/-! ## The last connection -/

/-- The connection switched to last, or that of the login. -/
def Latest (switches : List Conn) (c : Conn) : Prop :=
  match switches.getLast? with
  | none => c.dialer = .login
  | some last => c = last

/-- The current connection is the last one switched to, and none is switched to twice. -/
structure Headed (s : Session) : Prop where
  current : ∀ c, s.serverConn = some c → Latest s.switches c
  replaced : ∀ c ∈ s.switches, s.Placed c
  nodup : (s.switches.map Conn.dialer).Nodup

variable {s s' : Session} {input : Input}

theorem latest_append (switches : List Conn) (c : Conn) : Latest (switches ++ [c]) c := by
  simp [Latest]

theorem Headed.moves (h : Headed s) (conn : s'.serverConn = s.serverConn)
    (switches : s'.switches = s.switches) (closed : ∀ e ∈ s.closed, e ∈ s'.closed) : Headed s' where
  current := by rw [conn, switches]; exact h.current
  replaced := by
    unfold Placed
    rw [conn, switches]
    exact fun c member => (h.replaced c member).imp_right (closed _)
  nodup := by rw [switches]; exact h.nodup

theorem Headed.switch {f : Inbound} {c : Conn} {pending : Server} (h : Headed s) (w : Wired s)
    (t : Traced s) (dropped : Dropped s) (at_ : s.client = .switching f c) :
    Headed { s with
      serverConn := s.tempServerConn, tempServerConn := none, server := some pending
      pendingServer := none, switches := s.switches ++ [c], client := .storingRuntimeID c } := by
  have temp := w.finishing c (by rw [at_]; rfl)
  have closed : ∀ c' ∈ s.switches, (.finish, c'.dialer) ∈ s.closed := by
    intro c' member
    exact (h.replaced c' member).elim (dropped f c c' at_) id
  refine ⟨?_, ?_, ?_⟩
  · intro c' current
    cases temp.symm.trans current
    exact latest_append ..
  · intro c' member
    rcases List.mem_append.mp member with before | own
    · exact .inr (closed c' before)
    · cases List.mem_singleton.mp own
      exact .inl temp
  · show ((s.switches ++ [c]).map Conn.dialer).Nodup
    rw [List.map_append, List.nodup_append]
    refine ⟨h.nodup, List.nodup_singleton _, ?_⟩
    intro d old d' new same
    obtain ⟨c', member, rfl⟩ := List.mem_map.mp old
    cases List.mem_singleton.mp new
    exact t.notTemp c temp (same ▸ closed c' member)

theorem next_headed {a : Action} (h : Headed s) (w : Wired s) (t : Traced s) (n : Numbered s)
    (dropped : Dropped s) (taken : s.next a = some s') : Headed s' := by
  have closed := next_closed taken
  refine next_elim_loops taken ?_ ?_ ?_ ?_ ?_
  · intro _ taken
    obtain ⟨_, _, _, _, _, rfl⟩ := newStep_frame taken
    exact h.moves rfl rfl closed
  · intro _ taken
    cases at_ : s.login with
    | assigning c =>
        have none_ := (n.unjoined (by rw [at_]; rfl)).2
        have dialer := t.dialed c at_
        rw [at_] at taken
        cases taken
        refine ⟨?_, by simp [none_], h.nodup⟩
        intro c' current
        cases current
        simpa [Latest, none_] using dialer
    | _ =>
        simp only [at_, loginStep] at taken
        (repeat' split at taken) <;> cases taken <;> exact h.moves rfl rfl closed
  · intro _ taken
    by_cases switch : ∃ f c, s.client = .switching f c
    · obtain ⟨f, c, at_⟩ := switch
      simp only [at_, clientStep] at taken
      split at taken <;> cases taken
      · exact h.switch w t dropped at_
      · exact h.moves rfl rfl closed
    · obtain ⟨_, _, _, _, _, _, _, _, _, _, _, _, _, rfl⟩ :=
        clientStep_frame (fun f c at_ => switch ⟨f, c, at_⟩) taken
      exact h.moves rfl rfl closed
  · intro _ taken
    obtain ⟨_, _, _, _, _, _, rfl⟩ := serverStep_frame taken
    exact h.moves rfl rfl closed
  · exact fun same => h.moves same.serverConn same.switches closed

theorem headed {ok : Session → Action → Prop} (reached : machine.Reach ok s) : Headed s := by
  refine reached.invariant (I := Headed) ?_ ?_
  · exact ⟨by simp [machine, initial], by simp [machine, initial], List.nodup_nil⟩
  · intro s s' a before h _ taken
    exact next_headed h (wired before) (traced before) (numbered before) (dropped before) taken

/-! ## The flags -/

/-- The acknowledgements that are going to be swallowed: one if `postTransfer` is up, and
one if the client loop is about to raise it. -/
def due (s : Session) : Nat := s.postTransfer.toNat + s.client.raises.toNat

theorem clientStep_transferring {st : ClientState} (taken : s.clientStep input st = some s')
    (up : s'.transferring = true) : s.transferring = true := by
  cases st with
  | reading =>
      simp only [clientStep] at taken
      split at taken <;> cases taken
      · rename_i pk
        obtain ⟨_, _, _, received⟩ := receive_frame s pk
        rwa [received] at up
      · exact up
  | translating f rest =>
      cases rest with
      | pure pk => cases taken; exact up
      | ask r k =>
          simp only [clientStep] at taken
          split at taken <;> cases taken <;> exact up
  | locking f pk =>
      simp only [clientStep] at taken
      split at taken <;> cases taken
      · exact up
      · obtain ⟨_, _, stopped⟩ := stopTimer_frame s
        rwa [stopped] at up
  | lowering c => cases taken; cases up
  | _ =>
      simp only [clientStep] at taken
      (repeat' split at taken) <;> cases taken <;> exact up

/-- A call of `Transfer` lowers `postTransfer`, and raises `transferring` for itself. -/
theorem callNext_flags {i : TransferID} (taken : s.callNext i input = some s') :
    (s'.transferring = true → s.transferring = true ∨ s.calls i ≠ none) ∧
      (s'.postTransfer = true → s.postTransfer = true) ∧
      ∀ j, s.calls j ≠ none → s'.calls j ≠ none := by
  have kept : ∀ state : Call, ∀ j, s.calls j ≠ none →
      Function.update s.calls i (some state) j ≠ none := by
    intro state j found
    by_cases same : j = i
    · subst same
      simp
    · rwa [Function.update_of_ne same]
  unfold callNext at taken
  split at taken
  · split at taken
    · obtain ⟨-, rfl⟩ := enter_spec taken
      exact ⟨.inl, id, kept _⟩
    · cases taken
  · rename_i call called
    revert taken
    fun_cases callStep i call.target input s call.state <;> intro taken <;> cases taken
    all_goals refine ⟨?_, ?_, ?_⟩
    all_goals first
      | exact kept _
      | exact fun _ found => found
      | exact fun _ => .inr (by rw [called]; simp)
      | exact id
      | exact fun up => absurd up (by simp)

/-- Only the client loop raises `postTransfer`, and only a call of `Transfer` raises
`transferring`. -/
theorem next_flags {a : Action} (taken : s.next a = some s') :
    (s'.transferring = true → s.transferring = true ∨ ∃ i, s.calls i ≠ none) ∧
      (a.1 ≠ .client → s'.postTransfer = true → s.postTransfer = true) ∧
      ∀ i, s.calls i ≠ none → s'.calls i ≠ none := by
  refine next_elim taken ?_ ?_ ?_ ?_ ?_ ?_ ?_ ?_
  · intro _ taken
    obtain ⟨_, _, _, _, _, rfl⟩ := newStep_frame taken
    exact ⟨.inl, fun _ => id, fun _ => id⟩
  · intro _ taken
    obtain ⟨_, _, _, _, _, _, _, -, -, rfl⟩ := loginStep_frame taken
    exact ⟨.inl, fun _ => id, fun _ => id⟩
  · intro i _ taken
    obtain ⟨raised, cleared, kept⟩ := callNext_flags taken
    exact ⟨fun up => (raised up).imp_right fun found => ⟨i, found⟩, fun _ => cleared, kept⟩
  · intro i _ taken
    revert taken
    fun_cases timerStep i s (s.timers i) <;> intro taken <;> cases taken <;>
      simp +contextual [setTimer]
  · intro actor taken
    have calls := (clientStep_others taken).2.2.1
    exact ⟨fun up => .inl (clientStep_transferring taken up), fun other => absurd actor other,
      by rw [calls]; exact fun _ => id⟩
  · intro _ taken
    obtain ⟨_, _, _, _, _, _, rfl⟩ := serverStep_frame taken
    exact ⟨.inl, fun _ => id, fun _ => id⟩
  · intro _ taken
    revert taken
    fun_cases closeStep s s.close <;> intro taken <;> cases taken <;> simp +contextual
  · intro r _ taken
    obtain ⟨_, _, rfl⟩ | ⟨i, target, _, fresh, rfl⟩ := requestStep_frame taken
    · exact ⟨.inl, fun _ => id, fun _ => id⟩
    · refine ⟨.inl, fun _ => id, fun j found => ?_⟩
      have other : j ≠ i := by
        rintro rfl
        exact found fresh
      show Function.update s.calls i _ j ≠ none
      rwa [Function.update_of_ne other]

/-- While `transferring` is up somebody has called `Transfer`. -/
theorem called_of_transferring {ok : Session → Action → Prop} (reached : machine.Reach ok s) :
    s.transferring = true → ∃ i, s.calls i ≠ none := by
  refine reached.invariant (I := fun s => s.transferring = true → ∃ i, s.calls i ≠ none)
    (by simp [machine, initial]) ?_
  intro s s' a _ known _ taken up
  obtain ⟨raised, -, kept⟩ := next_flags taken
  obtain ⟨i, found⟩ := (raised up).elim known id
  exact ⟨i, kept i found⟩

/-! ## From the client to the servers -/

/-- The switches among the fates, in order. -/
def switched (settled : List (Packet × Fate)) : List Conn :=
  settled.filterMap fun outcome => outcome.2.switch?

/-- How many acknowledgements were swallowed. -/
def swallowings (settled : List (Packet × Fate)) : Nat :=
  settled.countP fun outcome => outcome.2.isSwallowed

/-- What the client->server loop had to settle a packet this way, after the packets before
it. -/
def Justified (s : Session) (earlier : List (Packet × Fate)) : Packet × Fate → Prop
  | (pk, .forwarded c sent) =>
      Latest (switched earlier) c ∧
        ∀ t, s.translator = some t →
          sent = clearLegacyIdentity (translated t.original c.gameData.ids pk) c.server.legacyAuth
  | (pk, .confirmed _) => pk.isDimensionChangeDone = true
  | (pk, .swallowed) =>
      pk.isDimensionChangeDone = true ∧ swallowings earlier < (switched earlier).length
  | (_, .dropped) => ∃ i, s.calls i ≠ none
  | (_, .cancelled) => True
  | (_, .lost) => True

/-- One step of the client->server loop, as far as its log tells. -/
inductive Handles (s s' : Session) : List (Turn Packet Fate) → Prop where
  | works (hand : s'.client.inHand = s.client.inHand) (switches : s'.switches = s.switches)
      (due : s'.due ≤ s.due) : Handles s s' []
  | takes (pk : Packet) (free : s.client.inHand = none) (hand : s'.client.inHand = some pk)
      (switches : s'.switches = s.switches) (due : s'.due ≤ s.due) : Handles s s' [.took pk]
  | settles (pk : Packet) (fate : Fate) (hand : s.client.inHand = some pk)
      (free : s'.client.inHand = none) (switches : s'.switches = s.switches ++ fate.switch?.toList)
      (due : s'.due + fate.isSwallowed.toNat ≤ s.due + fate.switch?.toList.length)
      (sent : ∀ c pk', fate = .forwarded c pk' → ∃ f, s.client = .writing f pk' c ∧ f.read = pk)
      (marked : fate.isAcknowledgement = true → pk.isDimensionChangeDone = true)
      (dropped : fate = .dropped → s.transferring = true)
      (lost : fate = .lost → s'.client = .exited) : Handles s s' [.settled pk fate]

theorem clientStep_handles (w : Wired s) (marked : s.client.Marked)
    (taken : s.clientStep input s.client = some s') :
    Handles s s' (s.clientTurns (.client, input)) := by
  by_cases unstarted : s.client = .unstarted
  · simp [unstarted, clientStep] at taken
  obtain ⟨⟨srv, server⟩, ⟨current, conn⟩, t, translator⟩ := w.set_of_joined (w.client unstarted)
  cases at_ : s.client with
  | unstarted => exact absurd at_ unstarted
  | reading =>
      simp only [at_, clientStep] at taken
      split at taken <;> cases taken
      · rename_i pk
        simp only [clientTurns, at_, receive, translator]
        split <;> exact .takes pk (by rw [at_]; rfl) rfl rfl
          (by simp [due, at_, ClientState.raises])
      · simp only [clientTurns, at_]
        exact .works (by rw [at_]; rfl) rfl (by simp [due, at_, ClientState.raises])
  | translating f rest =>
      cases rest with
      | pure pk =>
          simp only [at_, clientStep, Option.some.injEq] at taken
          subst taken
          simp only [clientTurns, at_]
          exact .works (by rw [at_]; rfl) rfl (by simp [due, at_, ClientState.raises])
      | ask r k =>
          simp only [at_, clientStep, translator, Option.some.injEq] at taken
          subst taken
          simp only [clientTurns, at_]
          exact .works (by rw [at_]; rfl) rfl (by simp [due, at_, ClientState.raises])
  | locking f pk =>
      simp only [at_, clientStep] at taken
      simp only [clientTurns, at_]
      split at taken <;> cases taken
      · exact .works (by rw [at_]; rfl) rfl (by simp [due, at_, ClientState.raises])
      · obtain ⟨_, _, stopped⟩ := stopTimer_frame s
        rw [stopped]
        exact .works (by rw [at_]; rfl) rfl (by simp [due, at_, ClientState.raises])
  | switching f c =>
      have temp := w.finishing c (by rw [at_]; rfl)
      have pending := w.pending
      rw [temp] at pending
      simp only [at_, clientStep, server, pending, Option.map_some, Option.some.injEq] at taken
      subst taken
      simp only [clientTurns, at_]
      rw [at_] at marked
      exact .settles f.read (.confirmed c) (by rw [at_]; rfl) rfl rfl
        (by simp [due, at_, ClientState.raises, Fate.isSwallowed, Fate.switch?]) (by simp)
        (fun _ => marked) (by simp) (by simp)
  | swapping f pk =>
      rw [at_] at marked
      simp only [at_, clientStep] at taken
      simp only [clientTurns, at_]
      split at taken <;> cases taken
      · rename_i up
        simp only [up, if_true]
        exact .settles f.read .swallowed (by rw [at_]; rfl) rfl (by simp [Fate.switch?])
          (by simp [due, at_, up, ClientState.raises, Fate.isSwallowed, Fate.switch?]) (by simp)
          (fun _ => marked) (by simp) (by simp)
      · rename_i down
        simp only [down]
        exact .works (by rw [at_]; rfl) rfl (by simp [due, at_, ClientState.raises])
  | checking f pk =>
      simp only [at_, clientStep, Option.some.injEq] at taken
      subst taken
      simp only [clientTurns, at_]
      by_cases up : s.transferring = true
      · simp only [up, if_true]
        exact .settles f.read .dropped (by rw [at_]; rfl) rfl (by simp [Fate.switch?])
          (by simp [due, at_, ClientState.raises, Fate.isSwallowed, Fate.switch?]) (by simp)
          (by simp [Fate.isAcknowledgement]) (fun _ => up) (by simp)
      · simp only [up]
        exact .works (by rw [at_]; rfl) rfl (by simp [due, at_, ClientState.raises])
  | handling f pk =>
      simp only [at_, clientStep] at taken
      split at taken <;> cases taken <;> simp only [clientTurns, at_]
      · exact .settles f.read .cancelled (by rw [at_]; rfl) rfl (by simp [Fate.switch?])
          (by simp [due, at_, ClientState.raises, Fate.isSwallowed, Fate.switch?]) (by simp)
          (by simp [Fate.isAcknowledgement]) (by simp) (by simp)
      · exact .works (by rw [at_]; rfl) rfl (by simp [due, at_, ClientState.raises])
      · exact .settles f.read .lost (by rw [at_]; rfl) rfl (by simp [Fate.switch?])
          (by simp [due, at_, ClientState.raises, Fate.isSwallowed, Fate.switch?]) (by simp)
          (by simp [Fate.isAcknowledgement]) (by simp) (by simp)
  | writing f pk c =>
      simp only [at_, clientStep] at taken
      split at taken <;> cases taken <;> simp only [clientTurns, at_]
      · refine .settles f.read (.forwarded c pk) (by rw [at_]; rfl) rfl (by simp [Fate.switch?])
          (by simp [due, at_, ClientState.raises, Fate.isSwallowed, Fate.switch?]) ?_
          (by simp [Fate.isAcknowledgement]) (by simp) (by simp)
        intro c' pk' same
        cases same
        exact ⟨f, at_, rfl⟩
      · exact .settles f.read .lost (by rw [at_]; rfl) rfl (by simp [Fate.switch?])
          (by simp [due, at_, ClientState.raises, Fate.isSwallowed, Fate.switch?]) (by simp)
          (by simp [Fate.isAcknowledgement]) (by simp) (by simp)
  | _ =>
      simp only [at_, clientStep, server, conn, translator] at taken
      simp only [clientTurns, at_]
      (try split at taken) <;> cases taken
      all_goals
        refine .works ?_ rfl ?_
        · rw [at_]
          rfl
        · simp [due, at_, ClientState.raises]

theorem clientStep_marked (marked : s.client.Marked)
    (taken : s.clientStep input s.client = some s') : s'.client.Marked := by
  cases at_ : s.client with
  | reading =>
      simp only [at_, clientStep] at taken
      split at taken <;> cases taken
      · rename_i pk
        unfold receive
        split
        · exact at_ ▸ marked
        · rename_i t _
          split <;> exact translatePacket_isDimensionChangeDone t.original pk
      · trivial
  | translating f rest =>
      rw [at_] at marked
      cases rest with
      | pure pk =>
          simp only [at_, clientStep, Option.some.injEq] at taken
          subst taken
          exact marked
      | ask r k =>
          simp only [at_, clientStep] at taken
          split at taken <;> cases taken
          · show s.client.Marked
            rw [at_]
            exact marked
          · exact marked _
  | clearing f pk =>
      rw [at_] at marked
      simp only [at_, clientStep, clearLegacyIdentity_isDimensionChangeDone] at taken
      split at taken <;> cases taken
      · show s.client.Marked
        rw [at_]
        exact marked
      · split
        · rename_i ack
          exact marked.symm.trans ack
        · trivial
  | loading f pk =>
      rw [at_] at marked
      simp only [at_, clientStep, Option.some.injEq] at taken
      subst taken
      split <;> exact marked
  | locking f pk =>
      rw [at_] at marked
      simp only [at_, clientStep] at taken
      split at taken <;> cases taken
      · trivial
      · exact marked
  | _ =>
      simp only [at_, clientStep] at taken
      rw [at_] at marked
      (repeat' split at taken) <;> cases taken
      all_goals first
        | exact marked
        | trivial
        | (show s.client.Marked; rw [at_]; exact marked)

/-- What holds between two steps of a run and its log. -/
structure Relayed (p : Session × List (Turn Packet Fate)) : Prop where
  quiet : p.1.login ≠ .done .joined → p.2 = []
  order : InOrder p.2 p.1.client.inHand
  marked : p.1.client.Marked
  switches : switched (outcomes p.2) = p.1.switches
  swallowed : swallowings (outcomes p.2) + p.1.due ≤ p.1.switches.length
  each : Each p.1.Justified (outcomes p.2)
  lost : ∀ outcome ∈ outcomes p.2, outcome.2 = .lost → p.1.client = .exited

theorem switched_append (settled : List (Packet × Fate)) (pk : Packet) (fate : Fate) :
    switched (settled ++ [(pk, fate)]) = switched settled ++ fate.switch?.toList := by
  cases fate <;> simp [switched, Fate.switch?]

theorem swallowings_append (settled : List (Packet × Fate)) (pk : Packet) (fate : Fate) :
    swallowings (settled ++ [(pk, fate)]) = swallowings settled + fate.isSwallowed.toNat := by
  cases fate <;> simp [swallowings, Fate.isSwallowed]

/-- A reason stays one. -/
theorem Justified.next {a : Action} {earlier : List (Packet × Fate)} {outcome : Packet × Fate}
    (justified : Justified s earlier outcome) (w : Wired s) (joined : s.login = .done .joined)
    (taken : s.next a = some s') : Justified s' earlier outcome := by
  obtain ⟨pk, fate⟩ := outcome
  cases fate with
  | forwarded c sent =>
      refine ⟨justified.1, fun t' set => ?_⟩
      rcases next_original w taken set with ⟨t, translator, same⟩ | ⟨unjoined, -⟩
      · rw [same]
        exact justified.2 t translator
      · exact absurd joined unjoined
  | dropped =>
      obtain ⟨i, found⟩ := justified
      exact ⟨i, (next_flags taken).2.2 i found⟩
  | _ => exact justified

/-- The other goroutines leave the client loop where it is, or start it. -/
theorem next_client {a : Action} (w : Wired s) (other : a.1 ≠ .client)
    (taken : s.next a = some s') :
    (s'.client = s.client ∨ s.client = .unstarted ∧ s'.client = .reading) ∧
      s'.switches = s.switches := by
  refine next_elim_loops taken ?_ ?_ ?_ ?_ ?_
  · intro _ taken
    obtain ⟨_, _, _, _, _, rfl⟩ := newStep_frame taken
    exact ⟨.inl rfl, rfl⟩
  · intro _ taken
    obtain ⟨unstarted, -⟩ := w.loops_unstarted (loginStep_unjoined taken)
    obtain ⟨_, _, _, _, _, _, _, client, -, rfl⟩ := loginStep_frame taken
    exact ⟨client.imp_right fun started => ⟨unstarted, started⟩, rfl⟩
  · exact fun actor _ => absurd actor other
  · intro _ taken
    obtain ⟨_, _, _, _, _, _, rfl⟩ := serverStep_frame taken
    exact ⟨.inl rfl, rfl⟩
  · exact fun same => ⟨.inl same.client, same.switches⟩

theorem clientTurns_other {a : Action} (other : a.1 ≠ .client) : s.clientTurns a = [] := by
  obtain ⟨actor, input⟩ := a
  cases actor with
  | client => exact absurd rfl other
  | _ => rfl

theorem next_handles {a : Action} (w : Wired s) (marked : s.client.Marked)
    (taken : s.next a = some s') : Handles s s' (s.clientTurns a) ∧ s'.client.Marked := by
  by_cases own : a.1 = .client
  · have stepped : s.clientStep a.2 s.client = some s' := ownStep_of_next taken own
    obtain ⟨actor, input⟩ := a
    cases own
    exact ⟨clientStep_handles w marked stepped, clientStep_marked marked stepped⟩
  · obtain ⟨client, switches⟩ := next_client w own taken
    have lowered := (next_flags taken).2.1 own
    have flag : s'.postTransfer.toNat ≤ s.postTransfer.toNat := by
      cases up : s'.postTransfer with
      | false => exact Nat.zero_le _
      | true => exact (lowered up) ▸ Nat.le_refl _
    rw [clientTurns_other own]
    rcases client with same | ⟨unstarted, started⟩
    · refine ⟨.works (by rw [same]) switches ?_, same ▸ marked⟩
      simp only [due, same]
      omega
    · refine ⟨.works (by rw [unstarted, started]; rfl) switches ?_, by rw [started]; trivial⟩
      simp only [due, unstarted, started, ClientState.raises]
      omega

/-- Nothing moves a client loop that has ended. -/
theorem next_exited {a : Action} (w : Wired s) (exited : s.client = .exited)
    (taken : s.next a = some s') : s'.client = .exited := by
  by_cases own : a.1 = .client
  · have stepped : s.clientStep a.2 s.client = some s' := ownStep_of_next taken own
    rw [exited] at stepped
    cases stepped
  · rcases (next_client w own taken).1 with same | ⟨unstarted, -⟩
    · exact same.trans exited
    · cases unstarted.symm.trans exited

/-- Nothing is read or settled before the login is over. -/
theorem clientTurns_unjoined {a : Action} (w : Wired s) (unjoined : s.login ≠ .done .joined) :
    s.clientTurns a = [] := by
  obtain ⟨unstarted, -⟩ := w.loops_unstarted unjoined
  obtain ⟨actor, input⟩ := a
  cases actor with
  | client => simp [clientTurns, unstarted]
  | _ => rfl

/-- The step lemma. -/
theorem Relayed.next {p p' : Session × List (Turn Packet Fate)} {a : Action}
    (reached : machine.Reachable p.1) (relayed : Relayed p)
    (taken : (machine.record clientTurns).next p a = some p') : Relayed p' := by
  obtain ⟨stepped, log⟩ := Machine.record_next taken
  have w := wired reached
  obtain ⟨handles, marked⟩ := next_handles w relayed.marked stepped
  have quiet : p'.1.login ≠ .done .joined → p'.2 = [] := by
    intro unjoined
    have before : p.1.login ≠ .done .joined := fun joined =>
      unjoined (next_joined w stepped joined)
    rw [log, relayed.quiet before, clientTurns_unjoined w before]
    rfl
  have onward : Each p'.1.Justified (outcomes p.2) := by
    by_cases joined : p.1.login = .done .joined
    · exact relayed.each.mono fun _ _ justified => justified.next w joined stepped
    · rw [relayed.quiet joined]
      exact each_nil
  have ended : ∀ outcome ∈ outcomes p.2, outcome.2 = .lost → p'.1.client = .exited :=
    fun outcome member lost => next_exited w (relayed.lost outcome member lost) stepped
  have order := relayed.order
  have listed := relayed.switches
  have count := relayed.swallowed
  generalize p.1.clientTurns a = turns at log handles
  cases handles with
  | works hand switches due =>
      rw [List.append_nil] at log
      refine ⟨quiet, ?_, marked, ?_, ?_, ?_, ?_⟩
      · rwa [log, hand]
      · rw [log, switches, listed]
      · rw [log, switches]
        exact (Nat.add_le_add_left due _).trans count
      · rwa [log]
      · rwa [log]
  | takes pk free hand switches due =>
      rw [free] at order
      refine ⟨quiet, ?_, marked, ?_, ?_, ?_, ?_⟩
      · rw [log, hand]
        exact order.take pk
      · rw [log, switches, outcomes_took, listed]
      · rw [log, switches, outcomes_took]
        exact (Nat.add_le_add_left due _).trans count
      · rwa [log, outcomes_took]
      · rwa [log, outcomes_took]
  | settles pk fate hand free switches due sent ack dropped lost =>
      rw [hand] at order
      refine ⟨quiet, ?_, marked, ?_, ?_, ?_, ?_⟩
      · rw [log, free]
        exact order.settle fate
      · rw [log, switches, outcomes_settled, switched_append, listed]
      · rw [log, switches, outcomes_settled, swallowings_append, List.length_append]
        omega
      · rw [log, outcomes_settled]
        have joined := w.client fun unstarted => by
          rw [unstarted] at hand
          cases hand
        refine each_concat onward (Justified.next ?_ w joined stepped)
        -- the reason is read off the state before the step
        cases fate with
        | forwarded c pk' =>
            obtain ⟨f, at_, rfl⟩ := sent c pk' rfl
            have current := (numbered reached).written f pk' c at_
            refine ⟨?_, fun t translator => ?_⟩
            · rw [listed]
              exact (headed reached).current c current
            · have faithful := (numbered reached).inHand t c translator current
              rwa [at_] at faithful
        | confirmed c => exact ack rfl
        | swallowed =>
            refine ⟨ack rfl, ?_⟩
            rw [listed]
            simp only [Fate.isSwallowed, Fate.switch?, Bool.toNat_true, Option.toList_none,
              List.length_nil] at due
            omega
        | dropped => exact called_of_transferring reached (dropped rfl)
        | cancelled => trivial
        | lost => trivial
      · rw [log, outcomes_settled]
        intro outcome member fatal
        rcases List.mem_append.mp member with before | last
        · exact ended outcome before fatal
        · cases List.mem_singleton.mp last
          exact lost fatal

theorem relayed {p : Session × List (Turn Packet Fate)}
    (reached : (machine.record clientTurns).Reachable p) : Relayed p := by
  refine reached.invariant (I := Relayed) ?_ ?_
  · exact ⟨fun _ => rfl, inOrder_nil, trivial, rfl, Nat.le_refl _, each_nil, by simp [outcomes,
      Machine.record]⟩
  · intro p p' a before relayed _ taken
    exact relayed.next before.unrecorded taken

/-- **What becomes of the packets of the client.**  In every run the client->server loop
settles the packets it reads in the order it reads them, each once; only the last one may be
in hand.  A packet that is forwarded goes to the connection of the last confirmation before
it, in the numbering of that server and cleared for it.  The confirmations among them are
the switches of the session, in order, and acknowledgements all; so are the packets that are
swallowed, at most one for every switch.  A packet is dropped only in a session somebody
has called `Transfer` on.  A packet that is lost is the last one. -/
theorem server_bound_relay {log : List (Turn Packet Fate)}
    (reached : (machine.record clientTurns).Reachable (s, log)) :
    InOrder log s.client.inHand ∧ switched (outcomes log) = s.switches ∧
      Each s.Justified (outcomes log) ∧
      ∀ outcome ∈ outcomes log, outcome.2 = .lost → s.client = .exited := by
  have relay := relayed reached
  exact ⟨relay.order, relay.switches, relay.each, relay.lost⟩

/-- The client loop forwards a packet it reads. -/
def forwarding (pk : Packet) : List Action :=
  (.client, .packet pk) :: steps .client 3 ++ [(.client, .verdict false)] ++ steps .client 2

/-- A message to the first server, a transfer with its two acknowledgements, and a message to
the second one, which has legacy authentication. -/
theorem server_bound_relay_transferred :
    ∃ s log, (machine.record clientTurns).Reachable (s, log) ∧
      outcomes log = [(.text "1", .forwarded ⟨.login, lobby, lobbyData⟩ (.text "1")),
        (dimensionChangeDone, .confirmed ⟨.transfer 0, game, gameData⟩),
        (dimensionChangeDone, .swallowed),
        (.text "1", .forwarded ⟨.transfer 0, game, gameData⟩ (.text ""))] ∧
      Each s.Justified (outcomes log) := by
  obtain ⟨s, log, reached, settled⟩ : ∃ s log, (machine.record clientTurns).Reachable (s, log) ∧
      outcomes log = [(.text "1", .forwarded ⟨.login, lobby, lobbyData⟩ (.text "1")),
        (dimensionChangeDone, .confirmed ⟨.transfer 0, game, gameData⟩),
        (dimensionChangeDone, .swallowed),
        (.text "1", .forwarded ⟨.transfer 0, game, gameData⟩ (.text ""))] := by
    have reached : (machine.record clientTurns).Reachable _ :=
      Machine.exec_reach (joining lobby lobbyData ++ forwarding (.text "1") ++
        transferCall 0 game gameData ++ acknowledging ++ confirming ++ acknowledging ++
        steps .client 1 ++ forwarding (.text "1")) rfl
    exact ⟨_, _, reached, rfl⟩
  exact ⟨s, log, reached, settled, (server_bound_relay reached).2.2.1⟩

end Session

end Portal
