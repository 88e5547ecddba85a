/-
# Socket.Dead — what becomes of a connection that can no longer be read

`handleClient` leaves its loop when the text of an error has "EOF" or "closed" in it,
or when the error is a timeout (`Failure.recognised`).  Every other error sends it back
to `ReadPacket`.

`Dying` is the server from a moment on at which the reads of one connection return
the errors `errs 0`, `errs 1`, … and nothing else, while the other connections go on
as they like.  It counts the failed reads and the statements of that connection.  A
statement that is no read brings the connection nearer to the next read or to its end
(`step_rank`), so that the first recognised error bounds what is left
(`Spent.next`); without one the loop goes on for ever (`endless`).  What
`handleClientDisconnect` leaves behind is nothing, unless the client has authenticated under
the empty name (`Ends.named`).  That is `dead_connection_ends`.
-/
import Portal.Socket.Ownership

namespace Portal.Socket

open Portal.Theory.Transition

set_option autoImplicit false

/-- An error `ReadPacket` gets from the connection. -/
structure Failure where
  err : String
  /-- it is a `net.Error` whose `Timeout()` is true -/
  timeout : Bool

/-- `handleClient` takes the connection for dead. -/
def Failure.recognised (e : Failure) : Bool := containsAny e.err ["EOF", "closed"] || e.timeout

/-- A text that lacks a letter of "EOF" and one of "closed" mentions neither. -/
theorem containsAny_eq_false {text : String} {x y : Char} (x_mem : x ∈ "EOF".toList)
    (y_mem : y ∈ "closed".toList) (no_x : x ∉ text.toList) (no_y : y ∉ text.toList) :
    containsAny text ["EOF", "closed"] = false := by
  have no_eof : Session.containsText text "EOF" = false :=
    decide_eq_false fun inside => no_x (inside.subset x_mem)
  have no_closed : Session.containsText text "closed" = false :=
    decide_eq_false fun inside => no_y (inside.subset y_mem)
  simp [containsAny, no_eof, no_closed]

namespace ConnState

/-- `handleClient` has not left its loop. -/
def looping : ConnState → Bool
  | cleaning => false
  | removing _ => false
  | unpublishing _ => false
  | ended => false
  | _ => true

/-- No fewer than the statements up to the next `ReadPacket`, or up to the end. -/
def rank : ConnState → Nat
  | ended => 0
  | unpublishing _ => 1
  | removing _ => 2
  | cleaning => 3
  | reading => 4
  | checking => 5
  | entering => 6
  | admitting => 7
  | announcing _ => 6
  | adding _ => 7
  | copyingPlayerCount _ _ => 8
  | copyingHealthy _ _ => 9
  | copyingDraining _ _ => 10
  | looking _ => 11
  | validating _ => 12
  | settingDraining _ _ => 6
  | finding _ => 7
  | serving _ => 6
  | claiming _ => 6
  | failing _ => 6
  | recording => 7
  | comparing _ => 8
  | requesting _ => 9
  | dispatching _ => 13

theorem handle_rank (pk : Wire.Packet) : (handle pk).rank < 13 := by
  obtain ⟨k, pk⟩ := pk
  cases k <;> simp [handle, rank]

end ConnState

/-- The server while reads of the connection fail: how many did, and how many
statements the connection has executed. -/
structure Dying where
  server : DefaultServer
  reads : Nat
  steps : Nat

namespace Dying

variable (cfg : Config) (c : ClientID) (errs : Nat → Failure)

/-- The connection stands at `ReadPacket`. -/
def atRead (p : Dying) : Bool := (p.server.conns c).map Connection.state = some .reading

def next (p : Dying) : Action → Option Dying
  | .step d input =>
      if d = c then
        (p.server.next cfg (.step c (.failed (errs p.reads).err (errs p.reads).timeout))).map
          fun s => ⟨s, p.reads + (p.atRead c).toNat, p.steps + 1⟩
      else (p.server.next cfg (.step d input)).map fun s => { p with server := s }
  | a => (p.server.next cfg a).map fun s => { p with server := s }

/-- From state `s` of the server on. -/
def machine (s : DefaultServer) : Machine Dying Action where
  start := ⟨s, 0, 0⟩
  next := next cfg c errs

/-- `handleClient` comes to its end. -/
structure Ends (s : DefaultServer) : Prop where
  /-- it executes a bounded number of statements -/
  bounded : ∃ n, ∀ p, (machine cfg c errs s).Reachable p → p.steps ≤ n
  /-- it is never stuck before the end -/
  progress : ∀ p conn, (machine cfg c errs s).Reachable p → p.server.conns c = some conn →
    conn.state ≠ .ended → ∃ p', p.next cfg c errs (.step c .go) = some p'
  /-- and at the end `handleClientDisconnect` has run and nothing of the client is left -/
  cleaned : ∀ p conn, (machine cfg c errs s).Reachable p → p.server.conns c = some conn →
    conn.state = .ended → CleanedUp cfg p.server c conn

/-- The client has not authenticated under the empty name, and will not: a request that was
read before may still be handled. -/
def Named (s : DefaultServer) : Prop :=
  ∀ p conn, (machine cfg c errs s).Reachable p → p.server.conns c = some conn →
    conn.client.authenticated = true → conn.client.name ≠ ""

end Dying

/-! ## One statement -/

variable {cfg : Config} {sh sh' : Shared} {c : ClientID} {conn conn' : Connection} {e : Failure}

/-- A failed read leaves the loop exactly when the error is recognised. -/
theorem step_reading (at_ : conn.state = .reading)
    (taken : conn.step cfg sh c (.failed e.err e.timeout) conn.state = some (sh', conn')) :
    conn'.state = if e.recognised then .cleaning else .checking := by
  simp only [at_, Connection.step] at taken
  unfold Failure.recognised
  split at taken
  · cases taken
    simp [*, Connection.goto]
  · split at taken <;> cases taken <;> simp [*, Connection.goto]

/-- Any other statement is one fewer to the next read, or to the end. -/
theorem step_rank {input : Input} (apart : conn.state ≠ .reading)
    (taken : conn.step cfg sh c input conn.state = some (sh', conn')) :
    conn'.state.rank < conn.state.rank ∧
      (conn'.state.looping = true → conn.state.looping = true) := by
  cases at_ : conn.state with
  | reading => exact absurd at_ apart
  | dispatching pk =>
      have handler := ConnState.handle_rank pk
      simp only [at_, Connection.step] at taken
      (repeat' split at taken) <;> cases taken <;> refine ⟨?_, fun _ => rfl⟩
      · simp [ConnState.rank, Connection.goto]
      · simp [ConnState.rank, Connection.reply]
      · exact handler
  | cleaning =>
      simp only [at_, Connection.step] at taken
      cases taken
      simp only [Connection.goto]
      split
      · exact ⟨by simp [ConnState.rank], by rintro ⟨⟩⟩
      · exact ⟨by simp [ConnState.rank], by rintro ⟨⟩⟩
  | removing srv | unpublishing srv =>
      simp only [at_, Connection.step] at taken
      cases taken
      exact ⟨by simp [ConnState.rank, Connection.goto], by rintro ⟨⟩⟩
  | ended =>
      rw [at_] at taken
      cases taken
  | _ =>
      simp only [at_, Connection.step] at taken
      (repeat' split at taken) <;> cases taken <;>
        exact ⟨by simp [ConnState.rank, Connection.goto, Connection.reply], fun _ => rfl⟩

/-- Until the end there is a next statement. -/
theorem step_defined (e : Failure) (before : conn.state ≠ .ended) :
    ∃ sh' conn', conn.step cfg sh c (.failed e.err e.timeout) conn.state = some (sh', conn') := by
  cases at_ : conn.state with
  | ended => exact absurd at_ before
  | _ =>
      simp only [Connection.step]
      (repeat' split) <;> exact ⟨_, _, rfl⟩

/-- The loop is left only because of a recognised error or a blocked host. -/
theorem step_looping (looping : conn.state.looping = true) (unblocked : sh.authBlocked cfg c = false)
    (unrecognised : e.recognised = false)
    (taken : conn.step cfg sh c (.failed e.err e.timeout) conn.state = some (sh', conn')) :
    conn'.state.looping = true := by
  cases at_ : conn.state with
  | reading =>
      rw [step_reading at_ taken, unrecognised]
      rfl
  | dispatching pk =>
      simp only [at_, Connection.step] at taken
      (repeat' split at taken) <;> cases taken
      · rfl
      · rfl
      · obtain ⟨k, pk⟩ := pk
        cases k <;> rfl
  | admitting | checking =>
      simp only [at_, Connection.step, unblocked, Bool.and_false, Bool.false_eq_true, if_false] at taken
      cases taken
      rfl
  | cleaning | removing | unpublishing | ended =>
      rw [at_] at looping
      cases looping
  | _ =>
      simp only [at_, Connection.step] at taken
      (repeat' split at taken) <;> cases taken <;> rfl

/-! ## The dying connection among the others -/

namespace Dying

variable {errs : Nat → Failure} {s : DefaultServer} {p p' : Dying} {a : Action}

/-- A statement of another connection, a new connection and what is around them leave
the connection as it is. -/
theorem next_other {s' : DefaultServer} (found : s.conns c = some conn)
    (apart : ∀ input, a ≠ .step c input) (taken : s.next cfg a = some s') :
    s'.conns c = some conn := by
  refine DefaultServer.next_elim taken ?accept ?step ?ambient
  case accept =>
    rintro d fresh rfl
    have other : c ≠ d := by
      rintro rfl
      cases found.symm.trans fresh
    exact (Function.update_of_ne other ..).trans found
  case step =>
    rintro d input _ _ _ rfl - - rfl
    have other : c ≠ d := by
      rintro rfl
      exact apart input rfl
    exact (Function.update_of_ne other ..).trans found
  case ambient =>
    intro conns _
    rw [conns]
    exact found

theorem next_cases (found : p.server.conns c = some conn)
    (taken : p.next cfg c errs a = some p') :
    (∃ a', p.server.next cfg a' = some p'.server) ∧
      ((∃ sh' conn', conn.step cfg p.server.shared c
          (.failed (errs p.reads).err (errs p.reads).timeout) conn.state = some (sh', conn') ∧
        p'.server.conns c = some conn' ∧
        p'.reads = p.reads + (decide (conn.state = .reading)).toNat ∧ p'.steps = p.steps + 1) ∨
      (p'.server.conns c = some conn ∧ p'.reads = p.reads ∧ p'.steps = p.steps)) := by
  have elsewhere : (∀ input, a ≠ .step c input) →
      (p.server.next cfg a).map (fun s => { p with server := s }) = some p' →
      (∃ a', p.server.next cfg a' = some p'.server) ∧
        p'.server.conns c = some conn ∧ p'.reads = p.reads ∧ p'.steps = p.steps := by
    intro apart taken
    simp only [Option.map_eq_some_iff] at taken
    obtain ⟨s', step, rfl⟩ := taken
    exact ⟨⟨a, step⟩, next_other found apart step, rfl, rfl⟩
  cases a with
  | step d input =>
      by_cases own : d = c
      · simp only [next, if_pos own, Option.map_eq_some_iff] at taken
        obtain ⟨s', step, rfl⟩ := taken
        refine ⟨⟨_, step⟩, .inl ?_⟩
        simp only [DefaultServer.next, found, Option.map_eq_some_iff] at step
        obtain ⟨⟨sh', conn'⟩, step, rfl⟩ := step
        refine ⟨sh', conn', step, Function.update_self .., ?_, rfl⟩
        simp [atRead, found]
      · simp only [next, if_neg own] at taken
        obtain ⟨step, rest⟩ := elsewhere (by rintro input' ⟨⟩; exact own rfl) taken
        exact ⟨step, .inr rest⟩
  | _ =>
      obtain ⟨step, rest⟩ := elsewhere (by rintro _ ⟨⟩) taken
      exact ⟨step, .inr rest⟩

/-- The connection is there, and the server is one that can be reached. -/
theorem reachable (reached : (DefaultServer.machine cfg).Reachable s)
    (found : s.conns c = some conn) (later : (machine cfg c errs s).Reachable p) :
    (DefaultServer.machine cfg).Reachable p.server ∧ ∃ conn, p.server.conns c = some conn := by
  refine later.invariant (I := fun p => (DefaultServer.machine cfg).Reachable p.server ∧
    ∃ conn, p.server.conns c = some conn) ⟨reached, conn, found⟩ ?_
  rintro p p' a - ⟨reached, conn, found⟩ - taken
  obtain ⟨⟨a', step⟩, ⟨_, conn', -, there, -⟩ | ⟨there, -⟩⟩ := next_cases found taken
  · exact ⟨.step reached trivial step, conn', there⟩
  · exact ⟨.step reached trivial step, conn, there⟩

theorem next_own {sh' : Shared} {conn' : Connection} (found : p.server.conns c = some conn)
    (step : conn.step cfg p.server.shared c (.failed (errs p.reads).err (errs p.reads).timeout)
      conn.state = some (sh', conn')) :
    p.next cfg c errs (.step c .go) =
      some ⟨⟨sh', Function.update p.server.conns c (some conn')⟩, p.reads + (p.atRead c).toNat,
        p.steps + 1⟩ := by
  simp only [next, if_true, DefaultServer.next, found, step, Option.map_some]

/-- Until its end the connection can execute its next statement. -/
theorem advance (later : (machine cfg c errs s).Reachable p) (found : p.server.conns c = some conn)
    (before : conn.state ≠ .ended) :
    ∃ p' sh' conn', (machine cfg c errs s).Reachable p' ∧ p'.steps = p.steps + 1 ∧
      p'.server.conns c = some conn' ∧
      conn.step cfg p.server.shared c (.failed (errs p.reads).err (errs p.reads).timeout)
        conn.state = some (sh', conn') := by
  obtain ⟨sh', conn', step⟩ := step_defined (errs p.reads) before
  exact ⟨_, sh', conn', .step (a := .step c .go) later trivial (next_own found step), rfl,
    Function.update_self .., step⟩

/-! ## The name -/

/-- The client of an authenticated connection stays what it is. -/
theorem client_kept (found : s.conns c = some conn)
    (authenticated : conn.client.authenticated = true)
    (later : (machine cfg c errs s).Reachable p) :
    ∃ conn', p.server.conns c = some conn' ∧ conn'.client = conn.client := by
  refine later.invariant (I := fun p =>
    ∃ conn', p.server.conns c = some conn' ∧ conn'.client = conn.client) ⟨conn, found, rfl⟩ ?_
  rintro p p' a - ⟨conn', found, same⟩ - taken
  obtain ⟨-, ⟨_, conn'', step, there, -⟩ | ⟨there, -⟩⟩ := next_cases found taken
  · have kept := (step_effect step).client (by rw [same]; exact authenticated)
    exact ⟨conn'', there, kept.trans same⟩
  · exact ⟨conn', there, same⟩

theorem named_of_authenticated (found : s.conns c = some conn)
    (authenticated : conn.client.authenticated = true) (nonempty : conn.client.name ≠ "") :
    Named cfg c errs s := by
  intro p conn' later there _
  obtain ⟨conn'', there', same⟩ := client_kept found authenticated later
  cases there.symm.trans there'
  rw [same]
  exact nonempty

/-- A connection whose statements are bounded executes them to the end. -/
theorem Ends.runs_on (ends : Ends cfg c errs s) (later : (machine cfg c errs s).Reachable p)
    (found : p.server.conns c = some conn) (authenticated : conn.client.authenticated = true) :
    ∃ p' conn', (machine cfg c errs s).Reachable p' ∧ p'.server.conns c = some conn' ∧
      conn'.state = .ended ∧ conn'.client = conn.client := by
  obtain ⟨n, most⟩ := ends.bounded
  -- on the statements that are left before the bound is reached
  induction left : n - p.steps generalizing p conn with
  | zero =>
      by_cases completed : conn.state = .ended
      · exact ⟨p, conn, later, found, completed, rfl⟩
      · obtain ⟨p', _, _, later', count, -⟩ := advance later found completed
        have within := most p' later'
        omega
  | succ k ih =>
      by_cases completed : conn.state = .ended
      · exact ⟨p, conn, later, found, completed, rfl⟩
      · obtain ⟨p', _, conn', later', count, found', step⟩ := advance later found completed
        have kept := (step_effect step).client authenticated
        obtain ⟨q, conn'', later'', found'', completed', same⟩ :=
          ih later' found' (by rw [kept]; exact authenticated) (by omega)
        exact ⟨q, conn'', later'', found'', completed', same.trans kept⟩

/-- What is left behind under the empty name is not cleaned up. -/
theorem Ends.named (reached : (DefaultServer.machine cfg).Reachable s)
    (found : s.conns c = some conn) (ends : Ends cfg c errs s) : Named cfg c errs s := by
  intro p conn' later there authenticated empty
  obtain ⟨p', conn'', later', there', completed, same⟩ := ends.runs_on later there authenticated
  have held := (DefaultServer.claimed (reachable reached found later').1).held c conn'' there'
    (by rw [same]; exact authenticated) (.inr (by rw [same]; exact empty))
  exact (ends.cleaned p' conn'' later' there' completed).clients _ held

/-! ## A recognised error -/

/-- Given that `errs k` is recognised: what is left to execute. -/
def left (k : Nat) (p : Dying) (conn : Connection) : Nat :=
  2 * (k + 1 - p.reads) + conn.state.rank

/-- The statements executed are taken from a fixed supply. -/
def Spent (c : ClientID) (errs : Nat → Failure) (k supply : Nat) (p : Dying) : Prop :=
  ∃ conn, p.server.conns c = some conn ∧ p.steps + left k p conn ≤ supply ∧
    (conn.state.looping = true → p.reads ≤ k ∧ (errs k).recognised = true)

theorem Spent.next {k supply : Nat} (spent : Spent c errs k supply p)
    (taken : p.next cfg c errs a = some p') : Spent c errs k supply p' := by
  obtain ⟨conn, found, supplied, reads⟩ := spent
  obtain ⟨-, ⟨sh', conn', step, there, read, count⟩ | ⟨there, read, count⟩⟩ := next_cases found taken
  · by_cases reading : conn.state = .reading
    · obtain ⟨within, sure⟩ := reads (by rw [reading]; rfl)
      have state := step_reading reading step
      unfold left at supplied
      rw [reading] at supplied
      simp only [reading, decide_true, Bool.toNat_true] at read
      cases known : (errs p.reads).recognised with
      | true =>
          rw [known] at state
          refine ⟨conn', there, ?_, by simp [state, ConnState.looping]⟩
          simp only [left, state, read, count, if_true, ConnState.rank] at supplied ⊢
          omega
      | false =>
          -- the recognised one is still to come
          have earlier : p.reads ≠ k := by
            rintro rfl
            rw [known] at sure
            cases sure
          rw [known] at state
          refine ⟨conn', there, ?_, fun _ => ⟨by omega, sure⟩⟩
          simp only [left, state, read, count, Bool.false_eq_true, if_false, ConnState.rank] at supplied ⊢
          omega
    · obtain ⟨lower, back⟩ := step_rank reading step
      simp only [reading, decide_false, Bool.toNat_false, Nat.add_zero] at read
      refine ⟨conn', there, ?_, ?_⟩
      · unfold left at supplied ⊢
        rw [read, count]
        omega
      · rw [read]
        exact fun looping => reads (back looping)
  · refine ⟨conn, there, ?_, ?_⟩
    · unfold left at supplied ⊢
      rw [read, count]
      exact supplied
    · rw [read]
      exact reads

theorem bounded {k : Nat} (found : s.conns c = some conn)
    (recognised : conn.state.looping = true → (errs k).recognised = true)
    (later : (machine cfg c errs s).Reachable p) :
    p.steps ≤ 2 * (k + 1) + conn.state.rank := by
  have spent : Spent c errs k (2 * (k + 1) + conn.state.rank) p := by
    refine later.invariant (I := Spent c errs k (2 * (k + 1) + conn.state.rank)) ?_ ?_
    · exact ⟨conn, found, Nat.le_of_eq (Nat.zero_add _), fun looping =>
        ⟨Nat.zero_le k, recognised looping⟩⟩
    · exact fun _ _ _ _ spent _ taken => spent.next taken
  obtain ⟨_, -, supplied, -⟩ := spent
  omega

/-! ## No recognised error -/

/-- Wait until the host is not blocked, then execute the next statement. -/
theorem round (unrecognised : ∀ i, (errs i).recognised = false)
    (found : p.server.conns c = some conn) (looping : conn.state.looping = true)
    (later : (machine cfg c errs s).Reachable p) :
    ∃ p' conn', (machine cfg c errs s).Reachable p' ∧ p'.steps = p.steps + 1 ∧
      p'.server.conns c = some conn' ∧ conn'.state.looping = true := by
  obtain ⟨duration, lifted⟩ :=
    p.server.shared.authThrottle.exists_unblocked (cfg.host c) p.server.shared.now
  let waited : Dying := { p with
    server := { p.server with
      shared := { p.server.shared with now := p.server.shared.now + duration } } }
  have later : (machine cfg c errs s).Reachable waited :=
    .step (a := .tick duration) later trivial rfl
  have before : conn.state ≠ .ended := by
    intro at_
    rw [at_] at looping
    cases looping
  obtain ⟨p', _, conn', later', count, there, step⟩ := advance (p := waited) later found before
  have unblocked : waited.server.shared.authBlocked cfg c = false := lifted
  exact ⟨p', conn', later', count, there,
    step_looping looping unblocked (unrecognised _) step⟩

theorem endless (unrecognised : ∀ i, (errs i).recognised = false) (found : s.conns c = some conn)
    (looping : conn.state.looping = true) (n : Nat) :
    ∃ p conn', (machine cfg c errs s).Reachable p ∧ p.steps = n ∧
      p.server.conns c = some conn' ∧ conn'.state.looping = true := by
  induction n with
  | zero => exact ⟨⟨s, 0, 0⟩, conn, .start, rfl, found, looping⟩
  | succ n ih =>
      obtain ⟨p, conn', later, count, found, looping⟩ := ih
      obtain ⟨p', conn'', later, more, rest⟩ := round unrecognised found looping later
      exact ⟨p', conn'', later, more.trans (congrArg (· + 1) count), rest⟩

end Dying

/-- `handleClient` ends and cleans up, from any state of any run on, exactly when it has left
its loop already or one of the errors to come mentions EOF or closed, or is a timeout, and the
client's name is not the empty one. -/
theorem dead_connection_ends (cfg : Config) (s : DefaultServer)
    (reached : (DefaultServer.machine cfg).Reachable s) (c : ClientID) (conn : Connection)
    (found : s.conns c = some conn) (errs : Nat → Failure) :
    Dying.Ends cfg c errs s ↔
      (conn.state.looping = true → ∃ i, (errs i).recognised = true) ∧
        Dying.Named cfg c errs s := by
  constructor
  · refine fun ends => ⟨fun looping => ?_, ends.named reached found⟩
    by_contra never
    obtain ⟨n, most⟩ := ends.bounded
    have unrecognised : ∀ i, (errs i).recognised = false := fun i =>
      eq_false_of_ne_true fun recognised => never ⟨i, recognised⟩
    obtain ⟨p, _, later, count, -⟩ := Dying.endless unrecognised found looping (n + 1)
    have := most p later
    omega
  · rintro ⟨recognised, named⟩
    obtain ⟨k, recognised⟩ : ∃ k, conn.state.looping = true → (errs k).recognised = true := by
      by_cases looping : conn.state.looping = true
      · obtain ⟨k, known⟩ := recognised looping
        exact ⟨k, fun _ => known⟩
      · exact ⟨0, fun impossible => absurd impossible looping⟩
    refine ⟨⟨_, fun p later => Dying.bounded found recognised later⟩, ?_, ?_⟩
    · intro p conn later found before
      obtain ⟨sh', conn', step⟩ := step_defined (errs p.reads) before
      exact ⟨_, Dying.next_own found step⟩
    · intro p conn' later there completed
      have reached := (Dying.reachable reached found later).1
      exact DefaultServer.cleanedUp reached there completed (named p conn' later there)

/-- A backend that had registered is gone without a word: the reads time out. -/
def timedOut : Failure := ⟨"read tcp 10.0.0.1:19131->10.0.0.2:50100: i/o timeout", true⟩

/-- The peer reset the connection. -/
def reset : Failure := ⟨"read tcp 10.0.0.1:19131->10.0.0.2:50100: connection reset by peer", false⟩

/-- One reset, and time-outs after it. -/
theorem dead_connection_ends_timedOut :
    ∃ s conn, (DefaultServer.machine .oneHost).Reachable s ∧ s.conns 0 = some conn ∧
      conn.state = .reading ∧ conn.registered = [backend 0 "lobby" "a:1"] ∧
      Dying.Ends .oneHost 0 (fun i => if i = 0 then reset else timedOut) s := by
  have reached : (DefaultServer.machine .oneHost).Reachable _ :=
    Machine.exec_reach (Action.login 0 "lobby" ++ Action.register 0 "a:1" ++ Action.go 0 2) rfl
  obtain ⟨s, conn, reached, found, at_, registered, client⟩ : ∃ s conn,
      (DefaultServer.machine .oneHost).Reachable s ∧ s.conns 0 = some conn ∧
      conn.state = .reading ∧ conn.registered = [backend 0 "lobby" "a:1"] ∧
      conn.client = ⟨"lobby", true⟩ :=
    ⟨_, _, reached, rfl, rfl, rfl, rfl⟩
  refine ⟨s, conn, reached, found, at_, registered, ?_⟩
  refine (dead_connection_ends _ s reached 0 conn found _).mpr ⟨fun _ => ⟨1, Bool.or_true _⟩, ?_⟩
  exact Dying.named_of_authenticated found (by rw [client]) (by rw [client]; decide)

/-- The same backend's connection is reset for good: `handleClient` goes on for ever. -/
theorem reset_connection_stays :
    ∃ s conn, (DefaultServer.machine .oneHost).Reachable s ∧ s.conns 0 = some conn ∧
      conn.state = .reading ∧ conn.registered = [backend 0 "lobby" "a:1"] ∧
      ¬ Dying.Ends .oneHost 0 (fun _ => reset) s := by
  have reached : (DefaultServer.machine .oneHost).Reachable _ :=
    Machine.exec_reach (Action.login 0 "lobby" ++ Action.register 0 "a:1" ++ Action.go 0 2) rfl
  obtain ⟨s, conn, reached, found, at_, registered⟩ : ∃ s conn,
      (DefaultServer.machine .oneHost).Reachable s ∧ s.conns 0 = some conn ∧
      conn.state = .reading ∧ conn.registered = [backend 0 "lobby" "a:1"] :=
    ⟨_, _, reached, rfl, rfl, rfl⟩
  refine ⟨s, conn, reached, found, at_, registered, fun ends => ?_⟩
  obtain ⟨n, most⟩ := ends.bounded
  have unrecognised : reset.recognised = false := by
    have silent : containsAny reset.err ["EOF", "closed"] = false :=
      containsAny_eq_false (x := 'E') (y := 'l') (by decide) (by decide) (by decide) (by decide)
    rw [Failure.recognised, silent]
    rfl
  obtain ⟨p, _, later, count, -⟩ :=
    Dying.endless (fun _ => unrecognised) found (by rw [at_]; rfl) (n + 1)
  have := most p later
  omega

end Portal.Socket
