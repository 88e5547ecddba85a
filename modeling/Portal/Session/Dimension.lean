/-
# Session.Dimension — the dimension the client is in, and the one it is sent to

A transfer is masked by two changes of dimension: `Transfer` sends the client to the
dimension `selectProxyDimension` finds, `finishTransferDimensionChange` to that of the target.
A change to the dimension the client is in already is none, so nothing would confirm it.

The proxy does not keep the dimension of the client.  `Transfer` takes it to be that in the
`GameData` of the current connection, where the client was when it spawned; the
`ChangeDimension` packets of the backend pass the server->client loop unnoticed, before a
transfer and while it is pending (`masking_change_repeats`).  `travels` is the session with the
dimensions the client has been sent to, the last of which is the one it is in.

`inTurn` says of a step that the client is where `Transfer` takes it to be and that the two
changes are made in turn.  In runs of such steps the pending transfer has the client away from
its target (`Away`), and both changes are real (`masking_change_real`).
-/
import Portal.Session.Acknowledge

namespace Portal

open Portal.Theory.Transition

set_option autoImplicit false

/-- `login()` has not started the game of the client yet. -/
def LoginState.unspawned : LoginState → Bool
  | .unstarted => true
  | .dialing _ => true
  | .assigning _ => true
  | .spawning _ => true
  | _ => false

/-- `finishTransferDimensionChange` has written its `ChangeDimension` and not switched yet. -/
def ClientState.announced : ClientState → Bool
  | .wiping _ _ => true
  | .reviving _ _ => true
  | .dropping _ _ => true
  | .switching _ _ => true
  | _ => false

namespace Session

/-! ## Where the client is -/

/-- The dimension of the `ChangeDimension` that `Transfer` or
`finishTransferDimensionChange` writes in this statement. -/
def masks (s : Session) : Actor → Option Int32
  | .call i =>
      match s.calls i with
      | some ⟨_, .changing _ dimension⟩ => some dimension
      | _ => none
  | .client =>
      match s.client with
      | .announcing _ c => some c.gameData.dimension
      | _ => none
  | _ => none

/-- The dimension of the `ChangeDimension` of the backend that is forwarded. -/
def relays (s : Session) : Input → Option Int32
  | .go =>
      match s.serverLoop with
      | .writing _ _ (.changeDimension dimension) => some dimension
      | _ => none
  | _ => none

/-- The dimension of `s.serverConn.GameData()`, which `login()` starts the game of the client
with. -/
def spawns (s : Session) : Option Int32 :=
  match s.login with
  | .spawning c => some c.gameData.dimension
  | _ => none

/-- The dimension a statement sends the client to. -/
def sends (s : Session) : Action → List Int32
  | (.login, _) => s.spawns.toList
  | (.server, input) => (s.relays input).toList
  | (actor, _) => (s.masks actor).toList

/-- The session beside the dimensions the client was sent to. -/
def travels : Machine (Session × List Int32) Action := machine.record sends

/-- The client is in some dimension, and not in this one. -/
def Elsewhere (visited : List Int32) (dimension : Int32) : Prop :=
  ∃ here, visited.getLast? = some here ∧ here ≠ dimension

/-! ## The condition on a step -/

/-- The call that dialed the connection has published it, and its `ChangeDimension` is still
to be written. -/
def owed (s : Session) (c : Conn) : Bool :=
  match c.dialer with
  | .transfer i => s.owes i
  | .login => false

/-- The dimension that the call which dialed the connection has chosen, and not yet written. -/
def chosen (s : Session) (c : Conn) : Option Int32 :=
  match c.dialer with
  | .transfer i => s.masks (.call i)
  | .login => none

/-- When `Transfer` chooses, the client is in the dimension of the current connection's
`GameData` or of the target's; `Transfer` writes while its connection is pending, and
`finishTransferDimensionChange` after `Transfer`.  Between the choice and the write the backend
does not send the client anywhere, and from then on not to the target's dimension. -/
def inTurn (p : Session × List Int32) (a : Action) : Bool :=
  match a with
  | (.call i, _) =>
      match p.1.calls i, p.1.serverConn with
      | some ⟨_, .selecting c⟩, some current =>
          p.2.getLast? = some current.gameData.dimension ∨
            p.2.getLast? = some c.gameData.dimension
      | some ⟨_, .changing c _⟩, _ => p.1.tempServerConn = some c
      | _, _ => true
  | (.client, _) =>
      match p.1.client with
      | .announcing _ c => !p.1.owed c
      | _ => true
  | (.server, input) =>
      match p.1.relays input, p.1.tempServerConn with
      | some dimension, some c =>
          p.1.chosen c = none ∧
            (p.1.client.announced = true ∨ dimension ≠ c.gameData.dimension)
      | _, _ => true
  | _ => true

/-! ## The pending transfer has the client away from its target -/

/-- What holds between two statements.  A call that has chosen a dimension finds the client
elsewhere while its connection is pending; once it has written its `ChangeDimension`, the
client is away from the target's dimension until `finishTransferDimensionChange` sends it
there. -/
structure Away (s : Session) (visited : List Int32) : Prop where
  quiet : s.login.unspawned = true → visited = []
  chosen : ∀ i srv c dimension, s.calls i = some ⟨srv, .changing c dimension⟩ →
    dimension ≠ c.gameData.dimension ∧
      (s.tempServerConn = some c → Elsewhere visited dimension)
  pending : ∀ c, s.tempServerConn = some c → s.owed c = false → s.client.announced = false →
    Elsewhere visited c.gameData.dimension

theorem away_start : Away initial [] where
  quiet := fun _ => rfl
  chosen := by
    intro i srv c dimension called
    cases called
  pending := by
    intro c set
    cases set

/-- The dimension found is neither of the two. -/
theorem selectProxyDimension_ne (source target : Int32) :
    selectProxyDimension source target ≠ source ∧ selectProxyDimension source target ≠ target := by
  obtain ⟨dimension, found⟩ : ∃ dimension, (([0, 1, 2] : List Int32).find? fun dimension =>
      dimension ≠ source ∧ dimension ≠ target) = some dimension := by
    apply Option.isSome_iff_exists.mp
    rw [List.find?_isSome]
    by_cases first : (0 : Int32) ≠ source ∧ (0 : Int32) ≠ target
    · exact ⟨0, by simp, by simpa using first⟩
    · by_cases second : (1 : Int32) ≠ source ∧ (1 : Int32) ≠ target
      · exact ⟨1, by simp, by simpa using second⟩
      · refine ⟨2, by simp, ?_⟩
        grind
  have apart := List.find?_some found
  rw [selectProxyDimension, found]
  simpa using apart

variable {s s' : Session} {visited : List Int32} {input : Input} {a : Action}

theorem elsewhere_append {here dimension : Int32} (apart : here ≠ dimension) :
    Elsewhere (visited ++ [here]) dimension :=
  ⟨here, List.getLast?_concat, apart⟩

theorem paid_before {c : Conn} (owes : ∀ i, s.owes i = true → s'.owes i = true)
    (free : s'.owed c = false) : s.owed c = false := by
  unfold owed at free ⊢
  split
  · rename_i i dialer
    simp only [dialer] at free
    exact Bool.eq_false_iff.mpr fun owing => Bool.eq_false_iff.mp free (owes i owing)
  · rfl

/-- A step that publishes nothing, writes no `ChangeDimension` and chooses no dimension. -/
theorem Away.moves (away : Away s visited)
    (login : s'.login.unspawned = true → s.login.unspawned = true)
    (calls : ∀ i srv c dimension, s'.calls i = some ⟨srv, .changing c dimension⟩ →
      s.calls i = some ⟨srv, .changing c dimension⟩)
    (owes : ∀ i, s.owes i = true → s'.owes i = true)
    (temp : ∀ c, s'.tempServerConn = some c → s.tempServerConn = some c)
    (client : ∀ c, s'.tempServerConn = some c → s.client.announced = true →
      s'.client.announced = true) : Away s' visited where
  quiet := fun before => away.quiet (login before)
  chosen := by
    intro i srv c dimension called
    obtain ⟨apart, elsewhere⟩ := away.chosen i srv c dimension (calls i srv c dimension called)
    exact ⟨apart, fun set => elsewhere (temp c set)⟩
  pending := by
    intro c set free before
    refine away.pending c (temp c set) (paid_before owes free) ?_
    exact Bool.eq_false_iff.mpr fun after => Bool.eq_false_iff.mp before (client c set after)

/-- A step that touches nothing of this. -/
theorem Away.frame (away : Away s visited) (login : s'.login = s.login) (calls : s'.calls = s.calls)
    (temp : s'.tempServerConn = s.tempServerConn) (client : s'.client = s.client) :
    Away s' visited := by
  refine away.moves (login ▸ id) (fun _ _ _ _ called => calls ▸ called) ?_
    (fun _ set => temp ▸ set) (fun _ _ => client ▸ id)
  intro i owing
  simpa only [Session.owes, calls] using owing

/-- A step that writes nothing. -/
theorem Away.silent (away : Away s' visited) (silent : s.sends a = []) :
    Away s' (visited ++ s.sends a) := by
  rw [silent, List.append_nil]
  exact away

/-- The client is sent to a dimension that is neither one chosen nor the target's. -/
theorem Away.says (away : Away s visited) {here : Int32} (spawned : s.login.unspawned = false)
    (chosen : ∀ i srv c dimension, s.calls i = some ⟨srv, .changing c dimension⟩ →
      s.tempServerConn = some c → here ≠ dimension)
    (pending : ∀ c, s.tempServerConn = some c → s.client.announced = false →
      here ≠ c.gameData.dimension) : Away s (visited ++ [here]) where
  quiet := fun before => absurd (spawned.symm.trans before) Bool.false_ne_true
  chosen := fun i srv c dimension called =>
    ⟨(away.chosen i srv c dimension called).1,
      fun set => elsewhere_append (chosen i srv c dimension called set)⟩
  pending := fun c set _ before => elsewhere_append (pending c set before)

/-! ### `Transfer` -/

/-- Somebody calls `Transfer`. -/
theorem Away.enters (away : Away s visited) {i : TransferID} {target : Server}
    (fresh : s.calls i = none) (calls : s'.calls = (s.setCall i target .waiting).calls)
    (temp : s'.tempServerConn = s.tempServerConn) (login : s'.login = s.login)
    (client : s'.client = s.client) : Away s' visited := by
  refine away.moves (login ▸ id) ?_ ?_ (fun c set => temp ▸ set) (fun _ _ => client ▸ id)
  · intro j srv c dimension found
    rw [calls] at found
    rcases calls_update found with ⟨-, moved⟩ | ⟨-, before⟩
    · cases moved
    · exact before
  · intro j owing
    have kept : (s.setCall i target .waiting).owes j = s.owes j := owes_enter fresh j
    rw [← kept] at owing
    simpa only [Session.owes, calls] using owing

/-- A call moves between two statements at both or neither of which it owes its
`ChangeDimension`. -/
theorem Away.call_moves (away : Away s visited) {i : TransferID} {call : Call} {target : Server}
    {state : CallState} (called : s.calls i = some call)
    (calls : s'.calls = Function.update s.calls i (some ⟨target, state⟩))
    (same : state.owes = call.state.owes) (unchosen : ∀ c dimension, state ≠ .changing c dimension)
    (temp : s'.tempServerConn = s.tempServerConn) (login : s'.login = s.login)
    (client : s'.client = s.client) : Away s' visited := by
  refine away.moves (login ▸ id) ?_ ?_ (fun c set => temp ▸ set) (fun _ _ => client ▸ id)
  · intro j srv c dimension found
    rw [calls] at found
    rcases calls_update found with ⟨-, moved⟩ | ⟨-, before⟩
    · exact absurd (congrArg Call.state moved).symm (unchosen c dimension)
    · exact before
  · intro j owing
    have kept : (s.setCall i target state).owes j = s.owes j := owes_setCall called same j
    rw [← kept] at owing
    simpa only [Session.owes, setCall, calls] using owing

/-- A connection is in the hands of the call that dialed it. -/
theorem Wired.call_unique (w : Wired s) {i j : TransferID} {call call' : Call} {c : Conn}
    (called : s.calls i = some call) (holds : call.state.conn = some c)
    (called' : s.calls j = some call') (holds' : call'.state.conn = some c) : j = i := by
  obtain ⟨dialer, -⟩ := w.calls i call c called holds
  obtain ⟨dialer', -⟩ := w.calls j call' c called' holds'
  exact Dialer.transfer.inj (dialer'.symm.trans dialer)

/-- The `serverMu` section: the call owes its `ChangeDimension` from now on. -/
theorem Away.publishes (away : Away s visited) (w : Wired s) {i : TransferID} {target : Server}
    {c : Conn} (called : s.calls i = some ⟨target, .publishing c⟩) :
    Away { (s.setCall i target (.selecting c)).setTimer i (.armed target) with
      tempServerConn := some c
      pendingServer := some target
      transferConfirmTimer := some i } visited := by
  obtain ⟨dialer, -⟩ := w.calls i _ c called rfl
  constructor
  · exact away.quiet
  · intro j srv c' dimension found
    rcases calls_update found with ⟨-, moved⟩ | ⟨other, before⟩
    · cases moved
    · refine ⟨(away.chosen j srv c' dimension before).1, fun set => ?_⟩
      cases set
      exact absurd (w.call_unique called rfl before rfl) other
  · intro c' set free
    cases set
    simp [owed, dialer, owes, setCall, setTimer, CallState.owes] at free

/-- The choice: the client is in one of the two dimensions that it avoids. -/
theorem Away.chooses (away : Away s visited) {i : TransferID} {target : Server} {c current : Conn}
    (called : s.calls i = some ⟨target, .selecting c⟩)
    (where_ : visited.getLast? = some current.gameData.dimension ∨
      visited.getLast? = some c.gameData.dimension) :
    Away (s.setCall i target (.changing c
      (selectProxyDimension current.gameData.dimension c.gameData.dimension))) visited := by
  obtain ⟨source, aim⟩ :=
    selectProxyDimension_ne current.gameData.dimension c.gameData.dimension
  constructor
  · exact away.quiet
  · intro j srv c' dimension found
    rcases calls_update found with ⟨-, moved⟩ | ⟨-, before⟩
    · cases moved
      refine ⟨aim, fun _ => ?_⟩
      rcases where_ with here | here
      · exact ⟨_, here, source.symm⟩
      · exact ⟨_, here, aim.symm⟩
    · exact away.chosen j srv c' dimension before
  · intro c' set free before
    refine away.pending c' set ?_ before
    exact paid_before (fun k owing => (owes_setCall called (by rfl) k).trans owing) free

/-- The `ChangeDimension` of `Transfer`, written while its connection is pending. -/
theorem Away.transfers (away : Away s visited) (w : Wired s) {i : TransferID} {target : Server}
    {c : Conn} {dimension : Int32} (called : s.calls i = some ⟨target, .changing c dimension⟩)
    (set : s.tempServerConn = some c) :
    Away { s.setCall i target (.returned none) with unacked := s.unacked ++ [.transfer i] }
      (visited ++ [dimension]) := by
  obtain ⟨apart, elsewhere⟩ := away.chosen i target c dimension called
  constructor
  · intro before
    obtain ⟨here, last, -⟩ := elsewhere set
    rw [away.quiet before] at last
    cases last
  · intro j srv c' dimension' found
    rcases calls_update found with ⟨-, moved⟩ | ⟨other, before⟩
    · cases moved
    · refine ⟨(away.chosen j srv c' dimension' before).1, fun set' => ?_⟩
      cases set.symm.trans set'
      exact absurd (w.call_unique called rfl before rfl) other
  · intro c' set' _ _
    cases set.symm.trans set'
    exact elsewhere_append apart

theorem callNext_away {i : TransferID} (away : Away s visited) (w : Wired s)
    (ok : inTurn (s, visited) (.call i, input) = true) (taken : s.callNext i input = some s') :
    Away s' (visited ++ s.sends (.call i, input)) := by
  unfold callNext at taken
  split at taken
  · rename_i none_
    refine Away.silent ?_ (by simp [sends, masks, none_])
    split at taken
    · obtain ⟨fresh, rfl⟩ := enter_spec taken
      exact away.enters fresh rfl rfl rfl rfl
    · cases taken
  · rename_i call called
    obtain ⟨target, state⟩ := call
    cases state with
    | publishing c =>
        refine Away.silent ?_ (by simp [sends, masks, called])
        simp only [callStep] at taken
        split at taken <;> cases taken
        exact away.publishes w called
    | selecting c =>
        refine Away.silent ?_ (by simp [sends, masks, called])
        simp only [callStep] at taken
        split at taken <;> cases taken
        · exact away.frame rfl rfl rfl rfl
        · rename_i current conn
          simp only [inTurn, called, conn, decide_eq_true_eq] at ok
          exact away.chooses called ok
    | changing c dimension =>
        have sent : s.sends (.call i, input) = [dimension] := by simp [sends, masks, called]
        rw [sent]
        simp only [inTurn, called, decide_eq_true_eq] at ok
        simp only [callStep, Option.some.injEq] at taken
        subst taken
        exact away.transfers w called ok
    | _ =>
        refine Away.silent ?_ (by simp [sends, masks, called])
        simp only [callStep] at taken
        (repeat' split at taken) <;> cases taken <;> first
          | exact away.call_moves called rfl rfl (by simp) rfl rfl rfl
          | exact away.frame rfl rfl rfl rfl

/-! ### The login goroutine and the loops -/

/-- The client spawns, or nothing is sent to it. -/
theorem loginStep_away (away : Away s visited) (w : Wired s)
    (taken : s.loginStep input s.login = some s') :
    Away s' (visited ++ s.sends (.login, input)) := by
  obtain ⟨client, -⟩ := w.loops_unstarted (loginStep_unjoined taken)
  cases at_ : s.login with
  | spawning c =>
      have nowhere : visited = [] := away.quiet (by rw [at_]; rfl)
      subst nowhere
      have spawned : s'.login.unspawned = false ∧ s'.calls = s.calls ∧
          s'.tempServerConn = s.tempServerConn ∧ s'.client = s.client := by
        simp only [at_, loginStep] at taken
        split at taken <;> cases taken <;> exact ⟨rfl, rfl, rfl, rfl⟩
      obtain ⟨login, calls, temp, client'⟩ := spawned
      -- nobody has chosen a dimension or written one: the client was in none
      constructor
      · exact fun before => absurd (login.symm.trans before) Bool.false_ne_true
      · intro i srv c' dimension called
        rw [calls] at called
        obtain ⟨apart, elsewhere⟩ := away.chosen i srv c' dimension called
        refine ⟨apart, fun set => ?_⟩
        obtain ⟨_, last, -⟩ := elsewhere (temp ▸ set)
        cases last
      · intro c' set free before
        have owes : ∀ i, s.owes i = true → s'.owes i = true := by
          intro i owing
          simpa only [Session.owes, calls] using owing
        obtain ⟨_, last, -⟩ := away.pending c' (temp ▸ set) (paid_before owes free) (client' ▸ before)
        cases last
  | _ =>
      refine Away.silent ?_ (by simp [sends, spawns, at_])
      simp only [at_, loginStep] at taken
      (repeat' split at taken) <;> cases taken <;>
        exact away.moves (by simp [at_, LoginState.unspawned]) (fun _ _ _ _ => id) (fun _ => id)
          (fun _ => id) (by simp [client, ClientState.announced])

/-- The `ChangeDimension` of the backend, or nothing is written. -/
theorem serverStep_away (away : Away s visited) (w : Wired s)
    (ok : inTurn (s, visited) (.server, input) = true)
    (taken : s.serverStep input s.serverLoop = some s') :
    Away s' (visited ++ s.sends (.server, input)) := by
  have said : Away s (visited ++ s.sends (.server, input)) := by
    cases written : s.relays input with
    | none => exact away.silent (by simp [sends, written])
    | some here =>
        have sent : s.sends (.server, input) = [here] := by simp [sends, written]
        rw [sent]
        have started : s.serverLoop ≠ .unstarted := by
          intro at_
          rw [at_] at taken
          cases taken
        simp only [inTurn, written] at ok
        refine away.says (by rw [w.serverLoop started]; rfl) ?_ ?_
        · intro i srv c dimension called set
          obtain ⟨dialer, -⟩ := w.calls i _ c called rfl
          simp [set, chosen, dialer, masks, called] at ok
        · intro c set before same
          simp only [set, decide_eq_true_eq] at ok
          rcases ok.2 with after | apart
          · exact Bool.false_ne_true (before.symm.trans after)
          · exact apart same
  obtain ⟨_, _, _, _, _, _, rfl⟩ := serverStep_frame taken
  exact said.frame rfl rfl rfl rfl

/-- What `finishTransferDimensionChange` has written it has written until it switches. -/
theorem clientStep_announced (still : ∀ f c, s.client ≠ .switching f c)
    (taken : s.clientStep input s.client = some s') (after : s.client.announced = true) :
    s'.client.announced = true := by
  cases at_ : s.client with
  | switching f c => exact absurd at_ (still f c)
  | wiping | reviving | dropping =>
      simp only [at_, clientStep] at taken
      (repeat' split at taken) <;> cases taken <;> first
        | rfl
        | exact after
  | _ =>
      rw [at_] at after
      cases after

theorem clientStep_away (away : Away s visited) (w : Wired s)
    (ok : inTurn (s, visited) (.client, input) = true)
    (taken : s.clientStep input s.client = some s') :
    Away s' (visited ++ s.sends (.client, input)) := by
  cases at_ : s.client with
  | announcing f c =>
      have pending := w.finishing c (by rw [at_]; rfl)
      have joined := w.client (by simp [at_])
      have sent : s.sends (.client, input) = [c.gameData.dimension] := by simp [sends, masks, at_]
      rw [sent]
      simp only [inTurn, at_, Bool.not_eq_true'] at ok
      simp only [at_, clientStep, Option.some.injEq] at taken
      subst taken
      constructor
      · intro before
        rw [show s.login = .done .joined from joined] at before
        cases before
      · intro i srv c' dimension called
        refine ⟨(away.chosen i srv c' dimension called).1, fun set => ?_⟩
        -- the call that dialed the connection would still have to write
        cases pending.symm.trans set
        obtain ⟨dialer, -⟩ := w.calls i _ c called rfl
        have called : s.calls i = some ⟨srv, .changing c dimension⟩ := called
        simp [owed, dialer, owes, called, CallState.owes] at ok
      · intro _ _ _ before
        cases before
  | switching f c =>
      refine Away.silent ?_ (by simp [sends, masks, at_])
      simp only [at_, clientStep] at taken
      split at taken <;> cases taken
      · exact away.moves id (fun _ _ _ _ => id) (fun _ => id) (by rintro _ ⟨⟩) (by rintro _ ⟨⟩)
      · exact away.frame rfl rfl rfl rfl
  | _ =>
      have still : ∀ f c, s.client ≠ .switching f c := by simp [at_]
      have announced := clientStep_announced still taken
      refine Away.silent ?_ (by simp [sends, masks, at_])
      obtain ⟨_, _, _, _, _, _, _, _, _, _, _, _, _, rfl⟩ := clientStep_frame still taken
      exact away.moves id (fun _ _ _ _ => id) (fun _ => id) (fun _ => id) (fun _ _ => announced)

/-- An abort gives the pending connection up. -/
theorem timerStep_away {i : TransferID} (away : Away s visited)
    (taken : s.timerStep i (s.timers i) = some s') : Away s' visited := by
  have temp := timerStep_temp taken
  obtain ⟨_, _, _, _, _, _, _, _, rfl⟩ := timerStep_frame taken
  exact away.moves id (fun _ _ _ _ => id) (fun _ => id) temp (fun _ _ => id)

/-- **One statement of any goroutine.** -/
theorem Away.next (away : Away s visited) (w : Wired s) (ok : inTurn (s, visited) a = true)
    (taken : s.next a = some s') : Away s' (visited ++ s.sends a) := by
  obtain ⟨actor, input⟩ := a
  refine next_elim taken ?_ ?_ ?_ ?_ ?_ ?_ ?_ ?_
  · rintro rfl stepped
    have waiting := w.unstarted_of_new stepped
    obtain ⟨_, _, _, _, _, rfl⟩ := newStep_frame stepped
    refine Away.silent ?_ rfl
    exact away.moves (fun _ => by rw [waiting]; rfl) (fun _ _ _ _ => id) (fun _ => id)
      (fun _ => id) (fun _ _ => id)
  · rintro rfl stepped
    exact loginStep_away away w stepped
  · rintro i rfl stepped
    exact callNext_away away w ok stepped
  · rintro i rfl stepped
    refine Away.silent ?_ rfl
    exact timerStep_away away stepped
  · rintro rfl stepped
    exact clientStep_away away w ok stepped
  · rintro rfl stepped
    exact serverStep_away away w ok stepped
  · rintro rfl stepped
    obtain ⟨_, _, _, _, _, _, _, rfl⟩ := closeStep_frame stepped
    refine Away.silent ?_ rfl
    exact away.frame rfl rfl rfl rfl
  · rintro r rfl stepped
    refine Away.silent ?_ rfl
    obtain ⟨_, _, rfl⟩ | ⟨i, target, _, fresh, rfl⟩ := requestStep_frame stepped
    · exact away.frame rfl rfl rfl rfl
    · exact away.enters fresh rfl rfl rfl rfl

/-- **Every run.** -/
theorem away {p : Session × List Int32} (reached : travels.Reach (fun p a => inTurn p a = true) p) :
    Away p.1 p.2 := by
  refine reached.invariant (I := fun p : Session × List Int32 => Away p.1 p.2) away_start ?_
  intro p p' a before away ok taken
  obtain ⟨stepped, rest⟩ := Machine.record_next taken
  rw [rest]
  exact away.next (wired before.unrecorded) ok stepped

/-- **The masking change of dimension is a real one.**  In every run in which the two changes
are made in turn and the client is where `Transfer` takes it to be: the `ChangeDimension` that
`Transfer` or `finishTransferDimensionChange` writes is to another dimension than the one the
client is in. -/
theorem masking_change_real {s : Session} {visited : List Int32} {a : Action} {dimension : Int32}
    (reached : travels.Reach (fun p a => inTurn p a = true) (s, visited))
    (ok : inTurn (s, visited) a = true) (written : s.masks a.1 = some dimension) :
    Elsewhere visited dimension := by
  have away : Away s visited := away reached
  have w : Wired s := wired reached.unrecorded
  obtain ⟨actor, input⟩ := a
  cases actor with
  | call i =>
      simp only [masks] at written
      split at written <;> cases written
      rename_i srv c called
      simp only [inTurn, called, decide_eq_true_eq] at ok
      exact (away.chosen i srv c dimension called).2 ok
  | client =>
      simp only [masks] at written
      split at written <;> cases written
      rename_i f c at_
      simp only [inTurn, at_, Bool.not_eq_true'] at ok
      exact away.pending c (w.finishing c (by rw [at_]; rfl)) ok (by rw [at_]; rfl)
  | _ => cases written

/-- The server->client loop takes a `ChangeDimension` from the backend to the client. -/
def relaying (dimension : Int32) : List Action :=
  [(.server, .go), (.server, .packet (.changeDimension dimension)), (.server, .go), (.server, .go),
    (.server, .verdict false), (.server, .go)]

/-- The player visits the nether and comes back; the backend sends it to the end while the
transfer is pending, and `finishTransferDimensionChange` to the overworld. -/
theorem masking_change_real_return : ∃ s visited,
    travels.Reach (fun p a => inTurn p a = true) (s, visited) ∧ visited = [0, 1, 0, 1, 2] ∧
    s.masks .client = some 0 ∧ Elsewhere visited 0 := by
  have reached : travels.Reach (fun p a => inTurn p a = true) _ := Machine.exec_reach
    (joining lobby lobbyData ++ relaying 1 ++ relaying 0 ++ transferCall 0 game gameData ++
      relaying 2 ++ acknowledging ++ steps .client 1) rfl
  obtain ⟨s, visited, reached, list, ok, written⟩ : ∃ s visited,
      travels.Reach (fun p a => inTurn p a = true) (s, visited) ∧ visited = [0, 1, 0, 1, 2] ∧
        inTurn (s, visited) (.client, .go) = true ∧ s.masks .client = some 0 :=
    ⟨_, _, reached, rfl, rfl, rfl⟩
  exact ⟨s, visited, reached, list, written, masking_change_real (a := (.client, .go)) reached ok written⟩

/-- **A change to the dimension the client is in.**  The backend takes the player to the
nether, and `Transfer` sends it to the nether; or the backend takes it to the overworld while
the transfer is pending, and so does `finishTransferDimensionChange`. -/
theorem masking_change_repeats :
    (∃ s, travels.Reachable (s, [0, 1]) ∧ s.masks (.call 0) = some 1 ∧
      (s.next (.call 0, .go)).isSome = true ∧ ¬ Elsewhere [0, 1] 1) ∧
    ∃ s, travels.Reachable (s, [0, 1, 0]) ∧ s.masks .client = some 0 ∧
      (s.next (.client, .go)).isSome = true ∧ ¬ Elsewhere [0, 1, 0] 0 := by
  have before : travels.Reachable _ := Machine.exec_reach
    (joining lobby lobbyData ++ relaying 1 ++ publishingCall 0 game gameData ++
      steps (.call 0) 1) rfl
  have meanwhile : travels.Reachable _ := Machine.exec_reach
    (joining lobby lobbyData ++ transferCall 0 game gameData ++ relaying 0 ++ acknowledging ++
      steps .client 1) rfl
  refine ⟨⟨_, before, rfl, rfl, ?_⟩, _, meanwhile, rfl, rfl, ?_⟩
  · rintro ⟨here, last, apart⟩
    cases last
    exact apart rfl
  · rintro ⟨here, last, apart⟩
    cases last
    exact apart rfl

end Session

end Portal
