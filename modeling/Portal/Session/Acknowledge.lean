/-
# Session.Acknowledge — which `ChangeDimension` an acknowledgement answers

The client answers every `ChangeDimension` with one `DimensionChangeDone`, in
order (`fifo`).  A transfer makes it answer twice: the `ChangeDimension` of the
`Transfer` call is to be taken as the confirmation, that of
`finishTransferDimensionChange` is to be swallowed.  The proxy tells them apart by
`transferring`, `postTransfer` and `tempServerConn` alone.

`Undisturbed` says of a step that it does not pull these three away from under an
acknowledgement that is still to come: no other transfer publishes, none is given
up, and the backend sends no `ChangeDimension` ahead of the proxy's.  In runs of
such steps at most one acknowledgement of the proxy's is outstanding, and the
flags say what it is (`Matched`).
-/
import Portal.Session.Agreement

namespace Portal

open Portal.Theory Portal.Theory.Transition

set_option autoImplicit false

/-- The call has published its connection and not yet sent its `ChangeDimension`. -/
def CallState.owes : CallState → Bool
  | .selecting _ => true
  | .changing _ _ => true
  | _ => false

namespace ClientState

/-- The acknowledgement the loop has read and not yet taken, dropped or let pass. -/
def held : ClientState → Option Sender
  | .translating f _ => f.ack
  | .clearing f _ => f.ack
  | .loading f _ => f.ack
  | .locking f _ => f.ack
  | .swapping f _ => f.ack
  | .checking f _ => f.ack
  | _ => none

/-- `finishTransferDimensionChange` may still be called for the packet in hand. -/
def undecided : ClientState → Bool
  | .translating _ _ => true
  | .clearing _ _ => true
  | .loading _ _ => true
  | .locking _ _ => true
  | _ => false

/-- An acknowledgement of the proxy's is past the swap of `postTransfer`: only
`transferring` keeps it from being forwarded. -/
def relies : ClientState → Bool
  | .locking f _ => f.ack.any Sender.isProxy
  | .checking f _ => f.ack.any Sender.isProxy
  | _ => false

/-- Between the decision to confirm a transfer and `postTransfer.Store(true)`. -/
def confirming : ClientState → Bool
  | .announcing _ _ => true
  | .wiping _ _ => true
  | .reviving _ _ => true
  | .dropping _ _ => true
  | .switching _ _ => true
  | .storingRuntimeID _ => true
  | .storingUniqueID _ => true
  | .lowering _ => true
  | .raising _ => true
  | _ => false

/-- Inside `finishTransferDimensionChange`: the packet it is called for and the
connection it switches to. -/
def confirmation : ClientState → Option (Inbound × Conn)
  | .announcing f c => some (f, c)
  | .wiping f c => some (f, c)
  | .reviving f c => some (f, c)
  | .dropping f c => some (f, c)
  | .switching f c => some (f, c)
  | _ => none

/-- The packet on its way to the backend. -/
def forwarded : ClientState → Option Inbound
  | .handling f _ => some f
  | .picking f _ => some f
  | .writing f _ _ => some f
  | _ => none

/-- The packets marked as acknowledgements are those that look like one. -/
def Tagged : ClientState → Prop
  | .translating f rest => rest.Every fun pk => pk.isDimensionChangeDone = f.ack.isSome
  | .clearing f pk => pk.isDimensionChangeDone = f.ack.isSome
  | .loading f _ => f.ack.isSome = true
  | .locking f _ => f.ack.isSome = true
  | .swapping f _ => f.ack.isSome = true
  | _ => True

end ClientState

namespace Session

/-- The client answers what it was sent and nothing else. -/
def fifo (s : Session) (a : Action) : Bool :=
  match a with
  | (.client, .packet pk) => !pk.isDimensionChangeDone || !s.unacked.isEmpty
  | _ => true

/-- Call `k` has published and owes the client its `ChangeDimension`. -/
def owes (s : Session) (k : TransferID) : Bool := (s.calls k).any fun call => call.state.owes

/-- An acknowledgement of a `ChangeDimension` of the proxy's is still to be dealt
with. -/
def Awaited (s : Session) : Prop :=
  (∃ k, s.owes k = true) ∨ (∃ x ∈ s.unacked, x.isProxy = true) ∨
    (∃ x, s.client.held = some x ∧ x.isProxy = true) ∨ s.client.confirming = true

/-! ## The condition on a step -/

/-- The `serverMu` section of `Transfer`. -/
def publishes (s : Session) (a : Action) : Bool :=
  match a.1 with
  | .call k =>
      match s.calls k with
      | some ⟨_, .publishing _⟩ => true
      | _ => false
  | _ => false

/-- A transfer is given up: a failure path, an abort or `Close` lowers
`transferring`. -/
def lowers (s : Session) (a : Action) : Bool :=
  match a.1 with
  | .call k =>
      match s.calls k with
      | some ⟨_, .resetting _⟩ => true
      | _ => false
  | .timer k =>
      match s.timers k with
      | .resetting _ => true
      | _ => false
  | .close => s.close = .comparing && s.transferring
  | _ => false

/-- `s.postTransfer.Store(false)`. -/
def clears (s : Session) (a : Action) : Bool :=
  match a.1 with
  | .call k =>
      match s.calls k with
      | some ⟨_, .clearing⟩ => true
      | _ => false
  | .close => s.close = .clearing
  | _ => false

/-- A `ChangeDimension` of the backend goes to the client. -/
def forwards (s : Session) (a : Action) : Bool :=
  match a.1, s.serverLoop with
  | .server, .writing _ _ pk => pk.isChangeDimension
  | _, _ => false

/-- The step leaves the acknowledgement that is awaited its meaning. -/
structure Undisturbed (s : Session) (a : Action) : Prop where
  publish : s.publishes a = true →
    s.transferring = true ∧ s.unacked = [] ∧ s.client.held = none ∧ ¬ s.Awaited
  lower : s.lowers a = true → s.Awaited → s.client.confirming = false →
    s.tempServerConn = none ∧ s.postTransfer = true ∧ s.client.relies = false
  clear : s.clears a = true → s.Awaited → s.client.confirming = false → s.transferring = true
  forward : s.forwards a = true → (∀ k, s.owes k = false) ∧ (∀ i, .transfer i ∉ s.unacked) ∧
    (∀ i, s.client.held ≠ some (.transfer i)) ∧ ∀ f c, s.client ≠ .announcing f c

/-! ## The invariant -/

/-- At most one acknowledgement of the proxy's is outstanding, ahead of the
backend's, and the flags fit it. -/
structure Matched (s : Session) : Prop where
  order : ∀ x ∈ s.unacked.tail, x = .backend
  sole : ∀ i, .transfer i ∈ s.unacked → s.unacked = [.transfer i]
  front : ∀ x, s.unacked.head? = some x → x.isProxy = true → s.client.held = none
  owed : ∀ k, s.owes k = true →
    s.unacked = [] ∧ s.client.held = none ∧ s.client.confirming = false ∧
      ∀ j, s.owes j = true → j = k
  inHand : ∀ i, s.client.held = some (.transfer i) → s.unacked = []
  announcing : ∀ f c, s.client = .announcing f c → s.unacked = []
  confirmation : ∀ f c, s.client.confirmation = some (f, c) →
    ∃ i, f.ack = some (.transfer i) ∧ c.dialer = .transfer i
  confirmed : ∀ c, s.client.confirming = true → s.tempServerConn = some c →
    s.client.finishing = some c
  pending : ∀ c, s.tempServerConn = some c → s.client.confirming = false →
    s.transferring = true ∧ ∃ i, c.dialer = .transfer i ∧
      (s.owes i = true ∨ s.unacked = [.transfer i] ∨
        (s.client.held = some (.transfer i) ∧ s.client.undecided = true))
  expected : s.Awaited → s.client.confirming = false →
    s.transferring = true ∨ (s.postTransfer = true ∧ s.client.relies = false)
  passed : ∀ f x, s.client.forwarded = some f → f.ack = some x → x.isProxy = false
  tagged : s.client.Tagged

theorem initial_matched : Matched initial where
  order := by simp [initial]
  sole := by simp [initial]
  front := by simp [initial]
  owed := by simp [initial, owes]
  inHand := by simp [initial]
  announcing := by simp [initial]
  confirmation := by simp [initial, ClientState.confirmation]
  confirmed := by simp [initial]
  pending := by simp [initial]
  expected := by simp [initial, Awaited, owes, ClientState.held, ClientState.confirming]
  passed := by simp [initial, ClientState.forwarded]
  tagged := trivial

variable {s s' : Session} {input : Input}

/-- With an acknowledgement in hand nothing of the proxy's comes after it. -/
theorem Matched.alone (m : Matched s) {x : Sender} (held : s.client.held = some x) :
    (∀ k, s.owes k = false) ∧ ∀ y ∈ s.unacked, y.isProxy = false := by
  refine ⟨fun k => ?_, fun y member => ?_⟩
  · by_contra owed
    have free := (m.owed k (by simpa using owed)).2.1
    rw [held] at free
    cases free
  · cases list : s.unacked with
    | nil =>
        rw [list] at member
        cases member
    | cons z rest =>
        rw [list, List.mem_cons] at member
        rcases member with rfl | later
        · by_contra proxy
          have free := m.front y (by rw [list]; rfl) (by simpa using proxy)
          rw [held] at free
          cases free
        · rw [m.order y (by rw [list]; exact later)]
          rfl

/-- Nothing is pending once the acknowledgement in hand can confirm nothing. -/
theorem Matched.unpublished (m : Matched s) {x : Sender} (held : s.client.held = some x)
    (free : s.client.confirming = false) (decided : s.client.undecided = false) :
    s.tempServerConn = none := by
  obtain ⟨noneOwed, noProxy⟩ := m.alone held
  cases temp : s.tempServerConn with
  | none => rfl
  | some c =>
      obtain ⟨-, i, -, owed | sent | ⟨-, early⟩⟩ := m.pending c temp free
      · rw [noneOwed i] at owed
        cases owed
      · have proxy := noProxy (.transfer i) (by rw [sent]; exact List.mem_singleton_self _)
        cases proxy
      · rw [decided] at early
        cases early

/-! ## Steps outside the client loop -/

/-- A step that changes the two flags and keeps what is expected expected. -/
theorem Matched.of_flags (m : Matched s) (owes : ∀ k, s'.owes k = s.owes k)
    (unacked : s'.unacked = s.unacked) (client : s'.client = s.client)
    (temp : ∀ c, s'.tempServerConn = some c → s.tempServerConn = some c)
    (expected : s.Awaited → s.client.confirming = false →
      (∀ c, s.tempServerConn = some c → s'.transferring = true) ∧
        (s'.transferring = true ∨ (s'.postTransfer = true ∧ s.client.relies = false))) :
    Matched s' where
  order := by rw [unacked]; exact m.order
  sole := by rw [unacked]; exact m.sole
  front := by rw [unacked, client]; exact m.front
  owed := by simp only [owes, unacked, client]; exact m.owed
  inHand := by rw [unacked, client]; exact m.inHand
  announcing := by rw [unacked, client]; exact m.announcing
  confirmation := by rw [client]; exact m.confirmation
  confirmed := by
    rw [client]
    exact fun c inside set => m.confirmed c inside (temp c set)
  pending := by
    simp only [owes, unacked, client]
    intro c set free
    obtain ⟨-, i, dialer, where_⟩ := m.pending c (temp c set) free
    refine ⟨(expected ?_ free).1 c (temp c set), i, dialer, where_⟩
    rcases where_ with owed | sent | ⟨held, -⟩
    · exact .inl ⟨i, owed⟩
    · exact .inr (.inl ⟨.transfer i, by rw [sent]; exact List.mem_singleton_self _, rfl⟩)
    · exact .inr (.inr (.inl ⟨_, held, rfl⟩))
  expected := by
    simp only [Awaited, owes, unacked, client]
    intro awaited free
    exact (expected awaited free).2
  passed := by rw [client]; exact m.passed
  tagged := by rw [client]; exact m.tagged

/-- A step that raises a flag or takes the pending connection away. -/
theorem Matched.of_view (m : Matched s) (owes : ∀ k, s'.owes k = s.owes k)
    (unacked : s'.unacked = s.unacked) (client : s'.client = s.client)
    (temp : ∀ c, s'.tempServerConn = some c → s.tempServerConn = some c)
    (transferring : s.transferring = true → s'.transferring = true)
    (postTransfer : s.postTransfer = true → s'.postTransfer = true) : Matched s' := by
  refine m.of_flags owes unacked client temp fun awaited free => ⟨fun c set => ?_, ?_⟩
  · exact transferring (m.pending c set free).1
  · exact (m.expected awaited free).imp transferring (And.imp_left postTransfer)

/-- A step that touches nothing of this. -/
theorem Matched.frame (m : Matched s) (owes : ∀ k, s'.owes k = s.owes k)
    (unacked : s'.unacked = s.unacked) (client : s'.client = s.client)
    (temp : s'.tempServerConn = s.tempServerConn) (transferring : s'.transferring = s.transferring)
    (postTransfer : s'.postTransfer = s.postTransfer) : Matched s' :=
  m.of_view owes unacked client (fun _ set => temp ▸ set) (fun set => transferring ▸ set)
    (fun set => postTransfer ▸ set)

theorem Matched.lower (m : Matched s) (owes : ∀ k, s'.owes k = s.owes k)
    (unacked : s'.unacked = s.unacked) (client : s'.client = s.client)
    (temp : s'.tempServerConn = s.tempServerConn) (postTransfer : s'.postTransfer = s.postTransfer)
    (allowed : s.Awaited → s.client.confirming = false →
      s.tempServerConn = none ∧ s.postTransfer = true ∧ s.client.relies = false) : Matched s' := by
  refine m.of_flags owes unacked client (fun _ set => temp ▸ set) fun awaited free => ?_
  obtain ⟨unset, post, steady⟩ := allowed awaited free
  exact ⟨fun _ set => (nomatch unset.symm.trans set), .inr ⟨postTransfer ▸ post, steady⟩⟩

theorem Matched.clear (m : Matched s) (owes : ∀ k, s'.owes k = s.owes k)
    (unacked : s'.unacked = s.unacked) (client : s'.client = s.client)
    (temp : s'.tempServerConn = s.tempServerConn) (transferring : s'.transferring = s.transferring)
    (allowed : s.Awaited → s.client.confirming = false → s.transferring = true) : Matched s' := by
  refine m.of_flags owes unacked client (fun _ set => temp ▸ set) fun awaited free => ?_
  have raised : s'.transferring = true := transferring ▸ allowed awaited free
  exact ⟨fun _ _ => raised, .inl raised⟩

/-- A call that moves between two statements at both or neither of which it owes. -/
theorem owes_setCall {i : TransferID} {call : Call} {target : Server} {state : CallState}
    (called : s.calls i = some call) (same : state.owes = call.state.owes) (k : TransferID) :
    (s.setCall i target state).owes k = s.owes k := by
  unfold owes setCall
  by_cases own : k = i
  · subst own
    simp only [Function.update_self, called]
    exact same
  · simp only [Function.update_of_ne own]

theorem owes_enter {i : TransferID} {target : Server} (fresh : s.calls i = none) (k : TransferID) :
    (s.setCall i target .waiting).owes k = s.owes k := by
  unfold owes setCall
  by_cases own : k = i
  · subst own
    simp only [Function.update_self, fresh]
    rfl
  · simp only [Function.update_of_ne own]

theorem owes_setCall_self (s : Session) (i : TransferID) (target : Server) (state : CallState) :
    (s.setCall i target state).owes i = state.owes := by
  simp [owes, setCall]

theorem owes_setCall_of_ne (s : Session) {i k : TransferID} (target : Server) (state : CallState)
    (other : k ≠ i) : (s.setCall i target state).owes k = s.owes k := by
  simp [owes, setCall, Function.update_of_ne other]

/-- The `serverMu` section of a call, with no acknowledgement outstanding. -/
theorem Matched.publish {i : TransferID} {target : Server} {c : Conn} (m : Matched s)
    (dialer : c.dialer = .transfer i) (raised : s.transferring = true) (sent : s.unacked = [])
    (unheld : s.client.held = none) (unawaited : ¬ s.Awaited) :
    Matched { (s.setCall i target (.selecting c)).setTimer i (.armed target) with
      tempServerConn := some c
      pendingServer := some target
      transferConfirmTimer := some i } := by
  have noneOwed : ∀ k, s.owes k = false := fun k => by
    by_contra owed
    exact unawaited (.inl ⟨k, by simpa using owed⟩)
  have free : s.client.confirming = false := by
    by_contra inside
    exact unawaited (.inr (.inr (.inr (by simpa using inside))))
  exact {
    m with
    owed := by
      intro k owed
      have only : ∀ j, (s.setCall i target (.selecting c)).owes j = true → j = i := by
        intro j owed
        by_contra other
        rw [owes_setCall_of_ne s target _ other, noneOwed j] at owed
        cases owed
      refine ⟨sent, unheld, free, fun j owed' => ?_⟩
      rw [only j owed', only k owed]
    confirmed := fun _ inside => absurd (free.symm.trans inside) Bool.false_ne_true
    pending := by
      intro c' set _
      cases set
      exact ⟨raised, i, dialer, .inl (owes_setCall_self s i target _)⟩
    expected := fun _ _ => .inl raised }

/-- The call that owes its `ChangeDimension` sends it. -/
theorem Matched.send {i : TransferID} {target : Server} {c : Conn} {dimension : Int32}
    (m : Matched s) (called : s.calls i = some ⟨target, .changing c dimension⟩) :
    Matched { s.setCall i target (.returned none) with unacked := s.unacked ++ [.transfer i] } := by
  have owed : s.owes i = true := by simp [owes, called, CallState.owes]
  obtain ⟨sent, unheld, free, only⟩ := m.owed i owed
  have noneOwed : ∀ k, (s.setCall i target (.returned none)).owes k = false := by
    intro k
    by_cases own : k = i
    · subst own
      exact owes_setCall_self s k target _
    · rw [owes_setCall_of_ne s target _ own]
      by_contra owed'
      exact own (only k (by simpa using owed'))
  have single : s.unacked ++ [Sender.transfer i] = [.transfer i] := by rw [sent]; rfl
  exact {
    m with
    order := by
      simp only [single]
      intro x member
      cases member
    sole := by
      simp only [single]
      intro j member
      rw [List.mem_singleton.mp member]
    front := fun _ _ _ => unheld
    owed := fun k owed' => absurd ((noneOwed k).symm.trans owed') Bool.false_ne_true
    inHand := fun j held => nomatch unheld.symm.trans held
    announcing := by
      intro f c' at_
      rw [show s.client = .announcing f c' from at_] at free
      cases free
    pending := by
      intro c' set _
      obtain ⟨raised, j, dialer, owed' | sent' | ⟨held, -⟩⟩ := m.pending c' set free
      · rw [only j owed'] at dialer
        exact ⟨raised, i, dialer, .inr (.inl single)⟩
      · rw [sent] at sent'
        cases sent'
      · rw [unheld] at held
        cases held
    expected := fun _ _ => m.expected (.inl ⟨i, owed⟩) free }

theorem callStep_matched {i : TransferID} {call : Call} (m : Matched s) (w : Wired s)
    (called : s.calls i = some call) (undisturbed : Undisturbed s (.call i, input))
    (taken : s.callStep i call.target input call.state = some s') : Matched s' := by
  obtain ⟨target, state⟩ := call
  cases state with
  | publishing c =>
      simp only [callStep] at taken
      split at taken <;> cases taken
      obtain ⟨raised, sent, unheld, unawaited⟩ :=
        undisturbed.publish (by simp [publishes, called])
      exact m.publish (w.calls i _ c called rfl).1 raised sent unheld unawaited
  | changing c dimension =>
      cases taken
      exact m.send called
  | resetting o =>
      cases taken
      exact m.lower (owes_setCall called rfl) rfl rfl rfl rfl
        (undisturbed.lower (by simp [lowers, called]))
  | clearing =>
      cases taken
      exact m.clear (owes_setCall called rfl) rfl rfl rfl rfl
        (undisturbed.clear (by simp [clears, called]))
  | _ =>
      simp only [callStep] at taken
      (repeat' split at taken) <;> cases taken
      all_goals first
        | exact m.frame (owes_setCall called rfl) rfl rfl rfl rfl rfl
        | exact m.of_view (owes_setCall called rfl) rfl rfl (fun _ set => set) (fun _ => rfl)
            (fun set => set)
        | exact m.frame (fun _ => rfl) rfl rfl rfl rfl rfl

theorem callNext_matched {i : TransferID} (m : Matched s) (w : Wired s)
    (undisturbed : Undisturbed s (.call i, input)) (taken : s.callNext i input = some s') :
    Matched s' := by
  unfold callNext at taken
  split at taken
  · split at taken
    · obtain ⟨fresh, rfl⟩ := enter_spec taken
      exact m.frame (owes_enter fresh) rfl rfl rfl rfl rfl
    · cases taken
  · rename_i call called
    exact callStep_matched m w called undisturbed taken

theorem timerStep_matched {i : TransferID} (m : Matched s)
    (undisturbed : Undisturbed s (.timer i, input)) (taken : s.timerStep i (s.timers i) = some s') :
    Matched s' := by
  cases at_ : s.timers i with
  | fired srv =>
      simp only [at_, timerStep] at taken
      split at taken <;> cases taken
      exact m.of_view (fun _ => rfl) rfl rfl (fun _ set => by cases set) (fun set => set)
        (fun set => set)
  | resetting srv =>
      simp only [at_, timerStep, Option.some.injEq] at taken
      subst taken
      exact m.lower (fun _ => rfl) rfl rfl rfl rfl (undisturbed.lower (by simp [lowers, at_]))
  | _ =>
      simp only [at_, timerStep] at taken
      (try split at taken) <;> cases taken
      all_goals exact m.frame (fun _ => rfl) rfl rfl rfl rfl rfl

theorem closeStep_matched (m : Matched s) (undisturbed : Undisturbed s (.close, input))
    (taken : s.closeStep s.close = some s') : Matched s' := by
  cases at_ : s.close with
  | comparing =>
      simp only [at_, closeStep] at taken
      split at taken <;> cases taken
      · rename_i raised
        exact m.lower (fun _ => rfl) rfl rfl rfl rfl
          (undisturbed.lower (by simp [lowers, at_, raised]))
      · exact m.frame (fun _ => rfl) rfl rfl rfl rfl rfl
  | clearing =>
      simp only [at_, closeStep, Option.some.injEq] at taken
      subst taken
      exact m.clear (fun _ => rfl) rfl rfl rfl rfl (undisturbed.clear (by simp [clears, at_]))
  | _ =>
      simp only [at_, closeStep] at taken
      (try split at taken) <;> cases taken
      all_goals exact m.frame (fun _ => rfl) rfl rfl rfl rfl rfl

/-- The backend's `ChangeDimension` goes behind what is outstanding. -/
theorem Matched.forward (m : Matched s) {loop : ServerState} (noneOwed : ∀ k, s.owes k = false)
    (unsent : ∀ i, .transfer i ∉ s.unacked) (unheld : ∀ i, s.client.held ≠ some (.transfer i))
    (unannounced : ∀ f c, s.client ≠ .announcing f c) :
    Matched { s with unacked := s.unacked ++ [.backend], serverLoop := loop } := by
  exact {
    m with
    order := by
      cases list : s.unacked with
      | nil => simp
      | cons y rest =>
          intro x member
          rw [List.cons_append, List.tail_cons, List.mem_append, List.mem_singleton] at member
          exact member.elim (fun old => m.order x (by rw [list]; exact old)) id
    sole := by
      intro i member
      rw [List.mem_append, List.mem_singleton] at member
      rcases member with old | new
      · exact absurd old (unsent i)
      · cases new
    front := by
      cases list : s.unacked with
      | nil =>
          intro x head proxy
          cases head
          cases proxy
      | cons y rest =>
          intro x head proxy
          exact m.front x (by rw [list]; exact head) proxy
    owed := fun k owed => absurd ((noneOwed k).symm.trans owed) Bool.false_ne_true
    inHand := fun i held => absurd held (unheld i)
    announcing := fun f c at_ => absurd at_ (unannounced f c)
    pending := by
      intro c set free
      obtain ⟨-, i, -, owed | sent | ⟨held, -⟩⟩ := m.pending c set free
      · rw [noneOwed i] at owed
        cases owed
      · exact absurd (by rw [sent]; exact List.mem_singleton_self _) (unsent i)
      · exact absurd held (unheld i)
    expected := by
      intro awaited free
      refine m.expected ?_ free
      rcases awaited with owed | ⟨x, member, proxy⟩ | held
      · exact .inl owed
      · rw [List.mem_append, List.mem_singleton] at member
        rcases member with old | rfl
        · exact .inr (.inl ⟨x, old, proxy⟩)
        · cases proxy
      · exact .inr (.inr held) }

/-- Only its last statement sends the client anything. -/
theorem serverStep_unacked {st : ServerState} (unwritten : ∀ c read pk, st ≠ .writing c read pk)
    (taken : s.serverStep input st = some s') : s'.unacked = s.unacked := by
  revert taken
  fun_cases serverStep input s st <;> intro taken <;> cases taken <;>
    first
    | rfl
    | exact absurd rfl (unwritten _ _ _)

theorem serverStep_matched (m : Matched s) (undisturbed : Undisturbed s (.server, input))
    (taken : s.serverStep input s.serverLoop = some s') : Matched s' := by
  by_cases writes : ∃ c read pk, s.serverLoop = .writing c read pk
  · obtain ⟨c, read, pk, at_⟩ := writes
    simp only [at_, serverStep] at taken
    split at taken <;> cases taken
    · split
      · rename_i change
        obtain ⟨noneOwed, unsent, unheld, unannounced⟩ :=
          undisturbed.forward (by simp [forwards, at_, change])
        exact m.forward noneOwed unsent unheld unannounced
      · exact m.frame (fun _ => rfl) rfl rfl rfl rfl rfl
    · exact m.frame (fun _ => rfl) rfl rfl rfl rfl rfl
  · have unacked := serverStep_unacked (fun c read pk at_ => writes ⟨c, read, pk, at_⟩) taken
    obtain ⟨_, _, _, _, _, _, rfl⟩ := serverStep_frame taken
    exact m.frame (fun _ => rfl) unacked rfl rfl rfl rfl

/-! ## The client loop -/

/-- Outside a confirmation the loop hands on what it has in hand, or is done with
it. -/
theorem Matched.client_moves (m : Matched s) {client : ClientState} {callback : Option TransferID}
    {bus : List BusEvent}
    (free : s.client.confirming = false) (free' : client.confirming = false)
    (unconfirmed : client.confirmation = none)
    (held : client.held = s.client.held ∨ client.held = none)
    (undecided : ∀ i c, s.tempServerConn = some c → s.client.held = some (.transfer i) →
      s.client.undecided = true → client.held = s.client.held ∧ client.undecided = true)
    (relies : client.relies = true → s.transferring = true)
    (passed : ∀ f x, client.forwarded = some f → f.ack = some x → x.isProxy = false)
    (tagged : client.Tagged) :
    Matched { s with client := client, transferDone := callback, bus := bus } := by
  have kept : ∀ x, client.held = some x → s.client.held = some x := by
    intro x set
    rcases held with same | gone
    · exact same ▸ set
    · rw [gone] at set
      cases set
  have unheld : s.client.held = none → client.held = none := by
    intro none_
    rcases held with same | gone
    · rw [same, none_]
    · exact gone
  exact {
    order := m.order
    sole := m.sole
    front := fun x head proxy => unheld (m.front x head proxy)
    owed := fun k owed =>
      have ⟨sent, none_, _, only⟩ := m.owed k owed
      ⟨sent, unheld none_, free', only⟩
    inHand := fun i set => m.inHand i (kept _ set)
    announcing := by
      rintro f c rfl
      cases free'
    confirmation := by
      intro f c inside
      rw [unconfirmed] at inside
      cases inside
    confirmed := fun _ inside => absurd (free'.symm.trans inside) Bool.false_ne_true
    pending := by
      intro c set _
      obtain ⟨raised, i, dialer, owed | sent | ⟨inHand, early⟩⟩ := m.pending c set free
      · exact ⟨raised, i, dialer, .inl owed⟩
      · exact ⟨raised, i, dialer, .inr (.inl sent)⟩
      · obtain ⟨same, early'⟩ := undecided i c set inHand early
        exact ⟨raised, i, dialer, .inr (.inr ⟨same.trans inHand, early'⟩)⟩
    expected := by
      intro awaited _
      have before : s.Awaited := by
        rcases awaited with owed | sent | ⟨x, set, proxy⟩ | inside
        · exact .inl owed
        · exact .inr (.inl sent)
        · exact .inr (.inr (.inl ⟨x, kept x set, proxy⟩))
        · exact absurd (free'.symm.trans inside) Bool.false_ne_true
      by_cases relying : client.relies = true
      · exact .inl (relies relying)
      · exact (m.expected before free).imp_right fun post => ⟨post.1, by simpa using relying⟩
    passed := passed
    tagged := tagged }

/-- The loop reads an acknowledgement: the oldest one outstanding. -/
theorem Matched.read (m : Matched s) {x : Sender} {rest : List Sender} {pk : Packet}
    {loads : Loads Packet} (at_ : s.client = .reading) (list : s.unacked = x :: rest)
    (tagged : (ClientState.translating ⟨pk, some x⟩ loads).Tagged) :
    Matched { s with unacked := rest, client := .translating ⟨pk, some x⟩ loads } := by
  have free : s.client.confirming = false := by rw [at_]; rfl
  have backends : ∀ y ∈ rest, y = .backend := fun y member => m.order y (by rw [list]; exact member)
  have noneOwed : ∀ k, s.owes k = false := by
    intro k
    by_contra owed
    have sent := (m.owed k (by simpa using owed)).1
    rw [list] at sent
    cases sent
  have last : ∀ i, x = .transfer i → rest = [] := by
    rintro i rfl
    have sole := m.sole i (by rw [list]; exact List.mem_cons_self)
    rw [list] at sole
    exact (List.cons.inj sole).2
  exact {
    order := fun y member => backends y (List.mem_of_mem_tail member)
    sole := fun i member => nomatch backends _ member
    front := by
      intro y head proxy
      rw [backends y (List.mem_of_mem_head? head)] at proxy
      cases proxy
    owed := fun k owed => absurd ((noneOwed k).symm.trans owed) Bool.false_ne_true
    inHand := fun i held => last i (Option.some.inj held)
    announcing := fun _ _ inside => by cases inside
    confirmation := fun _ _ inside => by cases inside
    confirmed := fun _ inside => by cases inside
    pending := by
      intro c set _
      obtain ⟨raised, i, dialer, owed | sent | ⟨held, -⟩⟩ := m.pending c set free
      · exact absurd ((noneOwed i).symm.trans owed) Bool.false_ne_true
      · rw [list] at sent
        exact ⟨raised, i, dialer, .inr (.inr ⟨congrArg some (List.cons.inj sent).1, rfl⟩)⟩
      · rw [at_] at held
        cases held
    expected := by
      intro awaited _
      have before : s.Awaited := by
        rcases awaited with ⟨k, owed⟩ | ⟨y, member, proxy⟩ | ⟨y, held, proxy⟩ | inside
        · exact .inl ⟨k, owed⟩
        · exact .inr (.inl ⟨y, by rw [list]; exact List.mem_cons_of_mem x member, proxy⟩)
        · cases held
          exact .inr (.inl ⟨x, by rw [list]; exact List.mem_cons_self, proxy⟩)
        · cases inside
      exact (m.expected before free).imp_right fun post => ⟨post.1, rfl⟩
    passed := fun _ _ inside => by cases inside
    tagged := tagged }

theorem receive_matched {pk : Packet} (m : Matched s) (at_ : s.client = .reading)
    (answers : s.fifo (.client, .packet pk) = true) : Matched (s.receive pk) := by
  unfold receive
  split
  · exact m.frame (fun _ => rfl) rfl rfl rfl rfl rfl
  · rename_i t translator
    have every := translatePacket_isDimensionChangeDone t.original pk
    split
    · rename_i ack
      cases list : s.unacked with
      | nil => simp [fifo, ack, list] at answers
      | cons x rest =>
          refine m.read at_ list ?_
          rw [ack] at every
          exact every
    · rename_i plain
      rw [Bool.not_eq_true] at plain
      rw [plain] at every
      exact m.client_moves (by rw [at_]; rfl) rfl rfl (.inr rfl) (by simp [at_, ClientState.held])
        (by simp [ClientState.relies]) (by simp [ClientState.forwarded]) every

/-- `transferring` is up while an acknowledgement of the proxy's is in hand that
`postTransfer` does not cover. -/
theorem Matched.raised (m : Matched s) {f : Inbound} (free : s.client.confirming = false)
    (held : s.client.held = f.ack) (proxy : f.ack.any Sender.isProxy = true)
    (uncovered : s.postTransfer = false ∨ s.client.relies = true) : s.transferring = true := by
  cases ack : f.ack with
  | none =>
      rw [ack] at proxy
      cases proxy
  | some x =>
      rw [ack] at held proxy
      rcases m.expected (.inr (.inr (.inl ⟨x, held, proxy⟩))) free with raised | ⟨post, steady⟩
      · exact raised
      · rw [post, steady] at uncovered
        simp at uncovered

/-- What the loop decides on is an acknowledgement. -/
theorem Matched.deciding (m : Matched s) {f : Inbound} {pk : Packet}
    (at_ : s.client = .locking f pk ∨ s.client = .swapping f pk) :
    ∃ x, f.ack = some x ∧ s.client.held = some x := by
  have tagged := m.tagged
  rcases at_ with at_ | at_
  all_goals
    rw [at_] at tagged ⊢
    obtain ⟨x, ack⟩ := Option.isSome_iff_exists.mp tagged
    exact ⟨x, ack, ack⟩

/-- `finishTransferDimensionChange` finds the connection of the transfer whose
`ChangeDimension` is being acknowledged. -/
theorem Matched.lock (m : Matched s) {f : Inbound} {pk : Packet} {c : Conn}
    {timers : TransferID → TimerState} {timer : Option TransferID}
    (at_ : s.client = .locking f pk) (temp : s.tempServerConn = some c) :
    Matched { s with timers := timers, transferConfirmTimer := timer, client := .announcing f c } := by
  have free : s.client.confirming = false := by rw [at_]; rfl
  obtain ⟨x, ack, held⟩ := m.deciding (.inl at_)
  obtain ⟨noneOwed, noProxy⟩ := m.alone held
  have own : ∃ i, x = .transfer i ∧ c.dialer = .transfer i := by
    obtain ⟨-, i, dialer, owed | sent | ⟨held', -⟩⟩ := m.pending c temp free
    · exact absurd ((noneOwed i).symm.trans owed) Bool.false_ne_true
    · have proxy := noProxy (.transfer i) (by rw [sent]; exact List.mem_singleton_self _)
      cases proxy
    · exact ⟨i, Option.some.inj (held.symm.trans held'), dialer⟩
  obtain ⟨i, rfl, dialer⟩ := own
  have sent : s.unacked = [] := m.inHand i held
  exact {
    order := m.order
    sole := m.sole
    front := fun _ _ _ => rfl
    owed := fun k owed => absurd ((noneOwed k).symm.trans owed) Bool.false_ne_true
    inHand := fun _ _ => sent
    announcing := fun _ _ _ => sent
    confirmation := by
      intro f' c' inside
      cases inside
      exact ⟨i, ack, dialer⟩
    confirmed := fun c' _ set => congrArg some (Option.some.inj (temp.symm.trans set))
    pending := fun _ _ out => by cases out
    expected := fun _ out => by cases out
    passed := fun _ _ inside => by cases inside
    tagged := trivial }

/-- In a confirmation no call owes anything. -/
theorem Matched.none_owed (m : Matched s) (inside : s.client.confirming = true) (k : TransferID) :
    s.owes k = false := by
  by_contra owed
  have free := (m.owed k (by simpa using owed)).2.2.1
  rw [inside] at free
  cases free

/-- The second `ChangeDimension`, with none before it. -/
theorem Matched.announce (m : Matched s) {f : Inbound} {c : Conn}
    (at_ : s.client = .announcing f c) :
    Matched { s with unacked := s.unacked ++ [.finish c.dialer], client := .wiping f c } := by
  have inside : s.client.confirming = true := by rw [at_]; rfl
  have single : s.unacked ++ [Sender.finish c.dialer] = [.finish c.dialer] := by
    rw [m.announcing f c at_]
    rfl
  exact {
    order := by
      simp only [single]
      intro x member
      cases member
    sole := by
      simp only [single]
      intro i member
      cases List.mem_singleton.mp member
    front := fun _ _ _ => rfl
    owed := fun k owed => absurd ((m.none_owed inside k).symm.trans owed) Bool.false_ne_true
    inHand := fun _ held => by cases held
    announcing := fun _ _ out => by cases out
    confirmation := by
      intro f' c' same
      exact m.confirmation f' c' (by rw [at_]; exact same)
    confirmed := by
      intro c' _ set
      have same := m.confirmed c' inside set
      rw [at_] at same
      exact same
    pending := fun _ _ out => by cases out
    expected := fun _ out => by cases out
    passed := fun _ _ out => by cases out
    tagged := trivial }

theorem ClientState.held_of_confirming {st : ClientState} (inside : st.confirming = true) :
    st.held = none ∧ st.forwarded = none ∧ st.Tagged := by
  cases st <;> first | exact ⟨rfl, rfl, trivial⟩ | cases inside

/-- The rest of the confirmation, up to `postTransfer.Store(true)`. -/
theorem Matched.confirm_moves (m : Matched s) (inside : s.client.confirming = true)
    (inside' : s'.client.confirming = true) (owes : ∀ k, s'.owes k = s.owes k)
    (unacked : s'.unacked = s.unacked) (unannounced : ∀ f c, s'.client ≠ .announcing f c)
    (confirmation : ∀ f c, s'.client.confirmation = some (f, c) →
      s.client.confirmation = some (f, c))
    (temp : ∀ c, s'.tempServerConn = some c →
      s.tempServerConn = some c ∧ s'.client.finishing = s.client.finishing) : Matched s' := by
  obtain ⟨unheld, unforwarded, tagged⟩ := ClientState.held_of_confirming inside'
  exact {
    order := by rw [unacked]; exact m.order
    sole := by rw [unacked]; exact m.sole
    front := fun _ _ _ => unheld
    owed := by
      intro k owed
      rw [owes k, m.none_owed inside k] at owed
      cases owed
    inHand := by
      intro i held
      rw [unheld] at held
      cases held
    announcing := fun f c at_ => absurd at_ (unannounced f c)
    confirmation := fun f c same => m.confirmation f c (confirmation f c same)
    confirmed := by
      intro c _ set
      obtain ⟨before, same⟩ := temp c set
      rw [same]
      exact m.confirmed c inside before
    pending := fun _ _ out => absurd (out.symm.trans inside') Bool.false_ne_true
    expected := fun _ out => absurd (out.symm.trans inside') Bool.false_ne_true
    passed := by
      intro f x inside
      rw [unforwarded] at inside
      cases inside
    tagged := tagged }

/-- `postTransfer.Store(true)`: the second acknowledgement is expected. -/
theorem Matched.raise (m : Matched s) {c : Conn} (at_ : s.client = .raising c) :
    Matched { s with postTransfer := true, client := .logging c } := by
  have inside : s.client.confirming = true := by rw [at_]; rfl
  exact {
    order := m.order
    sole := m.sole
    front := fun _ _ _ => rfl
    owed := fun k owed => absurd ((m.none_owed inside k).symm.trans owed) Bool.false_ne_true
    inHand := fun _ held => by cases held
    announcing := fun _ _ out => by cases out
    confirmation := fun _ _ out => by cases out
    confirmed := fun _ out => by cases out
    pending := by
      intro c' set _
      have finishing := m.confirmed c' inside set
      rw [at_] at finishing
      cases finishing
    expected := fun _ _ => .inr ⟨rfl, rfl⟩
    passed := fun _ _ out => by cases out
    tagged := trivial }

/-- An acknowledgement is swallowed: nothing of the proxy's is outstanding then. -/
theorem Matched.swallow (m : Matched s) {f : Inbound} {pk : Packet}
    (at_ : s.client = .swapping f pk) :
    Matched { s with postTransfer := false, client := .reading } := by
  have free : s.client.confirming = false := by rw [at_]; rfl
  obtain ⟨x, -, held⟩ := m.deciding (.inr at_)
  obtain ⟨noneOwed, noProxy⟩ := m.alone held
  have unpublished := m.unpublished held free (by rw [at_]; rfl)
  exact {
    order := m.order
    sole := m.sole
    front := fun _ _ _ => rfl
    owed := fun k owed => absurd ((noneOwed k).symm.trans owed) Bool.false_ne_true
    inHand := fun _ held => by cases held
    announcing := fun _ _ out => by cases out
    confirmation := fun _ _ out => by cases out
    confirmed := fun _ out => by cases out
    pending := fun _ set _ => nomatch unpublished.symm.trans set
    expected := by
      rintro (⟨k, owed⟩ | ⟨y, member, proxy⟩ | ⟨y, held, -⟩ | inside) _
      · exact absurd ((noneOwed k).symm.trans owed) Bool.false_ne_true
      · exact absurd ((noProxy y member).symm.trans proxy) Bool.false_ne_true
      · cases held
      · cases inside
    passed := fun _ _ out => by cases out
    tagged := trivial }

/-- The loop has read a packet and not yet looked at the flags. -/
theorem clientStep_matched_read (m : Matched s) {f : Inbound}
    (at_ : (∃ rest, s.client = .translating f rest) ∨ ∃ pk, s.client = .clearing f pk)
    (taken : s.clientStep input s.client = some s') : Matched s' := by
  have tagged := m.tagged
  rcases at_ with ⟨rest, at_⟩ | ⟨pk, at_⟩
  · rw [at_] at tagged
    cases rest with
    | pure pk =>
        simp only [at_, clientStep, Option.some.injEq] at taken
        subst taken
        exact m.client_moves (by rw [at_]; rfl) rfl rfl (.inl (by rw [at_]; rfl))
          (fun _ _ _ _ _ => ⟨by rw [at_]; rfl, rfl⟩) (by simp [ClientState.relies])
          (by simp [ClientState.forwarded]) tagged
    | ask r k =>
        simp only [at_, clientStep] at taken
        split at taken <;> cases taken
        · exact m.frame (fun _ => rfl) rfl rfl rfl rfl rfl
        · exact m.client_moves (by rw [at_]; rfl) rfl rfl (.inl (by rw [at_]; rfl))
            (fun _ _ _ _ _ => ⟨by rw [at_]; rfl, rfl⟩) (by simp [ClientState.relies])
            (by simp [ClientState.forwarded]) (tagged _)
  · rw [at_] at tagged
    simp only [at_, clientStep, clearLegacyIdentity_isDimensionChangeDone] at taken
    split at taken <;> cases taken
    · exact m.frame (fun _ => rfl) rfl rfl rfl rfl rfl
    · split
      · rename_i ack
        exact m.client_moves (by rw [at_]; rfl) rfl rfl (.inl (by rw [at_]; rfl))
          (fun _ _ _ _ _ => ⟨by rw [at_]; rfl, rfl⟩) (by simp [ClientState.relies])
          (by simp [ClientState.forwarded]) (tagged.symm.trans ack)
      · rename_i plain
        have unmarked : f.ack = none := by
          rw [show pk.isDimensionChangeDone = f.ack.isSome from tagged] at plain
          simpa using plain
        exact m.client_moves (by rw [at_]; rfl) rfl rfl (.inl (by rw [at_]; rfl))
          (by simp [at_, ClientState.held, unmarked]) (by simp [ClientState.relies, unmarked])
          (by simp [ClientState.forwarded]) trivial

/-- The loop looks at the flags. -/
theorem clientStep_matched_decide (m : Matched s) {f : Inbound} {pk : Packet}
    (at_ : s.client = .loading f pk ∨ s.client = .locking f pk ∨ s.client = .swapping f pk ∨
      s.client = .checking f pk)
    (taken : s.clientStep input s.client = some s') : Matched s' := by
  have tagged := m.tagged
  rcases at_ with at_ | at_ | at_ | at_
  · rw [at_] at tagged
    simp only [at_, clientStep, Option.some.injEq] at taken
    subst taken
    split
    · rename_i raised
      exact m.client_moves (by rw [at_]; rfl) rfl rfl (.inl (by rw [at_]; rfl))
        (fun _ _ _ _ _ => ⟨by rw [at_]; rfl, rfl⟩) (fun _ => raised)
        (by simp [ClientState.forwarded]) tagged
    · rename_i lowered
      refine m.client_moves (by rw [at_]; rfl) rfl rfl (.inl (by rw [at_]; rfl)) ?_
        (by simp [ClientState.relies]) (by simp [ClientState.forwarded]) tagged
      intro i c temp _ _
      exact absurd (m.pending c temp (by rw [at_]; rfl)).1 lowered
  · simp only [at_, clientStep] at taken
    split at taken <;> cases taken
    · rename_i temp
      refine m.client_moves (by rw [at_]; rfl) rfl rfl (.inl (by rw [at_]; rfl)) ?_ ?_
        (by simp [ClientState.forwarded]) trivial
      · intro _ c set
        cases temp.symm.trans set
      intro relies
      exact m.raised (by rw [at_]; rfl) (by rw [at_]; rfl) relies (.inr (by rw [at_]; exact relies))
    · rename_i c temp
      obtain ⟨_, _, stopped⟩ := stopTimer_frame s
      rw [stopped]
      exact m.lock at_ temp
  · simp only [at_, clientStep] at taken
    split at taken <;> cases taken
    · exact m.swallow at_
    · rename_i lowered
      refine m.client_moves (by rw [at_]; rfl) rfl rfl (.inl (by rw [at_]; rfl))
        (by simp [at_, ClientState.undecided]) ?_ (by simp [ClientState.forwarded]) trivial
      intro relies
      exact m.raised (by rw [at_]; rfl) (by rw [at_]; rfl) relies (.inl (by simpa using lowered))
  · simp only [at_, clientStep, Option.some.injEq] at taken
    subst taken
    split
    · exact m.client_moves (by rw [at_]; rfl) rfl rfl (.inr rfl)
        (by simp [at_, ClientState.undecided]) (by simp [ClientState.relies])
        (by simp [ClientState.forwarded]) trivial
    · rename_i lowered
      refine m.client_moves (by rw [at_]; rfl) rfl rfl (.inr rfl)
        (by simp [at_, ClientState.undecided]) (by simp [ClientState.relies]) ?_ trivial
      intro f' x passed ack
      cases passed
      by_contra proxy
      have marked : f.ack.any Sender.isProxy = true := by simpa [ack] using proxy
      exact lowered
        (m.raised (by rw [at_]; rfl) (by rw [at_]; rfl) marked (.inr (by rw [at_]; exact marked)))

/-- The loop confirms a transfer. -/
theorem clientStep_matched_confirm (m : Matched s) (inside : s.client.confirming = true)
    (taken : s.clientStep input s.client = some s') : Matched s' := by
  cases at_ : s.client with
  | announcing f c =>
      simp only [at_, clientStep, Option.some.injEq] at taken
      subst taken
      exact m.announce at_
  | raising c =>
      simp only [at_, clientStep, Option.some.injEq] at taken
      subst taken
      exact m.raise at_
  | switching f c =>
      simp only [at_, clientStep] at taken
      split at taken <;> cases taken
      · exact m.confirm_moves inside rfl (fun _ => rfl) rfl (fun _ _ out => by cases out)
          (fun _ _ out => by cases out) (fun _ set => by cases set)
      · exact m.frame (fun _ => rfl) rfl rfl rfl rfl rfl
  | wiping f c | reviving f c | dropping f c | storingRuntimeID c | storingUniqueID c | lowering c =>
      simp only [at_, clientStep] at taken
      (try split at taken) <;> cases taken
      all_goals first
        | exact m.confirm_moves inside rfl (fun _ => rfl) rfl (fun _ _ out => by cases out)
            (by rw [at_]; exact fun _ _ same => same) (by rw [at_]; exact fun _ set => ⟨set, rfl⟩)
        | exact m.frame (fun _ => rfl) rfl rfl rfl rfl rfl
  | _ =>
      rw [at_] at inside
      cases inside

theorem clientStep_matched (m : Matched s) (answers : s.fifo (.client, input) = true)
    (taken : s.clientStep input s.client = some s') : Matched s' := by
  by_cases inside : s.client.confirming = true
  · exact clientStep_matched_confirm m inside taken
  · rw [Bool.not_eq_true] at inside
    cases at_ : s.client with
    | unstarted | exited => simp [at_, clientStep] at taken
    | reading =>
        simp only [at_, clientStep] at taken
        split at taken <;> cases taken
        · exact receive_matched m at_ answers
        · exact m.client_moves inside rfl rfl (.inr rfl) (by simp [at_, ClientState.held])
            (by simp [ClientState.relies]) (by simp [ClientState.forwarded]) trivial
    | translating f rest => exact clientStep_matched_read m (.inl ⟨rest, at_⟩) taken
    | clearing f pk => exact clientStep_matched_read m (.inr ⟨pk, at_⟩) taken
    | loading f pk => exact clientStep_matched_decide m (.inl at_) taken
    | locking f pk => exact clientStep_matched_decide m (.inr (.inl at_)) taken
    | swapping f pk => exact clientStep_matched_decide m (.inr (.inr (.inl at_))) taken
    | checking f pk => exact clientStep_matched_decide m (.inr (.inr (.inr at_))) taken
    | logging c | taking c | running c callback | handling f pk | picking f pk | writing f pk c =>
        have passed := m.passed
        rw [at_] at passed
        simp only [at_, clientStep] at taken
        (try split at taken) <;> cases taken
        all_goals first
          | exact m.frame (fun _ => rfl) rfl rfl rfl rfl rfl
          | exact m.client_moves inside rfl rfl (.inr rfl) (by simp [at_, ClientState.held])
              (by simp [ClientState.relies]) passed trivial
          | exact m.client_moves inside rfl rfl (.inr rfl) (by simp [at_, ClientState.held])
              (by simp [ClientState.relies]) (fun _ _ out => by cases out) trivial
    | _ =>
        rw [at_] at inside
        cases inside

/-! ## Every run -/

theorem loginStep_matched (m : Matched s) (w : Wired s)
    (taken : s.loginStep input s.login = some s') : Matched s' := by
  by_cases starts : s.login = .starting
  · obtain ⟨unstarted, -⟩ := w.loops_unstarted (loginStep_unjoined taken)
    simp only [starts, loginStep, Option.some.injEq] at taken
    subst taken
    have moved : Matched { s with client := .reading } :=
      m.client_moves (by rw [unstarted]; rfl) rfl rfl (.inr rfl)
        (by simp [unstarted, ClientState.held]) (by simp [ClientState.relies])
        (by simp [ClientState.forwarded]) trivial
    exact moved.frame (fun _ => rfl) rfl rfl rfl rfl rfl
  · have same : s'.client = s.client := by
      cases at_ : s.login with
      | starting => exact absurd at_ starts
      | _ =>
          simp only [at_, loginStep] at taken
          (try split at taken) <;> cases taken <;> rfl
    obtain ⟨_, _, _, _, _, _, _, -, -, rfl⟩ := loginStep_frame taken
    exact m.frame (fun _ => rfl) rfl same rfl rfl rfl

theorem next_matched {a : Action} (m : Matched s) (w : Wired s) (answers : s.fifo a = true)
    (undisturbed : Undisturbed s a) (taken : s.next a = some s') : Matched s' := by
  obtain ⟨actor, input⟩ := a
  refine next_elim taken ?_ ?_ ?_ ?_ ?_ ?_ ?_ ?_
  · intro _ taken
    obtain ⟨_, _, _, _, _, rfl⟩ := newStep_frame taken
    exact m.frame (fun _ => rfl) rfl rfl rfl rfl rfl
  · intro _ taken
    exact loginStep_matched m w taken
  · rintro i rfl taken
    exact callNext_matched m w undisturbed taken
  · rintro i rfl taken
    exact timerStep_matched m undisturbed taken
  · rintro rfl taken
    exact clientStep_matched m answers taken
  · rintro rfl taken
    exact serverStep_matched m undisturbed taken
  · rintro rfl taken
    exact closeStep_matched m undisturbed taken
  · intro r _ taken
    obtain ⟨_, _, rfl⟩ | ⟨i, target, _, fresh, rfl⟩ := requestStep_frame taken
    · exact m.frame (fun _ => rfl) rfl rfl rfl rfl rfl
    · exact m.frame (owes_enter fresh) rfl rfl rfl rfl rfl

/-- **Acknowledgements are matched.**  With a client that answers in order, in every
run of undisturbed steps: `finishTransferDimensionChange` switches to the
connection of a transfer only for the acknowledgement of that transfer's own
`ChangeDimension`, and no acknowledgement of a `ChangeDimension` of the proxy's is
written to a backend. -/
theorem acknowledgements_matched
    (reached : machine.Reach (fun s a => s.fifo a = true ∧ Undisturbed s a) s) :
    (∀ f c, s.client = .switching f c →
      s.tempServerConn = some c ∧ ∃ i, f.ack = some (.transfer i) ∧ c.dialer = .transfer i) ∧
    ∀ f pk c x, s.client = .writing f pk c → f.ack = some x → x.isProxy = false := by
  have m : Matched s := reached.invariant initial_matched fun s s' a before m meets taken =>
    next_matched m (wired before) meets.1 meets.2 taken
  refine ⟨fun f c at_ => ⟨?_, m.confirmation f c (by rw [at_]; rfl)⟩, fun f pk c x at_ ack => ?_⟩
  · exact (wired reached).finishing c (by rw [at_]; rfl)
  · exact m.passed f x (by rw [at_]; rfl) ack

/-- A statement the condition says nothing about. -/
def harmless (s : Session) (a : Action) : Bool :=
  s.fifo a && !s.publishes a && !s.lowers a && (!s.clears a || s.transferring) && !s.forwards a

theorem undisturbed_of_harmless (s : Session) (a : Action) (free : s.harmless a = true) :
    s.fifo a = true ∧ Undisturbed s a := by
  simp only [harmless, Bool.and_eq_true, Bool.not_eq_true', Bool.or_eq_true] at free
  obtain ⟨⟨⟨⟨answers, publishes⟩, lowers⟩, clears⟩, forwards⟩ := free
  exact ⟨answers, {
    publish := fun set => absurd (publishes.symm.trans set) Bool.false_ne_true
    lower := fun set => absurd (lowers.symm.trans set) Bool.false_ne_true
    clear := fun set _ _ => clears.resolve_left fun unset =>
      absurd (unset.symm.trans set) Bool.false_ne_true
    forward := fun set => absurd (forwards.symm.trans set) Bool.false_ne_true }⟩

theorem undisturbed_publish {k : TransferID} {target : Server} {c : Conn}
    (called : s.calls k = some ⟨target, .publishing c⟩) (raised : s.transferring = true)
    (sent : s.unacked = []) (unheld : s.client.held = none) (unawaited : ¬ s.Awaited) :
    s.fifo (.call k, input) = true ∧ Undisturbed s (.call k, input) :=
  ⟨rfl, {
    publish := fun _ => ⟨raised, sent, unheld, unawaited⟩
    lower := fun set => by simp [lowers, called] at set
    clear := fun set => by simp [clears, called] at set
    forward := fun set => by simp [forwards] at set }⟩

/-- A transfer with no acknowledgement outstanding is confirmed by its own. -/
theorem acknowledgements_matched_switching :
    ∃ s f c, machine.Reach (fun s a => s.fifo a = true ∧ Undisturbed s a) s ∧
      s.client = .switching f c ∧ c = ⟨.transfer 0, game, gameData⟩ ∧
      ∃ i, f.ack = some (.transfer i) ∧ c.dialer = .transfer i := by
  have dialed : machine.Reach (fun s a => s.fifo a = true ∧ Undisturbed s a) _ :=
    Machine.Reach.start.exec undisturbed_of_harmless
      (joining lobby lobbyData ++ ([(.call 0, .transfer game)] : List Action) ++ steps (.call 0) 6 ++
        [(.call 0, .verdict false), (.call 0, .go), (.call 0, .dialed gameData), (.call 0, .go)]) rfl
  have published : machine.Reach (fun s a => s.fifo a = true ∧ Undisturbed s a) _ :=
    dialed.step (a := (.call 0, .go))
      (undisturbed_publish rfl rfl rfl rfl (by
        rintro (⟨_ | k, owed⟩ | ⟨x, member, -⟩ | ⟨x, held, -⟩ | inside)
        · cases owed
        · cases owed
        · cases member
        · cases held
        · cases inside)) rfl
  have switching : machine.Reach (fun s a => s.fifo a = true ∧ Undisturbed s a) _ :=
    published.exec undisturbed_of_harmless
      (steps (.call 0) 2 ++ acknowledging ++ steps .client 5) rfl
  exact ⟨_, _, _, switching, rfl, rfl, ((acknowledgements_matched switching).1 _ _ rfl).2⟩

/-- Transfer 1 publishes before the client has acknowledged the second
`ChangeDimension` of transfer 0, and that acknowledgement confirms it. -/
def confirmingEarly : List Action :=
  joining lobby lobbyData ++ transferCall 0 game gameData ++ acknowledging ++ confirming ++
    transferCall 1 lobby lobbyData ++ acknowledging ++ steps .client 5

/-- From there the acknowledgement of transfer 1 is swallowed in place of the second
one of transfer 0, and the second one of transfer 1 is forwarded. -/
def leakingAcknowledgement : List Action :=
  steps .client 8 ++ acknowledging ++ steps .client 1 ++ acknowledging ++
    steps .client 2 ++ [(.client, .verdict false)] ++ steps .client 1

theorem early_acknowledgement_confirms :
    (∃ s f c, machine.Reach (fun s a => s.fifo a = true) s ∧ s.client = .switching f c ∧
      c.dialer = .transfer 1 ∧ f.ack = some (.finish (.transfer 0))) ∧
    ∃ s f pk c, machine.Reach (fun s a => s.fifo a = true) s ∧ s.client = .writing f pk c ∧
      f.ack = some (.finish (.transfer 1)) := by
  have confirmed : machine.Reach (fun s a => s.fifo a = true) _ :=
    Machine.exec_reach confirmingEarly rfl
  have leaked : machine.Reach (fun s a => s.fifo a = true) _ :=
    confirmed.exec (fun _ _ answers => answers) leakingAcknowledgement rfl
  exact ⟨⟨_, _, _, confirmed, rfl, rfl, rfl⟩, _, _, _, _, leaked, rfl, rfl⟩

end Session

end Portal
