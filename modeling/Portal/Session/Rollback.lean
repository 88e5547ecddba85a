/-
# Session.Rollback — what a `Transfer` that fails leaves behind

A call of `Transfer` alone, from its first statement to its return, in any state of the
session and with any answers of the handler, the dials and the spawn (`Answers`).

On its way to an error the call clears `postTransfer`, and `dead` if the handler let it
go on; the failure paths put `transferring` and `transferDone` back and nothing else.  So
the session is as before exactly if these two flags had nothing to lose
(`failed_transfer_restores`).  `cancelled_transfer_forgets` is a handler that cancels
while the acknowledgement of the last transfer is still to come.
-/
import Portal.Session.PlayerCount

namespace Portal

open Portal.Theory Portal.Theory.Transition

set_option autoImplicit false

/-- What a call of `Transfer` is told. -/
structure Answers where
  /-- the handler cancels the context -/
  cancel : Bool
  dial : Except String GameData
  /-- the second dial, after "already logged in" -/
  redial : Except String GameData
  /-- the error of `DoSpawnTimeout` -/
  spawn : Option String

namespace Answers

/-- `setTransferring(false)` and the two statements of `completeTransfer`. -/
def givingUp : List Input := [.go, .go, .go]

/-- From `DoSpawnTimeout` on. -/
def spawning (a : Answers) : List Input :=
  match a.spawn with
  | none => [.go, .go, .go, .go]
  | some err => .failed err :: givingUp

/-- From the second dial on. -/
def redialing (a : Answers) : List Input :=
  match a.redial with
  | .ok data => .dialed data :: a.spawning
  | .error err => .failed err :: givingUp

/-- From the first dial on. -/
def dialing (a : Answers) : List Input :=
  match a.dial with
  | .ok data => .dialed data :: a.spawning
  | .error err =>
      if Session.containsText err "already logged in" then .failed err :: a.redialing
      else .failed err :: givingUp

/-- From the handler on. -/
def handling (a : Answers) : List Input :=
  if a.cancel then .verdict true :: givingUp else .verdict false :: .go :: a.dialing

/-- The inputs of all statements of `Transfer(srv)`. -/
def inputs (a : Answers) (srv : Server) : List Input :=
  .transfer srv :: .go :: .go :: .go :: .go :: .go :: .go :: a.handling

/-- The error of the spawn, after a dial that ended with `dialed`. -/
def spawned (a : Answers) (dialed : Except String GameData) : Option String :=
  match dialed with
  | .ok _ => a.spawn
  | .error err => some err

/-- What `Transfer` returns. -/
def err (a : Answers) : Option String :=
  if a.cancel then some "transfer cancelled"
  else
    match a.dial with
    | .ok _ => a.spawn
    | .error err =>
        if Session.containsText err "already logged in" then a.spawned a.redial else some err

end Answers

namespace Session

/-- Call `i` executes one statement for each input, and nobody else moves. -/
def alone (i : TransferID) (s : Session) (inputs : List Input) : Option Session :=
  machine.exec (fun _ _ => True) s (inputs.map fun input => (.call i, input))

/-- The fields that the claim of a transfer is staked in, apart from the two flags. -/
structure SameFields (s s' : Session) : Prop where
  server : s'.server = s.server
  serverConn : s'.serverConn = s.serverConn
  tempServerConn : s'.tempServerConn = s.tempServerConn
  pendingServer : s'.pendingServer = s.pendingServer
  transferConfirmTimer : s'.transferConfirmTimer = s.transferConfirmTimer
  translator : s'.translator = s.translator

/-- Call `i` has returned with an error, from a state that is `s` but for the two flags. -/
structure GaveUp (i : TransferID) (srv : Server) (err : Option String) (s s' : Session) : Prop where
  returned : s'.calls i = some ⟨srv, .returned err⟩
  same : SameFields s s'
  transferring : s'.transferring = false
  transferDone : s'.transferDone = none
  dead : s'.dead = s.dead
  postTransfer : s'.postTransfer = s.postTransfer

variable {i : TransferID} {srv : Server} {s s' : Session} {input : Input} {rest : List Input}

theorem alone_cons (ran : s.alone i (input :: rest) = some s') :
    ∃ t, s.callNext i input = some t ∧ t.alone i rest = some s' := by
  unfold alone at ran
  rw [List.map_cons, Machine.exec, if_pos trivial] at ran
  obtain ⟨t, taken, ran⟩ := Option.bind_eq_some_iff.mp ran
  exact ⟨t, ownStep_of_next (a := (.call i, input)) taken rfl, ran⟩

/-- After a panic nothing is executed. -/
theorem alone_alive (ran : s.alone i (input :: rest) = some s') : s.panicked = false := by
  unfold alone at ran
  rw [List.map_cons, Machine.exec, if_pos trivial] at ran
  obtain ⟨t, taken, -⟩ := Option.bind_eq_some_iff.mp ran
  exact (next_eq_some (a := (.call i, input)) taken).1

/-- The next statement of a call that stands at `st`. -/
theorem alone_step {st : CallState} (ran : s.alone i (input :: rest) = some s')
    (at_ : s.calls i = some ⟨srv, st⟩) :
    ∃ t, s.callStep i srv input st = some t ∧ t.alone i rest = some s' := by
  obtain ⟨t, taken, ran⟩ := alone_cons ran
  unfold callNext at taken
  rw [at_] at taken
  exact ⟨t, taken, ran⟩

/-- A statement that can always be executed. -/
theorem alone_always {st : CallState} {t : Session} (ran : s.alone i (input :: rest) = some s')
    (at_ : s.calls i = some ⟨srv, st⟩) (does : s.callStep i srv input st = some t) :
    t.alone i rest = some s' := by
  obtain ⟨t', taken, ran⟩ := alone_step ran at_
  obtain rfl := Option.some.inj (does.symm.trans taken)
  exact ran

/-- The failure path, from `setTransferring(false)` to the return. -/
theorem givingUp_spec {o : Outcome} (at_ : s.calls i = some ⟨srv, .resetting o⟩)
    (ran : s.alone i Answers.givingUp = some s') : GaveUp i srv o.err s s' := by
  unfold Answers.givingUp at ran
  have taking := alone_always ran at_ rfl
  have running := alone_always taking (Function.update_self ..) rfl
  have returned := alone_always running (Function.update_self ..) rfl
  obtain rfl := Option.some.inj returned
  exact ⟨Function.update_self .., ⟨rfl, rfl, rfl, rfl, rfl, rfl⟩, rfl, rfl, rfl, rfl⟩

theorem SameFields.trans {t : Session} (first : SameFields s t) (second : SameFields t s') :
    SameFields s s' where
  server := second.server.trans first.server
  serverConn := second.serverConn.trans first.serverConn
  tempServerConn := second.tempServerConn.trans first.tempServerConn
  pendingServer := second.pendingServer.trans first.pendingServer
  transferConfirmTimer := second.transferConfirmTimer.trans first.transferConfirmTimer
  translator := second.translator.trans first.translator

/-- Statements before that touch neither the fields nor the flags. -/
theorem GaveUp.of_same {t : Session} {err : Option String} (gaveUp : GaveUp i srv err t s')
    (same : SameFields s t) (dead : t.dead = s.dead) (postTransfer : t.postTransfer = s.postTransfer) :
    GaveUp i srv err s s' where
  returned := gaveUp.returned
  same := same.trans gaveUp.same
  transferring := gaveUp.transferring
  transferDone := gaveUp.transferDone
  dead := gaveUp.dead.trans dead
  postTransfer := gaveUp.postTransfer.trans postTransfer

theorem sameFields_setCall (s : Session) (i : TransferID) (srv : Server) (st : CallState) :
    SameFields s (s.setCall i srv st) := ⟨rfl, rfl, rfl, rfl, rfl, rfl⟩

/-- A statement of the call that only moves it to a failure path. -/
theorem giveUp_of_setCall {o : Outcome} (ran : (s.setCall i srv (.resetting o)).alone i
    Answers.givingUp = some s') : GaveUp i srv o.err s s' :=
  (givingUp_spec (Function.update_self ..) ran).of_same (sameFields_setCall ..) rfl rfl

theorem spawning_spec {a : Answers} {c : Conn} {err : String} (fails : a.spawn = some err)
    (at_ : s.calls i = some ⟨srv, .spawning c⟩) (ran : s.alone i a.spawning = some s') :
    GaveUp i srv (some err) s s' := by
  unfold Answers.spawning at ran
  rw [fails] at ran
  have resetting := alone_always ran at_ rfl
  have gaveUp := givingUp_spec (Function.update_self ..) resetting
  exact gaveUp.of_same (s := s) ⟨rfl, rfl, rfl, rfl, rfl, rfl⟩ rfl rfl

theorem redialing_spec {a : Answers} {err : String} (fails : a.spawned a.redial = some err)
    (at_ : s.calls i = some ⟨srv, .dialing true⟩) (ran : s.alone i a.redialing = some s') :
    GaveUp i srv (some err) s s' := by
  unfold Answers.redialing at ran
  cases dialed : a.redial with
  | ok data =>
      rw [dialed] at ran fails
      have spawning := alone_always ran at_ rfl
      exact (spawning_spec fails (Function.update_self ..) spawning).of_same (sameFields_setCall ..) rfl rfl
  | error text =>
      rw [dialed] at ran fails
      obtain rfl := Option.some.inj fails
      have resetting := alone_always ran at_ rfl
      exact giveUp_of_setCall resetting

/-- The dials and the spawn, once the handler has let the call go on. -/
theorem dialing_spec {a : Answers} {err : String} (continues : a.cancel = false)
    (fails : a.err = some err) (at_ : s.calls i = some ⟨srv, .dialing false⟩)
    (ran : s.alone i a.dialing = some s') : GaveUp i srv (some err) s s' := by
  unfold Answers.dialing at ran
  unfold Answers.err at fails
  rw [continues, if_neg Bool.false_ne_true] at fails
  cases dialed : a.dial with
  | ok data =>
      rw [dialed] at ran fails
      have spawning := alone_always ran at_ rfl
      exact (spawning_spec fails (Function.update_self ..) spawning).of_same (sameFields_setCall ..) rfl rfl
  | error text =>
      rw [dialed] at ran fails
      dsimp only at ran fails
      by_cases again : containsText text "already logged in" = true
      · rw [if_pos again] at ran fails
        have does : s.callStep i srv (.failed text) (.dialing false) =
            some (s.setCall i srv (.dialing true)) := by simp [callStep, again]
        have redialing := alone_always ran at_ does
        exact (redialing_spec fails (Function.update_self ..) redialing).of_same
          (sameFields_setCall ..) rfl rfl
      · rw [if_neg again] at ran fails
        obtain rfl := Option.some.inj fails
        have does : s.callStep i srv (.failed text) (.dialing false) =
            some (s.setCall i srv (.resetting (.failed i text))) := by simp [callStep, again]
        have resetting := alone_always ran at_ does
        exact giveUp_of_setCall resetting

theorem dialing_cons (a : Answers) : ∃ input rest, a.dialing = input :: rest := by
  unfold Answers.dialing
  split
  · exact ⟨_, _, rfl⟩
  · split
    · exact ⟨_, _, rfl⟩
    · exact ⟨_, _, rfl⟩

/-- The call when `HandleTransfer` is called. -/
def begun (s : Session) (i : TransferID) (srv : Server) : Session :=
  { s.setCall i srv .handling with
    transferring := true, postTransfer := false, transferDone := some i }

/-- The seven statements up to `HandleTransfer`.  A call that gets through them has found
the login over and no transfer in progress. -/
theorem begun_spec {handling : List Input} (fresh : s.calls i = none)
    (ran : s.alone i (.transfer srv :: .go :: .go :: .go :: .go :: .go :: .go :: handling) = some s') :
    (s.begun i srv).alone i handling = some s' := by
  obtain ⟨t, entered, waiting⟩ := alone_cons ran
  unfold callNext at entered
  rw [fresh] at entered
  obtain ⟨-, rfl⟩ := enter_spec entered
  obtain ⟨t, taken, comparing⟩ := alone_step waiting (Function.update_self ..)
  simp only [callStep] at taken
  split at taken <;> cases taken
  obtain ⟨t, taken, clearing⟩ := alone_step comparing (Function.update_self ..)
  simp only [callStep] at taken
  split at taken <;> cases taken
  · obtain ⟨t, taken, -⟩ := alone_step clearing (Function.update_self ..)
    cases taken
  have awaiting := alone_always clearing (Function.update_self ..) rfl
  obtain ⟨t, taken, reading⟩ := alone_step awaiting (Function.update_self ..)
  simp only [callStep] at taken
  split at taken <;> cases taken
  obtain ⟨t, taken, installing⟩ := alone_step reading (Function.update_self ..)
  simp only [callStep] at taken
  split at taken
  · cases taken
  split at taken <;> cases taken
  · cases alone_alive installing
  have handling := alone_always installing (Function.update_self ..) rfl
  simpa only [begun, setCall, Function.update_idem] using handling

/-- The call from `HandleTransfer` on: if it is not cancelled, it clears `dead`. -/
theorem handling_spec {a : Answers} {err : String} (fails : a.err = some err)
    (at_ : s.calls i = some ⟨srv, .handling⟩) (ran : s.alone i a.handling = some s') :
    GaveUp i srv (some err) { s with dead := a.cancel && s.dead } s' := by
  unfold Answers.handling at ran
  cases cancelled : a.cancel with
  | true =>
      rw [cancelled, if_pos rfl] at ran
      unfold Answers.err at fails
      rw [cancelled, if_pos rfl] at fails
      obtain rfl := Option.some.inj fails
      have resetting := alone_always ran at_ rfl
      exact giveUp_of_setCall resetting
  | false =>
      rw [cancelled, if_neg Bool.false_ne_true] at ran
      have respawning := alone_always ran at_ rfl
      obtain ⟨t, taken, dialing⟩ := alone_step respawning (Function.update_self ..)
      simp only [callStep] at taken
      split at taken
      · split at taken <;> cases taken
        · obtain ⟨_, _, more⟩ := dialing_cons a
          rw [more] at dialing
          cases alone_alive dialing
        · have gaveUp := dialing_spec cancelled fails (Function.update_self ..) dialing
          exact gaveUp.of_same ⟨rfl, rfl, rfl, rfl, rfl, rfl⟩ rfl rfl
      · rename_i alive
        cases taken
        have gaveUp := dialing_spec cancelled fails (Function.update_self ..) dialing
        exact gaveUp.of_same ⟨rfl, rfl, rfl, rfl, rfl, rfl⟩ (Bool.not_eq_true _ ▸ alive) rfl

end Session

namespace World

variable {w w' : World} {k : Nat} {s : Session} {i : TransferID}

/-- A call that runs alone in its session moves no player count and no other session. -/
theorem exec_alone {inputs : List Input} (here : w.sessions[k]? = some s)
    (ran : machine.exec (fun _ _ => True) w
      (inputs.map fun input => .step k (.call i, input)) = some w') :
    ∃ s', s.alone i inputs = some s' ∧ w'.sessions[k]? = some s' ∧
      w'.playerCount = w.playerCount := by
  induction inputs generalizing w s with
  | nil =>
      obtain rfl := Option.some.inj ran
      exact ⟨s, rfl, here, rfl⟩
  | cons input inputs ih =>
      rw [List.map_cons, Machine.exec, if_pos trivial] at ran
      obtain ⟨middle, taken, ran⟩ := Option.bind_eq_some_iff.mp ran
      change w.next (.step k (.call i, input)) = some middle at taken
      simp only [World.next, here] at taken
      split at taken
      · cases taken
      · rename_i t moved
        obtain rfl := Option.some.inj taken
        have bound : k < w.sessions.length := (List.getElem?_eq_some_iff.mp here).1
        obtain ⟨s', rest, after, counts⟩ := ih (by rw [List.getElem?_set_self bound]) ran
        refine ⟨s', ?_, after, counts⟩
        rw [Session.alone, List.map_cons, Machine.exec, if_pos trivial]
        exact Option.bind_eq_some_iff.mpr ⟨t, moved, rest⟩

/-- The call of `Transfer` has changed nothing in its session `s` and no player count. -/
structure Unchanged (w w' : World) (s s' : Session) : Prop where
  fields : Session.SameFields s s'
  playerCount : w'.playerCount = w.playerCount
  dead : s'.dead = s.dead
  postTransfer : s'.postTransfer = s.postTransfer
  transferring : s'.transferring = false
  transferDone : s'.transferDone = none

/-- **A transfer that fails.**  For every state of the session in which the call gets past
`CompareAndSwap(false, true)`, so that no other transfer is in progress, and for every
answer of the handler, the dials and the spawn: a call of `Transfer` that runs to its end
and fails returns the error, and it has changed nothing if and only if `postTransfer` was
false and the handler cancelled or `dead` was false. -/
theorem failed_transfer_restores {srv : Server} {a : Answers} {err : String}
    (here : w.sessions[k]? = some s) (fresh : s.calls i = none) (fails : a.err = some err)
    (ran : machine.exec (fun _ _ => True) w
      ((a.inputs srv).map fun input => .step k (.call i, input)) = some w') :
    ∃ s', w'.sessions[k]? = some s' ∧ s'.calls i = some ⟨srv, .returned (some err)⟩ ∧
      (Unchanged w w' s s' ↔ s.postTransfer = false ∧ (a.cancel = true ∨ s.dead = false)) := by
  obtain ⟨s', ran, after, counts⟩ := exec_alone here ran
  have gaveUp := Session.handling_spec fails (Function.update_self ..) (Session.begun_spec fresh ran)
  refine ⟨s', after, gaveUp.returned, ?_⟩
  constructor
  · intro unchanged
    have post : s.postTransfer = false := unchanged.postTransfer.symm.trans gaveUp.postTransfer
    have dead : (a.cancel && s.dead) = s.dead := gaveUp.dead.symm.trans unchanged.dead
    refine ⟨post, ?_⟩
    cases cancelled : a.cancel with
    | true => exact .inl rfl
    | false =>
        rw [cancelled, Bool.false_and] at dead
        exact .inr dead.symm
  · rintro ⟨post, spared⟩
    have dead : (a.cancel && s.dead) = s.dead := by
      rcases spared with cancelled | alive
      · rw [cancelled, Bool.true_and]
      · rw [alive, Bool.and_false]
    have fields : Session.SameFields s s' := by
      refine .trans ?_ gaveUp.same
      exact ⟨rfl, rfl, rfl, rfl, rfl, rfl⟩
    exact {
      fields := fields
      playerCount := counts
      dead := gaveUp.dead.trans dead
      postTransfer := gaveUp.postTransfer.trans post.symm
      transferring := gaveUp.transferring
      transferDone := gaveUp.transferDone }

/-- A player on the lobby, after the actions `more` of their session. -/
def joined (more : List Action) : List Move :=
  .accept :: (Session.joining Session.lobby Session.lobbyData ++ more).map (.step 0)

/-- The server still has the player's old session, twice. -/
def refused : Answers where
  cancel := false
  dial := .error "already logged in"
  redial := .error "already logged in"
  spawn := none

/-- The world these moves lead to. -/
def after (w : World) (moves : List Move) : World :=
  (machine.exec (fun _ _ => True) w moves).getD w

theorem failed_transfer_restores_refused :
    ∃ s s', (machine.start.after (joined [])).sessions[0]? = some s ∧
      s'.calls 0 = some ⟨Session.game, .returned (some "already logged in")⟩ ∧
      Unchanged (machine.start.after (joined [])) ((machine.start.after (joined [])).after
        ((refused.inputs Session.game).map fun input => .step 0 (.call 0, input))) s s' := by
  have fails : refused.err = some "already logged in" := by decide
  have ran : machine.exec (fun _ _ => True) (machine.start.after (joined []))
      ((refused.inputs Session.game).map fun input => .step 0 (.call 0, input)) =
      some ((machine.start.after (joined [])).after
        ((refused.inputs Session.game).map fun input => .step 0 (.call 0, input))) := rfl
  obtain ⟨s', -, returned, unchanged⟩ := failed_transfer_restores rfl rfl fails ran
  exact ⟨_, s', rfl, returned, unchanged.mpr ⟨rfl, .inr rfl⟩⟩

/-- **A cancelled transfer.**  The player has been transferred and is still to acknowledge
the second `ChangeDimension`; a handler cancels another transfer. -/
theorem cancelled_transfer_forgets : ∃ w s w' s', machine.Reachable w ∧ w.sessions[0]? = some s ∧
    s.transferring = false ∧ s.calls 1 = none ∧
    machine.exec (fun _ _ => True) w (((⟨true, .error "", .error "", none⟩ : Answers).inputs
      Session.lobby).map fun input => .step 0 (.call 1, input)) = some w' ∧
    w'.sessions[0]? = some s' ∧ s'.calls 1 = some ⟨Session.lobby, .returned (some "transfer cancelled")⟩ ∧
    ¬ Unchanged w w' s s' := by
  refine ⟨_, _, _, _, Machine.exec_reach (joined (Session.transferCall 0 Session.game Session.gameData ++
    Session.acknowledging ++ Session.confirming)) rfl, rfl, rfl, rfl, rfl, rfl, rfl, ?_⟩
  intro unchanged
  cases unchanged.postTransfer

end World

end Portal
