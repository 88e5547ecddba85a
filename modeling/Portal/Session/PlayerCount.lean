/-
# Session.PlayerCount — the player counts of the servers, over any number of sessions

A `World` is any number of sessions and the player counters they share.  The
counters move at three places: `New` increments before it assigns `s.server`,
`finishTransferDimensionChange` moves one player from `server` to
`pendingServer`, and the last statement of `Close` decrements `s.server`.

`charged s` is the server that session `s` has been counted on so far, and the
counters are the tally of the charges (`Balanced`).  Every statement keeps that,
except an assignment of `s.server` after the session's `Close` has run to its
end: `Close` has then decremented the server it found, and nobody takes back what
the assignment adds.  `New` and the client loop can both be that late, since
`Close` stops neither.  In every run without such a late assignment the counters
are right whenever no `New` and no `Close` is midway
(`player_count_conserved`).  `late_confirmation_unbalances` is a run with one:
the client loop has loaded `transferring` when `Close` starts, and confirms the
transfer when `Close` is over.
-/
import Portal.Theory.Tally
import Portal.Session.Agreement

namespace Portal

open Portal.Theory Portal.Theory.Transition

set_option autoImplicit false

namespace Session

/-- What the next statement of a goroutine adds to which player count. -/
def deltas (s : Session) : Actor → List (Server × Int)
  | .new =>
      match s.new with
      | .incrementing srv => [(srv, 1)]
      | _ => []
  | .client =>
      match s.client, s.server, s.pendingServer with
      | .switching _ _, some old, some pending => [(old, -1), (pending, 1)]
      | _, _, _ => []
  | .close =>
      match s.close, s.server with
      | .decrementing, some srv => [(srv, -1)]
      | _, _ => []
  | _ => []

/-- The next statement of the goroutine assigns `s.server`. -/
def assigns (s : Session) : Actor → Bool
  | .new =>
      match s.new with
      | .assigning _ => true
      | _ => false
  | .client =>
      match s.client with
      | .switching _ _ => true
      | _ => false
  | _ => false

/-- Some, but not all, of `New` or of `Close` has been executed. -/
def midway (s : Session) : Bool :=
  (match s.new with
    | .storing => false
    | .returned _ => false
    | _ => true) ||
  (match s.close with
    | .unstarted => false
    | .done => false
    | _ => true)

/-- The server the session has been counted on. -/
def charged (s : Session) : Option Server :=
  match s.new with
  | .assigning srv => some srv
  | _ => if s.close = .done then none else s.server

end Session

/-- Sessions, and the player counts of all servers. -/
structure World where
  sessions : List Session
  playerCount : Server → Int

namespace World

/-- `New` is called, or a goroutine of session `k` executes its next statement. -/
inductive Move where
  | accept
  | step (k : Nat) (a : Action)

def next (w : World) : Move → Option World
  | .accept => some { w with sessions := w.sessions ++ [Session.initial] }
  | .step k a =>
      match w.sessions[k]? with
      | none => none
      | some s =>
          match s.next a with
          | none => none
          | some s' =>
              some {
                sessions := w.sessions.set k s'
                playerCount := (s.deltas a.1).foldl credit w.playerCount }

def machine : Machine World Move where
  start := ⟨[], fun _ => 0⟩
  next := next

/-- The sessions that are not closed and whose server is `srv`. -/
def playersOn (w : World) (srv : Server) : Nat :=
  w.sessions.countP fun s => decide (s.close ≠ .done ∧ s.server = some srv)

/-- The step is no assignment of `s.server` after the end of the session's
`Close`. -/
def Timely (w : World) : Move → Prop
  | .accept => True
  | .step k a => ∀ s ∈ w.sessions[k]?, s.close = .done → s.assigns a.1 = false

instance (w : World) : (move : Move) → Decidable (Timely w move)
  | .accept => inferInstanceAs (Decidable True)
  | .step k a =>
      inferInstanceAs (Decidable (∀ s ∈ w.sessions[k]?, s.close = .done → s.assigns a.1 = false))

/-- Every counter is the number of sessions charged to its server. -/
def Balanced (w : World) : Prop := ∀ srv, w.playerCount srv = tally Session.charged w.sessions srv

end World

/-! ## One session: a statement moves the charge by what it counts -/

namespace Session

variable {s s' : Session} {a : Action}

/-- The step from `s` to `s'` counts what its actor's `deltas` say. -/
def Counted (s s' : Session) (actor : Actor) : Prop :=
  ∀ srv, unit s'.charged srv = unit s.charged srv + total (s.deltas actor) srv

/-- A step that neither moves the charge nor counts. -/
theorem Counted.of_eq {actor : Actor} (same : s'.charged = s.charged) (idle : s.deltas actor = []) :
    Counted s s' actor := by
  intro srv
  simp [same, idle, total]

theorem newStep_counted {input : Input} (w : Wired s)
    (timely : s.close = .done → s.assigns .new = false)
    (taken : s.newStep input s.new = some s') : Counted s s' .new := by
  cases at_ : s.new with
  | storing | deleting | locking srv =>
      simp only [at_, newStep, Option.some.injEq] at taken
      subst taken
      exact .of_eq (by simp [charged, at_]) (by simp [deltas, at_])
  | finding =>
      simp only [at_, newStep] at taken
      split at taken <;> cases taken <;>
        exact .of_eq (by simp [charged, at_]) (by simp [deltas, at_])
  | incrementing target =>
      have unassigned : s.server = none := w.unassigned (by simp [at_, NewState.assigned])
      simp only [at_, newStep, Option.some.injEq] at taken
      subst taken
      intro srv
      simp [charged, at_, unassigned, deltas, total, unit]
  | assigning target =>
      -- after the end of `Close` nobody would take this charge back
      have opened : s.close ≠ .done := by
        intro closed
        simp [assigns, at_, closed] at timely
      simp only [at_, newStep, Option.some.injEq] at taken
      subst taken
      exact .of_eq (by simp [charged, at_, opened]) (by simp [deltas, at_])
  | returned ok => simp [at_, newStep] at taken

theorem clientStep_counted {input : Input} (w : Wired s)
    (timely : s.close = .done → s.assigns .client = false)
    (taken : s.clientStep input s.client = some s') : Counted s s' .client := by
  by_cases switch : ∃ f c, s.client = .switching f c
  · obtain ⟨f, c, at_⟩ := switch
    have returned : s.new = .returned true := w.returned (by simp [w.client (by simp [at_])])
    have opened : s.close ≠ .done := by
      intro closed
      simp [assigns, at_, closed] at timely
    simp only [at_, clientStep] at taken
    split at taken <;> cases taken
    · rename_i old pending server set
      intro srv
      simp only [charged, returned, opened, deltas, at_, server, set, total, unit, if_false,
        List.map_cons, List.map_nil, List.sum_cons, List.sum_nil, Option.some.injEq]
      by_cases leaves : old = srv <;> by_cases joins : pending = srv <;> simp [leaves, joins]
    · rename_i unset
      refine .of_eq rfl ?_
      simp only [deltas]
      split
      · rename_i server set
        exact absurd set (unset _ _ server)
      · rfl
  · have still : ∀ f c, s.client ≠ .switching f c := fun f c at_ => switch ⟨f, c, at_⟩
    obtain ⟨_, _, _, _, _, _, _, _, _, _, _, _, _, rfl⟩ := clientStep_frame still taken
    refine .of_eq rfl ?_
    simp only [deltas]
    split
    · rename_i at_ _ _
      exact absurd at_ (still _ _)
    · rfl

theorem closeStep_counted (w : Wired s) (taken : s.closeStep s.close = some s') :
    Counted s s' .close := by
  cases at_ : s.close with
  | decrementing =>
      simp only [at_, closeStep, Option.some.injEq] at taken
      subst taken
      cases new : s.new with
      | assigning target =>
          -- `New` has counted, but `Close` still finds no server
          have unassigned : s.server = none := w.unassigned (by simp [new, NewState.assigned])
          exact .of_eq (by simp [charged, new]) (by simp [deltas, at_, unassigned])
      | _ =>
          intro srv
          cases server : s.server with
          | none => simp [charged, new, at_, server, deltas, total]
          | some current =>
              by_cases same : current = srv <;>
                simp [charged, new, at_, server, deltas, total, unit, same]
  | done => simp [at_, closeStep] at taken
  | _ =>
      simp only [at_, closeStep] at taken
      (try split at taken) <;> cases taken <;>
        exact .of_eq (by simp [charged, at_]) (by simp [deltas, at_])

/-- **One statement.**  Unless it is a late assignment, it moves the charge of
its session by exactly what it adds to the counters. -/
theorem next_counted (w : Wired s) (timely : s.close = .done → s.assigns a.1 = false)
    (taken : s.next a = some s') : Counted s s' a.1 := by
  refine next_elim taken ?_ ?_ ?_ ?_ ?_ ?_ ?_ ?_
  · intro actor taken
    rw [actor] at timely ⊢
    exact newStep_counted w timely taken
  · intro actor taken
    obtain ⟨_, _, _, _, _, _, _, -, -, rfl⟩ := loginStep_frame taken
    exact .of_eq rfl (by rw [actor]; rfl)
  · intro i actor taken
    obtain ⟨_, _, _, _, _, _, _, _, _, _, _, _, _, rfl⟩ := callNext_frame taken
    exact .of_eq rfl (by rw [actor]; rfl)
  · intro i actor taken
    obtain ⟨_, _, _, _, _, _, _, _, rfl⟩ := timerStep_frame taken
    exact .of_eq rfl (by rw [actor]; rfl)
  · intro actor taken
    rw [actor] at timely ⊢
    exact clientStep_counted w timely taken
  · intro actor taken
    obtain ⟨_, _, _, _, _, _, rfl⟩ := serverStep_frame taken
    exact .of_eq rfl (by rw [actor]; rfl)
  · intro actor taken
    rw [actor]
    exact closeStep_counted w taken
  · intro r actor taken
    obtain ⟨_, _, rfl⟩ | ⟨_, _, _, -, rfl⟩ := requestStep_frame taken <;>
      exact .of_eq rfl (by rw [actor]; rfl)

end Session

/-! ## All sessions -/

namespace World

variable {w w' : World} {ok : World → Move → Prop}

/-- The sessions of a run of the world are each in a state of a run of its own. -/
theorem sessions_reachable (reached : machine.Reach ok w) :
    ∀ s ∈ w.sessions, Session.machine.Reachable s := by
  refine reached.invariant (I := fun w => ∀ s ∈ w.sessions, Session.machine.Reachable s)
    (by simp [machine]) ?_
  intro w w' move _ all _ taken
  cases move with
  | accept =>
      simp only [machine, next, Option.some.injEq] at taken
      subst taken
      intro s member
      simp only [List.mem_append, List.mem_singleton] at member
      rcases member with member | rfl
      · exact all s member
      · exact .start
  | step k a =>
      simp only [machine, next] at taken
      split at taken
      · cases taken
      · rename_i s found
        split at taken <;> cases taken
        rename_i s' stepped
        intro t member
        rcases List.mem_or_eq_of_mem_set member with member | rfl
        · exact all t member
        · exact .step (all s (List.mem_of_getElem? found)) trivial stepped

theorem next_balanced {move : Move} (reached : machine.Reach ok w) (balanced : Balanced w)
    (timely : Timely w move) (taken : w.next move = some w') : Balanced w' := by
  cases move with
  | accept =>
      simp only [next, Option.some.injEq] at taken
      subst taken
      intro srv
      simp [tally_append, balanced srv, Session.charged, Session.initial]
  | step k a =>
      simp only [next] at taken
      split at taken
      · cases taken
      · rename_i s found
        split at taken <;> cases taken
        rename_i s' stepped
        intro srv
        have own := Session.wired (sessions_reachable reached s (List.mem_of_getElem? found))
        have counted := Session.next_counted own (timely s found) stepped srv
        show (s.deltas a.1).foldl credit w.playerCount srv =
          tally Session.charged (w.sessions.set k s') srv
        rw [foldl_credit, balanced srv, tally_set _ found, counted]
        ring

/-- Every run of timely steps keeps the counters equal to the charges. -/
theorem balanced (reached : machine.Reach Timely w) : Balanced w :=
  reached.invariant (fun _ => rfl) fun _ _ _ reached balanced timely taken =>
    next_balanced reached balanced timely taken

/-- Between calls of `New` and `Close` a session is charged to its server until
it is closed. -/
theorem charged_of_settled {s : Session} (settled : s.midway = false) (srv : Server) :
    s.charged = some srv ↔ s.close ≠ .done ∧ s.server = some srv := by
  have unassigning : ∀ target, s.new ≠ .assigning target := by
    intro target at_
    simp [Session.midway, at_] at settled
  have charged : s.charged = if s.close = .done then none else s.server := by
    unfold Session.charged
    split
    · rename_i at_
      exact absurd at_ (unassigning _)
    · rfl
  rw [charged]
  by_cases closed : s.close = .done <;> simp [closed]

/-- **Player counts are conserved** in every run in which no session's `server`
is assigned after the end of its `Close`: whenever no `New` and no `Close` is
midway, each counter is the number of open sessions on its server, and so it is
not negative. -/
theorem player_count_conserved (reached : machine.Reach Timely w)
    (settled : ∀ s ∈ w.sessions, s.midway = false) (srv : Server) :
    w.playerCount srv = w.playersOn srv ∧ 0 ≤ w.playerCount srv := by
  have counted : w.playerCount srv = w.playersOn srv := by
    rw [balanced reached srv]
    unfold tally playersOn
    congr 1
    refine List.countP_congr fun s member => ?_
    simp only [decide_eq_true_eq]
    exact charged_of_settled (settled s member) srv
  exact ⟨counted, by omega⟩

/-- The moves of session `k` that follow a schedule. -/
def inSession (k : Nat) (schedule : List Action) : List Move := schedule.map (.step k)

/-- A player joins the lobby, is transferred to the game and confirms. -/
def confirmedTransfer : List Move :=
  .accept :: inSession 0 (Session.joining Session.lobby Session.lobbyData ++
    Session.transferCall 0 Session.game Session.gameData ++ Session.acknowledging ++
    Session.confirming)

theorem player_count_conserved_confirmed :
    ∃ w, machine.Reach Timely w ∧ (∀ s ∈ w.sessions, s.midway = false) ∧
      w.playersOn Session.game = 1 ∧ w.playerCount Session.game = w.playersOn Session.game := by
  have reached : machine.Reach Timely _ := Machine.exec_reach confirmedTransfer rfl
  exact ⟨_, reached, by decide, by decide,
    (player_count_conserved reached (by decide) Session.game).1⟩

/-- As before, but the client loop has only read the confirmation and loaded
`transferring` when `Close` runs, and goes on when `Close` is over. -/
def lateConfirmation : List Move :=
  .accept :: inSession 0 (Session.joining Session.lobby Session.lobbyData ++
    Session.transferCall 0 Session.game Session.gameData ++ Session.acknowledging ++
    Session.closingMidTransfer ++ Session.confirming)

theorem late_confirmation_unbalances :
    ∃ w, machine.Reachable w ∧ (∀ s ∈ w.sessions, s.midway = false) ∧
      w.playersOn Session.lobby = 0 ∧ w.playerCount Session.lobby = -1 ∧
      w.playersOn Session.game = 0 ∧ w.playerCount Session.game = 1 :=
  ⟨_, Machine.exec_reach (m := machine) lateConfirmation rfl, by decide, by decide, by decide,
    by decide, by decide⟩

end World

end Portal
