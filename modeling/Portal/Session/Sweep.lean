/-
# Session.Sweep — what the proxy shows the client, and what it remembers of it

The server->client loop writes the packets of the backend, and tracks in its sets what they
show the client.  `finishTransferDimensionChange` writes the removal of everything in the
sets; two goroutines do that, each walks its sets in any order, and a `Sweep` is how it went
this time.  `watched` is the session with the packets written to the client.

An `Aspect` is something that packets put in and take out at the client, with what the sets
say of it.  A packet is tracked before the handler sees it and written afterwards, so what is
shown, with the packet in the hands of the loop in it, is within the sets as long as the loop
runs and tracks what it writes (`Aspect.Faced.next`).  When the loop holds no packet the
removals then reach all there is, and nothing is left.
-/
import Mathlib.Data.Finset.Dedup
import Portal.Theory.Replay
import Portal.Session.Straggler

namespace Portal

open Portal.Theory.Replay Portal.Theory.Transition

set_option autoImplicit false

/-! ## The packets of the proxy -/

/-- One execution of `clearEntities` … `clearScoreboard`: the order in which `Each` visits
the elements of each set, and the turns of the two goroutines. -/
structure Sweep where
  entities : List Int64
  effects : List Int32
  playerList : List Nat
  bossBars : List Int64
  scoreboards : List String
  turns : List Bool

/-- `Each` visits every element, and no other. -/
def Sweep.walks (w : Sweep) (t : Tracked) : Bool :=
  w.entities.toFinset = t.entities ∧ w.effects.toFinset = t.effects ∧
    w.playerList.toFinset = t.playerList ∧ w.bossBars.toFinset = t.bossBars ∧
    w.scoreboards.toFinset = t.scoreboards

/-- The packets they write. -/
def Sweep.packets (w : Sweep) (originalRuntimeID : UInt64) : List Packet :=
  interleave w.turns
    (w.entities.map .removeActor ++ w.effects.map (.mobEffect originalRuntimeID .remove))
    (.playerList (w.playerList.map fun uuid => ⟨false, uuid, 0⟩) ::
      (w.bossBars.map (.bossEvent · .hide) ++ w.scoreboards.map .removeObjective))

/-- What holds of the five kinds of packets holds of all that they write. -/
theorem Sweep.packets_elim {w : Sweep} {originalRuntimeID : UInt64} {P : Packet → Prop}
    (entity : ∀ id, P (.removeActor id))
    (effect : ∀ effectType, P (.mobEffect originalRuntimeID .remove effectType))
    (list : P (.playerList (w.playerList.map fun uuid => ⟨false, uuid, 0⟩)))
    (bar : ∀ id, P (.bossEvent id .hide)) (board : ∀ name, P (.removeObjective name)) :
    ∀ pk ∈ w.packets originalRuntimeID, P pk := by
  intro pk written
  rw [Sweep.packets, mem_interleave, List.mem_append, List.mem_cons, List.mem_append] at written
  rcases written with (removal | removal) | (same | removal | removal)
  · obtain ⟨id, -, rfl⟩ := List.mem_map.mp removal
    exact entity id
  · obtain ⟨effectType, -, rfl⟩ := List.mem_map.mp removal
    exact effect effectType
  · subst same
    exact list
  · obtain ⟨id, -, rfl⟩ := List.mem_map.mp removal
    exact bar id
  · obtain ⟨name, -, rfl⟩ := List.mem_map.mp removal
    exact board name

/-- The loop has not returned; it does when a handler or `WritePacket` panics, too. -/
def ServerState.alive : ServerState → Bool
  | .exited => false
  | _ => true

namespace Session

/-- The packets a statement writes to the client; `none` if the sets are not walked like
this. -/
def shows (s : Session) (w : Sweep) : Action → Option (List Packet)
  | (.server, .go) =>
      match s.serverLoop with
      | .writing _ _ pk => some [pk]
      | _ => some []
  | (.client, _) =>
      match s.client with
      | .wiping _ _ =>
          if w.walks s.tracked then
            some (w.packets ((s.translator.map fun t => t.original.runtimeID).getD 0))
          else none
      | _ => some []
  | _ => some []

/-- The session with the packets written to the client. -/
def watched : Machine (Session × List Packet) (Action × Sweep) where
  start := (initial, [])
  next := fun (s, written) (a, w) =>
    match s.next a, s.shows w a with
    | some s', some packets => some (s', written ++ packets)
    | _, _ => none

/-- The handler cancels nothing, and `finishTransferDimensionChange` happens between two
packets of the server->client loop: the loop is running, holds no packet, and takes up none
meanwhile. -/
def interlude (s : Session) : Action → Bool
  | (.client, _) =>
      match s.client with
      | .locking _ _ =>
          s.tempServerConn.isNone || (s.serverLoop.alive && s.serverLoop.inFlight.isNone)
      | _ => true
  | (.server, input) =>
      match s.serverLoop, input with
      | .reading _, .packet _ => !s.serverMuHeld
      | .handling _ _ _, .verdict cancel => !cancel
      | _, _ => true
  | _ => true

end Session

/-! ## Which statements write -/

/-- The sets have been cleared and the switch is still to come. -/
def ClientState.swept : ClientState → Bool
  | .reviving _ _ => true
  | .dropping _ _ => true
  | .switching _ _ => true
  | _ => false

theorem finishing_of_swept {client : ClientState} (cleared : client.swept = true) :
    client.finishing.isSome = true := by
  cases client with
  | reviving | dropping | switching => rfl
  | _ => cases cleared

namespace Session

variable {s s' : Session} {w : Sweep} {a : Action} {input : Input}

theorem watched_next {p p' : Session × List Packet} (taken : watched.next p (a, w) = some p') :
    ∃ packets, p.1.next a = some p'.1 ∧ p.1.shows w a = some packets ∧
      p'.2 = p.2 ++ packets := by
  simp only [watched] at taken
  split at taken
  · rename_i s' packets stepped shown
    cases taken
    exact ⟨packets, stepped, shown, rfl⟩
  · cases taken

/-- **A run with the packets is a run of the session.** -/
theorem watched_reachable {ok : Session × List Packet → Action × Sweep → Prop}
    {p : Session × List Packet} (reached : watched.Reach ok p) : machine.Reachable p.1 := by
  refine reached.invariant (I := fun p : Session × List Packet => machine.Reachable p.1) .start ?_
  rintro p p' ⟨a, w⟩ - before - taken
  obtain ⟨_, stepped, -⟩ := watched_next taken
  exact .step (a := a) before trivial stepped

theorem shows_server (apart : ∀ c read pk, s.serverLoop ≠ .writing c read pk) :
    s.shows w (.server, input) = some [] := by
  cases input with
  | go => simp only [shows]
  | _ => rfl

theorem shows_client (apart : ∀ f c, s.client ≠ .wiping f c) :
    s.shows w (.client, input) = some [] := by
  simp only [shows]

theorem shows_others (client : a.1 ≠ .client) (server : a.1 ≠ .server) : s.shows w a = some [] := by
  obtain ⟨actor, input⟩ := a
  cases actor with
  | client => exact absurd rfl client
  | server => exact absurd rfl server
  | _ => rfl

/-- Without a packet it leaves the sets alone. -/
theorem serverStep_idle (idle : s.serverLoop.inFlight = none)
    (taken : s.serverStep input s.serverLoop = some s') : s'.tracked = s.tracked := by
  cases at_ : s.serverLoop with
  | translating | tracking | loading | handling | writing =>
      rw [at_] at idle
      cases idle
  | _ =>
      simp only [at_, serverStep] at taken
      (repeat' split at taken) <;> cases taken <;> rfl

/-- It takes up no packet while `finishTransferDimensionChange` is running. -/
theorem serverStep_between (idle : s.serverLoop.inFlight = none)
    (ok : s.interlude (.server, input) = true) (taken : s.serverStep input s.serverLoop = some s')
    (held : s.serverMuHeld = true) : s'.serverLoop.inFlight = none := by
  cases flying : s'.serverLoop.inFlight with
  | none => rfl
  | some c =>
      rcases (serverStep_conn taken c).2 flying with before | ⟨pk, at_, rfl⟩
      · cases idle.symm.trans before
      · simp [interlude, at_, held] at ok

/-- What a statement of the client->server loop does to the tracking sets, and where it can
lead. -/
theorem clientStep_sweep (apart : ∀ f c, s.client ≠ .wiping f c)
    (taken : s.clientStep input s.client = some s') :
    s'.tracked = s.tracked ∧ (s'.client.swept = true → s.client.swept = true) ∧
      (s'.client.finishing.isSome = true → s.client.finishing.isSome = true ∨
        ∃ f pk, s.client = .locking f pk ∧ s.tempServerConn.isNone = false) := by
  cases at_ : s.client with
  | wiping f c => exact absurd at_ (apart f c)
  | reading =>
      simp only [at_, clientStep] at taken
      split at taken <;> cases taken
      · rename_i pk
        simp only [receive]
        (repeat' split) <;> simp [panic, at_, ClientState.swept, ClientState.finishing]
      · refine ⟨rfl, ?_, ?_⟩ <;> rintro ⟨⟩
  | translating f rest =>
      cases rest with
      | pure pk =>
          simp only [at_, clientStep] at taken
          cases taken
          refine ⟨rfl, ?_, ?_⟩ <;> rintro ⟨⟩
      | ask r k =>
          simp only [at_, clientStep] at taken
          split at taken <;> cases taken
          · simp [panic, at_, ClientState.swept, ClientState.finishing]
          · refine ⟨rfl, ?_, ?_⟩ <;> rintro ⟨⟩
  | locking f pk =>
      simp only [at_, clientStep] at taken
      split at taken <;> cases taken
      · refine ⟨rfl, ?_, ?_⟩ <;> rintro ⟨⟩
      · rename_i c temp
        obtain ⟨_, _, stopped⟩ := stopTimer_frame s
        rw [stopped]
        refine ⟨rfl, ?_, fun _ => .inr ⟨f, pk, rfl, by rw [temp]; rfl⟩⟩
        rintro ⟨⟩
  | _ =>
      simp only [at_, clientStep] at taken
      (repeat' split at taken) <;> cases taken <;>
        simp [panic, at_, ClientState.swept, ClientState.finishing]

end Session

/-! ## What is shown is tracked -/

/-- Something that packets change at the client, and what the tracking sets say of it. -/
structure Aspect (ι : Type) where
  changes : Packet → List (ι × Bool)
  tracked : Tracked → ι → Bool

namespace Aspect

variable {ι : Type} [DecidableEq ι] (A : Aspect ι)

/-- What is left at a client to whom these packets were written. -/
def shown (written : List Packet) : ι → Bool :=
  replay (fun _ => false) (written.flatMap A.changes)

/-- What is shown is tracked.  A packet that was tracked and not written yet counts as
written; one that the loop panicked over never is. -/
def Covered (tracked : Tracked) (v : ι → Bool) : ServerState → Prop
  | .loading _ _ pk => A.changes pk = [] ∧ Within v (A.tracked tracked)
  | .handling _ _ pk => Within (replay v (A.changes pk)) (A.tracked tracked)
  | .writing _ _ pk => Within (replay v (A.changes pk)) (A.tracked tracked)
  | .exited => True
  | _ => Within v (A.tracked tracked)

structure Faced (s : Session) (written : List Packet) : Prop where
  covered : A.Covered s.tracked (A.shown written) s.serverLoop
  between : s.client.finishing.isSome = true →
    s.serverLoop.inFlight = none ∧ Within (A.shown written) (A.tracked s.tracked)
  swept : s.client.swept = true → ∀ x, A.shown written x = false

/-- A `Respawn`, which the loop does not track, changes nothing. -/
def Unaffected : Prop := ∀ rid state, A.changes (.respawn rid state) = []

/-- The loop tracks a packet as it changes what is shown. -/
def Tracks (s : Session) (v : ι → Bool) : Prop :=
  ∀ c read pk, s.serverLoop = .tracking c read pk → Within v (A.tracked s.tracked) →
    Within (replay v (A.changes pk)) (A.tracked (Session.track s.tracked pk))

/-- These packets take out all that the sets say is there. -/
def Clears (s : Session) (packets : List Packet) : Prop :=
  ∀ v, Within v (A.tracked s.tracked) → ∀ x, replay v (packets.flatMap A.changes) x = false

variable {A} {s s' : Session} {written packets : List Packet} {w : Sweep} {a : Action}
  {input : Input} {v : ι → Bool} {tracked : Tracked} {loop : ServerState}

theorem shown_append (written packets : List Packet) :
    A.shown (written ++ packets) = replay (A.shown written) (packets.flatMap A.changes) := by
  rw [shown, List.flatMap_append, replay_append, shown]

theorem Covered.within (covered : A.Covered tracked v loop) (alive : loop.alive = true)
    (idle : loop.inFlight = none) : Within v (A.tracked tracked) := by
  cases loop with
  | translating | tracking | loading | handling | writing => cases idle
  | exited => cases alive
  | _ => exact covered

theorem Covered.of_within (within : Within v (A.tracked tracked)) (idle : loop.inFlight = none) :
    A.Covered tracked v loop := by
  cases loop with
  | translating | tracking | loading | handling | writing => cases idle
  | exited => trivial
  | _ => exact within

/-! ### The two loops -/

/-- The server->client loop tracks a packet, and takes it to the handler. -/
theorem serverStep_tracks {c : Conn} {read pk : Packet} (unaffected : A.Unaffected)
    (within : Within v (A.tracked s.tracked))
    (tracks : Within (replay v (A.changes pk)) (A.tracked (Session.track s.tracked pk)))
    (taken : s.serverStep input (.tracking c read pk) = some s') :
    A.Covered s'.tracked v s'.serverLoop := by
  simp only [Session.serverStep] at taken
  split at taken <;> cases taken
  · exact ⟨unaffected _ _, within⟩
  · show Within (replay v (A.changes _)) _
    rw [unaffected]
    exact within
  · exact tracks

/-- It writes a packet that was counted as written. -/
theorem serverStep_writes {c : Conn} {read pk : Packet} (at_ : s.serverLoop = .writing c read pk)
    (within : Within (replay (A.shown written) (A.changes pk)) (A.tracked s.tracked))
    (shown : s.shows w (.server, input) = some packets)
    (taken : s.serverStep input (.writing c read pk) = some s') :
    A.Covered s'.tracked (A.shown (written ++ packets)) s'.serverLoop := by
  simp only [Session.serverStep] at taken
  split at taken
  · simp only [Session.shows, at_] at shown
    cases shown
    cases taken
    rw [shown_append]
    simp only [List.flatMap_cons, List.flatMap_nil, List.append_nil]
    exact within
  · cases taken
    trivial
  · cases taken

/-- In between and before, it changes neither the sets nor what is shown. -/
theorem serverStep_covered_silent (unaffected : A.Unaffected) (tracks : A.Tracks s v)
    (covered : A.Covered s.tracked v s.serverLoop) (ok : s.interlude (.server, input) = true)
    (apart : ∀ c read pk, s.serverLoop ≠ .writing c read pk)
    (taken : s.serverStep input s.serverLoop = some s') : A.Covered s'.tracked v s'.serverLoop := by
  cases at_ : s.serverLoop with
  | writing c read pk => exact absurd at_ (apart c read pk)
  | tracking c read pk =>
      rw [at_] at covered taken
      exact serverStep_tracks unaffected covered (tracks c read pk at_ covered) taken
  | loading c read pk =>
      rw [at_] at covered
      obtain ⟨nothing, within⟩ := covered
      simp only [at_, Session.serverStep] at taken
      cases taken
      simp only
      split
      · exact within
      · show Within (replay v (A.changes pk)) _
        rw [nothing]
        exact within
  | handling c read pk =>
      rw [at_] at covered
      simp only [at_, Session.serverStep] at taken
      split at taken
      · simp [Session.interlude, at_] at ok
      · cases taken
        exact covered
      · cases taken
        trivial
      · cases taken
  | translating c read rest =>
      rw [at_] at covered
      cases rest with
      | pure pk =>
          simp only [at_, Session.serverStep] at taken
          cases taken
          exact covered
      | ask r k =>
          simp only [at_, Session.serverStep] at taken
          split at taken <;> cases taken
          · rw [Session.panic, at_]
            exact covered
          · exact covered
  | unstarted | picking | reading | comparing | notifying | closing | exited =>
      rw [at_] at covered
      simp only [at_, Session.serverStep] at taken
      (repeat' split at taken) <;> cases taken <;> first
        | exact covered
        | simpa only [Session.panic, at_] using covered
        | trivial

theorem serverStep_covered (unaffected : A.Unaffected) (tracks : A.Tracks s (A.shown written))
    (covered : A.Covered s.tracked (A.shown written) s.serverLoop)
    (ok : s.interlude (.server, input) = true) (shown : s.shows w (.server, input) = some packets)
    (taken : s.serverStep input s.serverLoop = some s') :
    A.Covered s'.tracked (A.shown (written ++ packets)) s'.serverLoop := by
  by_cases writing : ∃ c read pk, s.serverLoop = .writing c read pk
  · obtain ⟨c, read, pk, at_⟩ := writing
    rw [at_] at covered taken
    exact serverStep_writes at_ covered shown taken
  · have apart : ∀ c read pk, s.serverLoop ≠ .writing c read pk :=
      fun c read pk at_ => writing ⟨c, read, pk, at_⟩
    have silent : s.shows w (.server, input) = some [] := Session.shows_server apart
    cases silent.symm.trans shown
    rw [List.append_nil]
    exact serverStep_covered_silent unaffected tracks covered ok apart taken

/-- The client->server loop, in any statement but the clearing of the sets. -/
theorem Faced.client_moves (faced : A.Faced s written) (apart : ∀ f c, s.client ≠ .wiping f c)
    (ok : s.interlude (.client, input) = true) (taken : s.clientStep input s.client = some s') :
    A.Faced s' written := by
  obtain ⟨tracked, swept, finishing⟩ := Session.clientStep_sweep apart taken
  obtain ⟨-, -, -, loop, -⟩ := Session.clientStep_others taken
  constructor
  · rw [tracked, loop]
    exact faced.covered
  · intro inside
    rw [tracked, loop]
    rcases finishing inside with before | ⟨f, pk, at_, pending⟩
    · exact faced.between before
    · simp only [Session.interlude, at_, pending, Bool.false_or, Bool.and_eq_true] at ok
      have idle := Option.isNone_iff_eq_none.mp ok.2
      exact ⟨idle, faced.covered.within ok.1 idle⟩
  · exact fun cleared => faced.swept (swept cleared)

/-- The clearing of the sets. -/
theorem Faced.client_sweeps (faced : A.Faced s written) {f : Inbound} {c : Conn}
    (at_ : s.client = .wiping f c) (clears : A.Clears s packets)
    (taken : s.clientStep input s.client = some s') : A.Faced s' (written ++ packets) := by
  obtain ⟨idle, within⟩ := faced.between (by rw [at_]; rfl)
  have nothing : ∀ x, A.shown (written ++ packets) x = false := by
    rw [shown_append]
    exact clears _ within
  have within' : ∀ v, Within (A.shown (written ++ packets)) v := by
    intro v x inside
    rw [nothing] at inside
    cases inside
  simp only [at_, Session.clientStep] at taken
  cases taken
  constructor
  · exact Covered.of_within (within' _) idle
  · exact fun _ => ⟨idle, within' _⟩
  · exact fun _ => nothing

/-- A goroutine that only starts the loops, or does not touch them. -/
theorem Faced.others_move (faced : A.Faced s written) (tracked : s'.tracked = s.tracked)
    (client : s'.client = s.client ∨ s'.client = .reading)
    (loop : s'.serverLoop = s.serverLoop ∨
      (s.serverLoop = .unstarted ∧ s'.serverLoop = .picking)) : A.Faced s' written := by
  constructor
  · rcases loop with same | ⟨waiting, start⟩
    · rw [tracked, same]
      exact faced.covered
    · have covered := faced.covered
      rw [waiting] at covered
      rw [tracked, start]
      exact covered
  · intro inside
    rcases client with same | start
    · rw [same] at inside
      obtain ⟨idle, within⟩ := faced.between inside
      rw [tracked]
      refine ⟨?_, within⟩
      rcases loop with same | ⟨-, start⟩
      · rw [same, idle]
      · rw [start]
        rfl
    · rw [start] at inside
      cases inside
  · intro cleared
    rcases client with same | start
    · rw [same] at cleared
      exact faced.swept cleared
    · rw [start] at cleared
      cases cleared

theorem Faced.server_moves (faced : A.Faced s written) (unaffected : A.Unaffected)
    (tracks : A.Tracks s (A.shown written)) (ok : s.interlude (.server, input) = true)
    (shown : s.shows w (.server, input) = some packets)
    (taken : s.serverStep input s.serverLoop = some s') : A.Faced s' (written ++ packets) := by
  have covered := serverStep_covered unaffected tracks faced.covered ok shown taken
  -- while `finishTransferDimensionChange` is running the loop neither tracks nor writes
  have still : s.client.finishing.isSome = true →
      s'.serverLoop.inFlight = none ∧ s'.tracked = s.tracked ∧ packets = [] := by
    intro inside
    obtain ⟨idle, -⟩ := faced.between inside
    have quiet : s.shows w (.server, input) = some [] := by
      refine Session.shows_server fun c read pk at_ => ?_
      rw [at_] at idle
      cases idle
    cases quiet.symm.trans shown
    exact ⟨Session.serverStep_between idle ok taken inside, Session.serverStep_idle idle taken, rfl⟩
  have client : s'.client = s.client := by
    obtain ⟨_, _, _, _, _, _, rfl⟩ := Session.serverStep_frame taken
    rfl
  refine ⟨covered, fun inside => ?_, fun cleared => ?_⟩
  · rw [client] at inside
    obtain ⟨idle, tracked, rfl⟩ := still inside
    rw [tracked, List.append_nil]
    exact ⟨idle, (faced.between inside).2⟩
  · rw [client] at cleared
    obtain ⟨-, -, rfl⟩ := still (finishing_of_swept cleared)
    rw [List.append_nil]
    exact faced.swept cleared

/-- A goroutine that is none of the two loops. -/
theorem Faced.others (faced : A.Faced s written) (wired : Session.Wired s) (client : a.1 ≠ .client)
    (server : a.1 ≠ .server) (taken : s.next a = some s') : A.Faced s' written := by
  have tracked := (Session.next_sides taken).tracked client server
  refine Session.next_elim_loops taken ?_ ?_ ?_ ?_ ?_
  · intro _ stepped
    obtain ⟨_, _, _, _, _, rfl⟩ := Session.newStep_frame stepped
    exact faced.others_move tracked (.inl rfl) (.inl rfl)
  · intro _ stepped
    obtain ⟨-, waiting⟩ := wired.loops_unstarted (Session.loginStep_unjoined stepped)
    have loop := Session.loginStep_serverLoop stepped
    obtain ⟨_, _, _, _, _, _, _, moved, -, rfl⟩ := Session.loginStep_frame stepped
    exact faced.others_move tracked moved (loop.imp_right fun start => ⟨waiting, start⟩)
  · exact fun actor => absurd actor client
  · exact fun actor => absurd actor server
  · exact fun same => faced.others_move tracked (.inl same.client) (.inl same.serverLoop)

/-- **One statement of any goroutine.** -/
theorem Faced.next (faced : A.Faced s written) (wired : Session.Wired s)
    (unaffected : A.Unaffected) (tracks : a.1 = .server → A.Tracks s (A.shown written))
    (clears : a.1 = .client → ∀ f c, s.client = .wiping f c → A.Clears s packets)
    (ok : s.interlude a = true) (shown : s.shows w a = some packets) (taken : s.next a = some s') :
    A.Faced s' (written ++ packets) := by
  obtain ⟨actor, input⟩ := a
  by_cases client : actor = .client
  · subst client
    have stepped : s.clientStep input s.client = some s' := Session.ownStep_of_next taken rfl
    by_cases wiping : ∃ f c, s.client = .wiping f c
    · obtain ⟨f, c, at_⟩ := wiping
      exact faced.client_sweeps at_ (clears rfl f c at_) stepped
    · have apart : ∀ f c, s.client ≠ .wiping f c := fun f c at_ => wiping ⟨f, c, at_⟩
      have quiet : s.shows w (.client, input) = some [] := Session.shows_client apart
      cases quiet.symm.trans shown
      rw [List.append_nil]
      exact faced.client_moves apart ok stepped
  · by_cases server : actor = .server
    · subst server
      have stepped : s.serverStep input s.serverLoop = some s' := Session.ownStep_of_next taken rfl
      exact faced.server_moves unaffected (tracks rfl) ok shown stepped
    · have quiet : s.shows w (actor, input) = some [] := Session.shows_others client server
      cases quiet.symm.trans shown
      rw [List.append_nil]
      exact faced.others wired client server taken

/-- Nothing has been written and nothing is running. -/
theorem faced_nil (loop : s.serverLoop = .unstarted) (client : s.client = .unstarted) :
    A.Faced s [] := by
  constructor
  · rw [loop]
    exact fun _ shown => nomatch shown
  · rw [client]
    exact fun inside => nomatch inside
  · rw [client]
    exact fun cleared => nomatch cleared

end Aspect

end Portal
