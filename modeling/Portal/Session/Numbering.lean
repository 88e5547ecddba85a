/-
# Session.Numbering — in whose entity IDs a packet is translated

`finishTransferDimensionChange` makes the new connection visible first, and
`updateTranslatorData` stores its two IDs afterwards, one after the other.  The
client->server loop does all three itself, so the packets it forwards are in the
numbering of the connection it forwards them on, and cleared for that server
(`forwarded_packet_matches`).

The server->client loop runs beside it.  An atomic holds the ID of the current
connection, or, between the switch and the store, that of the connection before
(`Numbered`).  So a load that the loop makes for a packet of `c` sees the ID of `c`
if `c` is current and its ID has been stored, or if `c` has just been replaced and
the new ID has not (`inStep`, `client_bound_numbering`).  Nothing keeps the loop
from picking the new connection before its IDs are stored
(`switch_precedes_update`).
-/
import Portal.Session.Provenance

namespace Portal

open Portal.Theory Portal.Theory.Transition

set_option autoImplicit false

namespace ClientState

/-- The loop has switched and not stored this ID of the new connection yet. -/
def stale (r : Register) : ClientState → Bool
  | .storingRuntimeID _ => true
  | .storingUniqueID _ =>
      match r with
      | .currentRuntimeID => false
      | .currentUniqueID => true
  | _ => false

/-- The connection whose IDs the loop is storing. -/
def storing : ClientState → Option Conn
  | .storingRuntimeID c => some c
  | .storingUniqueID c => some c
  | _ => none

/-- What the loop has made of the packet in hand is what it should be for `c`. -/
def Faithful (original : EntityIDs) (c : Conn) : ClientState → Prop
  | .translating f rest =>
      rest.eval c.gameData.ids.register = translated original c.gameData.ids f.read
  | .clearing f pk => pk = translated original c.gameData.ids f.read
  | .loading f pk | .locking f pk | .swapping f pk | .checking f pk | .handling f pk
  | .picking f pk | .writing f pk _ =>
      pk = clearLegacyIdentity (translated original c.gameData.ids f.read) c.server.legacyAuth
  | _ => True

/-- From the switch to the end of the iteration that performs it. -/
def afterSwitch : ClientState → Bool
  | .switching _ _ => true
  | .storingRuntimeID _ => true
  | .storingUniqueID _ => true
  | .lowering _ => true
  | .raising _ => true
  | .logging _ => true
  | .taking _ => true
  | .running _ _ => true
  | _ => false

end ClientState

/-- A packet of the connection that the loop has translated: as read, and as it is
now. -/
def ServerState.outgoing : ServerState → Option (Conn × Packet × Packet)
  | .tracking c read pk => some (c, read, pk)
  | .loading c read pk => some (c, read, pk)
  | .handling c read pk => some (c, read, pk)
  | .writing c read pk => some (c, read, pk)
  | _ => none

/-- The connection of the packet the loop reads or translates. -/
def ServerState.source : ServerState → Option Conn
  | .reading c => some c
  | .translating c _ _ => some c
  | _ => none

/-- What the loop has made of a packet of `c` is in the numbering of `c`. -/
def ServerState.Faithful (original : EntityIDs) : ServerState → Prop
  | .translating c read rest =>
      rest.eval c.gameData.ids.register = translated original c.gameData.ids read
  | st => ∀ c read pk, st.outgoing = some (c, read, pk) →
      pk = translated original c.gameData.ids read

namespace Session

/-- The IDs of the connection switched to last; before any switch the original
ones. -/
def idsAfter (original : EntityIDs) (switches : List Conn) : EntityIDs :=
  (switches.getLast?.map fun c => c.gameData.ids).getD original

@[simp] theorem idsAfter_append (original : EntityIDs) (switches : List Conn) (c : Conn) :
    idsAfter original (switches ++ [c]) = c.gameData.ids := by
  simp [idsAfter]

/-- The switches after which the client loop has stored this ID. -/
def known (s : Session) (r : Register) : List Conn :=
  if s.client.stale r then s.switches.dropLast else s.switches

/-- An atomic holds the ID of the current connection, or of the one before while the
client loop has yet to store it, and the client loop's packet is in the numbering of
the current connection. -/
structure Numbered (s : Session) : Prop where
  unjoined : s.login.joined = false → s.translator = none ∧ s.switches = []
  current : ∀ t c, s.translator = some t → s.serverConn = some c →
    c.gameData.ids = idsAfter t.original s.switches
  origin : ∀ t c, s.translator = some t → s.serverConn = some c → c.dialer = .login →
    c.gameData.ids = t.original
  atomics : ∀ t r, s.translator = some t →
    t.current.register r = (idsAfter t.original (s.known r)).register r
  storing : ∀ c, s.client.storing = some c → s.serverConn = some c
  inHand : ∀ t c, s.translator = some t → s.serverConn = some c → s.client.Faithful t.original c
  written : ∀ f pk c, s.client = .writing f pk c → s.serverConn = some c

theorem initial_numbered : Numbered initial where
  unjoined := fun _ => ⟨rfl, rfl⟩
  current := by simp [initial]
  origin := by simp [initial]
  atomics := by simp [initial]
  storing := by simp [initial, ClientState.storing]
  inHand := by simp [initial]
  written := by simp [initial]

variable {s s' : Session} {input : Input}

/-- A load sees the ID of the current connection once that has been stored. -/
theorem Numbered.load (n : Numbered s) {t : Translator} {c : Conn} {r : Register}
    (translator : s.translator = some t) (current : s.serverConn = some c)
    (fresh : s.client.stale r = false) : t.current.register r = c.gameData.ids.register r := by
  rw [n.atomics t r translator, n.current t c translator current, known, fresh]
  rfl

/-- A step that leaves the translator and the current connection alone. -/
theorem Numbered.moves (n : Numbered s) (login : s'.login = s.login)
    (translator : s'.translator = s.translator) (conn : s'.serverConn = s.serverConn)
    (switches : s'.switches = s.switches)
    (stale : ∀ r, s'.client.stale r = s.client.stale r)
    (storing : ∀ c, s'.client.storing = some c → s.client.storing = some c)
    (inHand : ∀ t c, s.translator = some t → s.serverConn = some c →
      s.client.Faithful t.original c → s'.client.Faithful t.original c)
    (written : ∀ f pk c, s'.client = .writing f pk c → s.serverConn = some c) : Numbered s' where
  unjoined := by rw [login, translator, switches]; exact n.unjoined
  current := by rw [translator, conn, switches]; exact n.current
  origin := by rw [translator, conn]; exact n.origin
  atomics := by
    intro t r set
    rw [n.atomics t r (translator ▸ set), known, known, stale r, switches]
  storing := by
    rw [conn]
    exact fun c set => n.storing c (storing c set)
  inHand := by
    rw [translator, conn]
    exact fun t c set current => inHand t c set current (n.inHand t c set current)
  written := by rw [conn]; exact written

/-- A step that leaves the client loop alone, too. -/
theorem Numbered.frame (n : Numbered s) (login : s'.login = s.login)
    (translator : s'.translator = s.translator) (conn : s'.serverConn = s.serverConn)
    (switches : s'.switches = s.switches) (client : s'.client = s.client) : Numbered s' := by
  refine n.moves login translator conn switches ?_ ?_ ?_ ?_ <;> rw [client]
  · exact fun _ => rfl
  · exact fun _ set => set
  · exact fun _ _ _ _ faithful => faithful
  · exact n.written

/-! ## The login goroutine -/

theorem newStep_numbered (n : Numbered s) (w : Wired s) (taken : s.newStep input s.new = some s') :
    Numbered s' := by
  have unstarted := w.unstarted_of_new taken
  have none_ := n.unjoined (by rw [unstarted]; rfl)
  obtain ⟨_, _, _, _, _, rfl⟩ := newStep_frame taken
  exact { n with unjoined := fun _ => none_ }

theorem loginStep_numbered (n : Numbered s) (w : Wired s)
    (taken : s.loginStep input s.login = some s') : Numbered s' := by
  obtain ⟨unstarted, -⟩ := w.loops_unstarted (loginStep_unjoined taken)
  cases at_ : s.login with
  | assigning c =>
      obtain ⟨untranslated, unswitched⟩ := n.unjoined (by rw [at_]; rfl)
      simp only [at_, loginStep, Option.some.injEq] at taken
      subst taken
      exact {
        unjoined := fun _ => ⟨untranslated, unswitched⟩
        current := by
          intro _ _ set
          cases untranslated.symm.trans set
        origin := by
          intro _ _ set
          cases untranslated.symm.trans set
        atomics := n.atomics
        storing := by simp [unstarted, ClientState.storing]
        inHand := by
          intro _ _ set
          cases untranslated.symm.trans set
        written := by simp [unstarted] }
  | translating c =>
      have current := w.spawned c (by rw [at_]; rfl)
      obtain ⟨-, unswitched⟩ := n.unjoined (by rw [at_]; rfl)
      simp only [at_, loginStep, Option.some.injEq] at taken
      subst taken
      exact {
        unjoined := by simp [LoginState.joined]
        current := by
          intro t c' set current'
          cases set
          cases current.symm.trans current'
          simp only [unswitched]
          rfl
        origin := by
          intro t c' set current' _
          cases set
          cases current.symm.trans current'
          rfl
        atomics := by
          intro t r set
          cases set
          simp only [known, unswitched, unstarted]
          cases r <;> rfl
        storing := n.storing
        inHand := by simp [unstarted, ClientState.Faithful]
        written := n.written }
  | starting =>
      simp only [at_, loginStep, Option.some.injEq] at taken
      subst taken
      have moved : Numbered { s with client := .reading } :=
        n.moves rfl rfl rfl rfl (by simp [unstarted, ClientState.stale])
          (by simp [ClientState.storing]) (fun _ _ _ _ _ => trivial) (by simp)
      exact { moved with unjoined := by simp [LoginState.joined] }
  | unlocking r =>
      have unjoined := n.unjoined
      rw [at_] at unjoined
      simp only [at_, loginStep, Option.some.injEq] at taken
      subst taken
      exact { n with
        unjoined := by
          intro out
          refine unjoined ?_
          cases r <;> first | rfl | cases out }
  | publishing =>
      simp only [at_, loginStep, Option.some.injEq] at taken
      subst taken
      exact { n with unjoined := by simp [LoginState.joined] }
  | unstarted | dialing srv | spawning c | closing r | done r =>
      have unjoined := n.unjoined
      rw [at_] at unjoined
      simp only [at_, loginStep] at taken
      (try split at taken) <;> cases taken
      all_goals exact { n with unjoined := fun out => unjoined (by first | rfl | exact out) }

/-! ## The client->server loop -/

/-- The loop reads a packet, translates it and clears the identity. -/
theorem clientStep_numbered_read (n : Numbered s) (w : Wired s)
    (early : s.client = .reading ∨ (∃ f rest, s.client = .translating f rest) ∨
      ∃ f pk, s.client = .clearing f pk)
    (taken : s.clientStep input s.client = some s') : Numbered s' := by
  cases at_ : s.client with
  | reading =>
      simp only [at_, clientStep] at taken
      split at taken <;> cases taken
      · rename_i pk
        unfold receive
        split
        · exact n.frame rfl rfl rfl rfl rfl
        · rename_i t translator
          split <;>
          · refine n.moves rfl rfl rfl rfl (by simp [at_, ClientState.stale])
              (by simp [ClientState.storing]) ?_ (by simp)
            intro t' c set _ _
            cases translator.symm.trans set
            rfl
      · exact n.moves rfl rfl rfl rfl (by simp [at_, ClientState.stale])
          (by simp [ClientState.storing]) (fun _ _ _ _ _ => trivial) (by simp)
  | translating f rest =>
      cases rest with
      | pure pk =>
          simp only [at_, clientStep, Option.some.injEq] at taken
          subst taken
          refine n.moves rfl rfl rfl rfl (by simp [at_, ClientState.stale])
            (by simp [ClientState.storing]) ?_ (by simp)
          intro t c _ _ faithful
          rw [at_] at faithful
          exact faithful
      | ask r k =>
          simp only [at_, clientStep] at taken
          split at taken <;> cases taken
          · exact n.frame rfl rfl rfl rfl rfl
          · rename_i t translator
            refine n.moves rfl rfl rfl rfl (by simp [at_, ClientState.stale])
              (by simp [ClientState.storing]) ?_ (by simp)
            intro t' c set current faithful
            cases translator.symm.trans set
            rw [at_] at faithful
            rw [n.load set current (by rw [at_]; rfl)]
            exact faithful
  | clearing f pk =>
      simp only [at_, clientStep] at taken
      split at taken <;> cases taken
      · exact n.frame rfl rfl rfl rfl rfl
      · rename_i srv server
        have cleared : ∀ t c, s.translator = some t → s.serverConn = some c →
            s.client.Faithful t.original c → clearLegacyIdentity pk srv.legacyAuth =
              clearLegacyIdentity (translated t.original c.gameData.ids f.read)
                c.server.legacyAuth := by
          intro t c _ current faithful
          rw [at_] at faithful
          rw [show pk = translated t.original c.gameData.ids f.read from faithful,
            Option.some.inj (server.symm.trans (w.agree c current))]
        split <;>
          exact n.moves rfl rfl rfl rfl (by simp [at_, ClientState.stale])
            (by simp [ClientState.storing]) cleared (by simp)
  | _ => simp [at_] at early

/-- The loop stores one ID; it has no packet in hand. -/
theorem Numbered.store (n : Numbered s) {t t' : Translator} {client : ClientState}
    (translator : s.translator = some t) (original : t'.original = t.original)
    (atomics : ∀ r, t'.current.register r =
      (idsAfter t.original (known { s with client := client } r)).register r)
    (storing : ∀ c, client.storing = some c → s.serverConn = some c)
    (idle : ∀ original c, client.Faithful original c)
    (unwritten : ∀ f pk c, client ≠ .writing f pk c) :
    Numbered { s with translator := some t', client := client } where
  unjoined := fun out => nomatch translator.symm.trans (n.unjoined out).1
  current := by
    rintro _ c ⟨⟩ current
    rw [original]
    exact n.current t c translator current
  origin := by
    rintro _ c ⟨⟩ current
    rw [original]
    exact n.origin t c translator current
  atomics := by
    rintro _ r ⟨⟩
    rw [original]
    exact atomics r
  storing := storing
  inHand := fun _ _ _ _ => idle _ _
  written := fun f pk c out => absurd out (unwritten f pk c)

/-- The loop switches to `c` and stores its IDs. -/
theorem clientStep_numbered_switch (n : Numbered s) (w : Wired s) (tr : Traced s) {c : Conn}
    (late : (∃ f, s.client = .switching f c) ∨ s.client.storing = some c)
    (taken : s.clientStep input s.client = some s') : Numbered s' := by
  cases at_ : s.client with
  | switching f c' =>
      have temp := w.finishing c' (by rw [at_]; rfl)
      obtain ⟨i, dialer, -⟩ := tr.temp c' temp
      have joined := w.client (by rw [at_]; simp)
      simp only [at_, clientStep, temp] at taken
      split at taken <;> cases taken
      · exact {
          unjoined := by
            intro out
            simp only [joined] at out
            cases out
          current := by
            intro t c set current
            cases current
            exact (idsAfter_append ..).symm
          origin := by
            intro t c set current login
            cases current
            cases dialer.symm.trans login
          atomics := by
            intro t r set
            rw [n.atomics t r set]
            simp [known, at_, ClientState.stale]
          storing := fun _ set => set
          inHand := fun _ _ _ _ => trivial
          written := fun _ _ _ out => by cases out }
      · exact n.frame rfl rfl rfl rfl rfl
  | storingRuntimeID c' =>
      have current := n.storing c' (by rw [at_]; rfl)
      simp only [at_, clientStep] at taken
      split at taken <;> cases taken
      · exact n.frame rfl rfl rfl rfl rfl
      · rename_i t translator
        have uniqueID : t.current.register .currentUniqueID =
            (idsAfter t.original s.switches.dropLast).register .currentUniqueID := by
          simpa [known, at_, ClientState.stale] using n.atomics t .currentUniqueID translator
        have runtimeID := congrArg (fun ids => ids.register .currentRuntimeID)
          (n.current t c' translator current)
        refine n.store translator rfl ?_ (fun _ set => current.trans set) (fun _ _ => trivial)
          (by simp)
        intro r
        cases r with
        | currentRuntimeID => exact runtimeID
        | currentUniqueID => exact uniqueID
  | storingUniqueID c' =>
      have current := n.storing c' (by rw [at_]; rfl)
      simp only [at_, clientStep] at taken
      split at taken <;> cases taken
      · exact n.frame rfl rfl rfl rfl rfl
      · rename_i t translator
        have runtimeID : t.current.register .currentRuntimeID =
            (idsAfter t.original s.switches).register .currentRuntimeID := by
          simpa [known, at_, ClientState.stale] using n.atomics t .currentRuntimeID translator
        have uniqueID := congrArg (fun ids => ids.register .currentUniqueID)
          (n.current t c' translator current)
        refine n.store translator rfl ?_ (by simp [ClientState.storing]) (fun _ _ => trivial)
          (by simp)
        intro r
        cases r with
        | currentRuntimeID => exact runtimeID
        | currentUniqueID => exact uniqueID
  | _ => simp [at_, ClientState.storing] at late

theorem clientStep_numbered (n : Numbered s) (w : Wired s) (tr : Traced s)
    (taken : s.clientStep input s.client = some s') : Numbered s' := by
  cases at_ : s.client with
  | unstarted | exited => simp [at_, clientStep] at taken
  | reading => exact clientStep_numbered_read n w (.inl at_) taken
  | translating f rest => exact clientStep_numbered_read n w (.inr (.inl ⟨f, rest, at_⟩)) taken
  | clearing f pk => exact clientStep_numbered_read n w (.inr (.inr ⟨f, pk, at_⟩)) taken
  | switching f c => exact clientStep_numbered_switch n w tr (.inl ⟨f, at_⟩) taken
  | storingRuntimeID c | storingUniqueID c =>
      exact clientStep_numbered_switch n w tr (c := c) (.inr (by rw [at_]; rfl)) taken
  | locking f pk =>
      have faithful := n.inHand
      rw [at_] at faithful
      simp only [at_, clientStep] at taken
      split at taken <;> cases taken
      · exact n.moves rfl rfl rfl rfl (by simp [at_, ClientState.stale])
          (by simp [ClientState.storing]) (fun t c set current _ => faithful t c set current) (by simp)
      · obtain ⟨_, _, stopped⟩ := stopTimer_frame s
        rw [stopped]
        exact n.moves rfl rfl rfl rfl (by simp [at_, ClientState.stale])
          (by simp [ClientState.storing]) (fun _ _ _ _ _ => trivial) (by simp)
  | picking f pk =>
      have faithful := n.inHand
      rw [at_] at faithful
      simp only [at_, clientStep] at taken
      split at taken <;> cases taken
      · exact n.frame rfl rfl rfl rfl rfl
      · rename_i c current
        refine n.moves rfl rfl rfl rfl (by simp [at_, ClientState.stale])
          (by simp [ClientState.storing]) (fun t c set current _ => faithful t c set current) ?_
        intro _ _ c' out
        cases out
        exact current
  | loading f pk | swapping f pk | checking f pk | handling f pk =>
      have faithful := n.inHand
      rw [at_] at faithful
      simp only [at_, clientStep] at taken
      (try split at taken) <;> cases taken
      all_goals first
        | exact n.moves rfl rfl rfl rfl (by simp [at_, ClientState.stale])
            (by simp [ClientState.storing]) (fun t c set current _ => faithful t c set current)
            (by simp)
        | exact n.moves rfl rfl rfl rfl (by simp [at_, ClientState.stale])
            (by simp [ClientState.storing]) (fun _ _ _ _ _ => trivial) (by simp)
  | _ =>
      simp only [at_, clientStep] at taken
      (try split at taken) <;> cases taken
      all_goals first
        | exact n.frame rfl rfl rfl rfl rfl
        | exact n.moves rfl rfl rfl rfl (by simp [at_, ClientState.stale])
            (by simp [ClientState.storing]) (fun _ _ _ _ _ => trivial) (by simp)

theorem next_numbered {a : Action} (n : Numbered s) (w : Wired s) (tr : Traced s)
    (taken : s.next a = some s') : Numbered s' := by
  refine next_elim_loops taken ?_ ?_ ?_ ?_ ?_
  · intro _ taken
    exact newStep_numbered n w taken
  · intro _ taken
    exact loginStep_numbered n w taken
  · intro _ taken
    exact clientStep_numbered n w tr taken
  · intro _ taken
    obtain ⟨_, _, _, _, _, _, rfl⟩ := serverStep_frame taken
    exact n.frame rfl rfl rfl rfl rfl
  · intro same
    exact n.frame same.login same.translator same.serverConn same.switches same.client

theorem numbered {ok : Session → Action → Prop} (reached : machine.Reach ok s) : Numbered s :=
  reached.invariant initial_numbered fun _ _ _ before n _ taken =>
    next_numbered n (wired before) (traced before) taken

/-! ## Packets to the server -/

/-- The iteration that switches ends in the next read. -/
theorem clientStep_afterSwitch (after : s.client.afterSwitch = true)
    (taken : s.clientStep input s.client = some s') :
    s'.client.afterSwitch = true ∨ s'.client = .reading := by
  cases at_ : s.client with
  | switching f c | storingRuntimeID c | storingUniqueID c | logging c =>
      simp only [at_, clientStep] at taken
      split at taken <;> cases taken
      all_goals first
        | exact .inl rfl
        | exact .inl after
  | lowering c | raising c | taking c =>
      simp only [at_, clientStep, Option.some.injEq] at taken
      subst taken
      exact .inl rfl
  | running c callback =>
      simp only [at_, clientStep, Option.some.injEq] at taken
      subst taken
      exact .inr rfl
  | _ =>
      rw [at_] at after
      cases after

theorem next_afterSwitch {a : Action} (after : s.client.afterSwitch = true ∨ s.client = .reading)
    (unread : ¬ (a.1 = .client ∧ s.client = .reading)) (taken : s.next a = some s') :
    s'.client.afterSwitch = true ∨ s'.client = .reading := by
  refine next_elim_loops taken ?_ ?_ ?_ ?_ ?_
  · intro _ taken
    obtain ⟨_, _, _, _, _, rfl⟩ := newStep_frame taken
    exact after
  · intro _ taken
    obtain ⟨_, _, _, _, _, client, _, same | reading, -, rfl⟩ := loginStep_frame taken
    · rw [same]
      exact after
    · exact .inr reading
  · intro actor taken
    exact clientStep_afterSwitch (after.resolve_right fun reading => unread ⟨actor, reading⟩) taken
  · intro _ taken
    obtain ⟨_, _, _, _, _, _, rfl⟩ := serverStep_frame taken
    exact after
  · intro same
    rw [same.client]
    exact after

/-- The runs that go on from `s`. -/
def continuing (s : Session) : Machine Session Action := { machine with start := s }

/-- **Server-bound packets match their server.**  A packet the client->server loop
writes to `c` is the one it read, translated with the entity IDs of `c` and cleared
for the server of `c`, so it carries no XUID to a server with `LegacyAuth`.  Once
the loop is about to switch, it writes nothing until it has read the next packet. -/
theorem forwarded_packet_matches (reached : machine.Reachable s) :
    (∀ f pk c, s.client = .writing f pk c →
      (∃ t, s.translator = some t ∧ pk = clearLegacyIdentity
        (translated t.original c.gameData.ids f.read) c.server.legacyAuth) ∧
      (c.server.legacyAuth = true → ∀ xuid, pk.xuid? = some xuid → xuid = "")) ∧
    ∀ f c s', s.client = .switching f c →
      (continuing s).Reach (fun s a => ¬ (a.1 = .client ∧ s.client = .reading)) s' →
      ∀ f' pk c', s'.client ≠ .writing f' pk c' := by
  refine ⟨fun f pk c at_ => ?_, fun f c s' at_ later => ?_⟩
  · have w := wired reached
    have n := numbered reached
    have joined := w.client (by rw [at_]; simp)
    obtain ⟨t, translator⟩ := Option.ne_none_iff_exists'.mp (w.joined (by rw [joined]; rfl))
    have faithful := n.inHand t c translator (n.written f pk c at_)
    rw [at_] at faithful
    refine ⟨⟨t, translator, faithful⟩, ?_⟩
    rintro legacy xuid carried
    rw [faithful, legacy] at carried
    exact clearLegacyIdentity_xuid _ carried
  · have after : s'.client.afterSwitch = true ∨ s'.client = .reading :=
      later.invariant (I := fun s => s.client.afterSwitch = true ∨ s.client = .reading)
        (.inl (by rw [show (continuing s).start = s from rfl, at_]; rfl)) fun _ _ _ _ after unread taken =>
          next_afterSwitch after unread taken
    rintro f' pk c' out
    rw [out] at after
    rcases after with after | reading
    · cases after
    · cases reading

/-- A chat message to a server with legacy authentication, after a transfer to it. -/
theorem forwarded_packet_matches_legacy :
    ∃ s f pk c, machine.Reachable s ∧ s.client = .writing f pk c ∧ c.server = game ∧
      f.read = .text "2535400000000000" ∧
      (c.server.legacyAuth = true → ∀ xuid, pk.xuid? = some xuid → xuid = "") ∧
      pk.xuid? = some "" := by
  have reached : machine.Reachable _ :=
    Machine.exec_reach (joining lobby lobbyData ++ transferCall 0 game gameData ++ acknowledging ++
      confirming ++ ([(.client, .packet (.text "2535400000000000"))] : List Action) ++
      steps .client 3 ++ ([(.client, .verdict false)] : List Action) ++ steps .client 1) rfl
  exact ⟨_, _, _, _, reached, rfl, rfl, rfl,
    ((forwarded_packet_matches reached).1 _ _ _ rfl).2, rfl⟩

/-! ## Packets to the client -/

/-- The connection that the last switch replaced: the one switched to before, or the
login's. -/
def replacedLast (s : Session) (c : Conn) : Bool :=
  match s.switches.dropLast.getLast? with
  | some old => c = old
  | none => c.dialer = .login

/-- The server->client loop makes a load for a packet of `c` only while `c` is the
current connection and the client loop has stored that ID of `c`, or while `c` has
just been replaced and the client loop has yet to store that ID of its successor. -/
def inStep (s : Session) (a : Action) : Bool :=
  match a.1, s.serverLoop with
  | .server, .translating c _ (.ask r _) =>
      if s.client.stale r then s.replacedLast c else s.serverConn = some c
  | _, _ => true

/-- What the server->client loop has made of its packet. -/
structure Rendered (s : Session) : Prop where
  login : ∀ t c, s.translator = some t → s.serverLoop.source = some c → c.dialer = .login →
    c.gameData.ids = t.original
  faithful : ∀ t, s.translator = some t → s.serverLoop.Faithful t.original

theorem initial_rendered : Rendered initial where
  login := by simp [initial]
  faithful := by simp [initial]

/-- A load in step sees the ID of the packet's connection. -/
theorem Rendered.load {t : Translator} {c : Conn} {read : Packet} {r : Register}
    {k : r.Value → Loads Packet} (d : Rendered s) (n : Numbered s)
    (at_ : s.serverLoop = .translating c read (.ask r k)) (translator : s.translator = some t)
    (ok : s.inStep (.server, input) = true) :
    t.current.register r = c.gameData.ids.register r := by
  simp only [inStep, at_] at ok
  split at ok
  · rename_i stale
    rw [n.atomics t r translator, known, stale, if_pos rfl]
    unfold replacedLast at ok
    split at ok
    · rename_i old last
      rw [of_decide_eq_true ok, idsAfter, last]
      rfl
    · rename_i last
      rw [d.login t c translator (by rw [at_]; rfl) (of_decide_eq_true ok), idsAfter, last]
      rfl
  · rename_i fresh
    exact n.load translator (of_decide_eq_true ok) (by simpa using fresh)

/-- The loop reads from the current connection. -/
theorem serverStep_source {t : Translator} (n : Numbered s) (d : Rendered s)
    (translator : s.translator = some t) (taken : s.serverStep input s.serverLoop = some s') :
    ∀ c, s'.serverLoop.source = some c → c.dialer = .login → c.gameData.ids = t.original := by
  have own := fun c => d.login t c translator
  cases at_ : s.serverLoop with
  | picking =>
      simp only [at_, serverStep] at taken
      (repeat' split at taken) <;> cases taken
      · simp [panic, at_, ServerState.source]
      · rename_i c current
        rintro c' ⟨⟩ login
        exact n.origin t c translator current login
  | reading c =>
      rw [at_] at own
      simp only [at_, serverStep, translator] at taken
      split at taken <;> cases taken
      · exact own
      · simp [ServerState.source]
  | translating c read rest =>
      rw [at_] at own
      cases rest with
      | pure pk =>
          simp only [at_, serverStep, Option.some.injEq] at taken
          subst taken
          simp [ServerState.source]
      | ask r k =>
          simp only [at_, serverStep, translator, Option.some.injEq] at taken
          subst taken
          exact own
  | _ =>
      simp only [at_, serverStep] at taken
      (repeat' split at taken) <;> cases taken
      all_goals simp [ServerState.source]

theorem serverStep_faithful {t : Translator} (n : Numbered s) (d : Rendered s)
    (translator : s.translator = some t) (ok : s.inStep (.server, input) = true)
    (taken : s.serverStep input s.serverLoop = some s') : s'.serverLoop.Faithful t.original := by
  have faithful := d.faithful t translator
  cases at_ : s.serverLoop with
  | reading c =>
      simp only [at_, serverStep, translator] at taken
      split at taken <;> cases taken
      · rfl
      · simp [ServerState.Faithful, ServerState.outgoing]
  | translating c read rest =>
      rw [at_] at faithful
      cases rest with
      | pure pk =>
          simp only [at_, serverStep, Option.some.injEq] at taken
          subst taken
          intro c' read' pk' out
          cases out
          exact faithful
      | ask r k =>
          have load := d.load n at_ translator ok
          simp only [at_, serverStep, translator, Option.some.injEq] at taken
          subst taken
          simp only [ServerState.Faithful]
          rw [load]
          exact faithful
  | tracking c read pk | loading c read pk | handling c read pk =>
      rw [at_] at faithful
      have same : pk = translated t.original c.gameData.ids read := faithful c read pk rfl
      simp only [at_, serverStep] at taken
      (try split at taken) <;> cases taken
      all_goals simp_all [ServerState.Faithful, ServerState.outgoing]
  | _ =>
      simp only [at_, serverStep] at taken
      (repeat' split at taken) <;> cases taken
      all_goals simp [ServerState.Faithful, ServerState.outgoing, panic, at_]

/-- The client loop stores current IDs, never original ones. -/
theorem clientStep_original {st : ClientState} {t' : Translator}
    (taken : s.clientStep input st = some s') (set : s'.translator = some t') :
    ∃ t, s.translator = some t ∧ t'.original = t.original := by
  cases st with
  | reading =>
      simp only [clientStep] at taken
      split at taken <;> cases taken
      · rename_i pk
        obtain ⟨_, _, _, received⟩ := receive_frame s pk
        rw [received] at set
        exact ⟨t', set, rfl⟩
      · exact ⟨t', set, rfl⟩
  | locking f pk =>
      simp only [clientStep] at taken
      split at taken <;> cases taken
      · exact ⟨t', set, rfl⟩
      · obtain ⟨_, _, stopped⟩ := stopTimer_frame s
        rw [stopped] at set
        exact ⟨t', set, rfl⟩
  | storingRuntimeID c | storingUniqueID c =>
      simp only [clientStep] at taken
      split at taken <;> cases taken
      · exact ⟨t', set, rfl⟩
      · rename_i t translator
        cases set
        exact ⟨t, translator, rfl⟩
  | translating f rest =>
      cases rest with
      | pure pk =>
          cases taken
          exact ⟨t', set, rfl⟩
      | ask r k =>
          simp only [clientStep] at taken
          split at taken <;> cases taken <;> exact ⟨t', set, rfl⟩
  | _ =>
      simp only [clientStep] at taken
      (try split at taken) <;> cases taken <;> exact ⟨t', set, rfl⟩

theorem next_rendered {a : Action} (d : Rendered s) (n : Numbered s) (w : Wired s)
    (ok : s.inStep a = true) (taken : s.next a = some s') : Rendered s' := by
  obtain ⟨actor, input⟩ := a
  refine next_elim_loops taken ?_ ?_ ?_ ?_ ?_
  · intro _ taken
    obtain ⟨_, _, _, _, _, rfl⟩ := newStep_frame taken
    exact { d with }
  · intro _ taken
    obtain ⟨-, unstarted⟩ := w.loops_unstarted (loginStep_unjoined taken)
    have idle : s'.serverLoop = .unstarted ∨ s'.serverLoop = .picking :=
      (loginStep_serverLoop taken).imp_left fun same => same.trans unstarted
    rcases idle with at_ | at_ <;>
      exact ⟨by simp [at_, ServerState.source],
        by simp [at_, ServerState.Faithful, ServerState.outgoing]⟩
  · intro _ taken
    have loop := (clientStep_others taken).2.2.2.1
    refine ⟨fun t' c set => ?_, fun t' set => ?_⟩
    all_goals
      obtain ⟨t, before, same⟩ := clientStep_original taken set
      rw [loop, same]
    · exact d.login t c before
    · exact d.faithful t before
  · rintro rfl taken
    have kept : s'.translator = s.translator := by
      obtain ⟨_, _, _, _, _, _, rfl⟩ := serverStep_frame taken
      rfl
    exact {
      login := fun t c set => serverStep_source n d (kept ▸ set) taken c
      faithful := fun t set => serverStep_faithful n d (kept ▸ set) ok taken }
  · intro same
    exact {
      login := by rw [same.translator, same.serverLoop]; exact d.login
      faithful := by rw [same.translator, same.serverLoop]; exact d.faithful }

theorem rendered (reached : machine.Reach (fun s a => s.inStep a = true) s) : Rendered s :=
  reached.invariant initial_rendered fun _ _ _ before d ok taken =>
    next_rendered d (numbered before) (wired before) ok taken

/-- A packet in the hands of the loop has been translated with the IDs of its connection. -/
theorem Rendered.outgoing {t : Translator} {c : Conn} {read pk : Packet} (d : Rendered s)
    (translator : s.translator = some t) (out : s.serverLoop.outgoing = some (c, read, pk)) :
    pk = translated t.original c.gameData.ids read := by
  have own := d.faithful t translator
  cases at_ : s.serverLoop with
  | tracking | loading | handling | writing =>
      rw [at_] at own out
      exact own c read pk out
  | _ =>
      rw [at_] at out
      cases out

/-- **Client-bound packets are in the sender's numbering.**  In every run in which
the server->client loop makes its loads in step with the client loop, a packet it
read from `c` and has translated is the one translated with the two entity IDs of
`c`. -/
theorem client_bound_numbering (reached : machine.Reach (fun s a => s.inStep a = true) s)
    {c : Conn} {read pk : Packet} (outgoing : s.serverLoop.outgoing = some (c, read, pk)) :
    ∃ t, s.translator = some t ∧ pk = translated t.original c.gameData.ids read := by
  have w := wired reached
  have joined : s.login = .done .joined := by
    refine w.serverLoop fun unstarted => ?_
    rw [unstarted] at outgoing
    cases outgoing
  obtain ⟨t, translator⟩ := Option.ne_none_iff_exists'.mp (w.joined (by rw [joined]; rfl))
  exact ⟨t, translator, (rendered reached).outgoing translator outgoing⟩

/-- The new backend's own player, after the transfer. -/
theorem client_bound_numbering_transferred :
    ∃ s c read pk, machine.Reach (fun s a => s.inStep a = true) s ∧
      s.serverLoop.outgoing = some (c, read, pk) ∧ c.server = game ∧ pk = .actorEvent 1 ∧
      ∃ t, s.translator = some t ∧ pk = translated t.original c.gameData.ids read := by
  have reached : machine.Reach (fun s a => s.inStep a = true) _ :=
    Machine.exec_reach (joining lobby lobbyData ++ transferCall 0 game gameData ++ acknowledging ++
      confirming ++ ([(.server, .go), (.server, .packet (.actorEvent 2))] : List Action) ++
      steps .server 2) rfl
  exact ⟨_, _, _, _, reached, rfl, rfl, rfl, client_bound_numbering reached rfl⟩

/-- The server->client loop picks the new connection, reads a packet about the
player (entity 2 there, entity 1 for the client) and translates it before the
client loop has stored the new IDs: it goes out with the wrong ID. -/
theorem switch_precedes_update :
    ∃ s c t, machine.Reachable s ∧ s.serverLoop.outgoing = some (c, .actorEvent 2, .actorEvent 2) ∧
      c = ⟨.transfer 0, game, gameData⟩ ∧ s.translator = some t ∧
      translated t.original c.gameData.ids (.actorEvent 2) = .actorEvent 1 := by
  have reached : machine.Reachable _ :=
    Machine.exec_reach (joining lobby lobbyData ++ transferCall 0 game gameData ++ acknowledging ++
      steps .client 6 ++ ([(.server, .go), (.server, .packet (.actorEvent 2))] : List Action) ++
      steps .server 2) rfl
  exact ⟨_, _, _, reached, rfl, rfl, rfl, rfl⟩

end Session

end Portal
