/-
# Socket.Link — `handleClient` on the bytes a peer sends

A `Link` is a connection as `ReadPacket` sees it: the objects of its pool, the bytes
still to be read, and the error that comes after them.  `handleClient` looks for "EOF"
and "closed" in the text of an error to decide whether it goes on (`Input.resumes`).  Of
the errors a complete frame can cause, only those mention either that come from a payload
too short for its header, or from a decoder that says so (`decode_mentionsEnd`).

Two things follow.

A frame above `maxPacketSize` is refused after its length has been read, and
`handleClient` goes on with the payload as if it were frames.  `reader_in_sync` says
that this is the only way to lose the boundaries, `smuggled_packet` uses it.

A frame that is cut short is taken for the end of the stream, and on that path, as on
the real end, `handleClient` returns without closing the connection.  `Site` is the
socket server with a link for every connection.  Its runs are runs of the server
(`server_reachable`), and a connection that is served stands where its reads have led
(`link_after`).  In every run the connection of a `handleClient` that has returned is
closed exactly if none of its reads took that path (`abandoned_is_closed`).
-/
import Portal.Theory.Separator
import Portal.Socket.Dead
import Portal.Socket.Stream

namespace Portal.Socket

open Portal.Theory.Separator Portal.Theory.Codec Portal.Theory.Transition

set_option autoImplicit false

/-- The error that ends the loop of `handleClient` without a `Close`. -/
def mentionsEnd (err : String) : Bool := containsAny err ["EOF", "closed"]

namespace Wire

/-- The payload is too short for its header, or its decoder says that it is. -/
def cutShort (codec : Prims) : List UInt8 → Bool
  | b1 :: b2 :: buf =>
      match Kind.ofID (readHeader b1 b2) with
      | none => false
      | some k =>
          match (k.unmarshal codec k.zero buf).2 with
          | .error err => mentionsEnd err
          | .ok _ => false
  | _ => true

/-! ## Which errors mention the end -/

theorem not_mem_digits {x : Char} (letter : x.isDigit = false) (n : Nat) :
    x ∉ (toString n).toList := by
  intro member
  have digit : x ∈ Nat.toDigits 10 n := by simpa using member
  rw [Nat.isDigit_of_mem_toDigits (by decide) (by decide) digit] at letter
  cases letter

theorem mentionsEnd_tooLarge (l : Nat) : mentionsEnd (ReadError.tooLarge l).text = false := by
  have noE := not_mem_digits (x := 'E') rfl
  have noL := not_mem_digits (x := 'l') rfl
  refine containsAny_eq_false (x := 'E') (y := 'l') (by decide) (by decide) ?_ ?_ <;>
    simp only [ReadError.text_tooLarge, String.toList_append, List.mem_append, not_or]
  · exact ⟨⟨⟨by decide, noE l⟩, by decide⟩, noE _⟩
  · exact ⟨⟨⟨by decide, noL l⟩, by decide⟩, noL _⟩

theorem mentionsEnd_unknown (id : UInt16) : mentionsEnd (ReadError.unknown id).text = false := by
  refine containsAny_eq_false (x := 'E') (y := 'l') (by decide) (by decide) ?_ ?_ <;>
    simp only [ReadError.text_unknown, String.toList_append, List.mem_append, not_or]
  · exact ⟨by decide, not_mem_digits rfl id.toNat⟩
  · exact ⟨by decide, not_mem_digits rfl id.toNat⟩

theorem mentionsEnd_unread (n : Nat) : mentionsEnd (ReadError.unread n).text = false := by
  refine containsAny_eq_false (x := 'E') (y := 'c') (by decide) (by decide) ?_ ?_ <;>
    simp only [ReadError.text_unread, String.toList_append, List.mem_append, not_or]
  · exact ⟨⟨by decide, not_mem_digits rfl n⟩, by decide⟩
  · exact ⟨⟨by decide, not_mem_digits rfl n⟩, by decide⟩

/-- The name of the packet in front of a panic adds no mention. -/
theorem containsText_panicked (k : Kind) (err : String) {word : String}
    (free : ' ' ∉ word.toList) (apart : Session.containsText (k.typeName ++ ":") word = false) :
    Session.containsText (ReadError.panicked k err).text word = Session.containsText err word := by
  have text : (ReadError.panicked k err).text.toList =
      (k.typeName ++ ":").toList ++ ' ' :: err.toList := by
    simp only [ReadError.text_panicked, String.toList_append, List.append_assoc]
    rfl
  unfold Session.containsText at apart ⊢
  rw [text]
  refine decide_eq_decide.mpr ⟨fun inside => ?_, fun inside => ?_⟩
  · exact (infix_join free inside).resolve_left (of_decide_eq_false apart)
  · exact inside.trans (((List.suffix_cons ' ' _).trans (List.suffix_append _ _)).isInfix)

theorem mentionsEnd_panicked (k : Kind) (err : String) :
    mentionsEnd (ReadError.panicked k err).text = mentionsEnd err := by
  have eof : Session.containsText (k.typeName ++ ":") "EOF" = false := by cases k <;> decide
  have closed : Session.containsText (k.typeName ++ ":") "closed" = false := by cases k <;> decide
  simp only [mentionsEnd, containsAny, List.any_cons, List.any_nil,
    containsText_panicked k err (by decide) eof, containsText_panicked k err (by decide) closed]

end Wire

/-! ## Reading from a connection -/

/-- A connection as `ReadPacket` sees it. -/
structure Link where
  pool : Wire.Pool
  /-- The bytes still to be read. -/
  input : List UInt8
  /-- What a read returns when they have run out; `none` is the end of the stream. -/
  ending : Option Failure

/-- The result of a read has the end of the stream in its text. -/
def Input.mentionsEnd : Input → Bool
  | failed err _ => Socket.mentionsEnd err
  | _ => false

/-- `handleClient` reads again after this result. -/
def Input.resumes : Input → Bool
  | packet _ => true
  | failed err timeout => !Failure.recognised ⟨err, timeout⟩
  | go => false

namespace Link

variable (codec : Prims)

/-- What `ReadPacket` returns to `handleClient`: only an error of the connection itself
can be a timeout. -/
def result (ending : Option Failure) : Except Wire.ReadError Wire.Packet → Input
  | .ok pk => .packet pk
  | .error (.conn err) =>
      match ending with
      | none => .failed err false
      | some e => .failed e.err e.timeout
  | .error err => .failed err.text false

def read (l : Link) : Input × Link :=
  let (out, pool, input) := Wire.readPacket codec l.pool l.input
  (result l.ending out, { l with pool := pool, input := input })

/-- The link after `n` reads, if `handleClient` goes on after each of them. -/
def after : Nat → Link → Option Link
  | 0, l => some l
  | n + 1, l => if (l.read codec).1.resumes then after n (l.read codec).2 else none

/-- The next read will be taken for the end of the stream: the bytes end inside a frame,
with an error that says so, or the next frame is cut short. -/
def silent (l : Link) : Bool :=
  let size := ofLE (l.input.take 4)
  if 4 ≤ l.input.length ∧ size > Wire.maxPacketSize then false
  else if 4 ≤ l.input.length ∧ size ≤ l.input.length - 4 then
    Wire.cutShort codec ((l.input.drop 4).take size)
  else
    match l.ending with
    | none => true
    | some e => mentionsEnd e.err

end Link

namespace Wire

variable {codec : Prims}

/-- **Of the errors of a payload, only one cut short mentions the end.** -/
theorem decode_mentionsEnd (pool : Pool) (ending : Option Failure) (data : List UInt8) :
    (Link.result ending (decode codec pool data).1).mentionsEnd = cutShort codec data := by
  have eof : mentionsEnd "EOF" = true := by decide
  match data with
  | [] | [_] => exact eof
  | b1 :: b2 :: buf =>
      simp only [decode, cutShort]
      cases known : Kind.ofID (readHeader b1 b2) with
      | none => exact mentionsEnd_unknown _
      | some k =>
          have same := (unmarshal_uniform codec k (pool k) k.zero buf trivial).1
          simp only [← same]
          obtain ⟨pk, out⟩ := k.unmarshal codec (pool k) buf
          cases out with
          | error err => exact mentionsEnd_panicked k err
          | ok rest =>
              simp only
              split
              · exact mentionsEnd_unread _
              · rfl

end Wire

namespace Link

variable {codec : Prims}

/-- **When a read is taken for the end of the stream.** -/
theorem read_mentionsEnd (l : Link) : (l.read codec).1.mentionsEnd = l.silent codec := by
  have ended : ∀ n : Nat, (result l.ending
      (.error (.conn (if n = 0 then "EOF" else "unexpected EOF")))).mentionsEnd =
        match l.ending with
        | none => true
        | some e => mentionsEnd e.err := by
    intro n
    cases l.ending with
    | none => simp only [result]; split <;> decide
    | some e => rfl
  by_cases header : 4 ≤ l.input.length
  · have first : Wire.readFull 4 l.input = .ok (l.input.take 4, l.input.drop 4) := if_pos header
    by_cases large : ofLE (l.input.take 4) > Wire.maxPacketSize
    · simp only [read, silent, Wire.readPacket, first, if_pos large, if_pos (And.intro header large)]
      exact Wire.mentionsEnd_tooLarge _
    · by_cases whole : ofLE (l.input.take 4) ≤ l.input.length - 4
      · have second : Wire.readFull (ofLE (l.input.take 4)) (l.input.drop 4) =
            .ok ((l.input.drop 4).take (ofLE (l.input.take 4)),
              (l.input.drop 4).drop (ofLE (l.input.take 4))) :=
          if_pos (by rwa [List.length_drop])
        simp only [read, silent, Wire.readPacket, first, second, header, large, whole, if_false,
          if_true, and_self, and_false]
        exact Wire.decode_mentionsEnd _ _ _
      · have second : Wire.readFull (ofLE (l.input.take 4)) (l.input.drop 4) = .error (.conn _) :=
          if_neg (by rwa [List.length_drop])
        simp only [read, silent, Wire.readPacket, first, second, header, large, whole, if_false,
          and_false]
        exact ended _
  · have first : Wire.readFull 4 l.input = .error (.conn _) := if_neg header
    simp only [read, silent, Wire.readPacket, first, header, if_false, false_and]
    exact ended _

/-! ## Frame boundaries -/

/-- Up to the first frame that is cut short, none is too large. -/
def bounded (codec : Prims) : List (List UInt8) → Bool
  | [] => true
  | data :: frames =>
      data.length ≤ Wire.maxPacketSize && (Wire.cutShort codec data || bounded codec frames)

section OneFrame

variable {pool : Wire.Pool} {ending : Option Failure} {data rest : List UInt8}
  {frames : List (List UInt8)}

theorem length_frame (data : List UInt8) : (Wire.frame data).length = 4 + data.length := by
  rw [Wire.frame, List.length_append, length_le]

end OneFrame

theorem after_succ_of_resumes {n : Nat} {l l' : Link} (later : l.after codec n = some l')
    (goesOn : (l'.read codec).1.resumes = true) : l.after codec (n + 1) = some (l'.read codec).2 := by
  induction n generalizing l with
  | zero =>
      cases later
      rw [after, if_pos goesOn, after]
  | succ n ih =>
      rw [after] at later ⊢
      split at later
      · rename_i first
        rw [if_pos first]
        exact ih later
      · cases later

end Link

/-! ## The socket server and its peers -/

/-- What one statement of `handleClient` does to its loop and to the connection. -/
theorem step_apart {cfg : Config} {sh sh' : Shared} {c : ClientID} {input : Input}
    {conn conn' : Connection} (apart : conn.state ≠ .reading)
    (taken : conn.step cfg sh c input conn.state = some (sh', conn')) :
    (conn'.state.looping = conn.state.looping ∧ conn'.closed = conn.closed) ∨
      (conn.state.looping = true ∧ conn'.state.looping = false ∧ conn'.closed = true) := by
  cases at_ : conn.state with
  | reading => exact absurd at_ apart
  | admitting | checking =>
      simp only [at_, Connection.step] at taken
      split at taken <;> cases taken
      · exact .inr ⟨rfl, rfl, rfl⟩
      · exact .inl ⟨rfl, rfl⟩
  | dispatching pk =>
      have handler : (ConnState.handle pk).looping = true := by
        obtain ⟨k, pk⟩ := pk
        cases k <;> rfl
      simp only [at_, Connection.step] at taken
      (repeat' split at taken) <;> cases taken
      · exact .inl ⟨rfl, rfl⟩
      · exact .inl ⟨rfl, rfl⟩
      · exact .inl ⟨handler, rfl⟩
  | cleaning =>
      simp only [at_, Connection.step] at taken
      cases taken
      refine .inl ⟨?_, rfl⟩
      simp only [Connection.goto]
      split <;> rfl
  | _ =>
      simp only [at_, Connection.step] at taken
      (repeat' split at taken) <;> cases taken <;> exact .inl ⟨rfl, rfl⟩

/-- `handleClient` reads again, or it returns; on the way out it closes the connection
unless the error mentions the end. -/
theorem step_read {cfg : Config} {sh sh' : Shared} {c : ClientID} {input : Input}
    {conn conn' : Connection} (at_ : conn.state = .reading)
    (taken : conn.step cfg sh c input conn.state = some (sh', conn')) :
    (input.resumes = true ∧ input.mentionsEnd = false ∧ conn'.state.looping = true ∧
        conn'.closed = conn.closed) ∨
      (input.resumes = false ∧ conn'.state.looping = false ∧
        conn'.closed = (conn.closed || !input.mentionsEnd)) := by
  simp only [at_, Connection.step] at taken
  cases input with
  | go => cases taken
  | packet pk =>
      cases taken
      exact .inl ⟨rfl, rfl, rfl, rfl⟩
  | failed err timeout =>
      simp only [Input.resumes, Input.mentionsEnd, mentionsEnd, Failure.recognised]
      simp only at taken
      split at taken
      · rename_i mentioned
        cases taken
        exact .inr ⟨by simp [mentioned], rfl, by simp [mentioned, Connection.goto]⟩
      · rename_i silent
        rw [Bool.not_eq_true] at silent
        split at taken <;> cases taken
        · exact .inr ⟨by simp [*], rfl, by simp [silent]⟩
        · exact .inl ⟨by simp [*], silent, rfl, rfl⟩

/-- The socket server, and what each peer has still to say. -/
structure Site where
  server : DefaultServer
  links : ClientID → Link

/-- `handleClient` waits in `ReadPacket`. -/
def DefaultServer.reads (s : DefaultServer) (c : ClientID) : Bool :=
  match s.conns c with
  | some conn => conn.state = .reading
  | none => false

namespace Site

/-- A statement of a connection is `.step c .go`: what a read returns is in its link. -/
def next (cfg : Config) (codec : Prims) (s : Site) : Action → Option Site
  | .step c .go =>
      if s.server.reads c then
        (s.server.next cfg (.step c ((s.links c).read codec).1)).map fun server =>
          ⟨server, Function.update s.links c ((s.links c).read codec).2⟩
      else (s.server.next cfg (.step c .go)).map (⟨·, s.links⟩)
  | .step _ _ => none
  | a => (s.server.next cfg a).map (⟨·, s.links⟩)

/-- `peers c` is what the peer of connection `c` sends, and how that ends. -/
def machine (cfg : Config) (codec : Prims) (peers : ClientID → Link) : Machine Site Action where
  start := ⟨.initial, peers⟩
  next := next cfg codec

/-- The connection of the action, if the action is a read that will be taken for the end
of the stream. -/
def silenced (codec : Prims) (s : Site) : Action → List ClientID
  | .step c .go => if s.server.reads c && (s.links c).silent codec then [c] else []
  | _ => []

variable {cfg : Config} {codec : Prims} {peers : ClientID → Link} {s s' : Site} {a : Action}
  {c : ClientID} {conn conn' : Connection}

/-- **The step rule**, for one connection. -/
inductive Moved (cfg : Config) (codec : Prims) (c : ClientID) (s s' : Site) (a : Action) : Prop
  | same (conns : s'.server.conns c = s.server.conns c) (links : s'.links c = s.links c)
      (unheard : c ∉ silenced codec s a)
  | accepted (fresh : s.server.conns c = none) (conns : s'.server.conns c = some .new)
      (links : s'.links c = s.links c) (unheard : c ∉ silenced codec s a)
  | stepped {conn conn' : Connection} {sh : Shared} (found : s.server.conns c = some conn)
      (apart : conn.state ≠ .reading) (conns : s'.server.conns c = some conn')
      (step : conn.step cfg s.server.shared c .go conn.state = some (sh, conn'))
      (links : s'.links c = s.links c) (unheard : c ∉ silenced codec s a)
  | read {conn conn' : Connection} {sh : Shared} (found : s.server.conns c = some conn)
      (at_ : conn.state = .reading) (conns : s'.server.conns c = some conn')
      (step : conn.step cfg s.server.shared c ((s.links c).read codec).1 conn.state =
        some (sh, conn'))
      (links : s'.links c = ((s.links c).read codec).2)
      (heard : c ∈ silenced codec s a ↔ (s.links c).silent codec = true)

theorem server_step {input : Input} {server server' : DefaultServer} {d : ClientID}
    (taken : server.next cfg (.step d input) = some server') :
    ∃ conn sh conn', server.conns d = some conn ∧
      conn.step cfg server.shared d input conn.state = some (sh, conn') ∧
      server' = ⟨sh, Function.update server.conns d (some conn')⟩ := by
  simp only [DefaultServer.next] at taken
  split at taken
  · cases taken
  · rename_i conn found
    obtain ⟨⟨sh, conn'⟩, step, rfl⟩ := Option.map_eq_some_iff.mp taken
    exact ⟨conn, sh, conn', found, step, rfl⟩

theorem moved_step {d : ClientID} (taken : s.next cfg codec (.step d .go) = some s') (c : ClientID) :
    Moved cfg codec c s s' (.step d .go) := by
  simp only [next] at taken
  split at taken
  · rename_i reads
    obtain ⟨server, stepped, rfl⟩ := Option.map_eq_some_iff.mp taken
    obtain ⟨conn, sh, conn', found, step, rfl⟩ := server_step stepped
    have at_ : conn.state = .reading := by
      simp only [DefaultServer.reads, found] at reads
      exact of_decide_eq_true reads
    by_cases same : c = d
    · subst same
      refine .read found at_ (Function.update_self ..) step (Function.update_self ..) ?_
      simp only [silenced, reads, Bool.true_and]
      split <;> simp [*]
    · refine .same (Function.update_of_ne same ..) (Function.update_of_ne same ..) ?_
      simp only [silenced]
      split <;> simp [same]
  · rename_i unread
    have unheard : silenced codec s (.step d .go) = [] := by simp [silenced, unread]
    obtain ⟨server, stepped, rfl⟩ := Option.map_eq_some_iff.mp taken
    obtain ⟨conn, sh, conn', found, step, rfl⟩ := server_step stepped
    by_cases same : c = d
    · subst same
      have apart : conn.state ≠ .reading := by
        intro at_
        simp [DefaultServer.reads, found, at_] at unread
      exact .stepped found apart (Function.update_self ..) step rfl (by rw [unheard]; exact List.not_mem_nil)
    · exact .same (Function.update_of_ne same ..) rfl (by rw [unheard]; exact List.not_mem_nil)

theorem moved (taken : s.next cfg codec a = some s') (c : ClientID) : Moved cfg codec c s s' a := by
  cases a with
  | accept d =>
      obtain ⟨server, accepted, rfl⟩ := Option.map_eq_some_iff.mp taken
      simp only [DefaultServer.next] at accepted
      split at accepted <;> cases accepted
      rename_i fresh
      by_cases same : c = d
      · subst same
        exact .accepted fresh (Function.update_self ..) rfl List.not_mem_nil
      · exact .same (Function.update_of_ne same ..) rfl List.not_mem_nil
  | step d input =>
      cases input with
      | go => exact moved_step taken c
      | packet _ | failed _ _ => cases taken
  | tick _ | others _ _ _ =>
      cases taken
      exact .same rfl rfl List.not_mem_nil
  | cleanup now =>
      obtain ⟨server, cleaned, rfl⟩ := Option.map_eq_some_iff.mp taken
      simp only [DefaultServer.next] at cleaned
      split at cleaned <;> cases cleaned
      exact .same rfl rfl List.not_mem_nil

/-- A step of the site is a step of its server. -/
theorem server_next (taken : s.next cfg codec a = some s') :
    ∃ b, s.server.next cfg b = some s'.server := by
  cases a with
  | step d input =>
      cases input with
      | go =>
          simp only [next] at taken
          split at taken
          all_goals
            obtain ⟨server, stepped, rfl⟩ := Option.map_eq_some_iff.mp taken
            exact ⟨_, stepped⟩
      | packet _ | failed _ _ => cases taken
  | accept _ | tick _ | cleanup _ | others _ _ _ =>
      simp only [next] at taken
      obtain ⟨server, stepped, rfl⟩ := Option.map_eq_some_iff.mp taken
      exact ⟨_, stepped⟩

/-- **A run of the site is a run of the server.** -/
theorem server_reachable (reached : (machine cfg codec peers).Reachable s) :
    (DefaultServer.machine cfg).Reachable s.server := by
  refine reached.invariant (I := fun s : Site => (DefaultServer.machine cfg).Reachable s.server)
    .start ?_
  intro s s' a _ before _ taken
  obtain ⟨b, stepped⟩ := server_next taken
  exact .step (a := b) before trivial stepped

/-- **What `handleClient` has left to read.**  In every run, a connection that is still
served stands where some number of reads has led, each of which it went on after. -/
theorem link_after (reached : (machine cfg codec peers).Reachable s)
    (found : s.server.conns c = some conn) (looping : conn.state.looping = true) :
    ∃ n, (peers c).after codec n = some (s.links c) := by
  have inv : (s.server.conns c = none → s.links c = peers c) ∧
      ∀ conn, s.server.conns c = some conn → conn.state.looping = true →
        ∃ n, (peers c).after codec n = some (s.links c) := by
    refine reached.invariant (I := fun s => (s.server.conns c = none → s.links c = peers c) ∧
      ∀ conn, s.server.conns c = some conn → conn.state.looping = true →
        ∃ n, (peers c).after codec n = some (s.links c)) ?_ ?_
    · refine ⟨fun _ => rfl, fun conn found => ?_⟩
      cases found
    rintro s s' a - ⟨untouched, served⟩ - taken
    cases moved taken c with
    | same conns links _ =>
        rw [conns, links]
        exact ⟨untouched, served⟩
    | accepted fresh conns links _ =>
        rw [conns, links, untouched fresh]
        exact ⟨nofun, fun _ _ _ => ⟨0, rfl⟩⟩
    | stepped found apart conns step links _ =>
        rw [conns, links]
        refine ⟨nofun, ?_⟩
        rintro _ ⟨⟩ looping
        rcases step_apart apart step with ⟨same, -⟩ | ⟨-, left, -⟩
        · exact served _ found (same ▸ looping)
        · rw [left] at looping
          cases looping
    | read found at_ conns step links _ =>
        rw [conns, links]
        refine ⟨nofun, ?_⟩
        rintro _ ⟨⟩ looping
        obtain ⟨n, later⟩ := served _ found (by rw [at_]; rfl)
        rcases step_read at_ step with ⟨goesOn, -⟩ | ⟨-, left, -⟩
        · exact ⟨n + 1, Link.after_succ_of_resumes later goesOn⟩
        · rw [left] at looping
          cases looping
  exact inv.2 conn found looping

/-! ## Abandoned connections -/

/-- While `handleClient` is in its loop the connection is open and no read was taken for
the end; afterwards it is closed if there was none. -/
def Kept (heard : List ClientID) (c : ClientID) (conn : Connection) : Prop :=
  (conn.state.looping = true → conn.closed = false ∧ c ∉ heard) ∧
    (conn.state.looping = false → (conn.closed = true ↔ c ∉ heard))

theorem Kept.apart {heard more : List ClientID} {sh : Shared} {input : Input}
    (kept : Kept heard c conn) (apart : conn.state ≠ .reading) (unheard : c ∉ more)
    (step : conn.step cfg s.server.shared c input conn.state = some (sh, conn')) :
    Kept (heard ++ more) c conn' := by
  have same : c ∉ heard ++ more ↔ c ∉ heard := by simp [unheard]
  unfold Kept
  rw [same]
  rcases step_apart apart step with ⟨state, closed⟩ | ⟨before, state, closed⟩
  · rw [state, closed]
    exact kept
  · rw [state, closed]
    exact ⟨nofun, fun _ => iff_of_true rfl (kept.1 before).2⟩

theorem Kept.read {heard more : List ClientID} {sh : Shared} {input : Input}
    (kept : Kept heard c conn) (at_ : conn.state = .reading)
    (added : c ∈ more ↔ input.mentionsEnd = true)
    (step : conn.step cfg s.server.shared c input conn.state = some (sh, conn')) :
    Kept (heard ++ more) c conn' := by
  obtain ⟨opened, silent⟩ := kept.1 (by rw [at_]; rfl)
  have later : c ∉ heard ++ more ↔ input.mentionsEnd = false := by simp [silent, added]
  unfold Kept
  rw [later]
  rcases step_read at_ step with ⟨-, unmentioned, state, closed⟩ | ⟨-, state, closed⟩
  · rw [state, closed]
    exact ⟨fun _ => ⟨opened, unmentioned⟩, nofun⟩
  · rw [state, closed, opened]
    exact ⟨nofun, fun _ => by simp⟩

/-- **A connection `handleClient` has returned from is closed exactly if no read of it was
taken for the end of the stream.** -/
theorem abandoned_is_closed (cfg : Config) (codec : Prims) (peers : ClientID → Link)
    {s : Site} {heard : List ClientID}
    (reached : ((machine cfg codec peers).record (silenced codec)).Reachable (s, heard))
    {c : ClientID} {conn : Connection} (found : s.server.conns c = some conn)
    (returned : conn.state = .ended) :
    conn.closed = true ↔ c ∉ heard := by
  have inv : (s.server.conns c = none → c ∉ heard) ∧
      ∀ conn, s.server.conns c = some conn → Kept heard c conn := by
    refine reached.invariant (I := fun p => (p.1.server.conns c = none → c ∉ p.2) ∧
      ∀ conn, p.1.server.conns c = some conn → Kept p.2 c conn) ?_ ?_
    · refine ⟨fun _ => List.not_mem_nil, fun conn found => ?_⟩
      cases found
    rintro ⟨s, heard⟩ ⟨s', heard'⟩ a - ⟨fresh, kept⟩ - recorded
    obtain ⟨taken, logged⟩ := Machine.record_next recorded
    simp only at taken logged fresh kept ⊢
    subst logged
    cases moved taken c with
    | same conns links unheard =>
        have same : c ∉ heard ++ silenced codec s a ↔ c ∉ heard := by simp [unheard]
        simp only [Kept, same, conns]
        exact ⟨fresh, kept⟩
    | accepted before conns links unheard =>
        have silent : c ∉ heard ++ silenced codec s a := by simp [fresh before, unheard]
        rw [conns]
        refine ⟨nofun, ?_⟩
        rintro _ ⟨⟩
        exact ⟨fun _ => ⟨rfl, silent⟩, nofun⟩
    | stepped found apart conns step links unheard =>
        rw [conns]
        refine ⟨nofun, ?_⟩
        rintro _ ⟨⟩
        exact (kept _ found).apart apart unheard step
    | read found at_ conns step links added =>
        rw [conns]
        refine ⟨nofun, ?_⟩
        rintro _ ⟨⟩
        exact (kept _ found).read at_ (by rw [Link.read_mentionsEnd]; exact added) step
  exact (inv.2 conn found).2 (by rw [returned]; rfl)

/-- A peer that says nothing until the deadline. -/
theorem abandoned_is_closed_deadline :
    ∃ s heard conn,
      ((machine .oneHost Wire.plain fun _ => ⟨Wire.newPool, [], some ⟨"i/o timeout", true⟩⟩).record
        (silenced Wire.plain)).Reachable (s, heard) ∧
      s.server.conns 0 = some conn ∧ conn.state = .ended ∧ (conn.closed = true ↔ 0 ∉ heard) ∧
      conn.closed = true := by
  have reached : ((machine .oneHost Wire.plain fun _ =>
      ⟨Wire.newPool, [], some ⟨"i/o timeout", true⟩⟩).record (silenced Wire.plain)).Reachable _ :=
    Machine.exec_reach (Action.arrive 0 ++ Action.go 0 2) rfl
  obtain ⟨⟨s, heard⟩, conn, reached, found, returned, closed⟩ : ∃ (p : Site × List ClientID) (conn : Connection),
      ((machine .oneHost Wire.plain fun _ => ⟨Wire.newPool, [], some ⟨"i/o timeout", true⟩⟩).record
        (silenced Wire.plain)).Reachable p ∧
      p.1.server.conns 0 = some conn ∧ conn.state = .ended ∧ conn.closed = true :=
    ⟨_, _, reached, rfl, rfl, rfl⟩
  exact ⟨s, heard, conn, reached, found, returned,
    abandoned_is_closed _ _ _ reached found returned, closed⟩

/-- A frame without a payload, from a peer who stays connected. -/
theorem empty_frame_abandoned :
    ∃ s conn, (machine .oneHost Wire.plain fun _ => ⟨Wire.newPool, Wire.frame [], none⟩).Reachable s ∧
      s.server.conns 0 = some conn ∧ conn.state = .ended ∧ conn.closed = false := by
  have reached : (machine .oneHost Wire.plain fun _ =>
      ⟨Wire.newPool, Wire.frame [], none⟩).Reachable _ :=
    Machine.exec_reach (Action.arrive 0 ++ Action.go 0 2) rfl
  exact ⟨_, _, reached, rfl, rfl, rfl⟩

end Site

end Portal.Socket
