/-
# Socket.Send — any number of goroutines in `WritePacket` of one `Client`

Request handlers, the latency reporter and the hook of a transfer write to one client.
Each call is a goroutine of its own here.  It takes `sendMu`, puts the header and the
fields into the buffer all calls share, and passes the frame to `conn.Write`, which sends
it piece by piece and may fail at any point of it.  The call then returns, and the
connection stays in use.

`sendMu` keeps the buffer to one call at a time, so that what is passed to `conn.Write`
is the frame of that call's packet (`Locked`, `Sane.packets`).  It does not keep
the next call from sending after a `Write` that stopped inside its frame.  Where that
does not happen the peer parses whole frames only, each once and in order
(`peer_parses_sends`); `frame_after_timeout` is a run where it does.
-/
import Portal.Theory.Frames
import Portal.Theory.PartialMap
import Portal.Theory.Transition
import Portal.Socket.Wire

namespace Portal.Socket

open Portal.Theory.Frames Portal.Theory.PartialMap Portal.Theory.Transition

set_option autoImplicit false

/-- `WritePacket`, at the statement it executes next. -/
inductive WriteState where
  /-- `c.sendMu.Lock()` -/
  | locking
  /-- `c.hdr.PacketID = pk.ID()` -/
  | assigning
  /-- `c.hdr.Write(c.buf)` -/
  | heading
  /-- `pk.Marshal(…)` -/
  | marshaling
  /-- `framed` is made, up to the call of `c.conn.Write(framed)` -/
  | framing
  /-- inside `conn.Write` -/
  | writing
  /-- the deferred `c.buf.Reset()` -/
  | resetting
  /-- the deferred `c.sendMu.Unlock()` -/
  | unlocking
  | returned
  deriving DecidableEq, Repr

/-- The call holds `sendMu`. -/
def WriteState.inside : WriteState → Bool
  | locking => false
  | returned => false
  | _ => true

structure WriteCall where
  pk : Wire.Packet
  state : WriteState

/-- What a `Client` has for sending, its calls of `WritePacket` and its connection. -/
structure Outgoing where
  /-- The call that holds it. -/
  sendMu : Option Nat
  /-- `hdr.PacketID` -/
  hdr : UInt16
  buf : List UInt8
  calls : Nat → Option WriteCall
  /-- The calls of `conn.Write` that have returned, in order. -/
  writes : List Attempt
  /-- The one that is being executed: a connection executes one at a time. -/
  current : Option Attempt

namespace Outgoing

def initial : Outgoing where
  sendMu := none
  hdr := 0
  buf := []
  calls := fun _ => none
  writes := []
  current := none

/-- What a statement learns from outside. -/
inductive Input where
  | go
  /-- `Marshal` panics after `n` bytes -/
  | panicked (n : Nat)
  /-- the connection takes `n` bytes more -/
  | sent (n : Nat)
  /-- `conn.Write` gives up -/
  | failed

inductive Action where
  /-- somebody calls `WritePacket(pk)` -/
  | call (g : Nat) (pk : Wire.Packet)
  | step (g : Nat) (input : Input)

def goto (s : Outgoing) (g : Nat) (pk : Wire.Packet) (state : WriteState) : Outgoing :=
  { s with calls := Function.update s.calls g (some ⟨pk, state⟩) }

/-- The next statement of a call; `none` where it waits. -/
def step (codec : Prims) (s : Outgoing) (g : Nat) (pk : Wire.Packet) (input : Input) :
    WriteState → Option Outgoing
  | .locking =>
      match s.sendMu with
      | some _ => none
      | none => some { s.goto g pk .assigning with sendMu := some g }
  | .assigning => some { s.goto g pk .heading with hdr := pk.1.id }
  | .heading => some { s.goto g pk .marshaling with buf := s.buf ++ Wire.writeHeader s.hdr }
  | .marshaling =>
      match input with
      | .panicked n =>
          some { s.goto g pk .resetting with buf := s.buf ++ (pk.1.marshal codec pk.2).take n }
      | _ => some { s.goto g pk .framing with buf := s.buf ++ pk.1.marshal codec pk.2 }
  | .framing =>
      match s.current with
      | some _ => none
      | none => some { s.goto g pk .writing with current := some ⟨s.buf, 0⟩ }
  | .writing =>
      match s.current with
      | none => none
      | some w =>
          match input with
          | .sent n =>
              if w.sent + n ≤ (Wire.frame w.payload).length then
                some { s with current := some { w with sent := w.sent + n } }
              else none
          | .failed => some { s.goto g pk .resetting with writes := s.writes ++ [w], current := none }
          | _ =>
              if w.whole 4 then
                some { s.goto g pk .resetting with writes := s.writes ++ [w], current := none }
              else none
  | .resetting => some { s.goto g pk .unlocking with buf := [] }
  | .unlocking => some { s.goto g pk .returned with sendMu := none }
  | .returned => none

def next (codec : Prims) (s : Outgoing) : Action → Option Outgoing
  | .call g pk =>
      match s.calls g with
      | none => some (s.goto g pk .locking)
      | some _ => none
  | .step g input =>
      match s.calls g with
      | none => none
      | some call => s.step codec g call.pk input call.state

def machine (codec : Prims) : Machine Outgoing Action where
  start := initial
  next := next codec

/-- Every `conn.Write` so far. -/
def sends (s : Outgoing) : List Attempt := s.writes ++ s.current.toList

/-- The frames passed to `conn.Write`, in the order of the sends. -/
def passed (s : Outgoing) : List (List UInt8) := s.sends.map fun w => Wire.frame w.payload

/-- The bytes the peer has received. -/
def received (s : Outgoing) : List UInt8 := s.sends.flatMap (Attempt.bytes 4)

variable {codec : Prims} {s s' : Outgoing} {g : Nat} {pk : Wire.Packet} {input : Input}

/-! ## The buffer -/

/-- What the shared buffer holds when a call for `pk` has come this far. -/
def Filled (codec : Prims) (pk : Wire.Packet) (hdr : UInt16) (buf : List UInt8) : WriteState → Prop
  | .assigning => buf = []
  | .heading => buf = [] ∧ hdr = pk.1.id
  | .marshaling => buf = Wire.writeHeader pk.1.id
  | .framing => buf = Wire.payload codec pk
  | .unlocking => buf = []
  | _ => True

theorem filled_outside {hdr : UInt16} {buf : List UInt8} {state : WriteState}
    (outside : state.inside = false) : Filled codec pk hdr buf state := by
  cases state with
  | locking | returned => trivial
  | _ => cases outside

/-- **`sendMu` keeps the buffer to the call that holds it.** -/
structure Locked (codec : Prims) (s : Outgoing) : Prop where
  holder : ∀ g call, s.calls g = some call → call.state.inside = true → s.sendMu = some g
  free : s.sendMu = none → s.buf = []
  content : ∀ g call, s.calls g = some call → Filled codec call.pk s.hdr s.buf call.state

theorem locked_initial : Locked codec initial where
  holder := nofun
  free := fun _ => rfl
  content := nofun

theorem calls_goto {state : WriteState} {g' : Nat} {call : WriteCall}
    (found : (s.goto g pk state).calls g' = some call) :
    (g' = g ∧ call = ⟨pk, state⟩) ∨ (g' ≠ g ∧ s.calls g' = some call) := by
  rcases update_some found with ⟨same, new⟩ | before
  · cases new
    exact .inl ⟨same, rfl⟩
  · exact .inr before

/-- The call that holds the lock goes on holding it. -/
theorem Locked.inside (locked : Locked codec s) {call : WriteCall} (found : s.calls g = some call)
    (held : call.state.inside = true) {state : WriteState} {hdr : UInt16} {buf : List UInt8}
    (filled : Filled codec pk hdr buf state) {writes : List Attempt} {current : Option Attempt} :
    Locked codec { s.goto g pk state with
      hdr := hdr, buf := buf, writes := writes, current := current } := by
  have own := locked.holder g call found held
  constructor
  · intro g' call' found' held'
    rcases calls_goto found' with ⟨rfl, -⟩ | ⟨-, found'⟩
    · exact own
    · exact locked.holder g' call' found' held'
  · intro free
    rw [show s.sendMu = none from free] at own
    cases own
  · intro g' call' found'
    rcases calls_goto found' with ⟨rfl, rfl⟩ | ⟨other, found'⟩
    · exact filled
    · refine filled_outside (Bool.eq_false_iff.mpr fun held' => other ?_)
      have both := locked.holder g' call' found' held'
      rw [own] at both
      cases both
      rfl

/-- A call comes in. -/
theorem Locked.call (locked : Locked codec s) : Locked codec (s.goto g pk .locking) := by
  constructor
  · intro g' call' found' held'
    rcases calls_goto found' with ⟨-, rfl⟩ | ⟨-, found'⟩
    · cases held'
    · exact locked.holder g' call' found' held'
  · exact locked.free
  · intro g' call' found'
    rcases calls_goto found' with ⟨-, rfl⟩ | ⟨-, found'⟩
    · trivial
    · exact locked.content g' call' found'

theorem Locked.lock (locked : Locked codec s) (free : s.sendMu = none) :
    Locked codec { s.goto g pk .assigning with sendMu := some g } := by
  have outside : ∀ g' call', s.calls g' = some call' → call'.state.inside = false := by
    intro g' call' found'
    refine Bool.eq_false_iff.mpr fun held' => ?_
    have taken := locked.holder g' call' found' held'
    rw [free] at taken
    cases taken
  constructor
  · intro g' call' found' held'
    rcases calls_goto found' with ⟨rfl, -⟩ | ⟨-, found'⟩
    · rfl
    · rw [outside g' call' found'] at held'
      cases held'
  · exact nofun
  · intro g' call' found'
    rcases calls_goto found' with ⟨-, rfl⟩ | ⟨-, found'⟩
    · exact locked.free free
    · exact filled_outside (outside g' call' found')

theorem Locked.unlock (locked : Locked codec s) (found : s.calls g = some ⟨pk, .unlocking⟩) :
    Locked codec { s.goto g pk .returned with sendMu := none } := by
  have own := locked.holder g _ found rfl
  have empty : s.buf = [] := locked.content g _ found
  have outside : ∀ g' call', g' ≠ g → s.calls g' = some call' → call'.state.inside = false := by
    intro g' call' other found'
    refine Bool.eq_false_iff.mpr fun held' => other ?_
    have both := locked.holder g' call' found' held'
    rw [own] at both
    cases both
    rfl
  constructor
  · intro g' call' found' held'
    rcases calls_goto found' with ⟨-, rfl⟩ | ⟨other, found'⟩
    · cases held'
    · rw [outside g' call' other found'] at held'
      cases held'
  · exact fun _ => empty
  · intro g' call' found'
    rcases calls_goto found' with ⟨-, rfl⟩ | ⟨other, found'⟩
    · trivial
    · exact filled_outside (outside g' call' other found')

theorem Locked.step (locked : Locked codec s) {state : WriteState}
    (found : s.calls g = some ⟨pk, state⟩)
    (taken : s.step codec g pk input state = some s') : Locked codec s' := by
  have content : Filled codec pk s.hdr s.buf state := locked.content g _ found
  cases state with
  | locking =>
      simp only [Outgoing.step] at taken
      split at taken <;> cases taken
      exact locked.lock ‹_›
  | assigning =>
      cases taken
      refine locked.inside found rfl ?_
      exact ⟨content, rfl⟩
  | heading =>
      cases taken
      obtain ⟨empty, header⟩ := content
      refine locked.inside found rfl ?_
      show s.buf ++ Wire.writeHeader s.hdr = _
      rw [empty, header, List.nil_append]
  | marshaling =>
      have header : s.buf = Wire.writeHeader pk.1.id := content
      simp only [Outgoing.step] at taken
      split at taken <;> cases taken
      · refine locked.inside found rfl ?_
        trivial
      · refine locked.inside found rfl ?_
        show s.buf ++ _ = Wire.payload codec pk
        rw [header, Wire.payload]
  | framing =>
      simp only [Outgoing.step] at taken
      split at taken <;> cases taken
      refine locked.inside found rfl ?_
      trivial
  | writing =>
      simp only [Outgoing.step] at taken
      split at taken
      · cases taken
      · split at taken
        · split at taken <;> cases taken
          exact ⟨locked.holder, locked.free, locked.content⟩
        · cases taken
          refine locked.inside found rfl ?_
          trivial
        · split at taken <;> cases taken
          refine locked.inside found rfl ?_
          trivial
  | resetting =>
      cases taken
      refine locked.inside found rfl ?_
      rfl
  | unlocking =>
      cases taken
      exact locked.unlock found
  | returned => cases taken

/-! ## The frames -/

/-- **What a statement does to the sends**: a `Write` begins with what is in the buffer,
or the one that is being executed gets on. -/
theorem step_sends {state : WriteState} (taken : s.step codec g pk input state = some s') :
    s'.sends = s.sends ∨
      (state = .framing ∧ s'.sends = s.sends ++ [⟨s.buf, 0⟩]) ∨
      ∃ n w, input = .sent n ∧ s.sends = s.writes ++ [w] ∧
        s'.sends = s.writes ++ [{ w with sent := w.sent + n }] := by
  cases state with
  | locking =>
      simp only [step] at taken
      split at taken <;> cases taken
      exact .inl rfl
  | marshaling =>
      simp only [step] at taken
      split at taken <;> cases taken <;> exact .inl rfl
  | framing =>
      simp only [step] at taken
      split at taken <;> cases taken
      rename_i idle
      refine .inr (.inl ⟨rfl, ?_⟩)
      simp only [sends, idle, Option.toList_some, Option.toList_none, List.append_nil, goto]
  | writing =>
      simp only [step] at taken
      split at taken
      · cases taken
      · rename_i w busy
        have before : s.sends = s.writes ++ [w] := by rw [sends, busy, Option.toList_some]
        split at taken
        · rename_i n
          split at taken <;> cases taken
          exact .inr (.inr ⟨n, w, rfl, before, rfl⟩)
        · cases taken
          exact .inl (by rw [before]; exact List.append_nil _)
        · split at taken <;> cases taken
          exact .inl (by rw [before]; exact List.append_nil _)
  | assigning | heading | resetting | unlocking =>
      cases taken
      exact .inl rfl
  | returned => cases taken

/-- A call keeps its packet. -/
theorem step_calls {state : WriteState} (found : s.calls g = some ⟨pk, state⟩)
    (taken : s.step codec g pk input state = some s') (g' : Nat) :
    (s'.calls g').map WriteCall.pk = (s.calls g').map WriteCall.pk := by
  have moved : ∀ state', ((Function.update s.calls g (some ⟨pk, state'⟩)) g').map WriteCall.pk =
      (s.calls g').map WriteCall.pk := by
    intro state'
    by_cases same : g' = g
    · rw [same, Function.update_self, found]
      rfl
    · rw [Function.update_of_ne same]
  cases state with
  | returned => cases taken
  | assigning | heading | resetting | unlocking =>
      cases taken
      exact moved _
  | locking | framing | marshaling =>
      simp only [step] at taken
      split at taken <;> cases taken <;> exact moved _
  | writing =>
      simp only [step] at taken
      split at taken
      · cases taken
      · split at taken
        · split at taken <;> cases taken
          rfl
        · cases taken
          exact moved _
        · split at taken <;> cases taken
          exact moved _

/-- Somebody has called `WritePacket(pk)`. -/
def Called (s : Outgoing) (pk : Wire.Packet) : Prop := ∃ g, (s.calls g).map WriteCall.pk = some pk

/-- Every frame is that of a packet, and nothing was sent after one that was cut off. -/
structure Sane (codec : Prims) (s : Outgoing) : Prop where
  locked : Locked codec s
  fits : ∀ pk, s.Called pk → (Wire.payload codec pk).length < 2 ^ 32
  packets : ∀ w ∈ s.sends, ∃ pk, s.Called pk ∧ w.payload = Wire.payload codec pk
  tidy : s.sends.Pairwise fun v w => v.torn 4 = true → w.sent = 0

/-- The packet of a new call fits the length of a frame, and no bytes are sent while a
`Write` that stopped inside its frame is behind. -/
def orderly (codec : Prims) (s : Outgoing) : Action → Bool
  | .call _ pk => (Wire.payload codec pk).length < 2 ^ 32
  | .step _ (.sent n) => n = 0 ∨ ∀ w ∈ s.writes, w.torn 4 = false
  | _ => true

theorem sane_initial : Sane codec initial where
  locked := locked_initial
  fits := by
    rintro pk ⟨g, called⟩
    cases called
  packets := nofun
  tidy := List.Pairwise.nil

theorem Sane.call (sane : Sane codec s) (fresh : s.calls g = none)
    (fits : (Wire.payload codec pk).length < 2 ^ 32) : Sane codec (s.goto g pk .locking) := by
  have kept : ∀ pk', s.Called pk' → (s.goto g pk .locking).Called pk' := by
    rintro pk' ⟨g', called⟩
    have other : g' ≠ g := by
      rintro rfl
      rw [fresh] at called
      cases called
    exact ⟨g', (congrArg _ (Function.update_of_ne other ..)).trans called⟩
  constructor
  · exact sane.locked.call
  · rintro pk' ⟨g', called⟩
    obtain ⟨call, found, rfl⟩ := Option.map_eq_some_iff.mp called
    rcases calls_goto found with ⟨-, rfl⟩ | ⟨-, before⟩
    · exact fits
    · exact sane.fits call.pk ⟨g', by rw [before]; rfl⟩
  · intro w member
    obtain ⟨pk', called, packet⟩ := sane.packets w member
    exact ⟨pk', kept pk' called, packet⟩
  · exact sane.tidy

theorem Sane.step (sane : Sane codec s) {state : WriteState}
    (found : s.calls g = some ⟨pk, state⟩) (meets : orderly codec s (.step g input) = true)
    (taken : s.step codec g pk input state = some s') : Sane codec s' := by
  have called : ∀ pk', s'.Called pk' ↔ s.Called pk' := fun pk' =>
    exists_congr fun g' => by rw [step_calls found taken g']
  refine ⟨sane.locked.step found taken, ?_, ?_, ?_⟩
  · exact fun pk' new => sane.fits pk' ((called pk').mp new)
  · simp only [called]
    rcases step_sends taken with same | ⟨rfl, began⟩ | ⟨n, w, rfl, before, after⟩
    · rw [same]
      exact sane.packets
    · intro v member
      rw [began, List.mem_append, List.mem_singleton] at member
      rcases member with old | rfl
      · exact sane.packets v old
      · exact ⟨pk, ⟨g, by rw [found]; rfl⟩, sane.locked.content g _ found⟩
    · intro v member
      rw [after, List.mem_append, List.mem_singleton] at member
      have earlier := sane.packets
      rw [before] at earlier
      rcases member with old | rfl
      · exact earlier v (List.mem_append_left _ old)
      · exact earlier w (List.mem_append_right _ (List.mem_singleton_self w))
  · rcases step_sends taken with same | ⟨rfl, began⟩ | ⟨n, w, rfl, before, after⟩
    · rw [same]
      exact sane.tidy
    · rw [began, List.pairwise_append]
      refine ⟨sane.tidy, List.pairwise_singleton _ _, fun v _ w member _ => ?_⟩
      rw [List.mem_singleton.mp member]
    · have tidy := sane.tidy
      rw [before, List.pairwise_append] at tidy
      obtain ⟨earlier, -, last⟩ := tidy
      rw [after, List.pairwise_append]
      refine ⟨earlier, List.pairwise_singleton _ _, fun v old u member torn => ?_⟩
      rw [List.mem_singleton.mp member]
      -- bytes go out only if no earlier frame was cut off
      have nothing : w.sent = 0 := last v old w (List.mem_singleton_self w) torn
      have allowed : n = 0 ∨ ∀ w ∈ s.writes, w.torn 4 = false := of_decide_eq_true meets
      rcases allowed with none | whole
      · show w.sent + n = 0
        omega
      · rw [whole v old] at torn
        cases torn

theorem Sane.next (sane : Sane codec s) {a : Action} (meets : orderly codec s a = true)
    (taken : s.next codec a = some s') : Sane codec s' := by
  cases a with
  | call g pk =>
      simp only [Outgoing.next] at taken
      split at taken <;> cases taken
      exact sane.call ‹_› (of_decide_eq_true meets)
  | step g input =>
      simp only [Outgoing.next] at taken
      split at taken
      · cases taken
      · exact sane.step ‹_› meets taken

/-- **The peer parses what was sent.**  In every run in which no bytes are sent after a
`Write` that stopped inside its frame, the frames the peer parses from the bytes it has
received are frames passed to `conn.Write`, each at most once and in that order. -/
theorem peer_parses_sends (codec : Prims) {s : Outgoing}
    (reached : (machine codec).Reach (fun s a => orderly codec s a = true) s) :
    ((parse 4 s.received).map Wire.frame).Sublist s.passed := by
  have sane : Sane codec s := reached.invariant sane_initial
    fun _ _ _ _ sane meets taken => sane.next meets taken
  have small : ∀ w ∈ s.sends, w.payload.length < 256 ^ 4 := by
    intro w member
    obtain ⟨pk, called, packet⟩ := sane.packets w member
    rw [packet]
    exact sane.fits pk called
  rw [received, parse_attempts (by decide) s.sends small sane.tidy, passed, List.map_map]
  exact List.filter_sublist.map _

/-- `WritePacket` of an `AuthResponse`, of which `conn.Write` sends `n` bytes and then
returns with `last`. -/
def answer (g n : Nat) (last : Input) : List Action :=
  .call g ⟨.authResponse, ⟨0, 0⟩⟩ :: List.replicate 5 (.step g .go) ++
    [.step g (.sent n), .step g last, .step g .go, .step g .go]

/-- A whole frame, then one that is cut off after five bytes. -/
theorem peer_parses_sends_cutOff :
    ∃ s, (machine Wire.plain).Reach (fun s a => orderly Wire.plain s a = true) s ∧
      ((parse 4 s.received).map Wire.frame).Sublist s.passed ∧
      s.received.length = 16 ∧ (parse 4 s.received).length = 1 := by
  have reached : (machine Wire.plain).Reach (fun s a => orderly Wire.plain s a = true) _ :=
    Machine.exec_reach (answer 0 11 .go ++ answer 1 5 .failed) rfl
  exact ⟨_, reached, peer_parses_sends _ reached, rfl, rfl⟩

/-- The frame after one that is cut off: the peer parses two frames nobody sent. -/
theorem frame_after_timeout :
    ∃ s, (machine Wire.plain).Reachable s ∧
      parse 4 s.received = [[1, 7, 0, 0, 0, 1, 0], []] ∧
      s.passed = List.replicate 2 (Wire.frame [1, 0, 0, 0, 0, 0, 0]) ∧
      ¬ ((parse 4 s.received).map Wire.frame).Sublist s.passed := by
  have reached : (machine Wire.plain).Reachable _ :=
    Machine.exec_reach (answer 0 5 .failed ++ answer 1 11 .go) rfl
  exact ⟨_, reached, rfl, rfl, by decide⟩

end Outgoing

end Portal.Socket
