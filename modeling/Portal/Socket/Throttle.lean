/-
# Socket.Throttle — failed authentication attempts per host

`authThrottle` counts the failures of a host within a window and blocks the host once
they reach the limit.  Times are nanoseconds since Go's zero time, which is the
`blockedUntil` of a host that was never blocked.

A host becomes blocked by a `RecordFailure` of its own and by nothing else: time and
`cleanup` only lift a block (`blocked_of_later`, `blocked_of_cleanup`), and the failures
of other hosts do not touch it (`blocked_recordFailure_of_ne`).

Nor does `cleanup` lift a block before its time (`Armed.cleanup`).  A failure of the host
itself does: once the counting window is over, `RecordFailure` puts a new record in the
place of the old one, and the new one is not blocked.  `block_lasts` says that this is the
only way a block ends early.

What `cleanup` deletes would have been replaced by the next failure of its host and blocks
nobody, so no answer of `Blocked` depends on it (`cleanup_unnoticed`).
-/
import Mathlib.Logic.Function.Basic
import Portal.Theory.Eviction

namespace Portal.Socket

open Portal.Theory.Eviction

set_option autoImplicit false

/-- Nanoseconds since the zero time. -/
abbrev Time := Nat

def authFailureWindow : Nat := 60 * 1000000000

def authFailureLimit : Nat := 5

def authBlockDuration : Nat := 5 * 60 * 1000000000

/-- `ipAuthState`. -/
structure IPAuthState where
  failures : Nat
  windowStart : Time
  blockedUntil : Time
  deriving DecidableEq, Repr

/-- `authThrottle.state`, by host. -/
abbrev AuthThrottle := String → Option IPAuthState

namespace AuthThrottle

def new : AuthThrottle := fun _ => none

/-- `authThrottle.Blocked` at time `now`. -/
def blocked (t : AuthThrottle) (host : String) (now : Time) : Bool :=
  match t host with
  | none => false
  | some s => now < s.blockedUntil

/-- The entry a failure is counted in: a new one if the window is over. -/
def counted (t : AuthThrottle) (host : String) (now : Time) : IPAuthState :=
  match t host with
  | none => ⟨0, now, 0⟩
  | some s => if now - s.windowStart > authFailureWindow then ⟨0, now, 0⟩ else s

/-- `authThrottle.RecordFailure`, with the time it has read. -/
def recordFailure (t : AuthThrottle) (host : String) (now : Time) : AuthThrottle :=
  let s := t.counted host now
  let s := { s with failures := s.failures + 1 }
  Function.update t host
    (some (if s.failures ≥ authFailureLimit then { s with blockedUntil := now + authBlockDuration }
      else s))

/-- `authThrottle.cleanup`, with the time it has read. -/
def cleanup (t : AuthThrottle) (now : Time) : AuthThrottle := fun host =>
  match t host with
  | none => none
  | some s =>
      if s.blockedUntil < now ∧ now - s.windowStart > authFailureWindow then none else some s

variable {t : AuthThrottle} {host other : String} {now later : Time}

theorem blocked_iff : t.blocked host now = true ↔ ∃ s, t host = some s ∧ now < s.blockedUntil := by
  unfold AuthThrottle.blocked
  cases t host with
  | none => simp
  | some s => simp

theorem blocked_of_later (le : now ≤ later) (blocked : t.blocked host later = true) :
    t.blocked host now = true := by
  obtain ⟨s, entry, before⟩ := blocked_iff.mp blocked
  exact blocked_iff.mpr ⟨s, entry, Nat.lt_of_le_of_lt le before⟩

/-- Every block comes to an end. -/
theorem exists_unblocked (t : AuthThrottle) (host : String) (now : Time) :
    ∃ duration, t.blocked host (now + duration) = false := by
  unfold AuthThrottle.blocked
  cases t host with
  | none => exact ⟨0, rfl⟩
  | some s =>
      refine ⟨s.blockedUntil, decide_eq_false ?_⟩
      exact Nat.not_lt.mpr (Nat.le_add_left _ _)

/-- A cleanup leaves an entry as it is, or deletes it. -/
theorem cleanup_some {s : IPAuthState} (kept : t.cleanup now host = some s) : t host = some s := by
  unfold AuthThrottle.cleanup at kept
  split at kept
  · cases kept
  · split at kept
    · cases kept
    · rename_i entry _
      exact entry.trans kept

theorem blocked_of_cleanup (blocked : (t.cleanup later).blocked host now = true) :
    t.blocked host now = true := by
  obtain ⟨s, kept, before⟩ := blocked_iff.mp blocked
  exact blocked_iff.mpr ⟨s, cleanup_some kept, before⟩

theorem blocked_recordFailure_of_ne (apart : other ≠ host) :
    (t.recordFailure host later).blocked other now = t.blocked other now := by
  simp only [AuthThrottle.blocked, AuthThrottle.recordFailure, Function.update_of_ne apart]

/-! ## How long a block lasts -/

/-- The calls that change the throttle. -/
inductive Op where
  | recordFailure (host : String)
  | cleanup
  deriving DecidableEq, Repr

/-- A call, with the time it has read. -/
structure Call where
  op : Op
  time : Time
  deriving DecidableEq, Repr

def step (t : AuthThrottle) (c : Call) : AuthThrottle :=
  match c.op with
  | .recordFailure host => t.recordFailure host c.time
  | .cleanup => t.cleanup c.time

/-- The throttle after a sequence of calls. -/
def run (t : AuthThrottle) (calls : List Call) : AuthThrottle := calls.foldl step t

/-- The host has failed often enough to be blocked until `until_`, in the window that
began at `start`. -/
def Armed (t : AuthThrottle) (host : String) (start until_ : Time) : Prop :=
  ∃ s, t host = some s ∧ s.windowStart = start ∧ authFailureLimit ≤ s.failures ∧
    until_ ≤ s.blockedUntil

theorem Armed.blocked {start until_ : Time} (armed : Armed t host start until_)
    (before : now < until_) : t.blocked host now = true := by
  obtain ⟨s, entry, -, -, after⟩ := armed
  exact blocked_iff.mpr ⟨s, entry, Nat.lt_of_lt_of_le before after⟩

/-- A failure that reaches the limit arms the block of its host. -/
theorem armed_recordFailure (limit : authFailureLimit ≤ (t.counted host now).failures + 1) :
    Armed (t.recordFailure host now) host (t.counted host now).windowStart
      (now + authBlockDuration) := by
  refine ⟨_, Function.update_self .., ?_, ?_, ?_⟩ <;> simp only [ge_iff_le, limit, if_true]
  exact Nat.le_refl _

/-- A cleanup before the end of the block does not see an expired record. -/
theorem Armed.cleanup {start until_ : Time} (armed : Armed t host start until_)
    (early : now < until_) : Armed (t.cleanup now) host start until_ := by
  obtain ⟨s, entry, window, limit, after⟩ := armed
  refine ⟨s, ?_, window, limit, after⟩
  simp only [AuthThrottle.cleanup, entry]
  refine if_neg ?_
  rintro ⟨expired, -⟩
  exact absurd after (Nat.not_le.mpr (Nat.lt_trans expired early))

/-- A failure within the counting window moves the end of the block, if at all, away. -/
theorem Armed.recordFailure {start until_ : Time} (armed : Armed t host start until_)
    (inside : now - start ≤ authFailureWindow) (later : until_ ≤ now + authBlockDuration) :
    Armed (t.recordFailure host now) host start until_ := by
  obtain ⟨s, entry, rfl, limit, after⟩ := armed
  have counted : t.counted host now = s := by
    simp only [AuthThrottle.counted, entry]
    exact if_neg (Nat.not_lt.mpr inside)
  have reached : authFailureLimit ≤ (t.counted host now).failures + 1 := by
    rw [counted]
    exact Nat.le_succ_of_le limit
  obtain ⟨s', entry', window', limit', after'⟩ := armed_recordFailure reached
  exact ⟨s', entry', by rw [window', counted], limit', Nat.le_trans later after'⟩

/-- The failures of other hosts leave the record alone. -/
theorem Armed.recordFailure_of_ne {start until_ : Time} (armed : Armed t host start until_)
    (apart : host ≠ other) : Armed (t.recordFailure other now) host start until_ := by
  obtain ⟨s, entry, armed⟩ := armed
  exact ⟨s, (Function.update_of_ne apart ..).trans entry, armed⟩

/-- The first failure after the counting window starts a record that is not blocked. -/
theorem not_blocked_recordFailure {start until_ : Time} (armed : Armed t host start until_)
    (past : authFailureWindow < now - start) :
    (t.recordFailure host now).blocked host now = false := by
  obtain ⟨s, entry, rfl, -, -⟩ := armed
  have restarted : t.counted host now = ⟨0, now, 0⟩ := by
    simp only [AuthThrottle.counted, entry]
    exact if_pos past
  have below : ¬ authFailureLimit ≤ 0 + 1 := by decide
  simp [AuthThrottle.blocked, AuthThrottle.recordFailure, restarted, below]

/-- Whoever asks between `since` and `until_`, between any two of the calls, finds the
host blocked. -/
def StaysBlocked (t : AuthThrottle) (host : String) (since until_ : Time) (calls : List Call) :
    Prop :=
  ∀ before after now, calls = before ++ after → since ≤ now → (∀ c ∈ before, c.time ≤ now) →
    (∀ c ∈ after, now ≤ c.time) → now < until_ → (t.run before).blocked host now = true

theorem staysBlocked_of_le {since until_ : Time} {calls : List Call}
    (blocked : ∀ now, now < until_ → t.blocked host now = true)
    (late : ∀ c ∈ calls, until_ ≤ c.time) : StaysBlocked t host since until_ calls := by
  intro before after now split _ made _ early
  cases before with
  | nil => exact blocked now early
  | cons c before =>
      have past : until_ ≤ c.time := late c (by rw [split]; exact List.mem_cons_self)
      have due : c.time ≤ now := made c List.mem_cons_self
      exact absurd early (Nat.not_lt.mpr (Nat.le_trans past due))

theorem staysBlocked_cons {since until_ : Time} {c : Call} {calls : List Call}
    (blocked : ∀ now, now < until_ → t.blocked host now = true) (le : since ≤ c.time) :
    StaysBlocked t host since until_ (c :: calls) ↔
      StaysBlocked (t.step c) host c.time until_ calls := by
  constructor
  · intro stays before after now split from_ made open_ early
    refine stays (c :: before) after now (by rw [split]; rfl) (Nat.le_trans le from_) ?_ open_ early
    rintro c' (_ | ⟨_, in_⟩)
    · exact from_
    · exact made c' in_
  · intro stays before after now split from_ made open_ early
    cases before with
    | nil => exact blocked now early
    | cons c' before =>
        obtain ⟨rfl, rest⟩ := List.cons.inj split
        exact stays before after now rest (made c List.mem_cons_self)
          (fun c' in_ => made c' (List.mem_cons_of_mem c in_)) open_ early

/-- No failure of the host comes before `until_` and after the counting window that
began at `start`. -/
def Unbroken (host : String) (start until_ : Time) (calls : List Call) : Prop :=
  ∀ c ∈ calls, c.op = .recordFailure host → c.time < until_ → c.time - start ≤ authFailureWindow

theorem unbroken_cons {start until_ : Time} {c : Call} {calls : List Call}
    (harmless : c.op = .recordFailure host → c.time < until_ →
      c.time - start ≤ authFailureWindow) :
    Unbroken host start until_ (c :: calls) ↔ Unbroken host start until_ calls := by
  simp only [Unbroken, List.forall_mem_cons]
  exact and_iff_right harmless

/-- **The run.**  By induction on the calls: while none of them breaks the window, the
host stays armed; the first that does leaves it unblocked. -/
theorem Armed.staysBlocked_iff {start until_ since : Time} {calls : List Call}
    (armed : Armed t host start until_) (reach : until_ ≤ since + authBlockDuration)
    (ordered : (since :: calls.map Call.time).Pairwise (· ≤ ·)) :
    StaysBlocked t host since until_ calls ↔ Unbroken host start until_ calls := by
  induction calls generalizing t since with
  | nil =>
      have none_ : Unbroken host start until_ [] := fun _ in_ => by cases in_
      exact iff_of_true (staysBlocked_of_le (fun _ => armed.blocked) (fun _ in_ => by cases in_)) none_
  | cons c calls ih =>
      obtain ⟨after, ordered⟩ := List.pairwise_cons.mp ordered
      have le : since ≤ c.time := after _ List.mem_cons_self
      have later : ∀ c' ∈ calls, c.time ≤ c'.time := fun c' in_ =>
        (List.pairwise_cons.mp ordered).1 _ (List.mem_map_of_mem in_)
      have reach' : until_ ≤ c.time + authBlockDuration :=
        Nat.le_trans reach (Nat.add_le_add_right le _)
      by_cases early : c.time < until_
      · rw [staysBlocked_cons (fun _ => armed.blocked) le]
        cases op : c.op with
        | cleanup =>
            rw [unbroken_cons (fun failure => by rw [op] at failure; cases failure)]
            refine ih ?_ reach' ordered
            simpa only [step, op] using armed.cleanup early
        | recordFailure other =>
            by_cases own : host = other
            · subst own
              by_cases inside : c.time - start ≤ authFailureWindow
              · rw [unbroken_cons (fun _ _ => inside)]
                refine ih ?_ reach' ordered
                simpa only [step, op] using armed.recordFailure inside reach'
              · have unblocked := not_blocked_recordFailure armed (Nat.lt_of_not_le inside)
                refine iff_of_false ?_ ?_
                · intro stays
                  have still := stays [] calls c.time rfl (Nat.le_refl _) (fun _ in_ => by cases in_)
                    later early
                  simp only [run, List.foldl_nil, step, op, unblocked] at still
                  cases still
                · exact fun unbroken => inside (unbroken c List.mem_cons_self op early)
            · rw [unbroken_cons (fun failure => by
                rw [op] at failure
                cases failure
                exact absurd rfl own)]
              refine ih ?_ reach' ordered
              simpa only [step, op] using armed.recordFailure_of_ne own
      · have late : ∀ c' ∈ c :: calls, until_ ≤ c'.time := by
          rintro c' (_ | ⟨_, in_⟩)
          · exact Nat.le_of_not_lt early
          · exact Nat.le_trans (Nat.le_of_not_lt early) (later c' in_)
        refine iff_of_true (staysBlocked_of_le (fun _ => armed.blocked) late) ?_
        exact fun c' in_ _ early => absurd early (Nat.not_lt.mpr (late c' in_))

/-- **How long a block lasts.**  A failure at time `now` that reaches the limit blocks
its host until `now + authBlockDuration`, whatever is called meanwhile, exactly if no
further failure of the host comes within that time and more than `authFailureWindow`
after the start of the counting window. -/
theorem block_lasts (t : AuthThrottle) (host : String) (now : Time) (calls : List Call)
    (limit : authFailureLimit ≤ (t.counted host now).failures + 1)
    (ordered : (now :: calls.map Call.time).Pairwise (· ≤ ·)) :
    StaysBlocked (t.recordFailure host now) host now (now + authBlockDuration) calls ↔
      Unbroken host (t.counted host now).windowStart (now + authBlockDuration) calls :=
  (armed_recordFailure limit).staysBlocked_iff (Nat.le_refl _) ordered

/-- Four failures of one host, the last of them at `now`. -/
def fourFailures (host : String) (now : Time) : AuthThrottle :=
  new.run (List.replicate 4 ⟨.recordFailure host, now⟩)

/-- The block outlives another failure within the minute, one of another host, and two
cleanups. -/
theorem block_lasts_cleanup :
    let second := 1000000000
    StaysBlocked ((fourFailures "10.0.0.7" second).recordFailure "10.0.0.7" (2 * second)) "10.0.0.7"
      (2 * second) (2 * second + authBlockDuration)
      [⟨.recordFailure "10.0.0.7", 50 * second⟩, ⟨.cleanup, 60 * second⟩,
        ⟨.recordFailure "10.0.0.8", 90 * second⟩, ⟨.cleanup, 120 * second⟩] := by
  intro second
  refine (block_lasts _ _ _ _ (by decide) (by decide)).mpr ?_
  unfold Unbroken
  decide

/-- A sixth failure a minute after the first lifts the block almost five minutes early: its
connection was accepted before the block and had ten seconds to authenticate. -/
theorem sixth_failure_unblocks :
    let second := 1000000000
    let t := (fourFailures "10.0.0.7" second).recordFailure "10.0.0.7" (60 * second)
    t "10.0.0.7" = some ⟨5, second, 60 * second + authBlockDuration⟩ ∧
      t.blocked "10.0.0.7" (62 * second) = true ∧
      (t.run [⟨.recordFailure "10.0.0.7", 62 * second⟩]).blocked "10.0.0.7" (62 * second) = false := by
  decide

/-! ## Cleanups are not noticed -/

/-- What a client's address is used for. -/
inductive Use where
  | recordFailure
  | blocked
  deriving DecidableEq, Repr

/-- A call of the throttle, `Blocked` among them. -/
inductive Request where
  | on (host : String) (use : Use)
  | cleanup
  deriving DecidableEq, Repr

/-- What `Blocked` answers to whom in a sequence of calls, each with the time it reads. -/
def answers (t : AuthThrottle) : List (Time × Request) → List (String × Bool)
  | [] => []
  | (now, .on host .recordFailure) :: rest => (t.recordFailure host now).answers rest
  | (now, .on host .blocked) :: rest => (host, t.blocked host now) :: t.answers rest
  | (now, .cleanup) :: rest => (t.cleanup now).answers rest

/-- The calls that are about a host; no cleanup is. -/
def about (host : String) (requests : List (Time × Request)) : List (Time × Request) :=
  requests.filter fun
    | (_, .on other _) => other = host
    | (_, .cleanup) => false

/-- `RecordFailure` looks at the entry of its host and at no other. -/
theorem recordFailure_eq (t : AuthThrottle) (host : String) (now : Time) :
    t.recordFailure host now =
      Function.update t host (recordFailure (fun _ => t host) host now host) := by
  unfold AuthThrottle.recordFailure counted
  rw [Function.update_self]

/-- The part of the throttle that one host sees.  The records that `cleanup` deletes are the
stale ones. -/
def cell (host : String) : Cell Time Use Bool IPAuthState where
  step := fun entry now use =>
    match use with
    | .recordFailure => (recordFailure (fun _ => entry) host now host, [])
    | .blocked => (entry, [blocked (fun _ => entry) host now])
  stale := fun s now => s.blockedUntil < now ∧ now - s.windowStart > authFailureWindow
  lasting := by
    rintro s now later ⟨unblocked, over_⟩ le
    exact ⟨Nat.lt_of_lt_of_le unblocked le, Nat.lt_of_lt_of_le over_ (Nat.sub_le_sub_right le _)⟩
  silent := by
    rintro s now use ⟨unblocked, -⟩
    cases use with
    | recordFailure => rfl
    | blocked => simp [AuthThrottle.blocked, Nat.le_of_lt unblocked]
  leaves := by
    rintro s now use ⟨-, over_⟩
    cases use with
    | recordFailure =>
        left
        have restarted : counted (fun _ => some s) host now = counted (fun _ => none) host now :=
          if_pos over_
        simp only [AuthThrottle.recordFailure, Function.update_self, restarted]
    | blocked => exact .inr ⟨rfl, rfl⟩

/-- A call as an event at its host's record. -/
def event : Time × Request → Event String Time Use
  | (now, .on host use) => ⟨now, some (host, use)⟩
  | (now, .cleanup) => ⟨now, none⟩

theorem drops_refl (t : AuthThrottle) (now : Time) : Drops cell now t t :=
  fun _ => .inl rfl

theorem drops_cleanup (t : AuthThrottle) (now : Time) : Drops cell now t (t.cleanup now) := by
  intro host
  unfold AuthThrottle.cleanup
  cases entry : t host with
  | none => exact .inl rfl
  | some s =>
      by_cases stale : s.blockedUntil < now ∧ now - s.windowStart > authFailureWindow
      · right
        refine ⟨if_pos stale, ?_⟩
        rintro _ ⟨⟩
        exact stale
      · exact .inl (if_neg stale)

/-- The answers are those of a run in which `cleanup` drops stale records. -/
theorem run_answers (t : AuthThrottle) (requests : List (Time × Request)) :
    Run cell t (requests.map event) (t.answers requests) := by
  induction requests generalizing t with
  | nil => exact .nil t
  | cons r rest ih =>
      obtain ⟨now, request⟩ := r
      match request with
      | .on host .recordFailure =>
          refine .call (drops_refl t now) ?_
          rw [show ((cell host).step (t host) now .recordFailure).1 =
            recordFailure (fun _ => t host) host now host from rfl, ← recordFailure_eq]
          exact ih (t.recordFailure host now)
      | .on host .blocked =>
          refine .call (drops_refl t now) ?_
          rw [show ((cell host).step (t host) now .blocked).1 = t host from rfl,
            Function.update_eq_self]
          exact ih t
      | .cleanup => exact .drop (drops_cleanup t now) (ih (t.cleanup now))

theorem ordered_events {requests : List (Time × Request)}
    (ordered : requests.Pairwise fun r later => r.1 ≤ later.1) :
    (requests.map event).Pairwise fun e later => e.time ≤ later.time := by
  have time : ∀ r, (event r).time = r.1 := by
    rintro ⟨now, request⟩
    cases request <;> rfl
  rw [List.pairwise_map]
  simpa only [time] using ordered

theorem own_about (host : String) (requests : List (Time × Request)) :
    own host ((about host requests).map event) = own host (requests.map event) := by
  induction requests with
  | nil => rfl
  | cons r rest ih =>
      obtain ⟨now, request⟩ := r
      cases request with
      | on other use =>
          by_cases same : other = host
          · rw [about, List.filter_cons_of_pos (by simpa using same), List.map_cons, List.map_cons,
              event, same, own_cons_self, own_cons_self]
            exact congrArg (_ :: ·) ih
          · rw [about, List.filter_cons_of_neg (by simpa using same), List.map_cons, event,
              own_cons_other same]
            exact ih
      | cleanup =>
          rw [about, List.filter_cons_of_neg (by simp), List.map_cons, event, own_cons_none]
          exact ih

/-- **Cleanups are not noticed.**  For every throttle and every sequence of calls about any
hosts whose times do not decrease: the answers of `Blocked` for a host are those of a
throttle with the calls about that host only and without cleanups. -/
theorem cleanup_unnoticed (t : AuthThrottle) (host : String) (requests : List (Time × Request))
    (ordered : requests.Pairwise fun r later => r.1 ≤ later.1) :
    answersOf host (t.answers requests) = answersOf host (t.answers (about host requests)) := by
  refine (run_answers t requests).answersOf_eq (run_answers t (about host requests)) ?_ ?_ ?_
  · exact ordered_events ordered
  · exact ordered_events (ordered.filter _)
  · exact (own_about host requests).symm

/-- Five failures, and a cleanup during the block and one after it. -/
theorem cleanup_unnoticed_block :
    let second := 1000000000
    let failures : List (Time × Request) :=
      (List.range 5).map fun n => ((n + 1) * second, .on "10.0.0.7" .recordFailure)
    let requests : List (Time × Request) := failures ++
      [(6 * second, .on "10.0.0.8" .recordFailure), (100 * second, .cleanup),
        (100 * second, .on "10.0.0.7" .blocked), (306 * second, .cleanup),
        (306 * second, .on "10.0.0.7" .blocked), (306 * second, .on "10.0.0.8" .blocked)]
    new.answers requests = [("10.0.0.7", true), ("10.0.0.7", false), ("10.0.0.8", false)] ∧
      answersOf "10.0.0.7" (new.answers requests) =
        answersOf "10.0.0.7" (new.answers (about "10.0.0.7" requests)) :=
  ⟨by decide, cleanup_unnoticed _ _ _ (by decide)⟩

end AuthThrottle

end Portal.Socket
