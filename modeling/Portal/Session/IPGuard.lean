/-
# Session.IPGuard — how often one host may connect

`SimpleIPGuard.Allow` refuses banned hosts and counts the attempts of every other host
in a window that its first attempt opens.  The first attempt after the window is over
opens the next one with a count of one, wherever in the old window the earlier attempts
were.  A sweep, once per window, deletes the windows that are over.

* one call refuses, opens a window or counts in the open one (`allow_admits`);
* a host that never opens a window within the length of a window after an earlier attempt
  stays below the limit in every interval of that length (`sliding_limit`).  So does every
  host if the limit is one;
* the limit is otherwise one per counting window, not per sliding window
  (`boundary_burst`).

Times are nanoseconds since Go's zero time, which is the `lastSweep` of a new guard.
-/
import Mathlib
import Portal.Theory.Eviction
import Portal.Theory.Transition

namespace Portal

open Portal.Theory.Eviction Portal.Theory.Transition

set_option autoImplicit false

/-- What `Allow` calls of other packages. -/
structure GuardLibrary where
  /-- `net.SplitHostPort`: the host; `none` is an error -/
  splitHostPort : String → Option String
  /-- `text.Colourf` -/
  colourf : String → String

/-- A `nethernet.Addr`: the addresses of its candidates, and its string form. -/
structure NetherNetAddr where
  selectedCandidate : Option String
  candidates : List String
  string : String

/-- A `net.Addr`; of all but a `*nethernet.Addr` only the string form matters. -/
inductive PlayerAddr where
  | netherNet (addr : NetherNetAddr)
  | other (string : String)

/-- `netherNetHostOf`. -/
def netherNetHostOf (addr : NetherNetAddr) : String :=
  match addr.selectedCandidate with
  | some candidate => candidate
  | none =>
      match addr.candidates with
      | candidate :: _ => candidate
      | [] => addr.string

/-- `ipHostOf`. -/
def ipHostOf (lib : GuardLibrary) : PlayerAddr → String
  | .netherNet addr => netherNetHostOf addr
  | .other string => (lib.splitHostPort string).getD string

/-- `ipWindow`. -/
structure IPWindow where
  count : Nat
  windowStart : Nat
  deriving DecidableEq

/-- The fields of `SimpleIPGuard` that never change. -/
structure SimpleIPGuard where
  banned : List String
  rateLimitEnabled : Bool
  window : Int
  limit : Int

/-- The fields behind its mutex. -/
structure IPHits where
  hits : String → Option IPWindow
  lastSweep : Nat

/-- `now.Sub(earlier)`: the nearest `time.Duration` to the difference. -/
def elapsed (now earlier : Nat) : Int :=
  max (-(2 ^ 63 : Nat)) (min ((now : Int) - earlier) (2 ^ 63 - 1 : Nat))

/-- `NewSimpleIPGuard`: the maps it makes. -/
def IPHits.new : IPHits where
  hits := fun _ => none
  lastSweep := 0

namespace SimpleIPGuard

variable (g : SimpleIPGuard)

/-- The window is over. -/
def Expired (w : IPWindow) (now : Nat) : Prop := elapsed now w.windowStart > g.window

instance (w : IPWindow) (now : Nat) : Decidable (g.Expired w now) :=
  inferInstanceAs (Decidable (_ > _))

/-- The eviction of expired windows. -/
def sweep (st : IPHits) (now : Nat) : IPHits :=
  if elapsed now st.lastSweep > g.window then
    { hits := fun host => (st.hits host).filter fun hw => ¬ g.Expired hw now, lastSweep := now }
  else st

/-- The window in which the attempt counts, with the attempt. -/
def count (st : IPHits) (host : String) (now : Nat) : IPWindow :=
  let w : IPWindow :=
    match st.hits host with
    | none => ⟨0, now⟩
    | some w => if g.Expired w now then ⟨0, now⟩ else w
  { w with count := w.count + 1 }

/-- `SimpleIPGuard.Allow`, with the time it has read. -/
def allow (lib : GuardLibrary) (st : IPHits) (addr : PlayerAddr) (now : Nat) :
    IPHits × Bool × String :=
  let host := ipHostOf lib addr
  if host ∈ g.banned then (st, false, lib.colourf "<red>You are banned from this server</red>")
  else if !g.rateLimitEnabled then (st, true, "")
  else
    let st := g.sweep st now
    let w := g.count st host now
    let st := { st with hits := Function.update st.hits host (some w) }
    if (w.count : Int) > g.limit then
      (st, false,
        lib.colourf "<red>You are connecting too frequently, please wait a moment</red>")
    else (st, true, "")

/-! ## What one call does -/

/-- The host has no window, or it is over. -/
def Opens (st : IPHits) (host : String) (now : Nat) : Prop :=
  ∀ w, st.hits host = some w → g.Expired w now

/-- The windows of the others: untouched, or evicted. -/
def Swept (st st' : IPHits) (host : String) (now : Nat) : Prop :=
  ∀ other, other ≠ host → st'.hits other = st.hits other ∨
    (st'.hits other = none ∧ ∀ w, st.hits other = some w → g.Expired w now)

/-- What a call of a host does to the state, and whether it is allowed. -/
inductive Admits (st : IPHits) (host : String) (now : Nat) : IPHits → Bool → Prop where
  | banned : Admits st host now st false
  | opens {st' : IPHits} (free : host ∉ g.banned) (opens : g.Opens st host now)
      (stored : st'.hits host = some ⟨1, now⟩) (swept : g.Swept st st' host now) :
      Admits st host now st' ((1 : Nat) ≤ g.limit)
  | counts {st' : IPHits} {w : IPWindow} (held : st.hits host = some w)
      (stored : st'.hits host = some ⟨w.count + 1, w.windowStart⟩)
      (swept : g.Swept st st' host now) :
      Admits st host now st' ((w.count + 1 : Nat) ≤ g.limit)

variable {g} {lib : GuardLibrary} {st st' : IPHits} {host : String} {now : Nat} {w : IPWindow}

theorem Expired.lt (length : 0 < g.window) (expired : g.Expired w now) :
    w.windowStart + g.window < now := by
  unfold Expired elapsed at expired
  omega

theorem sweep_hits (g : SimpleIPGuard) (st : IPHits) (now : Nat) (host : String) :
    (g.sweep st now).hits host = st.hits host ∨
      ((g.sweep st now).hits host = none ∧ ∀ w, st.hits host = some w → g.Expired w now) := by
  unfold sweep
  split
  · cases held : st.hits host with
    | none => exact .inl (by simp [held])
    | some w =>
        by_cases expired : g.Expired w now
        · refine .inr ⟨by simp [held, expired], ?_⟩
          rintro _ ⟨⟩
          exact expired
        · exact .inl (by simp [held, expired])
  · exact .inl rfl

/-- The sweep does not matter to the host of the call: an expired window is not used
anyway. -/
theorem count_sweep (g : SimpleIPGuard) (st : IPHits) (host : String) (now : Nat) :
    (g.Opens st host now ∧ g.count (g.sweep st now) host now = ⟨1, now⟩) ∨
      ∃ w, st.hits host = some w ∧ g.count (g.sweep st now) host now = ⟨w.count + 1, w.windowStart⟩ := by
  unfold count
  rcases sweep_hits g st now host with same | ⟨gone, expired⟩
  · rw [same]
    cases held : st.hits host with
    | none =>
        refine .inl ⟨?_, rfl⟩
        intro w found
        rw [held] at found
        cases found
    | some w =>
        by_cases expired : g.Expired w now
        · refine .inl ⟨?_, by simp [expired]⟩
          intro w' found
          rw [held] at found
          obtain rfl := Option.some.inj found
          exact expired
        · exact .inr ⟨w, rfl, by simp [expired]⟩
  · rw [gone]
    exact .inl ⟨expired, rfl⟩

theorem swept_update (g : SimpleIPGuard) (st : IPHits) (host : String) (now : Nat) (w : IPWindow) :
    g.Swept st { g.sweep st now with hits := Function.update (g.sweep st now).hits host (some w) }
      host now := by
  intro other apart
  show Function.update _ _ _ other = _ ∨ Function.update _ _ _ other = _ ∧ _
  rw [Function.update_of_ne apart]
  exact sweep_hits g st now other

/-- **One call**, with rate limiting enabled. -/
theorem allow_admits (enabled : g.rateLimitEnabled = true) (st : IPHits) (addr : PlayerAddr)
    (now : Nat) :
    g.Admits st (ipHostOf lib addr) now (g.allow lib st addr now).1 (g.allow lib st addr now).2.1 := by
  unfold allow
  by_cases banned : ipHostOf lib addr ∈ g.banned
  · simp only [banned, if_true]
    exact .banned
  · simp only [banned, enabled, if_false, Bool.not_true, Bool.false_eq_true]
    have stored : ∀ w, Function.update (g.sweep st now).hits (ipHostOf lib addr) (some w)
        (ipHostOf lib addr) = some w := fun w => Function.update_self ..
    have swept := swept_update g st (ipHostOf lib addr) now
    rcases count_sweep g st (ipHostOf lib addr) now with ⟨opens, counted⟩ | ⟨w, held, counted⟩
    · rw [counted]
      have admits := Admits.opens banned opens (stored ⟨1, now⟩) (swept ⟨1, now⟩)
      split
      · rename_i above
        rwa [decide_eq_false (Int.not_le.mpr above)] at admits
      · rename_i within
        rwa [decide_eq_true (Int.not_lt.mp within)] at admits
    · rw [counted]
      have admits := Admits.counts held (stored _) (swept _)
      split
      · rename_i above
        rwa [decide_eq_false (Int.not_le.mpr above)] at admits
      · rename_i within
        rwa [decide_eq_true (Int.not_lt.mp within)] at admits

/-! ## Runs -/

/-- A call of `Allow`. -/
structure Attempt where
  host : String
  time : Nat
  allowed : Bool

/-- Calls of `Allow` one after the other, each with the address and the time it reads. -/
def calls (g : SimpleIPGuard) (lib : GuardLibrary) : Machine IPHits (PlayerAddr × Nat) where
  start := .new
  next := fun st (addr, now) => some (g.allow lib st addr now).1

/-- The calls beside the list of all attempts so far. -/
def logged (g : SimpleIPGuard) (lib : GuardLibrary) :
    Machine (IPHits × List Attempt) (PlayerAddr × Nat) :=
  (g.calls lib).record fun st (addr, now) =>
    [⟨ipHostOf lib addr, now, (g.allow lib st addr now).2.1⟩]

/-- The attempts of a host that were allowed at `from_` or later. -/
def allowedSince (log : List Attempt) (host : String) (from_ : Nat) : Nat :=
  log.countP fun a => a.host = host ∧ a.allowed = true ∧ from_ ≤ a.time

/-- Those between `from_` and `until_`, both included. -/
def allowedWithin (log : List Attempt) (host : String) (from_ until_ : Nat) : Nat :=
  log.countP fun a => a.host = host ∧ a.allowed = true ∧ from_ ≤ a.time ∧ a.time ≤ until_

/-- Time does not run backwards. -/
def Ordered (p : IPHits × List Attempt) (now : Nat) : Prop := ∀ a ∈ p.2, a.time ≤ now

/-- The limit is one, or the attempt opens no window within the length of a window after
an earlier attempt of its host. -/
def Spaced (g : SimpleIPGuard) (p : IPHits × List Attempt) (host : String) (now : Nat) : Prop :=
  g.limit ≤ 1 ∨ (host ∉ g.banned → g.Opens p.1 host now →
    ∀ a ∈ p.2, a.host = host → a.time + g.window < now)

/-- The condition on a call. -/
def Paced (g : SimpleIPGuard) (lib : GuardLibrary) (p : IPHits × List Attempt)
    (call : PlayerAddr × Nat) : Prop :=
  Ordered p call.2 ∧ Spaced g p (ipHostOf lib call.1) call.2

/-- What holds between two calls.  `counts` is about intervals that reach into the host's
window; `single` is the reason why a limit of one needs no spacing. -/
structure Kept (g : SimpleIPGuard) (p : IPHits × List Attempt) : Prop where
  positive : ∀ host w, p.1.hits host = some w → 1 ≤ w.count
  started : ∀ host w, p.1.hits host = some w → ∃ a ∈ p.2, w.windowStart ≤ a.time
  counts : ∀ host w (from_ : Nat), p.1.hits host = some w → w.windowStart ≤ from_ + g.window →
    allowedSince p.2 host from_ ≤ w.count
  single : g.limit ≤ 1 → ∀ a ∈ p.2, a.allowed = true →
    (∀ w, p.1.hits a.host = some w → a.time ≤ w.windowStart) ∧
      (p.1.hits a.host = none → ∃ b ∈ p.2, a.time + g.window < b.time)
  sliding : ∀ host (from_ until_ : Nat), until_ ≤ from_ + g.window →
    allowedWithin p.2 host from_ until_ ≤ g.limit

theorem kept_new (limit : 1 ≤ g.limit) : Kept g (.new, []) where
  positive := by
    intro host w found
    cases found
  started := by
    intro host w found
    cases found
  counts := by
    intro host w from_ found
    cases found
  single := by
    intro _ a in_
    cases in_
  sliding := by
    intro host from_ until_ _
    show ((0 : Nat) : Int) ≤ g.limit
    omega

variable {log : List Attempt} {other : String} {allowed : Bool} {from_ until_ : Nat}

/-- Attempts of others, refused ones and early ones do not count. -/
theorem allowedSince_append_of_not (a : Attempt)
    (apart : ¬ (a.host = host ∧ a.allowed = true ∧ from_ ≤ a.time)) :
    allowedSince (log ++ [a]) host from_ = allowedSince log host from_ := by
  unfold allowedSince
  rw [List.countP_append, List.countP_cons_of_neg (by simpa using apart), List.countP_nil,
    Nat.add_zero]

theorem allowedSince_append_le (a : Attempt) :
    allowedSince (log ++ [a]) host from_ ≤ allowedSince log host from_ + 1 := by
  unfold allowedSince
  rw [List.countP_append]
  exact Nat.add_le_add_left List.countP_le_length _

theorem allowedWithin_append_of_not (a : Attempt)
    (apart : ¬ (a.host = host ∧ a.allowed = true ∧ from_ ≤ a.time ∧ a.time ≤ until_)) :
    allowedWithin (log ++ [a]) host from_ until_ = allowedWithin log host from_ until_ := by
  unfold allowedWithin
  rw [List.countP_append, List.countP_cons_of_neg (by simpa using apart), List.countP_nil,
    Nat.add_zero]

theorem allowedWithin_le_since : allowedWithin log host from_ until_ ≤ allowedSince log host from_ := by
  apply List.countP_mono_left
  intro a _ counted
  simp only [decide_eq_true_eq] at counted ⊢
  exact ⟨counted.1, counted.2.1, counted.2.2.1⟩

/-- A refused attempt that changes nothing. -/
theorem Kept.refused (kept : Kept g (st, log)) : Kept g (st, log ++ [⟨host, now, false⟩]) where
  positive := kept.positive
  started := by
    intro other w held
    obtain ⟨a, in_, start⟩ := kept.started other w held
    exact ⟨a, List.mem_append_left _ in_, start⟩
  counts := by
    intro other w from_ held reaches
    rw [allowedSince_append_of_not _ (by simp)]
    exact kept.counts other w from_ held reaches
  single := by
    intro one a in_ allowed
    rcases List.mem_append.mp in_ with before | last
    · obtain ⟨held, gone⟩ := kept.single one a before allowed
      refine ⟨held, fun none_ => ?_⟩
      obtain ⟨b, in_b, later⟩ := gone none_
      exact ⟨b, List.mem_append_left _ in_b, later⟩
    · rw [List.mem_singleton.mp last] at allowed
      cases allowed
  sliding := by
    intro other from_ until_ length
    rw [allowedWithin_append_of_not _ (by simp)]
    exact kept.sliding other from_ until_ length

/-- A window of another host is the one it had. -/
theorem Swept.held {w : IPWindow} (swept : g.Swept st st' host now) (apart : other ≠ host)
    (held : st'.hits other = some w) : st.hits other = some w := by
  rcases swept other apart with same | ⟨gone, -⟩
  · rw [← same, held]
  · rw [gone] at held
    cases held

/-- Where an attempt was allowed and the record of its host is gone, it was evicted before, for
a later attempt, or now, for this one. -/
theorem Kept.evicted (length : 0 < g.window) (kept : Kept g (st, log))
    (swept : g.Swept st st' host now) (one : g.limit ≤ 1)
    {a : Attempt} (in_ : a ∈ log) (allowed : a.allowed = true) (apart : a.host ≠ host)
    (none_ : st'.hits a.host = none) :
    (∃ b ∈ log, a.time + g.window < b.time) ∨ a.time + g.window < now := by
  obtain ⟨held, gone⟩ := kept.single one a in_ allowed
  rcases swept a.host apart with same | ⟨-, expired⟩
  · exact .inl (gone (same.symm.trans none_))
  · cases entry : st.hits a.host with
    | none => exact .inl (gone entry)
    | some w =>
        have start := held w entry
        have over_ := (expired w entry).lt length
        right
        omega

/-- An attempt that is counted, in an old window or a new one: everything allowed since is
in that window. -/
theorem Kept.counted {count start : Nat} (length : 0 < g.window) (kept : Kept g (st, log))
    (stored : st'.hits host = some ⟨count, start⟩) (swept : g.Swept st st' host now)
    (since : ∀ from_ : Nat, start ≤ from_ + g.window → allowedSince log host from_ + 1 ≤ count)
    (begun : start ≤ now)
    (latest : g.limit ≤ 1 → (∀ a ∈ log, a.host = host → a.allowed = true → a.time ≤ start) ∧
      (count ≤ g.limit → now ≤ start)) :
    Kept g (st', log ++ [⟨host, now, decide (count ≤ g.limit)⟩]) := by
  have last : (⟨host, now, decide (count ≤ g.limit)⟩ : Attempt) ∈
      log ++ [⟨host, now, decide (count ≤ g.limit)⟩] :=
    List.mem_append_right log (List.mem_singleton_self _)
  constructor
  case positive =>
    intro other w held
    by_cases own : other = host
    · rw [own, stored] at held
      obtain rfl := Option.some.inj held
      exact Nat.le_trans (Nat.le_add_left 1 _) (since start (by omega))
    · exact kept.positive other w (swept.held own held)
  case started =>
    intro other w held
    by_cases own : other = host
    · rw [own, stored] at held
      obtain rfl := Option.some.inj held
      exact ⟨_, last, begun⟩
    · obtain ⟨a, in_, start⟩ := kept.started other w (swept.held own held)
      exact ⟨a, List.mem_append_left _ in_, start⟩
  case counts =>
    intro other w from_ held reaches
    by_cases own : other = host
    · rw [own, stored] at held
      obtain rfl := Option.some.inj held
      rw [own]
      exact Nat.le_trans (allowedSince_append_le _) (since from_ reaches)
    · rw [allowedSince_append_of_not _ fun counted => own counted.1.symm]
      exact kept.counts other w from_ (swept.held own held) reaches
  case single =>
    intro one a in_ allowed
    obtain ⟨earlier, fresh⟩ := latest one
    rcases List.mem_append.mp in_ with before | new
    · by_cases own : a.host = host
      · rw [own, stored]
        refine ⟨?_, fun none_ => by cases none_⟩
        rintro _ ⟨⟩
        exact earlier a before own allowed
      · have held := (kept.single one a before allowed).1
        refine ⟨fun w found => held w (swept.held own found), fun none_ => ?_⟩
        rcases kept.evicted length swept one before allowed own none_ with ⟨b, in_b, later⟩ | later
        · exact ⟨b, List.mem_append_left _ in_b, later⟩
        · exact ⟨_, last, later⟩
    · rw [List.mem_singleton.mp new] at allowed ⊢
      refine ⟨?_, fun none_ => ?_⟩
      · intro w found
        obtain rfl := Option.some.inj (stored.symm.trans found)
        exact fresh (of_decide_eq_true allowed)
      · rw [stored] at none_
        cases none_
  case sliding =>
    intro other from_ until_ reach
    by_cases inside : host = other ∧ decide (count ≤ g.limit) = true ∧ from_ ≤ now ∧ now ≤ until_
    · obtain ⟨rfl, within, -, upper⟩ := inside
      have counted : allowedWithin (log ++ [⟨host, now, decide (count ≤ g.limit)⟩]) host from_ until_
          ≤ count :=
        calc allowedWithin (log ++ [⟨host, now, decide (count ≤ g.limit)⟩]) host from_ until_
            ≤ allowedSince (log ++ [⟨host, now, decide (count ≤ g.limit)⟩]) host from_ :=
              allowedWithin_le_since
          _ ≤ allowedSince log host from_ + 1 := allowedSince_append_le _
          _ ≤ count := since from_ (by omega)
      exact Int.le_trans (Int.ofNat_le.mpr counted) (of_decide_eq_true within)
    · rw [allowedWithin_append_of_not _ inside]
      exact kept.sliding other from_ until_ reach

/-- When a window opens, everything the host was allowed before lies more than a window
back. -/
theorem Kept.gap (length : 0 < g.window) (kept : Kept g (st, log)) (ordered : Ordered (st, log) now)
    (spaced : Spaced g (st, log) host now) (free : host ∉ g.banned) (opens : g.Opens st host now)
    {a : Attempt} (in_ : a ∈ log) (own : a.host = host) (allowed : a.allowed = true) :
    a.time + g.window < now := by
  rcases spaced with one | far
  · obtain ⟨held, gone⟩ := kept.single one a in_ allowed
    rw [own] at held gone
    cases entry : st.hits host with
    | none =>
        obtain ⟨b, in_b, later⟩ := gone entry
        have before := ordered b in_b
        omega
    | some w =>
        have start := held w entry
        have over_ := (opens w entry).lt length
        omega
  · exact far free opens a in_ own

/-- **One call keeps it.** -/
theorem Kept.admits (length : 0 < g.window) (kept : Kept g (st, log)) (ordered : Ordered (st, log) now)
    (spaced : Spaced g (st, log) host now) (admits : g.Admits st host now st' allowed) :
    Kept g (st', log ++ [⟨host, now, allowed⟩]) := by
  cases admits with
  | banned => exact kept.refused
  | opens free opens stored swept =>
      have gap : ∀ a ∈ log, a.host = host → a.allowed = true → a.time + g.window < now :=
        fun a in_ own allowed => kept.gap length ordered spaced free opens in_ own allowed
      refine kept.counted length stored swept ?_ (Nat.le_refl now) fun _ => ⟨?_, fun _ => Nat.le_refl now⟩
      · intro from_ reaches
        have none_ : allowedSince log host from_ = 0 := by
          apply List.countP_eq_zero.mpr
          intro a in_ counted
          obtain ⟨own, allowed, since⟩ := of_decide_eq_true counted
          have before := gap a in_ own allowed
          omega
        exact Nat.le_of_eq (congrArg (· + 1) none_)
      · intro a in_ _ _
        exact ordered a in_
  | @counts _ w held stored swept =>
      obtain ⟨a, in_a, start⟩ := kept.started host w held
      refine kept.counted length stored swept ?_ (Nat.le_trans start (ordered a in_a)) fun one => ⟨?_, ?_⟩
      · intro from_ reaches
        exact Nat.succ_le_succ (kept.counts host w from_ held reaches)
      · rintro b in_b rfl allowed
        exact (kept.single one b in_b allowed).1 w held
      · intro within
        have positive := kept.positive host w held
        omega

/-- **The limit over every sliding window.**  For every limit, window and list of banned
hosts, and for calls of any hosts in any order of time that meet the spacing: no interval
of the window's length has more allowed attempts of a host than the limit. -/
theorem sliding_limit (enabled : g.rateLimitEnabled = true) (limit : 1 ≤ g.limit)
    (length : 0 < g.window) {p : IPHits × List Attempt}
    (reached : (g.logged lib).Reach (Paced g lib) p) (host : String) (from_ until_ : Nat)
    (reach : until_ ≤ from_ + g.window) : allowedWithin p.2 host from_ until_ ≤ g.limit := by
  have kept : Kept g p := by
    refine reached.invariant (kept_new limit) ?_
    rintro ⟨st, log⟩ ⟨st', log'⟩ ⟨addr, now⟩ _ kept ⟨ordered, spaced⟩ taken
    obtain ⟨taken, rfl⟩ := Machine.record_next taken
    obtain rfl := Option.some.inj taken
    exact kept.admits length ordered spaced (allow_admits enabled st addr now)
  exact kept.sliding host from_ until_ reach

/-- Any address is the host itself, and texts keep their tags. -/
def plain : GuardLibrary := ⟨some, id⟩

/-- Two attempts in ten seconds. -/
def two : SimpleIPGuard where
  banned := []
  rateLimitEnabled := true
  window := 10 * 1000000000
  limit := 2

/-- Attempts of one host at these seconds. -/
def knocks (seconds : List Nat) : List (PlayerAddr × Nat) :=
  seconds.map fun second => (.other "10.0.0.7", second * 1000000000)

instance (g : SimpleIPGuard) (st : IPHits) (host : String) (now : Nat) :
    Decidable (g.Opens st host now) :=
  match found : st.hits host with
  | none => .isTrue fun w held => by rw [found] at held; cases held
  | some w =>
      if expired : g.Expired w now then
        .isTrue fun w' held => by rw [found] at held; cases held; exact expired
      else .isFalse fun opens => expired (opens w found)

instance (p : IPHits × List Attempt) (now : Nat) : Decidable (Ordered p now) :=
  inferInstanceAs (Decidable (∀ a ∈ p.2, _))

instance (g : SimpleIPGuard) (p : IPHits × List Attempt) (host : String) (now : Nat) :
    Decidable (Spaced g p host now) :=
  inferInstanceAs (Decidable (_ ∨ (_ → _ → ∀ a ∈ p.2, _)))

instance (g : SimpleIPGuard) (lib : GuardLibrary) (p : IPHits × List Attempt)
    (call : PlayerAddr × Nat) : Decidable (Paced g lib p call) :=
  inferInstanceAs (Decidable (_ ∧ _))

/-- Three attempts, the last refused; after a pause the next window. -/
theorem sliding_limit_pause : ∃ p, (two.logged plain).Reach (Paced two plain) p ∧
    p.2.map Attempt.allowed = [true, true, false, true] ∧
    (allowedWithin p.2 "10.0.0.7" (1009 * 1000000000) (1019 * 1000000000) : Int) ≤ two.limit := by
  have reached : (two.logged plain).Reach (Paced two plain) _ :=
    Machine.exec_reach (knocks [1000, 1009, 1009, 1020]) rfl
  exact ⟨_, reached, by decide,
    sliding_limit rfl (by decide) (by decide) reached _ _ _ (by decide)⟩

/-- **The burst at the boundary.**  The window that the first attempt opens is over at
1011 s, but the second attempt was at 1009 s: three of the four lie within ten seconds,
and all are allowed. -/
theorem boundary_burst : ∃ p,
    (two.logged plain).Reach (fun p call => Ordered p call.2) p ∧
    allowedWithin p.2 "10.0.0.7" (1009 * 1000000000) (1019 * 1000000000) = 3 :=
  ⟨_, Machine.exec_reach (knocks [1000, 1009, 1011, 1012]) rfl, by decide⟩

/-! ## Against a counter of one host -/

/-- The decisions of a sequence of calls, each with its host. -/
def decisions (g : SimpleIPGuard) (lib : GuardLibrary) (st : IPHits) :
    List (PlayerAddr × Nat) → List (String × Bool)
  | [] => []
  | (addr, now) :: rest =>
      (ipHostOf lib addr, (g.allow lib st addr now).2.1) ::
        g.decisions lib (g.allow lib st addr now).1 rest

/-- The times of the calls that come from one host. -/
def timesOf (lib : GuardLibrary) (host : String) (calls : List (PlayerAddr × Nat)) : List Nat :=
  calls.filterMap fun (addr, now) => if ipHostOf lib addr = host then some now else none

/-- The reference counter of a host: an attempt of a host that is not banned counts in the
window of the last attempt, or in a new one if there is none or more than the window's length
has passed since its start. -/
def referenceAttempt (g : SimpleIPGuard) (host : String) (w : Option IPWindow) (now : Nat) :
    Option IPWindow × Bool :=
  if host ∈ g.banned then (w, false)
  else if !g.rateLimitEnabled then (w, true)
  else
    let w : IPWindow :=
      match w with
      | none => ⟨0, now⟩
      | some w => if elapsed now w.windowStart > g.window then ⟨0, now⟩ else w
    (some { w with count := w.count + 1 }, (w.count + 1 : Nat) ≤ g.limit)

/-- Its decisions on attempts at these times. -/
def reference (g : SimpleIPGuard) (host : String) : Option IPWindow → List Nat → List Bool
  | _, [] => []
  | w, now :: rest =>
      (g.referenceAttempt host w now).2 :: g.reference host (g.referenceAttempt host w now).1 rest

theorem Expired.mono {later : Nat} (expired : g.Expired w now) (le : now ≤ later) :
    g.Expired w later := by
  unfold Expired elapsed at expired ⊢
  omega

theorem referenceAttempt_expired (g : SimpleIPGuard) (host : String) (expired : g.Expired w now) :
    (g.referenceAttempt host (some w) now).2 = (g.referenceAttempt host none now).2 ∧
      ((g.referenceAttempt host (some w) now).1 = (g.referenceAttempt host none now).1 ∨
        ((g.referenceAttempt host (some w) now).1 = some w ∧
          (g.referenceAttempt host none now).1 = none)) := by
  have past : elapsed now w.windowStart > g.window := expired
  unfold referenceAttempt
  split
  · exact ⟨rfl, .inr ⟨rfl, rfl⟩⟩
  · split
    · exact ⟨rfl, .inr ⟨rfl, rfl⟩⟩
    · simp only [if_pos past, true_or, and_self]

/-- The record of a host, stale once its window is over. -/
def cell (g : SimpleIPGuard) (host : String) : Cell Nat Unit Bool IPWindow where
  step := fun w now _ => ((g.referenceAttempt host w now).1, [(g.referenceAttempt host w now).2])
  stale := g.Expired
  lasting := Expired.mono
  silent := by
    intro w now _ expired
    rw [(referenceAttempt_expired g host expired).1]
  leaves := fun _ expired => (referenceAttempt_expired g host expired).2

/-- **One call** drops what is stale, and does to the record of its host what the
reference does. -/
theorem allow_drops (g : SimpleIPGuard) (lib : GuardLibrary) (st : IPHits) (addr : PlayerAddr)
    (now : Nat) :
    let host := ipHostOf lib addr
    ∃ hits, Drops g.cell now st.hits hits ∧
      (g.allow lib st addr now).1.hits =
        Function.update hits host (g.referenceAttempt host (hits host) now).1 ∧
      (g.allow lib st addr now).2.1 = (g.referenceAttempt host (hits host) now).2 := by
  intro host
  have refl : Drops g.cell now st.hits st.hits := fun _ => .inl rfl
  unfold allow referenceAttempt
  by_cases banned : ipHostOf lib addr ∈ g.banned
  · refine ⟨st.hits, refl, ?_⟩
    simp only [host, banned, if_true, Function.update_eq_self, and_self]
  · by_cases enabled : g.rateLimitEnabled = true
    · refine ⟨(g.sweep st now).hits, sweep_hits g st now, ?_⟩
      simp only [host, banned, enabled, if_false, Bool.not_true, Bool.false_eq_true]
      split
      · rename_i above
        exact ⟨rfl, (decide_eq_false (Int.not_le.mpr above)).symm⟩
      · rename_i within
        exact ⟨rfl, (decide_eq_true (Int.not_lt.mp within)).symm⟩
    · refine ⟨st.hits, refl, ?_⟩
      simp only [host, banned, enabled, if_false, Bool.not_false, if_true, Function.update_eq_self,
        and_self]

/-- A call as an event at the record of its host. -/
def event (lib : GuardLibrary) (call : PlayerAddr × Nat) : Event String Nat Unit :=
  ⟨call.2, some (ipHostOf lib call.1, ())⟩

theorem run_decisions (g : SimpleIPGuard) (lib : GuardLibrary) (st : IPHits)
    (calls : List (PlayerAddr × Nat)) :
    Run g.cell st.hits (calls.map (event lib)) (g.decisions lib st calls) := by
  induction calls generalizing st with
  | nil => exact .nil st.hits
  | cons call rest ih =>
      obtain ⟨addr, now⟩ := call
      obtain ⟨hits, drops, left, decided⟩ := allow_drops g lib st addr now
      have run := ih (g.allow lib st addr now).1
      rw [left] at run
      rw [decisions, decided]
      exact .call drops run

theorem alone_eq_reference (g : SimpleIPGuard) (lib : GuardLibrary) (host : String)
    (w : Option IPWindow) (calls : List (PlayerAddr × Nat)) :
    (g.cell host).alone w (own host (calls.map (event lib))) =
      g.reference host w (timesOf lib host calls) := by
  induction calls generalizing w with
  | nil => rfl
  | cons call rest ih =>
      obtain ⟨addr, now⟩ := call
      by_cases same : ipHostOf lib addr = host
      · have times : timesOf lib host ((addr, now) :: rest) = now :: timesOf lib host rest :=
          List.filterMap_cons_some (if_pos same)
        rw [times, List.map_cons, event, same, own_cons_self]
        exact congrArg (_ :: ·) (ih _)
      · have times : timesOf lib host ((addr, now) :: rest) = timesOf lib host rest :=
          List.filterMap_cons_none (if_neg same)
        rw [times, List.map_cons, event, own_cons_other same]
        exact ih w

/-- **The guard decides host by host.**  For every guard and every sequence of calls whose
times do not decrease: the decisions for a host are those of the reference counter on the
host's own attempts, whoever else connects and whatever is evicted. -/
theorem decisions_eq_reference (g : SimpleIPGuard) (lib : GuardLibrary)
    (calls : List (PlayerAddr × Nat)) (ordered : calls.Pairwise fun c later => c.2 ≤ later.2)
    (host : String) :
    answersOf host (g.decisions lib .new calls) = g.reference host none (timesOf lib host calls) := by
  rw [← alone_eq_reference]
  refine (run_decisions g lib .new calls).answersOf_eq_alone ?_ fun _ _ => .inl rfl
  exact List.pairwise_map.mpr ordered

/-- The second host's attempt at 1012 s evicts the first one's window. -/
theorem decisions_eq_reference_evicted :
    let calls : List (PlayerAddr × Nat) :=
      knocks [1000, 1001, 1002] ++ [(.other "10.0.0.8", 1012 * 1000000000)] ++ knocks [1013]
    (two.allow plain (two.allow plain .new (.other "10.0.0.7") (1000 * 1000000000)).1 (.other "10.0.0.8")
      (1012 * 1000000000)).1.hits "10.0.0.7" = none ∧
    two.decisions plain .new calls = [("10.0.0.7", true), ("10.0.0.7", true), ("10.0.0.7", false),
      ("10.0.0.8", true), ("10.0.0.7", true)] ∧
    answersOf "10.0.0.7" (two.decisions plain .new calls) =
      two.reference "10.0.0.7" none (timesOf plain "10.0.0.7" calls) :=
  ⟨by decide, by decide, decisions_eq_reference two plain _ (by decide) _⟩

end SimpleIPGuard

end Portal
