/-
# Session.RateLimit — what the counting windows guarantee over any stretch of time

A host opens its windows more than the length of a window apart, and each of them lets the
limit through.  So `n` lengths in a row meet at most `n + 1` windows of a host, and let
through at most `n + 1` times the limit, in every run and with every mix of hosts
(`rate_bounded`).  In particular one length lets through at most twice the limit, wherever it
starts: the burst at the boundary of two windows is as bad as it gets.

The invariant follows the last window of a host, also after a sweep has evicted it
(`Metered`).
-/
import Portal.Session.IPGuard

namespace Portal.SimpleIPGuard

open Portal.Theory.Transition

set_option autoImplicit false

variable {g : SimpleIPGuard} {lib : GuardLibrary} {st st' : IPHits} {host other : String}
  {now : Nat} {w : IPWindow} {log : List Attempt}

/-! ## One call -/

/-- The attempt counts in the window of its host if that is not over, or opens one. -/
theorem count_window (g : SimpleIPGuard) (st : IPHits) (host : String) (now : Nat) :
    (g.Opens st host now ∧ g.count (g.sweep st now) host now = ⟨1, now⟩) ∨
      ∃ w, st.hits host = some w ∧ ¬ g.Expired w now ∧
        g.count (g.sweep st now) host now = ⟨w.count + 1, w.windowStart⟩ := by
  rcases count_sweep g st host now with opens | ⟨w, held, counted⟩
  · exact .inl opens
  · by_cases expired : g.Expired w now
    · left
      constructor
      · intro w' found
        cases held.symm.trans found
        exact expired
      · unfold count
        rcases sweep_hits g st now host with same | ⟨gone, -⟩
        · rw [same, held]
          simp [expired]
        · rw [gone]
    · exact .inr ⟨w, held, expired, counted⟩

/-- A call of a host that is not banned. -/
theorem allow_counted (enabled : g.rateLimitEnabled = true) (st : IPHits) (addr : PlayerAddr)
    (now : Nat) (free : ipHostOf lib addr ∉ g.banned) :
    (g.allow lib st addr now).1.hits (ipHostOf lib addr) =
        some (g.count (g.sweep st now) (ipHostOf lib addr) now) ∧
      (g.allow lib st addr now).2.1 =
        decide (((g.count (g.sweep st now) (ipHostOf lib addr) now).count : Int) ≤ g.limit) ∧
      g.Swept st (g.allow lib st addr now).1 (ipHostOf lib addr) now := by
  have swept := swept_update g st (ipHostOf lib addr) now
    (g.count (g.sweep st now) (ipHostOf lib addr) now)
  unfold allow
  simp only [free, enabled, if_false, Bool.not_true, Bool.false_eq_true]
  split
  · rename_i above
    exact ⟨Function.update_self .., (decide_eq_false (Int.not_le.mpr above)).symm, swept⟩
  · rename_i within
    exact ⟨Function.update_self .., (decide_eq_true (Int.not_lt.mp within)).symm, swept⟩

/-! ## Runs -/

/-- `w` is the last window of the host: the one it has, or one that was evicted since. -/
def LastWindow (g : SimpleIPGuard) (p : IPHits × List Attempt) (host : String) (w : IPWindow) :
    Prop :=
  p.1.hits host = some w ∨ p.1.hits host = none ∧ ∃ a ∈ p.2, g.Expired w a.time

/-- What the last window says about the attempts since any moment. -/
structure Counted (g : SimpleIPGuard) (p : IPHits × List Attempt) (host : String)
    (w : IPWindow) : Prop where
  last : LastWindow g p host w
  started : ∃ a ∈ p.2, w.windowStart ≤ a.time
  inside : ∀ a ∈ p.2, a.host = host → a.allowed = true → ¬ g.Expired w a.time
  since : ∀ n from_ : Nat, (w.windowStart : Int) ≤ from_ + n * g.window →
    (allowedSince p.2 host from_ : Int) ≤ n * g.limit + min (w.count : Int) g.limit

/-- What holds between two calls. -/
structure Metered (g : SimpleIPGuard) (p : IPHits × List Attempt) : Prop where
  hosts : ∀ host, (p.1.hits host = none ∧ ∀ a ∈ p.2, a.host = host → a.allowed = false) ∨
    ∃ w, Counted g p host w
  within : ∀ host (n from_ until_ : Nat), (until_ : Int) ≤ from_ + n * g.window →
    (allowedWithin p.2 host from_ until_ : Int) ≤ (n + 1) * g.limit

theorem allowedSince_eq_zero {from_ : Nat}
    (refused : ∀ a ∈ log, a.host = host → a.allowed = true → a.time < from_) :
    allowedSince log host from_ = 0 := by
  unfold allowedSince
  rw [List.countP_eq_zero]
  intro a member counted
  simp only [decide_eq_true_eq] at counted
  have early := refused a member counted.1 counted.2.1
  omega

/-- The last window of a host that made no attempt stays its last one. -/
theorem Counted.apart {a : Attempt} (counted : Counted g (st, log) host w)
    (apart : ¬ (a.host = host ∧ a.allowed = true))
    (same : st'.hits host = st.hits host ∨
      st'.hits host = none ∧ ∀ w, st.hits host = some w → g.Expired w a.time) :
    Counted g (st', log ++ [a]) host w where
  last := by
    rcases counted.last with held | ⟨gone, b, member, expired⟩
    · rcases same with kept | ⟨evicted, expired⟩
      · exact .inl (kept.trans held)
      · exact .inr ⟨evicted, a, List.mem_append_right _ (List.mem_singleton_self a), expired w held⟩
    · refine .inr ⟨?_, b, List.mem_append_left _ member, expired⟩
      exact same.elim (fun kept => kept.trans gone) And.left
  started := by
    obtain ⟨b, member, start⟩ := counted.started
    exact ⟨b, List.mem_append_left _ member, start⟩
  inside := by
    intro b member own allowed
    rcases List.mem_append.mp member with before | last
    · exact counted.inside b before own allowed
    · cases List.mem_singleton.mp last
      exact absurd ⟨own, allowed⟩ apart
  since := by
    intro n from_ reach
    rw [allowedSince_append_of_not a fun both => apart ⟨both.1, both.2.1⟩]
    exact counted.since n from_ reach

/-- The host counts in its window. -/
theorem Counted.count {allowed : Bool} (counted : Counted g (st, log) host w)
    (open_ : ¬ g.Expired w now) (stored : st'.hits host = some ⟨w.count + 1, w.windowStart⟩)
    (verdict : allowed = true → ((w.count + 1 : Nat) : Int) ≤ g.limit) :
    Counted g (st', log ++ [⟨host, now, allowed⟩]) host ⟨w.count + 1, w.windowStart⟩ where
  last := .inl stored
  started := by
    obtain ⟨b, member, start⟩ := counted.started
    exact ⟨b, List.mem_append_left _ member, start⟩
  inside := by
    intro b member own allowed
    rcases List.mem_append.mp member with before | last
    · exact counted.inside b before own allowed
    · cases List.mem_singleton.mp last
      exact open_
  since := by
    intro n from_ reach
    have bound : (allowedSince log host from_ : Int) ≤ n * g.limit + min (w.count : Int) g.limit :=
      counted.since n from_ reach
    show (allowedSince (log ++ [⟨host, now, allowed⟩]) host from_ : Int) ≤
      n * g.limit + min ((w.count + 1 : Nat) : Int) g.limit
    cases allowed with
    | true =>
        have within := verdict rfl
        have step : allowedSince (log ++ [⟨host, now, true⟩]) host from_ ≤
          allowedSince log host from_ + 1 := allowedSince_append_le _
        omega
    | false =>
        rw [allowedSince_append_of_not _ (by simp)]
        omega

/-- The host opens a window, after its last one is over. -/
theorem Counted.opens {allowed : Bool} (length : 0 < g.window) (limit : 1 ≤ g.limit)
    (counted : Counted g (st, log) host w) (over_ : g.Expired w now) (ordered : Ordered (st, log) now)
    (stored : st'.hits host = some ⟨1, now⟩) :
    Counted g (st', log ++ [⟨host, now, allowed⟩]) host ⟨1, now⟩ where
  last := .inl stored
  started := ⟨_, List.mem_append_right _ (List.mem_singleton_self _), Nat.le_refl _⟩
  inside := by
    intro b member _ _
    have time : b.time ≤ now := by
      rcases List.mem_append.mp member with before | last
      · exact ordered b before
      · cases List.mem_singleton.mp last
        exact Nat.le_refl _
    unfold Expired elapsed
    show ¬ max _ (min ((b.time : Int) - (now : Nat)) _) > g.window
    omega
  since := by
    intro n from_ reach
    have reach : (now : Int) ≤ from_ + n * g.window := reach
    have step : allowedSince (log ++ [⟨host, now, allowed⟩]) host from_ ≤
      allowedSince log host from_ + 1 := allowedSince_append_le _
    show (allowedSince (log ++ [⟨host, now, allowed⟩]) host from_ : Int) ≤
      n * g.limit + min ((1 : Nat) : Int) g.limit
    have before : (allowedSince log host from_ : Int) ≤ n * g.limit := by
      cases n with
      | zero =>
          -- an attempt at this very moment would have counted in the window that is over
          have none_ : allowedSince log host from_ = 0 := by
            refine allowedSince_eq_zero fun a member own passed => ?_
            have time := ordered a member
            have inside := counted.inside a member own passed
            refine Nat.lt_of_le_of_ne ?_ ?_
            · omega
            · rintro rfl
              exact inside (by rwa [show a.time = now by omega])
          omega
      | succ k =>
          have apart := over_.lt length
          have split : ((k + 1 : Nat) : Int) * g.window = k * g.window + g.window := by
            rw [Nat.cast_succ, Int.add_mul, Int.one_mul]
          have bound : (allowedSince log host from_ : Int) ≤ k * g.limit + min (w.count : Int) g.limit :=
            counted.since k from_ (by omega)
          have total : ((k + 1 : Nat) : Int) * g.limit = k * g.limit + g.limit := by
            rw [Nat.cast_succ, Int.add_mul, Int.one_mul]
          omega
    omega

/-- The host opens its first window. -/
theorem counted_first {allowed : Bool} (limit : 1 ≤ g.limit) (length : 0 < g.window)
    (refused : ∀ a ∈ log, a.host = host → a.allowed = false)
    (stored : st'.hits host = some ⟨1, now⟩) :
    Counted g (st', log ++ [⟨host, now, allowed⟩]) host ⟨1, now⟩ where
  last := .inl stored
  started := ⟨_, List.mem_append_right _ (List.mem_singleton_self _), Nat.le_refl _⟩
  inside := by
    intro b member own passed
    rcases List.mem_append.mp member with before | last
    · cases (refused b before own).symm.trans passed
    · cases List.mem_singleton.mp last
      unfold Expired elapsed
      show ¬ max _ (min ((now : Int) - (now : Nat)) _) > g.window
      omega
  since := by
    intro n from_ _
    have none_ : allowedSince log host from_ = 0 := by
      refine allowedSince_eq_zero fun a member own passed => ?_
      cases (refused a member own).symm.trans passed
    have step : allowedSince (log ++ [⟨host, now, allowed⟩]) host from_ ≤
      allowedSince log host from_ + 1 := allowedSince_append_le _
    have product : (0 : Int) ≤ n * g.limit := Int.mul_nonneg (Int.natCast_nonneg n) (by omega)
    show (allowedSince (log ++ [⟨host, now, allowed⟩]) host from_ : Int) ≤
      n * g.limit + min ((1 : Nat) : Int) g.limit
    omega

/-- What a call does to the windows of all hosts. -/
theorem Metered.hosts_next (lib : GuardLibrary) (enabled : g.rateLimitEnabled = true)
    (limit : 1 ≤ g.limit) (length : 0 < g.window) (metered : Metered g (st, log)) (addr : PlayerAddr)
    (ordered : Ordered (st, log) now) (host : String) :
    ((g.allow lib st addr now).1.hits host = none ∧
      ∀ a ∈ log ++ [⟨ipHostOf lib addr, now, (g.allow lib st addr now).2.1⟩], a.host = host →
        a.allowed = false) ∨
    ∃ w, Counted g ((g.allow lib st addr now).1,
      log ++ [⟨ipHostOf lib addr, now, (g.allow lib st addr now).2.1⟩]) host w := by
  -- nobody else's last window is touched, and a refused attempt counts for nobody
  have apart : ∀ {allowed : Bool} {st' : IPHits},
      ¬ (ipHostOf lib addr = host ∧ allowed = true) →
      (st'.hits host = st.hits host ∨
        st'.hits host = none ∧ ∀ w, st.hits host = some w → g.Expired w now) →
      (st'.hits host = none ∧ ∀ a ∈ log ++ [⟨ipHostOf lib addr, now, allowed⟩], a.host = host →
        a.allowed = false) ∨
      ∃ w, Counted g (st', log ++ [⟨ipHostOf lib addr, now, allowed⟩]) host w := by
    intro allowed st' other same
    rcases metered.hosts host with ⟨none_, refused⟩ | ⟨w, counted⟩
    · refine .inl ⟨same.elim (fun kept => kept.trans none_) And.left, fun a member own => ?_⟩
      rcases List.mem_append.mp member with before | last
      · exact refused a before own
      · cases List.mem_singleton.mp last
        exact Bool.eq_false_iff.mpr fun passed => other ⟨own, passed⟩
    · exact .inr ⟨w, counted.apart other same⟩
  by_cases banned : ipHostOf lib addr ∈ g.banned
  · have unchanged : g.allow lib st addr now =
        (st, false, lib.colourf "<red>You are banned from this server</red>") := by
      unfold allow
      rw [if_pos banned]
    rw [unchanged]
    exact apart (by simp) (.inl rfl)
  obtain ⟨stored, verdict, swept⟩ := allow_counted enabled st addr now banned
  by_cases own : host = ipHostOf lib addr
  case neg =>
    exact apart (fun both => own both.1.symm) (swept host own)
  subst own
  right
  rw [verdict]
  rcases count_window g st (ipHostOf lib addr) now with ⟨opens, fresh⟩ | ⟨w, held, open_, counts⟩
  · rw [fresh] at stored ⊢
    rcases metered.hosts (ipHostOf lib addr) with ⟨-, refused⟩ | ⟨w, counted⟩
    · exact ⟨_, counted_first limit length refused stored⟩
    · have over_ : g.Expired w now := by
        rcases counted.last with held | ⟨-, a, member, expired⟩
        · exact opens w held
        · exact expired.mono (ordered a member)
      exact ⟨_, counted.opens length limit over_ ordered stored⟩
  · rw [counts] at stored ⊢
    rcases metered.hosts (ipHostOf lib addr) with ⟨none_, -⟩ | ⟨w', counted⟩
    · cases held.symm.trans none_
    · have same : w' = w := by
        rcases counted.last with held' | ⟨none_, -⟩
        · exact Option.some.inj (held'.symm.trans held)
        · cases held.symm.trans none_
      subst same
      exact ⟨_, counted.count open_ stored of_decide_eq_true⟩

theorem Metered.next (enabled : g.rateLimitEnabled = true) (limit : 1 ≤ g.limit)
    (length : 0 < g.window) (metered : Metered g (st, log)) (addr : PlayerAddr)
    (ordered : Ordered (st, log) now) :
    Metered g ((g.allow lib st addr now).1,
      log ++ [⟨ipHostOf lib addr, now, (g.allow lib st addr now).2.1⟩]) := by
  have hosts := metered.hosts_next lib enabled limit length addr ordered
  refine ⟨hosts, fun host n from_ until_ reach => ?_⟩
  generalize (g.allow lib st addr now).2.1 = allowed at hosts
  generalize (g.allow lib st addr now).1 = st' at hosts
  by_cases counts : ipHostOf lib addr = host ∧ allowed = true ∧ from_ ≤ now ∧ now ≤ until_
  · -- nothing is later than this attempt, so all since `from_` are within
    have all : (allowedWithin (log ++ [⟨ipHostOf lib addr, now, allowed⟩]) host from_ until_ : Int) ≤
        allowedSince (log ++ [⟨ipHostOf lib addr, now, allowed⟩]) host from_ :=
      Int.ofNat_le.mpr allowedWithin_le_since
    rcases hosts host with ⟨-, refused⟩ | ⟨w, counted⟩
    · have passed := refused _ (List.mem_append_right _ (List.mem_singleton_self _)) counts.1
      cases passed.symm.trans counts.2.1
    · obtain ⟨a, member, start⟩ := counted.started
      have time : a.time ≤ now := by
        rcases List.mem_append.mp member with before | last
        · exact ordered a before
        · cases List.mem_singleton.mp last
          exact Nat.le_refl _
      have bound : (allowedSince (log ++ [⟨ipHostOf lib addr, now, allowed⟩]) host from_ : Int) ≤
          n * g.limit + min (w.count : Int) g.limit := counted.since n from_ (by omega)
      have total : ((n : Int) + 1) * g.limit = n * g.limit + g.limit := by
        rw [Int.add_mul, Int.one_mul]
      show (allowedWithin (log ++ [⟨ipHostOf lib addr, now, allowed⟩]) host from_ until_ : Int) ≤ _
      omega
  · show (allowedWithin (log ++ [⟨ipHostOf lib addr, now, allowed⟩]) host from_ until_ : Int) ≤ _
    rw [allowedWithin_append_of_not _ counts]
    exact metered.within host n from_ until_ reach

/-- **The limit over any stretch of time.**  For a guard that limits the rate, every limit of
at least one, every window of positive length and every list of banned hosts, and for calls of
any hosts at times that do not decrease: `n` lengths of the window in a row have at most
`n + 1` times the limit of allowed attempts of one host. -/
theorem rate_bounded (enabled : g.rateLimitEnabled = true) (limit : 1 ≤ g.limit)
    (length : 0 < g.window) {p : IPHits × List Attempt}
    (reached : (g.logged lib).Reach (fun p call => Ordered p call.2) p) (host : String)
    (n from_ until_ : Nat) (reach : (until_ : Int) ≤ from_ + n * g.window) :
    (allowedWithin p.2 host from_ until_ : Int) ≤ (n + 1) * g.limit := by
  have metered : Metered g p := by
    refine reached.invariant (I := Metered g) ?_ ?_
    · refine ⟨fun host => .inl ⟨rfl, by rintro a ⟨⟩⟩, fun host n from_ until_ _ => ?_⟩
      show ((0 : Nat) : Int) ≤ (n + 1) * g.limit
      exact Int.mul_nonneg (by omega) (by omega)
    · rintro ⟨st, log⟩ ⟨st', log'⟩ ⟨addr, now⟩ _ metered ordered taken
      obtain ⟨taken, rfl⟩ := Machine.record_next taken
      obtain rfl := Option.some.inj taken
      exact metered.next enabled limit length addr ordered
  exact metered.within host n from_ until_ reach

/-- Four attempts in thirteen seconds, all allowed: three of them in ten seconds, within twice
the limit of two. -/
theorem rate_bounded_burst : ∃ p,
    (two.logged plain).Reach (fun p call => Ordered p call.2) p ∧
    p.2.map Attempt.allowed = [true, true, true, true] ∧
    (allowedWithin p.2 "10.0.0.7" (1009 * 1000000000) (1019 * 1000000000) : Int) ≤
      (1 + 1) * two.limit := by
  have reached : (two.logged plain).Reach (fun p call => Ordered p call.2) _ :=
    Machine.exec_reach (knocks [1000, 1009, 1011, 1012]) rfl
  exact ⟨_, reached, by decide, rate_bounded rfl (by decide) (by decide) reached _ 1 _ _ (by decide)⟩

end Portal.SimpleIPGuard
