/-
# Session.LoadBalancer — which server a player joins

`leastLoaded` walks over the available servers and keeps the first one with the lowest
ratio of players to weight, as float64.  `SplitLoadBalancer` asks it for all servers,
`GroupedLoadBalancer` for one group after the other until one has an available server.
The order of the servers is that of a range over a map: any order (`Iterates`), a new one
at each call.

With at most 2^20 players on a server the float64 ratios compare like the fractions
(`ratio_lt_iff`).  So the server that is found has the least share of its group
(`find_server_least_share`), and joining one player after the other keeps the counts in
proportion to the weights (`placement_proportional`).
-/
import Portal.Theory.Binary64
import Portal.Theory.Tally
import Portal.Theory.Transition
import Portal.Server.Registry

namespace Portal

open Portal.Theory Portal.Theory.Binary64 Portal.Theory.Transition

set_option autoImplicit false

/-- What the atomics of the servers hold. -/
structure Load where
  draining : Server → Bool
  healthy : Server → Bool
  playerCount : Server → Int

namespace Load

/-- Not `s.Draining() || !s.Healthy()`. -/
def available (load : Load) (s : Server) : Bool := !(load.draining s || !load.healthy s)

/-- `float64(s.PlayerCount()) / float64(s.Weight())`. -/
def ratio (load : Load) (s : Server) : Float :=
  float64 (load.playerCount s) / float64 s.weight.toNat

/-- The same ratio as a fraction. -/
def share (load : Load) (s : Server) : ℚ := load.playerCount s / s.weight.toNat

/-- One iteration of the loop of `leastLoaded`, on `srv` and `lowest`. -/
def leastStep (load : Load) (best : Option Server × Float) (s : Server) : Option Server × Float :=
  if load.draining s || !load.healthy s then best
  else if best.1 = none ∨ load.ratio s < best.2 then (some s, load.ratio s)
  else best

/-- `leastLoaded`. -/
def leastLoaded (load : Load) (servers : List Server) : Option Server :=
  (servers.foldl load.leastStep (none, 0)).1

/-- The player count is one the proxy can have, and the weight is one `server.New` gives. -/
structure Admissible (load : Load) (s : Server) : Prop where
  nonneg : 0 ≤ load.playerCount s
  count : load.playerCount s ≤ 2 ^ 20
  weight : s.weight ≠ 0

end Load

/-- `SplitLoadBalancer.FindServer`. -/
def splitFindServer (r : Registry) (load : Load) (keys : List String) : Option Server :=
  load.leastLoaded (r.servers keys)

/-- `GroupedLoadBalancer.FindServer`: the loop over the groups, the registry iterated in
the order `order 0` for the first of them, `order 1` for the second and so on. -/
def groupedFindServer (r : Registry) (load : Load) : (Nat → List String) → List String → Option Server
  | _, [] => none
  | order, group :: groups =>
      match load.leastLoaded (r.serversInGroup (order 0) group) with
      | some srv => some srv
      | none => groupedFindServer r load (fun k => order (k + 1)) groups

/-- `NewGroupedLoadBalancer`: the groups of the balancer. -/
def newGroupedLoadBalancer (primaryGroup : String) (fallbackGroups : List String) : List String :=
  primaryGroup :: fallbackGroups

theorem Server.new_weight (ptr : Nat) (name address : String) (transport : Transport)
    (group : String) (weight : UInt32) (legacyAuth : Bool) :
    (Server.new ptr name address transport group weight legacyAuth).weight ≠ 0 := by
  unfold Server.new
  by_cases zero : weight = 0
  · simp [zero]
  · simp [zero]

/-! ## The walk over the servers -/

namespace Load

variable {load : Load}

theorem Admissible.weight_pos {s : Server} (admissible : load.Admissible s) : 0 < s.weight.toNat := by
  apply Nat.pos_of_ne_zero
  intro zero
  exact admissible.weight (UInt32.toNat_inj.mp zero)

/-- **Comparing ratios.**  A count of at most 2^20 times a weight of 32 bits is below
2^52. -/
theorem ratio_lt_iff {s t : Server} (left : load.Admissible s) (right : load.Admissible t) :
    load.ratio s < load.ratio t ↔ load.share s < load.share t := by
  obtain ⟨a, count_s⟩ := Int.eq_ofNat_of_zero_le left.nonneg
  obtain ⟨c, count_t⟩ := Int.eq_ofNat_of_zero_le right.nonneg
  have bound_a := left.count
  have bound_c := right.count
  rw [count_s] at bound_a
  rw [count_t] at bound_c
  have weight_s := s.weight.toNat_lt
  have weight_t := t.weight.toNat_lt
  have cross : ∀ {n w : ℕ}, (n : ℤ) ≤ 2 ^ 20 → w < 2 ^ 32 → n * w < 2 ^ 52 := by
    intro n w count weight
    have count' : n ≤ 2 ^ 20 := by omega
    calc n * w ≤ 2 ^ 20 * w := Nat.mul_le_mul_right w count'
      _ < 2 ^ 20 * 2 ^ 32 := Nat.mul_lt_mul_of_pos_left weight (by decide)
  unfold ratio share
  rw [count_s, count_t]
  rw [quotient_lt_iff left.weight_pos right.weight_pos (by omega) (by omega)
    (cross bound_a weight_t) (cross bound_c weight_s)]
  rw [div_lt_div_iff₀ (Nat.cast_pos.mpr left.weight_pos) (Nat.cast_pos.mpr right.weight_pos)]
  exact_mod_cast Iff.rfl

/-- What `srv` and `lowest` are after the servers in `seen`. -/
inductive Best (load : Load) (seen : List Server) : Option Server × Float → Prop where
  | none {lowest : Float} (unavailable : ∀ s ∈ seen, load.available s = false) :
      Best load seen (none, lowest)
  | some {srv : Server} (mem : srv ∈ seen) (available : load.available srv = true)
      (least : ∀ s ∈ seen, load.available s = true → load.share srv ≤ load.share s) :
      Best load seen (some srv, load.ratio srv)

theorem Best.mono_none {seen : List Server} {s : Server} {lowest : Float}
    (unavailable : ∀ t ∈ seen, load.available t = false) (skipped : load.available s = false) :
    Best load (seen ++ [s]) (Option.none, lowest) := by
  refine .none fun t in_ => ?_
  rcases List.mem_append.mp in_ with before | last
  · exact unavailable t before
  · rw [List.mem_singleton.mp last]
    exact skipped

/-- One more server: it is skipped, it is the new best, or the old one stays. -/
theorem Best.step {seen : List Server} {best : Option Server × Float} {s : Server}
    (held : Best load seen best)
    (admissible : ∀ t ∈ seen ++ [s], load.available t = true → load.Admissible t) :
    Best load (seen ++ [s]) (load.leastStep best s) := by
  have last : s ∈ seen ++ [s] := List.mem_append_right seen (List.mem_singleton_self s)
  have before : ∀ {t}, t ∈ seen → t ∈ seen ++ [s] := fun in_ => List.mem_append_left [s] in_
  by_cases skipped : (load.draining s || !load.healthy s) = true
  · have unavailable : load.available s = false := by rw [available, skipped]; rfl
    rw [leastStep, if_pos skipped]
    cases held with
    | none none_ => exact .mono_none none_ unavailable
    | some mem available least =>
        refine .some (before mem) available fun t in_ up => ?_
        rcases List.mem_append.mp in_ with old | new
        · exact least t old up
        · rw [List.mem_singleton.mp new, unavailable] at up
          cases up
  · have up : load.available s = true := by
      rw [available]
      simpa using skipped
    rw [leastStep, if_neg skipped]
    cases held with
    | none none_ =>
        rw [if_pos (.inl rfl)]
        refine .some last up fun t in_ up_t => ?_
        rcases List.mem_append.mp in_ with old | new
        · rw [none_ t old] at up_t
          cases up_t
        · rw [List.mem_singleton.mp new]
    | @some srv mem available least =>
        have compare := ratio_lt_iff (admissible s last up) (admissible srv (before mem) available)
        by_cases lower : load.ratio s < load.ratio srv
        · rw [if_pos (.inr lower)]
          have less := compare.mp lower
          refine .some last up fun t in_ up_t => ?_
          rcases List.mem_append.mp in_ with old | new
          · exact less.le.trans (least t old up_t)
          · rw [List.mem_singleton.mp new]
        · have notLess : load.share srv ≤ load.share s := not_lt.mp fun less => lower (compare.mpr less)
          rw [if_neg (by simpa using lower)]
          refine .some (before mem) available fun t in_ up_t => ?_
          rcases List.mem_append.mp in_ with old | new
          · exact least t old up_t
          · rw [List.mem_singleton.mp new]
            exact notLess

/-- The whole walk, by induction on the servers still to come. -/
theorem Best.foldl {seen servers : List Server} {best : Option Server × Float}
    (held : Best load seen best)
    (admissible : ∀ t ∈ seen ++ servers, load.available t = true → load.Admissible t) :
    Best load (seen ++ servers) (servers.foldl load.leastStep best) := by
  induction servers generalizing seen best with
  | nil =>
      rw [List.append_nil]
      exact held
  | cons s servers ih =>
      rw [List.append_cons] at admissible ⊢
      refine ih (held.step fun t in_ => ?_) admissible
      exact admissible t (List.mem_append_left servers in_)

/-- `srv` is available, in the pool, and nobody available in the pool has a smaller
share. -/
structure Least (load : Load) (pool : Server → Prop) (srv : Server) : Prop where
  mem : pool srv
  available : load.available srv = true
  least : ∀ other, pool other → load.available other = true → load.share srv ≤ load.share other

/-- What `leastLoaded` returns, for servers in any order. -/
theorem leastLoaded_spec {servers : List Server} {pool : Server → Prop}
    (mem : ∀ srv, srv ∈ servers ↔ pool srv)
    (admissible : ∀ srv, pool srv → load.available srv = true → load.Admissible srv) :
    (load.leastLoaded servers = none ↔ ∀ srv, pool srv → load.available srv = false) ∧
      ∀ srv, load.leastLoaded servers = some srv → load.Least pool srv := by
  have best : Best load ([] ++ servers) (servers.foldl load.leastStep (Option.none, 0)) :=
    Best.foldl (.none fun _ in_ => by cases in_) fun t in_ => admissible t ((mem t).mp in_)
  rw [List.nil_append] at best
  unfold leastLoaded
  generalize servers.foldl load.leastStep (Option.none, 0) = result at best
  cases best with
  | none unavailable =>
      refine ⟨iff_of_true rfl fun srv in_ => unavailable srv ((mem srv).mpr in_), ?_⟩
      intro srv found
      cases found
  | @some srv found available least =>
      constructor
      · refine iff_of_false (by simp) fun unavailable => ?_
        rw [unavailable srv ((mem srv).mp found)] at available
        cases available
      · rintro _ ⟨⟩
        exact ⟨(mem srv).mp found, available, fun other in_ => least other ((mem other).mpr in_)⟩

end Load

/-! ## The two load balancers -/

/-- No server of the group is available. -/
def Unusable (r : Registry) (load : Load) (group : String) : Prop :=
  ∀ srv, r.Registered srv → srv.group = group → load.available srv = false

variable {r : Registry} {load : Load}

theorem splitFindServer_spec {keys : List String} (iterates : r.Iterates keys)
    (admissible : ∀ srv, r.Registered srv → load.Admissible srv) :
    (splitFindServer r load keys = none ↔ ∀ srv, r.Registered srv → load.available srv = false) ∧
      ∀ srv, splitFindServer r load keys = some srv → load.Least r.Registered srv :=
  Load.leastLoaded_spec (fun _ => Registry.mem_servers iterates) fun srv in_ _ => admissible srv in_

theorem leastLoaded_group {keys : List String} (iterates : r.Iterates keys)
    (admissible : ∀ srv, r.Registered srv → load.Admissible srv) (group : String) :
    (load.leastLoaded (r.serversInGroup keys group) = none ↔ Unusable r load group) ∧
      ∀ srv, load.leastLoaded (r.serversInGroup keys group) = some srv →
        load.Least (fun s => r.Registered s ∧ s.group = group) srv := by
  obtain ⟨none_iff, found⟩ := Load.leastLoaded_spec
    (fun _ => Registry.mem_serversInGroup iterates) fun srv in_ _ => admissible srv in_.1
  exact ⟨none_iff.trans (forall_congr' fun _ => and_imp), found⟩

/-- The loop over the groups, by induction on those still to come. -/
theorem groupedFindServer_spec {groups : List String} {order : Nat → List String}
    (iterates : ∀ k, r.Iterates (order k))
    (admissible : ∀ srv, r.Registered srv → load.Admissible srv) :
    (groupedFindServer r load order groups = none ↔ ∀ group ∈ groups, Unusable r load group) ∧
    ∀ srv, groupedFindServer r load order groups = some srv →
      ∃ earlier later, groups = earlier ++ srv.group :: later ∧
        (∀ group ∈ earlier, Unusable r load group) ∧
        load.Least (fun s => r.Registered s ∧ s.group = srv.group) srv := by
  induction groups generalizing order with
  | nil =>
      refine ⟨iff_of_true rfl (List.forall_mem_nil _), ?_⟩
      intro srv found
      cases found
  | cons group groups ih =>
      obtain ⟨none_iff, found_least⟩ := leastLoaded_group (iterates 0) admissible group
      obtain ⟨later_none, later_found⟩ := ih fun k => iterates (k + 1)
      unfold groupedFindServer
      cases found : load.leastLoaded (r.serversInGroup (order 0) group) with
      | some srv =>
          have least := found_least srv found
          constructor
          · refine iff_of_false (by simp) fun unusable => ?_
            have down := unusable group List.mem_cons_self srv least.mem.1 least.mem.2
            rw [least.available] at down
            cases down
          · rintro _ ⟨⟩
            obtain rfl := least.mem.2
            exact ⟨[], groups, rfl, List.forall_mem_nil _, least⟩
      | none =>
          have unusable := none_iff.mp found
          simp only
          constructor
          · rw [later_none, List.forall_mem_cons]
            exact (and_iff_right unusable).symm
          · intro srv found_srv
            obtain ⟨earlier, later, rfl, skipped, least⟩ := later_found srv found_srv
            exact ⟨group :: earlier, later, rfl, List.forall_mem_cons.mpr ⟨unusable, skipped⟩, least⟩

/-- **The choice of a server.**  For every registry, every load of at most 2^20 players a
server and every order of iteration: the grouped balancer finds none exactly if no listed
group has an available server; otherwise it finds one of the first group that has one, and
nobody available there has a smaller share.  The split balancer does the same over all
servers. -/
theorem find_server_least_share (groups : List String) (order : Nat → List String)
    (iterates : ∀ k, r.Iterates (order k))
    (admissible : ∀ srv, r.Registered srv → load.Admissible srv) :
    (groupedFindServer r load order groups = none ↔ ∀ group ∈ groups, Unusable r load group) ∧
    (∀ srv, groupedFindServer r load order groups = some srv →
      ∃ earlier later, groups = earlier ++ srv.group :: later ∧
        (∀ group ∈ earlier, Unusable r load group) ∧
        load.Least (fun s => r.Registered s ∧ s.group = srv.group) srv) ∧
    (splitFindServer r load (order 0) = none ↔
      ∀ srv, r.Registered srv → load.available srv = false) ∧
    ∀ srv, splitFindServer r load (order 0) = some srv → load.Least r.Registered srv := by
  obtain ⟨none_, found⟩ := groupedFindServer_spec iterates admissible
  obtain ⟨split_none, split_found⟩ := splitFindServer_spec (iterates 0) admissible
  exact ⟨none_, found, split_none, split_found⟩

namespace Hubs

def small : Server := .new 0 "hub1" "127.0.0.1:19133" .rakNet "lobby" 0 false

def large : Server := .new 1 "hub2" "127.0.0.1:19134" .rakNet "lobby" 2 false

def hubs : Registry := fun key =>
  if key = "hub1" then some small else if key = "hub2" then some large else none

theorem registered {srv : Server} : hubs.Registered srv ↔ srv = small ∨ srv = large := by
  constructor
  · rintro ⟨key, found⟩
    unfold hubs at found
    split at found
    · exact .inl (Option.some.inj found).symm
    · split at found
      · exact .inr (Option.some.inj found).symm
      · cases found
  · rintro (rfl | rfl)
    · exact ⟨"hub1", rfl⟩
    · exact ⟨"hub2", rfl⟩

theorem weights {srv : Server} (in_ : hubs.Registered srv) : srv.weight ≠ 0 := by
  rcases registered.mp in_ with rfl | rfl
  · exact Server.new_weight _ _ _ _ _ _ _
  · exact Server.new_weight _ _ _ _ _ _ _

theorem iterates : hubs.Iterates ["hub2", "hub1"] where
  nodup := by decide
  mem := by
    intro key
    unfold hubs
    by_cases first : key = "hub1"
    · simp [first]
    · by_cases second : key = "hub2"
      · simp [second]
      · simp [first, second]

/-- Three players on the small hub, four on the large one. -/
def evening : Load where
  draining := fun _ => false
  healthy := fun _ => true
  playerCount := fun srv => if srv = small then 3 else 4

theorem admissible {srv : Server} (in_ : hubs.Registered srv) : evening.Admissible srv where
  nonneg := by
    unfold evening
    dsimp only
    split <;> decide
  count := by
    unfold evening
    dsimp only
    split <;> decide
  weight := weights in_

end Hubs

/-- The large hub has two players for each unit of weight, the small one three; nobody is
in the group "games". -/
theorem find_server_least_share_hubs :
    groupedFindServer Hubs.hubs Hubs.evening (fun _ => ["hub2", "hub1"])
      (newGroupedLoadBalancer "games" ["lobby"]) = some Hubs.large := by
  obtain ⟨none_iff, found, -⟩ := find_server_least_share (newGroupedLoadBalancer "games" ["lobby"])
    (fun _ => ["hub2", "hub1"]) (fun _ => Hubs.iterates) fun _ => Hubs.admissible
  cases result : groupedFindServer Hubs.hubs Hubs.evening (fun _ => ["hub2", "hub1"])
      (newGroupedLoadBalancer "games" ["lobby"]) with
  | none =>
      have down := none_iff.mp result "lobby" (by decide) Hubs.large (Hubs.registered.mpr (.inr rfl)) rfl
      cases down
  | some srv =>
      obtain ⟨-, -, -, -, least⟩ := found srv result
      rcases Hubs.registered.mp least.mem.1 with rfl | rfl
      · have share : ((3 : ℤ) : ℚ) / (1 : ℕ) ≤ ((4 : ℤ) : ℚ) / (2 : ℕ) :=
          least.least Hubs.large ⟨Hubs.registered.mpr (.inr rfl), rfl⟩ rfl
        norm_num at share
      · rfl

/-! ## One join after the other -/

/-- The two implementations of `LoadBalancer`. -/
inductive LoadBalancer where
  | split
  | grouped (groups : List String)

namespace LoadBalancer

def findServer (b : LoadBalancer) (r : Registry) (load : Load) (order : Nat → List String) :
    Option Server :=
  match b with
  | .split => splitFindServer r load (order 0)
  | .grouped groups => groupedFindServer r load order groups

/-- The servers the players are split across while all of them are available: all, or
those of the first listed group that has any. -/
def Pool (b : LoadBalancer) (r : Registry) (srv : Server) : Prop :=
  match b with
  | .split => r.Registered srv
  | .grouped groups =>
      r.Registered srv ∧ ∃ earlier later, groups = earlier ++ srv.group :: later ∧
        ∀ group ∈ earlier, ∀ s, r.Registered s → s.group ≠ group

/-- Joins: each calls `FindServer` and then `IncrementPlayerCount` on the result.  An
action is the orders in which that call iterates over the registry. -/
def joins (b : LoadBalancer) (r : Registry) : Machine Load (Nat → List String) where
  start := { draining := fun _ => false, healthy := fun _ => true, playerCount := fun _ => 0 }
  next := fun load order =>
    (b.findServer r load order).map fun srv =>
      { load with playerCount := credit load.playerCount (srv, 1) }

/-- The orders are orders of the registry, and nobody has more than 2^20 players. -/
def Regular (r : Registry) (load : Load) (order : Nat → List String) : Prop :=
  (∀ k, r.Iterates (order k)) ∧ ∀ srv, r.Registered srv → load.playerCount srv ≤ 2 ^ 20

/-- What holds between two joins. -/
structure Joined (b : LoadBalancer) (r : Registry) (load : Load) : Prop where
  available : ∀ srv, load.available srv = true
  nonneg : ∀ srv, 0 ≤ load.playerCount srv
  proportional : Proportional (fun srv => srv.weight.toNat) (b.Pool r) load.playerCount

/-- The first listed group with a server is one group. -/
theorem first_group {P : String → Prop} {earlier earlier' later later' : List String}
    {group group' : String} (same : earlier ++ group :: later = earlier' ++ group' :: later')
    (skipped : ∀ g ∈ earlier, ¬ P g) (skipped' : ∀ g ∈ earlier', ¬ P g) (here : P group)
    (here' : P group') : group = group' := by
  induction earlier generalizing earlier' with
  | nil =>
      cases earlier' with
      | nil => exact (List.cons.inj same).1
      | cons g earlier' =>
          obtain ⟨rfl, -⟩ := List.cons.inj same
          exact absurd here (skipped' _ List.mem_cons_self)
  | cons g earlier ih =>
      cases earlier' with
      | nil =>
          obtain ⟨rfl, -⟩ := List.cons.inj same
          exact absurd here' (skipped _ List.mem_cons_self)
      | cons g' earlier' =>
          exact ih (List.cons.inj same).2 (fun x in_ => skipped x (List.mem_cons_of_mem g in_))
            fun x in_ => skipped' x (List.mem_cons_of_mem g' in_)

/-- With every server available, `FindServer` returns a server with the least share of
the pool. -/
theorem findServer_pool {b : LoadBalancer} {order : Nat → List String} {srv : Server}
    (available : ∀ srv, load.available srv = true) (iterates : ∀ k, r.Iterates (order k))
    (admissible : ∀ srv, r.Registered srv → load.Admissible srv)
    (found : b.findServer r load order = some srv) :
    r.Registered srv ∧ ∀ other, b.Pool r other →
      r.Registered other ∧ load.share srv ≤ load.share other := by
  cases b with
  | split =>
      have least := (splitFindServer_spec (iterates 0) admissible).2 srv found
      exact ⟨least.mem, fun other in_ => ⟨in_, least.least other in_ (available other)⟩⟩
  | grouped groups =>
      obtain ⟨earlier, later, split, skipped, least⟩ :=
        (groupedFindServer_spec iterates admissible).2 srv found
      refine ⟨least.mem.1, ?_⟩
      rintro other ⟨registered, earlier', later', split', skipped'⟩
      have own : srv.group = other.group := by
        refine first_group (P := fun g => ∃ s, r.Registered s ∧ s.group = g) (split ▸ split') ?_ ?_
          ⟨srv, least.mem⟩ ⟨other, registered, rfl⟩
        · rintro g in_ ⟨s, present, group⟩
          have down := skipped g in_ s present group
          rw [available s] at down
          cases down
        · rintro g in_ ⟨s, present, group⟩
          exact skipped' g in_ s present group
      exact ⟨registered, least.least other ⟨registered, own.symm⟩ (available other)⟩

/-- While the pool has a server, `FindServer` finds one. -/
theorem findServer_isSome {b : LoadBalancer} {order : Nat → List String} {srv : Server}
    (available : ∀ srv, load.available srv = true) (iterates : ∀ k, r.Iterates (order k))
    (admissible : ∀ srv, r.Registered srv → load.Admissible srv) (in_ : b.Pool r srv) :
    ∃ found, b.findServer r load order = some found := by
  apply Option.ne_none_iff_exists'.mp
  intro none_
  cases b with
  | split =>
      have down := (splitFindServer_spec (iterates 0) admissible).1.mp none_ srv in_
      rw [available srv] at down
      cases down
  | grouped groups =>
      obtain ⟨registered, earlier, later, rfl, -⟩ := in_
      have down := (groupedFindServer_spec iterates admissible).1.mp none_ srv.group
        (List.mem_append_right earlier List.mem_cons_self) srv registered rfl
      rw [available srv] at down
      cases down

theorem joins_next {b : LoadBalancer} {order : Nat → List String} {srv : Server}
    (found : b.findServer r load order = some srv) : (b.joins r).next load order =
      some { load with playerCount := credit load.playerCount (srv, 1) } := by
  unfold joins
  simp only [found, Option.map_some]

theorem joined_start (b : LoadBalancer) (r : Registry) : Joined b r (b.joins r).start where
  available := fun _ => rfl
  nonneg := fun _ => Int.le_refl 0
  proportional := proportional_zero _ _

theorem Joined.next {b : LoadBalancer} {load' : Load} {order : Nat → List String}
    (weights : ∀ srv, r.Registered srv → srv.weight ≠ 0) (joined : Joined b r load)
    (regular : Regular r load order) (taken : (b.joins r).next load order = some load') :
    Joined b r load' := by
  obtain ⟨srv, found, rfl⟩ := Option.map_eq_some_iff.mp taken
  have admissible : ∀ srv, r.Registered srv → load.Admissible srv := fun srv in_ =>
    ⟨joined.nonneg srv, regular.2 srv in_, weights srv in_⟩
  obtain ⟨registered, least⟩ := findServer_pool joined.available regular.1 admissible found
  constructor
  · exact joined.available
  · intro other
    show 0 ≤ credit load.playerCount (srv, 1) other
    have before := joined.nonneg other
    unfold credit
    by_cases own : other = srv
    · subst own
      rw [Function.update_self]
      exact Int.add_nonneg before Int.one_nonneg
    · rw [Function.update_of_ne own]
      exact before
  · refine joined.proportional.credit fun other in_ => ?_
    obtain ⟨present, share⟩ := least other in_
    unfold Load.share at share
    rw [div_le_div_iff₀ (Nat.cast_pos.mpr (admissible srv registered).weight_pos)
      (Nat.cast_pos.mpr (admissible other present).weight_pos)] at share
    exact_mod_cast share

theorem joined {b : LoadBalancer} (weights : ∀ srv, r.Registered srv → srv.weight ≠ 0)
    (reached : (b.joins r).Reach (Regular r) load) : Joined b r load := by
  refine reached.invariant (joined_start b r) ?_
  intro load load' order _ joined regular taken
  exact joined.next weights regular taken

/-- **Placement stays proportional.**  After any number of joins, each with any order of
iteration, the counts of the pool are in proportion to the weights, up to one player. -/
theorem placement_proportional {b : LoadBalancer} (weights : ∀ srv, r.Registered srv → srv.weight ≠ 0)
    (reached : (b.joins r).Reach (Regular r) load) (i j : Server) (in_i : b.Pool r i)
    (in_j : b.Pool r j) :
    (load.playerCount i - 1) * j.weight.toNat ≤ load.playerCount j * i.weight.toNat :=
  (joined weights reached).proportional i j in_i in_j

/-- Players join the two hubs one after the other. -/
theorem hubs_fill (n : Nat) (within : n ≤ 2 ^ 20) :
    ∃ load, (joins .split Hubs.hubs).Reach (Regular Hubs.hubs) load ∧
      load.playerCount Hubs.small + load.playerCount Hubs.large = n := by
  induction n with
  | zero => exact ⟨_, .start, rfl⟩
  | succ n ih =>
      obtain ⟨load, reached, total⟩ := ih (Nat.le_of_succ_le within)
      have held := joined (fun _ => Hubs.weights) reached
      have small := held.nonneg Hubs.small
      have large := held.nonneg Hubs.large
      have count : ∀ srv, Hubs.hubs.Registered srv → load.playerCount srv ≤ 2 ^ 20 := by
        intro srv in_
        rcases Hubs.registered.mp in_ with rfl | rfl <;> omega
      have admissible : ∀ srv, Hubs.hubs.Registered srv → load.Admissible srv := fun srv in_ =>
        ⟨held.nonneg srv, count srv in_, Hubs.weights in_⟩
      obtain ⟨srv, found⟩ := findServer_isSome (b := .split) held.available
        (fun _ : Nat => Hubs.iterates) admissible (Hubs.registered.mpr (.inl rfl))
      have registered :=
        (findServer_pool held.available (fun _ => Hubs.iterates) admissible found).1
      refine ⟨_, .step reached ⟨fun _ => Hubs.iterates, count⟩ (joins_next found), ?_⟩
      have apart : Hubs.small ≠ Hubs.large := by decide
      rcases Hubs.registered.mp registered with rfl | rfl
      · simp only [credit, Function.update_self, Function.update_of_ne apart.symm]
        omega
      · simp only [credit, Function.update_self, Function.update_of_ne apart]
        omega

/-- Six players join the two hubs, twice with equal shares before them: two are on the
small one and four on the large one, whichever was found first. -/
theorem placement_proportional_hubs : ∃ load, (joins .split Hubs.hubs).Reach (Regular Hubs.hubs) load ∧
    load.playerCount Hubs.small = 2 ∧ load.playerCount Hubs.large = 4 := by
  have small : LoadBalancer.split.Pool Hubs.hubs Hubs.small := Hubs.registered.mpr (.inl rfl)
  have large : LoadBalancer.split.Pool Hubs.hubs Hubs.large := Hubs.registered.mpr (.inr rfl)
  obtain ⟨load, reached, total⟩ := hubs_fill 6 (by decide)
  have most : (load.playerCount Hubs.small - 1) * 2 ≤ load.playerCount Hubs.large * 1 :=
    placement_proportional (fun _ => Hubs.weights) reached Hubs.small Hubs.large small large
  have most' : (load.playerCount Hubs.large - 1) * 1 ≤ load.playerCount Hubs.small * 2 :=
    placement_proportional (fun _ => Hubs.weights) reached Hubs.large Hubs.small large small
  exact ⟨load, reached, by omega, by omega⟩

end LoadBalancer

end Portal
