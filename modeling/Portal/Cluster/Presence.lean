/-
# Cluster.Presence — which proxy a player is on, in one shared store

Any number of proxies announce and remove their players in one Redis.  A record is
the text `<proxyID>|<server>` under the player's folded name; `Lookup` cuts it at
the first `|`, and `removeScript` deletes it when it starts with `<proxyID>|`.  Both
read the proxy ID back out of the text, and neither can when the ID has a `|` of its
own.

`Presence` is what the store is for: a map from players to the proxy and server
they were last announced on.  As long as no proxy ID has a `|` the store is that map
(`Represents`, `apply_represents`), and the map is what the history says: the last
`Announce` for the player, unless its proxy has removed it since
(`presence_iff_announced`).  A single proxy ID with a `|` ends that
(`presence_round_trip`): its players look up as players of another proxy, and that
other proxy's `Remove` takes them offline (`joined_id_misread`).
-/
import Mathlib.Data.List.Induction
import Mathlib.Logic.Function.Basic
import Portal.Theory.Separator
import Portal.Theory.Transition

namespace Portal.Cluster

open Portal.Theory.Separator Portal.Theory.Transition

set_option autoImplicit false

/-- A Go string: any bytes. -/
abbrev Text := List UInt8

/-- The string keys of a Redis database. -/
abbrev Redis := Text → Option Text

/-- `'|'`. -/
def separator : UInt8 := 124

/-- An operation of some proxy; each is one atomic step of the Redis server. -/
inductive Op where
  | announce (proxyID playerName serverName : Text)
  | remove (proxyID playerName : Text)
  deriving DecidableEq

/-- The proxy that makes the call. -/
def Op.proxyID : Op → Text
  | .announce proxyID _ _ => proxyID
  | .remove proxyID _ => proxyID

/-- The player the call is about. -/
def Op.playerName : Op → Text
  | .announce _ playerName _ => playerName
  | .remove _ playerName => playerName

section Store

variable (toLower : Text → Text)

def playerKey (playerName : Text) : Text :=
  -- "portal:player:"
  [112, 111, 114, 116, 97, 108, 58, 112, 108, 97, 121, 101, 114, 58] ++ toLower playerName

/-- `RedisBackend.Announce`: one `SET`. -/
def announce (proxyID playerName serverName : Text) (redis : Redis) : Redis :=
  Function.update redis (playerKey toLower playerName) (some (proxyID ++ separator :: serverName))

/-- `removeScript`: the owner is checked by a prefix of the record. -/
def removeScript (key argv : Text) (redis : Redis) : Redis :=
  match redis key with
  | none => redis
  | some v => if v.take argv.length = argv then Function.update redis key none else redis

/-- `RedisBackend.Remove`: one run of the script. -/
def remove (proxyID playerName : Text) (redis : Redis) : Redis :=
  removeScript (playerKey toLower playerName) (proxyID ++ [separator]) redis

/-- The script deletes the key, or nothing. -/
theorem remove_eq (proxyID playerName : Text) (redis : Redis) :
    remove toLower proxyID playerName redis = redis ∨
      remove toLower proxyID playerName redis =
        Function.update redis (playerKey toLower playerName) none := by
  unfold remove removeScript
  cases redis (playerKey toLower playerName) with
  | none => exact .inl rfl
  | some v =>
      by_cases own : v.take (proxyID ++ [separator]).length = proxyID ++ [separator]
      · exact .inr (if_pos own)
      · exact .inl (if_neg own)

/-- `RedisBackend.Lookup` on a Redis that answers: the proxy, the server, and whether
the player was found. -/
def lookup (playerName : Text) (redis : Redis) : Text × Text × Bool :=
  match redis (playerKey toLower playerName) with
  | none => ([], [], false)
  | some val =>
      match cut separator val with
      | none => ([], [], false)
      | some (proxyID, serverName) => (proxyID, serverName, true)

def Op.apply (redis : Redis) : Op → Redis
  | .announce proxyID playerName serverName =>
      Cluster.announce toLower proxyID playerName serverName redis
  | .remove proxyID playerName => Cluster.remove toLower proxyID playerName redis

/-- Any interleaving of the proxies' operations, with the operations so far. -/
def machine : Machine (Redis × List Op) Op :=
  Machine.record ⟨fun _ => none, fun redis op => some (op.apply toLower redis)⟩ fun _ op => [op]

/-- The last `Announce` for the player was made by `proxyID` with `serverName`, and no
`Remove` of that player by that proxy followed. -/
def Announced (history : List Op) (playerName proxyID serverName : Text) : Prop :=
  ∃ before called after, history = before ++ .announce proxyID called serverName :: after ∧
    toLower called = toLower playerName ∧
    ∀ op ∈ after, toLower op.playerName = toLower playerName →
      ∃ other called, op = .remove other called ∧ other ≠ proxyID

/-- Every lookup tells what the history says. -/
def Faithful (redis : Redis) (history : List Op) : Prop :=
  ∀ playerName,
    (∀ proxyID serverName, lookup toLower playerName redis = (proxyID, serverName, true) ↔
      Announced toLower history playerName proxyID serverName) ∧
    ((∀ proxyID serverName, ¬ Announced toLower history playerName proxyID serverName) →
      lookup toLower playerName redis = ([], [], false))

end Store

/-! ## What the store is for -/

/-- Folded names, and the proxy and server each player was last announced on. -/
abbrev Presence := Text → Option (Text × Text)

section Refinement

variable {toLower : Text → Text}

/-- What an operation means. -/
def Op.record (toLower : Text → Text) (presence : Presence) : Op → Presence
  | .announce proxyID playerName serverName =>
      Function.update presence (toLower playerName) (some (proxyID, serverName))
  | .remove proxyID playerName =>
      if (presence (toLower playerName)).map Prod.fst = some proxyID then
        Function.update presence (toLower playerName) none
      else presence

/-- The text of a record. -/
def encode (record : Text × Text) : Text := record.1 ++ separator :: record.2

/-- The store holds the map, and no owner has a separator. -/
structure Represents (toLower : Text → Text) (redis : Redis) (presence : Presence) : Prop where
  stored : ∀ playerName, redis (playerKey toLower playerName) =
    (presence (toLower playerName)).map encode
  free : ∀ folded record, presence folded = some record → separator ∉ record.1

theorem playerKey_inj {n m : Text} :
    playerKey toLower n = playerKey toLower m ↔ toLower n = toLower m :=
  ⟨fun same => List.append_cancel_left same, fun same => by unfold playerKey; rw [same]⟩

theorem lookup_of_represents {redis : Redis} {presence : Presence}
    (rep : Represents toLower redis presence) (playerName : Text) :
    lookup toLower playerName redis =
      match presence (toLower playerName) with
      | none => ([], [], false)
      | some record => (record.1, record.2, true) := by
  unfold lookup
  rw [rep.stored]
  cases found : presence (toLower playerName) with
  | none => rfl
  | some record =>
      have split : cut separator (encode record) = some (record.1, record.2) :=
        cut_join (rep.free _ _ found)
      simp only [Option.map_some, split]

/-- A prefix of the record tells its owner. -/
theorem owner_of_prefix {proxyID : Text} {record : Text × Text} (free : separator ∉ proxyID)
    (owner : separator ∉ record.1) :
    (encode record).take (proxyID ++ [separator]).length = proxyID ++ [separator] ↔
      record.1 = proxyID := by
  rw [eq_comm, ← List.prefix_iff_eq_take]
  constructor
  · intro head
    exact (head_of_join free owner head).symm
  · rintro rfl
    exact ⟨record.2, by simp [encode]⟩

/-- A record written, or erased, on both levels. -/
theorem Represents.update {redis : Redis} {presence : Presence}
    (rep : Represents toLower redis presence) (playerName : Text) (record : Option (Text × Text))
    (free : ∀ r, record = some r → separator ∉ r.1) :
    Represents toLower
      (Function.update redis (playerKey toLower playerName) (record.map encode))
      (Function.update presence (toLower playerName) record) where
  stored := by
    intro m
    by_cases same : toLower m = toLower playerName
    · rw [playerKey_inj.mpr same, same, Function.update_self, Function.update_self]
    · rw [Function.update_of_ne (playerKey_inj.not.mpr same), Function.update_of_ne same]
      exact rep.stored m
  free := by
    intro folded r found
    by_cases same : folded = toLower playerName
    · rw [same, Function.update_self] at found
      exact free r found
    · rw [Function.update_of_ne same] at found
      exact rep.free folded r found

theorem remove_represents {redis : Redis} {presence : Presence}
    (rep : Represents toLower redis presence) {proxyID : Text} (free : separator ∉ proxyID)
    (playerName : Text) :
    Represents toLower (remove toLower proxyID playerName redis)
      (Op.record toLower presence (.remove proxyID playerName)) := by
  have stored := rep.stored playerName
  unfold remove removeScript Op.record
  cases found : presence (toLower playerName) with
  | none =>
      rw [found] at stored
      simp only [stored, found, Option.map_none, reduceCtorEq, if_false]
      exact rep
  | some record =>
      rw [found] at stored
      have owner := owner_of_prefix free (rep.free _ _ found)
      simp only [stored, found, Option.map_some, Option.some.injEq, owner]
      split
      · exact rep.update playerName none nofun
      · exact rep

/-- **Refinement**: on the store an operation does what it means. -/
theorem apply_represents {redis : Redis} {presence : Presence}
    (rep : Represents toLower redis presence) (op : Op) (free : separator ∉ op.proxyID) :
    Represents toLower (op.apply toLower redis) (op.record toLower presence) := by
  cases op with
  | announce proxyID playerName serverName =>
      refine rep.update playerName (some (proxyID, serverName)) ?_
      rintro r ⟨⟩
      exact free
  | remove proxyID playerName => exact remove_represents rep free playerName

/-! ## What the history says -/

/-- What the operations so far mean. -/
def recorded (toLower : Text → Text) (history : List Op) : Presence :=
  history.foldl (Op.record toLower) fun _ => none

theorem record_announce {presence : Presence} {n m p q srv srv' : Text} :
    Op.record toLower presence (.announce q m srv') (toLower n) = some (p, srv) ↔
      (toLower m = toLower n ∧ q = p ∧ srv' = srv) ∨
      (toLower m ≠ toLower n ∧ presence (toLower n) = some (p, srv)) := by
  unfold Op.record
  by_cases same : toLower m = toLower n
  · simp [same]
  · simp [same, Function.update_of_ne (Ne.symm same)]

theorem record_remove {presence : Presence} {n m p q srv : Text} :
    Op.record toLower presence (.remove q m) (toLower n) = some (p, srv) ↔
      presence (toLower n) = some (p, srv) ∧ (toLower m = toLower n → q ≠ p) := by
  simp only [Op.record]
  by_cases same : toLower m = toLower n
  · rw [same]
    by_cases own : (presence (toLower n)).map Prod.fst = some q
    · -- the owner itself removes the record
      rw [if_pos own, Function.update_self]
      refine ⟨nofun, fun ⟨found, other⟩ => absurd ?_ (other rfl)⟩
      rw [found] at own
      exact (Option.some.inj own).symm
    · rw [if_neg own]
      refine ⟨fun found => ⟨found, fun _ owned => own ?_⟩, And.left⟩
      rw [found, owned]
      rfl
  · have other : toLower n ≠ toLower m := Ne.symm same
    split <;> simp [same, Function.update_of_ne other]

/-- One more operation: it is the announcement itself, or one that leaves it standing. -/
theorem announced_snoc {history : List Op} {op : Op} {n p srv : Text} :
    Announced toLower (history ++ [op]) n p srv ↔
      (∃ m, op = .announce p m srv ∧ toLower m = toLower n) ∨
      (Announced toLower history n p srv ∧ (toLower op.playerName = toLower n →
        ∃ other called, op = .remove other called ∧ other ≠ p)) := by
  constructor
  · rintro ⟨before, m, after, parts, same, later⟩
    obtain rfl | ⟨after, last, rfl⟩ := List.eq_nil_or_concat after
    · obtain ⟨-, tail⟩ := List.append_inj' parts rfl
      cases tail
      exact .inl ⟨m, rfl, same⟩
    · rw [List.concat_eq_append, ← List.cons_append, ← List.append_assoc] at parts
      obtain ⟨rfl, tail⟩ := List.append_inj' parts rfl
      cases tail
      refine .inr ⟨⟨before, m, after, rfl, same, fun op mem => later op ?_⟩, later op ?_⟩ <;> simp_all
  · rintro (⟨m, rfl, same⟩ | ⟨⟨before, m, after, rfl, same, later⟩, spared⟩)
    · exact ⟨history, m, [], rfl, same, nofun⟩
    · refine ⟨before, m, after ++ [op], by simp, same, fun op' mem => ?_⟩
      obtain old | rfl := by simpa using mem
      · exact later op' old
      · exact spared

/-- The map holds the last `Announce` that its proxy has not taken back. -/
theorem presence_iff_announced (history : List Op) (n p srv : Text) :
    recorded toLower history (toLower n) = some (p, srv) ↔ Announced toLower history n p srv := by
  induction history using List.reverseRecOn with
  | nil =>
      constructor
      · exact nofun
      · rintro ⟨before, _, _, parts, -⟩
        simp at parts
  | append_singleton history op ih =>
      rw [announced_snoc, ← ih]
      simp only [recorded, List.foldl_append, List.foldl_cons, List.foldl_nil]
      cases op with
      | announce q m srv' =>
          rw [record_announce]
          by_cases same : toLower m = toLower n <;> simp [same, Op.playerName]
      | remove q m =>
          rw [record_remove]
          by_cases same : toLower m = toLower n <;> simp [same, Op.playerName]

/-! ## Round trip -/

/-- A store that holds the map tells what the history says. -/
theorem Represents.faithful {redis : Redis} {history : List Op}
    (rep : Represents toLower redis (recorded toLower history)) :
    Faithful toLower redis history := by
  intro n
  rw [lookup_of_represents rep]
  cases found : recorded toLower history (toLower n) with
  | none =>
      refine ⟨fun p srv => ?_, fun _ => rfl⟩
      rw [← presence_iff_announced, found]
      simp
  | some record =>
      constructor
      · intro p srv
        rw [← presence_iff_announced, found]
        simp [Prod.ext_iff]
      · intro offline
        exact absurd ((presence_iff_announced history n record.1 record.2).mp found) (offline _ _)

/-- What holds of every run of proxies whose IDs are free of separators. -/
theorem represents {ok : Redis × List Op → Op → Prop} {s : Redis × List Op}
    (free : ∀ s op, ok s op → separator ∉ op.proxyID) (reached : (machine toLower).Reach ok s) :
    Represents toLower s.1 (recorded toLower s.2) := by
  refine reached.invariant (I := fun s => Represents toLower s.1 (recorded toLower s.2)) ?_ ?_
  · exact ⟨fun _ => rfl, nofun⟩
  intro s s' op _ rep meets taken
  cases taken
  have step := apply_represents rep op (free s op meets)
  simpa [recorded] using step

/-- The text of an announcement is read back as it was written exactly when the proxy
ID is free of separators. -/
theorem lookup_announce_iff {redis : Redis} {proxyID playerName serverName : Text} :
    lookup toLower playerName (announce toLower proxyID playerName serverName redis) =
      (proxyID, serverName, true) ↔ separator ∉ proxyID := by
  unfold lookup announce
  rw [Function.update_self, ← cut_join_iff (b := serverName)]
  cases parts : cut separator (proxyID ++ separator :: serverName) with
  | none => simp [parts]
  | some pair => simp [parts, Prod.ext_iff]

end Refinement

/-- The proxies of a cluster look up one another's players as announced, in every run,
exactly when no proxy ID has a separator. -/
theorem presence_round_trip (toLower : Text → Text) (ids : Set Text) :
    (∀ s, (machine toLower).Reach (fun _ op => op.proxyID ∈ ids) s → Faithful toLower s.1 s.2) ↔
      ∀ proxyID ∈ ids, separator ∉ proxyID := by
  constructor
  · intro faithful proxyID used
    have reached : (machine toLower).Reach (fun _ op => op.proxyID ∈ ids)
        (announce toLower proxyID [] [] fun _ => none, [.announce proxyID [] []]) :=
      .step (a := .announce proxyID [] []) .start used rfl
    refine lookup_announce_iff.mp ((faithful _ reached []).1 proxyID [] |>.mpr ?_)
    exact ⟨[], [], [], rfl, rfl, nofun⟩
  · intro free s reached
    exact (represents (fun _ op used => free op.proxyID used) reached).faithful

/-- Lower case of the ASCII letters. -/
def asciiLower (text : Text) : Text := text.map fun b => if 65 ≤ b ∧ b ≤ 90 then b + 32 else b

/-- Proxy "a|b" announces player "P" on server "s".  Player "p" is found on proxy "a", on
a server "b|s", and proxy "a" takes them offline. -/
theorem joined_id_misread : ∃ s s' : Redis × List Op,
    (machine asciiLower).Reachable s ∧ s.2 = [.announce [97, 124, 98] [80] [115]] ∧
    lookup asciiLower [112] s.1 = ([97], [98, 124, 115], true) ∧
    ¬ Faithful asciiLower s.1 s.2 ∧
    (machine asciiLower).next s (.remove [97] [112]) = some s' ∧
    lookup asciiLower [112] s'.1 = ([], [], false) ∧ ¬ Faithful asciiLower s'.1 s'.2 := by
  have reached : (machine asciiLower).Reachable _ :=
    Machine.exec_reach [.announce [97, 124, 98] [80] [115]] rfl
  refine ⟨_, _, reached, rfl, by decide, fun faithful => ?_, rfl, by decide, fun faithful => ?_⟩
  · have found := ((faithful [112]).1 [97, 124, 98] [115]).mpr ⟨[], [80], [], rfl, by decide, nofun⟩
    revert found
    decide
  · -- the other proxy's removal is no reason to be offline
    have found := ((faithful [112]).1 [97, 124, 98] [115]).mpr
      ⟨[], [80], [.remove [97] [112]], rfl, by decide, by
        simp only [List.mem_singleton]
        rintro _ rfl -
        exact ⟨[97], [112], rfl, by decide⟩⟩
    revert found
    decide

end Portal.Cluster
