/-
# Socket.ServerList — the list of servers, decoded from any payload

The number of entries is the first thing on the wire, and whoever sends the packet
chooses it.  `ServerListResponse.Unmarshal` makes no room for them ahead and runs its loop
until the count is reached or a read panics.

`Entries bs pieces entries rest` says that the entries are read one after the other, each
from a piece of its own, and what is left of the bytes.  Whatever the count, the loop
reads entries in this way and appends them (`loop_entries`), and since each takes a byte
for its name and eight for its player count, the payload bounds their number
(`serverList_bounded`).
-/
import Portal.Socket.Wire

namespace Portal.Socket

open Portal.Theory.Codec

set_option autoImplicit false

/-- How many bytes the readers take that the list uses. -/
structure Prims.Sizes (codec : Prims) : Prop where
  uint32 : codec.uint32.Takes (· = 4)
  string : codec.string.Takes (1 ≤ ·)
  int64 : codec.int64.Takes (· = 8)

/-- Entries read from consecutive pieces. -/
inductive Entries (codec : Prims) :
    List UInt8 → List (List UInt8) → List ServerEntry → List UInt8 → Prop
  | done (bs : List UInt8) : Entries codec bs [] [] bs
  | entry {piece middle bs rest : List UInt8} {pieces : List (List UInt8)} {e : ServerEntry}
      {entries : List ServerEntry} (name : codec.string.read (piece ++ bs) = .ok (e.name, middle))
      (playerCount : codec.int64.read middle = .ok (e.playerCount, bs))
      (more : Entries codec bs pieces entries rest) :
      Entries codec (piece ++ bs) (piece :: pieces) (e :: entries) rest

variable {codec : Prims} {bs rest : List UInt8} {pieces : List (List UInt8)}
  {entries : List ServerEntry}

theorem Entries.flatten (read : Entries codec bs pieces entries rest) :
    bs = pieces.flatten ++ rest ∧ pieces.length = entries.length := by
  induction read with
  | done bs => exact ⟨rfl, rfl⟩
  | entry _ _ _ ih =>
      obtain ⟨same, length⟩ := ih
      refine ⟨?_, congrArg (· + 1) length⟩
      rw [List.flatten_cons, List.append_assoc, ← same]

/-- An entry takes nine bytes. -/
theorem Entries.length (sizes : codec.Sizes) (read : Entries codec bs pieces entries rest) :
    9 * entries.length + rest.length ≤ bs.length := by
  induction read with
  | done bs => exact Nat.le_of_eq (Nat.zero_add _)
  | @entry piece middle bs rest pieces e entries name playerCount _ ih =>
      obtain ⟨ofName, same, least⟩ := sizes.string _ _ _ name
      obtain ⟨ofCount, rfl, eight⟩ := sizes.int64 _ _ _ playerCount
      have total := congrArg List.length same
      simp only [List.length_append, List.length_cons] at total ⊢
      omega

open Decoder

/-- **One round** reads an entry from a piece of its own and appends it, or it panics and
leaves the list as it is. -/
theorem entry_round (sizes : codec.Sizes) (pk : ServerListResponse) (bs : List UInt8) :
    (∃ err, ServerEntry.unmarshal codec pk bs = (pk, .error err)) ∨
      ∃ (piece middle after : List UInt8) (e : ServerEntry), bs = piece ++ after ∧
        codec.string.read bs = .ok (e.name, middle) ∧
        codec.int64.read middle = .ok (e.playerCount, after) ∧
        ServerEntry.unmarshal codec pk bs = (⟨pk.servers ++ [e]⟩, .ok after) := by
  unfold ServerEntry.unmarshal Decoder.bind
  cases name : codec.string.read bs with
  | error err => exact .inl ⟨err, rfl⟩
  | ok named =>
      obtain ⟨text, middle⟩ := named
      simp only
      cases count : codec.int64.read middle with
      | error err => exact .inl ⟨err, rfl⟩
      | ok counted =>
          obtain ⟨playerCount, after⟩ := counted
          obtain ⟨ofName, rfl, -⟩ := sizes.string _ _ _ name
          obtain ⟨ofCount, rfl, -⟩ := sizes.int64 _ _ _ count
          exact .inr ⟨ofName ++ ofCount, _, after, ⟨text, playerCount⟩,
            (List.append_assoc ..).symm, rfl, count, rfl⟩

/-- **The loop.**  It appends the entries it reads to those it has, and goes through all of
its rounds unless a read panics. -/
theorem loop_entries (sizes : codec.Sizes) (n : Nat) (pk : ServerListResponse) (bs : List UInt8) :
    ∃ pieces entries rest, Entries codec bs pieces entries rest ∧
      (loop n (ServerEntry.unmarshal codec) pk bs).1 = ⟨pk.servers ++ entries⟩ ∧
      ∀ left, (loop n (ServerEntry.unmarshal codec) pk bs).2 = .ok left →
        entries.length = n ∧ left = rest := by
  have unchanged : pk = ⟨pk.servers ++ []⟩ := by rw [List.append_nil]
  induction n generalizing pk bs with
  | zero =>
      refine ⟨[], [], bs, .done bs, unchanged, ?_⟩
      intro left ok
      exact ⟨rfl, (Except.ok.inj ok).symm⟩
  | succ n ih =>
      rw [loop, seq]
      rcases entry_round sizes pk bs with ⟨err, panics⟩ | ⟨piece, middle, after, e, rfl, name, count, round⟩
      · rw [panics]
        refine ⟨[], [], bs, .done bs, unchanged, ?_⟩
        intro left ok
        cases ok
      · rw [round]
        obtain ⟨pieces, entries, rest, read, appended, all⟩ :=
          ih ⟨pk.servers ++ [e]⟩ after (by rw [List.append_nil])
        refine ⟨piece :: pieces, e :: entries, rest, .entry name count read, ?_, ?_⟩
        · simp only [appended, List.append_assoc, List.singleton_append]
        · intro left ok
          obtain ⟨length, same⟩ := all left ok
          exact ⟨congrArg (· + 1) length, same⟩

/-- **A payload bounds the list it decodes to.**  For every payload and whatever was in the
object before: the decode panics on the count and leaves the object as it is, or it stops
with entries read one after the other from the bytes behind the count, at most one for
each nine of them; and it succeeds only with as many as were announced. -/
theorem serverList_bounded (sizes : codec.Sizes) (pk : ServerListResponse) (payload : List UInt8) :
    (∃ err, codec.uint32.read payload = .error err ∧
      ServerListResponse.unmarshal codec pk payload = (pk, .error err)) ∨
    ∃ (first rest : List UInt8) (pieces : List (List UInt8)) (announced : UInt32)
      (entries : List ServerEntry), payload = first ++ (pieces.flatten ++ rest) ∧ first.length = 4 ∧
      codec.uint32.read payload = .ok (announced, pieces.flatten ++ rest) ∧
      Entries codec (pieces.flatten ++ rest) pieces entries rest ∧
      (ServerListResponse.unmarshal codec pk payload).1 = ⟨entries⟩ ∧
      entries.length ≤ (payload.length - 4) / 9 ∧
      ∀ left, (ServerListResponse.unmarshal codec pk payload).2 = .ok left →
        entries.length = announced.toNat ∧ left = rest := by
  unfold ServerListResponse.unmarshal Decoder.bind
  cases count : codec.uint32.read payload with
  | error err => exact .inl ⟨err, rfl, rfl⟩
  | ok counted =>
      obtain ⟨announced, body⟩ := counted
      obtain ⟨first, rfl, four⟩ := sizes.uint32 _ _ _ count
      obtain ⟨pieces, entries, rest, read, appended, all⟩ :=
        loop_entries sizes announced.toNat ⟨[]⟩ body
      obtain ⟨rfl, -⟩ := read.flatten
      have nine := read.length sizes
      refine .inr ⟨first, rest, pieces, announced, entries, rfl, four, rfl, read, appended, ?_, all⟩
      rw [List.length_append, four, Nat.add_sub_cancel_left, Nat.le_div_iff_mul_le (by decide)]
      omega

theorem plain_sizes : Wire.plain.Sizes where
  uint32 := fixed_takes 4 _ _
  int64 := by
    show Wire.int64LE.Takes (· = 8)
    exact fixed_takes 8 _ _
  string := by
    intro bs s rest read
    simp only [Wire.plain, Wire.codePoints] at read
    cases chars : (counted (fixed 4 Char.toNat Char.ofNat)).read bs with
    | error err =>
        rw [chars] at read
        cases read
    | ok text =>
        rw [chars] at read
        obtain ⟨-, rfl⟩ := Prod.mk.inj (Except.ok.inj read)
        exact counted_takes (fixed_takes 4 _ _) bs text.1 text.2 chars

/-- A count of all ones before a single entry: the decode stops after that entry. -/
theorem serverList_bounded_huge_count :
    let payload := le 4 4294967295 ++ ServerEntry.marshal Wire.plain ⟨"a", 3⟩
    (ServerListResponse.unmarshal Wire.plain ⟨[⟨"old", 1⟩]⟩ payload).1 = ⟨[⟨"a", 3⟩]⟩ ∧
    ∃ (first rest : List UInt8) (pieces : List (List UInt8)) (announced : UInt32)
      (entries : List ServerEntry), payload = first ++ (pieces.flatten ++ rest) ∧ first.length = 4 ∧
      Wire.plain.uint32.read payload = .ok (announced, pieces.flatten ++ rest) ∧
      Entries Wire.plain (pieces.flatten ++ rest) pieces entries rest ∧
      (ServerListResponse.unmarshal Wire.plain ⟨[⟨"old", 1⟩]⟩ payload).1 = ⟨entries⟩ ∧
      entries.length ≤ (payload.length - 4) / 9 ∧
      ∀ left, (ServerListResponse.unmarshal Wire.plain ⟨[⟨"old", 1⟩]⟩ payload).2 = .ok left →
        entries.length = announced.toNat ∧ left = rest := by
  intro payload
  refine ⟨by decide, ?_⟩
  rcases serverList_bounded plain_sizes ⟨[⟨"old", 1⟩]⟩ payload with ⟨err, fails, -⟩ | bounded
  · cases fails
  · exact bounded

end Portal.Socket
