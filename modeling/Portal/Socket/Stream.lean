/-
# Socket.Stream — what a peer reads of the packets written to it

`merge k old x` is what the object of kind `k` holds after it held `old` and the
packet `x` was decoded into it: the fields of `x` that were on the wire, and those of
`old` elsewhere (`unmarshal_fills`).  So one `ReadPacket` returns `merge k old x` for a
frame of `x` (`readPacket_write`), and a stream is read back exactly if every packet
merges to itself.

For the requests a backend sends this is so whatever stood in the pool, also after a
frame that stopped its decoder midway (`request_stream_round_trip`): their decoders
write every field, and whether a payload decodes does not depend on the object
(`decode_isOk`).  Of the responses two kinds leave fields out of the frame
when these are empty.  `fresh` says of a sequence of responses that nothing was left
behind in those fields by an earlier packet, and is exact
(`response_stream_round_trip`).
-/
import Mathlib.Data.List.Forall2
import Portal.Socket.Wire

namespace Portal.Socket.Wire

open Portal.Theory.Codec

set_option autoImplicit false

variable {codec : Prims}

/-! ## One object -/

/-- What an object holds once `x` was decoded into it. -/
def merge : (k : Kind) → k.Body → k.Body → k.Body
  | .transferResponse, old, x =>
      if x.status = transferResponseError then x else { x with error := old.error }
  | .findPlayerResponse, old, x =>
      if x.online then x else { x with server := old.server, proxy := old.proxy }
  | _, _, x => x

/-- The number of entries fits the count on the wire. -/
def Countable : Packet → Prop
  | ⟨.serverListResponse, pk⟩ => pk.servers.length < 2 ^ 32
  | _ => True

theorem serverList_foldl (entries old : List ServerEntry) :
    entries.foldl (fun pk e => ⟨pk.servers ++ [e]⟩) (⟨old⟩ : ServerListResponse) =
      ⟨old ++ entries⟩ := by
  induction entries generalizing old with
  | nil => rw [List.foldl_nil, List.append_nil]
  | cons e entries ih =>
      rw [List.foldl_cons, ih, List.append_assoc]
      rfl

open Decoder in
theorem serverList_fills (inverse : codec.Inverse) (old pk : ServerListResponse)
    (short : pk.servers.length < 2 ^ 32) :
    Fills (ServerListResponse.unmarshal codec) (pk.marshal codec) old pk := by
  have count : (UInt32.ofNat pk.servers.length).toNat = pk.servers.length :=
    UInt32.toNat_ofNat_of_lt' short
  have round : ∀ (s : ServerListResponse) (e : ServerEntry),
      Fills (ServerEntry.unmarshal codec) (e.marshal codec) s ⟨s.servers ++ [e]⟩ := by
    intro s e
    have read : Fills (ServerEntry.unmarshal codec)
        (codec.string.write e.name ++ (codec.int64.write e.playerCount ++ [])) s
        ⟨s.servers ++ [e]⟩ :=
      Fills.bind inverse.string (Fills.bind inverse.int64 (Fills.assign _))
    rwa [List.append_nil] at read
  have filled := Fills.loop (s := (⟨[]⟩ : ServerListResponse)) round pk.servers
  rw [serverList_foldl, List.nil_append] at filled
  refine Fills.bind inverse.uint32 ?_
  rw [count]
  exact (Fills.assign (s := old) fun pk => { pk with servers := [] }).seq filled

open Decoder in
/-- **What a decode leaves in the object.** -/
theorem unmarshal_fills (inverse : codec.Inverse) (k : Kind) (old x : k.Body)
    (short : Countable ⟨k, x⟩) : Fills (k.unmarshal codec) (k.marshal codec x) old (merge k old x) := by
  cases k with
  | authRequest =>
      exact (Fills.field inverse.uint32 _).seq
        ((Fills.field inverse.string _).seq (Fills.field inverse.string _))
  | authResponse => exact (Fills.field inverse.uint32 _).seq (Fills.field inverse.uint8 _)
  | registerServer =>
      exact (Fills.field inverse.string _).seq ((Fills.field inverse.string _).seq
        ((Fills.field inverse.bool _).seq ((Fills.field inverse.string _).seq
          (Fills.field inverse.varuint32 _))))
  | transferRequest | findPlayerRequest =>
      exact (Fills.field inverse.uuid _).seq (Fills.field inverse.string _)
  | transferResponse =>
      refine (Fills.field inverse.uuid _).seq ((Fills.field inverse.uint8 _).seq ?_)
      by_cases failed : x.status = transferResponseError
      · rw [if_pos failed, merge, if_pos failed]
        exact Fills.onlyIf (decide_eq_true failed) (Fills.field inverse.string _)
      · rw [if_neg failed, merge, if_neg failed]
        exact Fills.skipped (decide_eq_false failed)
  | playerInfoRequest => exact Fills.field inverse.uuid _
  | playerInfoResponse =>
      exact (Fills.field inverse.uuid _).seq ((Fills.field inverse.uint8 _).seq
        ((Fills.field inverse.string _).seq (Fills.field inverse.string _)))
  | serverListRequest => exact Fills.assign id
  | serverListResponse => exact serverList_fills inverse old x short
  | findPlayerResponse =>
      obtain ⟨uuid, name, online, server, proxy⟩ := x
      refine (Fills.field inverse.uuid _).seq ((Fills.field inverse.string _).seq
        ((Fills.field inverse.bool _).seq ?_))
      cases online with
      | true =>
          exact Fills.onlyIf rfl ((Fills.field inverse.string _).seq (Fills.field inverse.string _))
      | false => exact Fills.skipped rfl
  | updatePlayerLatency => exact (Fills.field inverse.uuid _).seq (Fills.field inverse.int64 _)
  | disconnectPlayer => exact Fills.field inverse.string _
  | setServerDraining => exact Fills.field inverse.bool _

/-- The relation that says nothing. -/
def anything (k : Kind) : k.Body → k.Body → Prop := fun _ _ => True

open Decoder in
/-- **Whether bytes decode does not depend on the object.**  Where a decoder looks at a
field it has just written it. -/
theorem unmarshal_uniform (codec : Prims) (k : Kind) :
    Uniform (anything k) (k.unmarshal codec) (anything k) := by
  have read : ∀ {σ α : Type} (p : Prim UInt8 α) (set : σ → α → σ),
      Uniform (fun _ _ => True) (field p set) (fun _ _ => True) :=
    fun _ _ => Uniform.field fun _ _ _ _ => trivial
  cases k with
  | authRequest => exact (read _ _).seq ((read _ _).seq (read _ _))
  | authResponse | transferRequest | findPlayerRequest | updatePlayerLatency =>
      exact (read _ _).seq (read _ _)
  | registerServer =>
      exact (read _ _).seq ((read _ _).seq ((read _ _).seq ((read _ _).seq (read _ _))))
  | transferResponse =>
      have status : Uniform (anything .transferResponse)
          (field codec.uint8 fun (pk : TransferResponse) x => { pk with status := x })
          (fun s t => s.status = t.status) := Uniform.field fun _ _ _ _ => rfl
      refine (read _ _).seq (status.seq (Uniform.onlyIf ?_ ?_ fun _ _ _ => trivial))
      · intro s t same
        rw [same]
      · exact Uniform.field fun _ _ _ _ => trivial
  | playerInfoRequest | disconnectPlayer | setServerDraining => exact read _ _
  | playerInfoResponse => exact (read _ _).seq ((read _ _).seq ((read _ _).seq (read _ _)))
  | serverListRequest => exact Uniform.assign fun _ _ _ => trivial
  | serverListResponse =>
      refine Uniform.bind fun l => (Uniform.assign fun _ _ _ => trivial).seq (Uniform.loop ?_ l.toNat)
      exact Uniform.bind fun _ => Uniform.bind fun _ => Uniform.assign fun _ _ _ => trivial
  | findPlayerResponse =>
      have online : Uniform (anything .findPlayerResponse)
          (field codec.bool fun (pk : FindPlayerResponse) x => { pk with online := x })
          (fun s t => s.online = t.online) := Uniform.field fun _ _ _ _ => rfl
      refine (read _ _).seq ((read _ _).seq (online.seq (Uniform.onlyIf ?_ ?_ fun _ _ _ => trivial)))
      · exact fun _ _ same => same
      · exact (Uniform.field fun _ _ _ _ => trivial).seq (read _ _)

/-! ## One frame -/

theorem readHeader_id (k : Kind) : readHeader k.id.toUInt8 (k.id >>> 8).toUInt8 = k.id := by
  cases k <;> rfl

theorem decode_payload (inverse : codec.Inverse) (pool : Pool) (k : Kind) (x : k.Body)
    (short : Countable ⟨k, x⟩) :
    decode codec pool (payload codec ⟨k, x⟩) =
      (.ok ⟨k, merge k (pool k) x⟩, Function.update pool k (merge k (pool k) x)) := by
  have filled := unmarshal_fills inverse k (pool k) x short []
  rw [List.append_nil] at filled
  simp only [payload, writeHeader, List.cons_append, List.nil_append, decode, readHeader_id,
    Kind.ofID_id, filled, List.length_nil, Nat.lt_irrefl, gt_iff_lt, if_false]

/-- Whether a payload decodes does not depend on what was read before. -/
theorem decode_isOk (codec : Prims) (pool pool' : Pool) (data : List UInt8) :
    (decode codec pool data).1.isOk = (decode codec pool' data).1.isOk := by
  match data with
  | [] | [_] => rfl
  | b1 :: b2 :: buf =>
      simp only [decode]
      split
      · rfl
      · rename_i k _
        have same := (unmarshal_uniform codec k (pool k) (pool' k) buf trivial).1
        cases left : k.unmarshal codec (pool k) buf with
        | mk pk out =>
            cases right : k.unmarshal codec (pool' k) buf with
            | mk pk' out' =>
                rw [left, right] at same
                simp only at same
                subst same
                cases out with
                | error err => rfl
                | ok rest =>
                    simp only
                    split <;> rfl

theorem readFull_append (a b : List UInt8) : readFull a.length (a ++ b) = .ok (a, b) := by
  rw [readFull, if_pos (by rw [List.length_append]; omega), List.take_left, List.drop_left]

/-- A frame that fits is read whole, and nothing of what follows it. -/
theorem readPacket_frame (pool : Pool) (data rest : List UInt8)
    (fits : data.length ≤ maxPacketSize) :
    readPacket codec pool (frame data ++ rest) =
      ((decode codec pool data).1, (decode codec pool data).2, rest) := by
  have size : ofLE (le 4 data.length) = data.length :=
    ofLE_le_of_lt (lt_of_le_of_lt fits (by decide))
  have first := readFull_append (le 4 data.length) (data ++ rest)
  rw [length_le] at first
  simp only [readPacket, frame, List.append_assoc, first, size, if_neg (Nat.not_lt.mpr fits),
    gt_iff_lt, readFull_append]

/-- Every entry takes a byte at least, so the entries of a frame that fits can be
counted. -/
theorem countable_of_fits (inverse : codec.Inverse) (pk : Packet)
    (fits : (payload codec pk).length ≤ maxPacketSize) : Countable pk := by
  obtain ⟨k, x⟩ := pk
  cases k with
  | serverListResponse =>
      have entry : ∀ e : ServerEntry, 1 ≤ (e.marshal codec).length := by
        intro e
        have nonempty : codec.string.write e.name ≠ [] :=
          haveI : Nontrivial String := ⟨"", "a", by decide⟩
          inverse.string.write_ne_nil e.name
        have := List.length_pos_iff.mpr nonempty
        rw [ServerEntry.marshal, List.length_append]
        omega
      have all : ∀ entries : List ServerEntry,
          entries.length ≤ (entries.flatMap (ServerEntry.marshal codec)).length := by
        intro entries
        induction entries with
        | nil => exact Nat.le_refl 0
        | cons e entries ih =>
            have := entry e
            rw [List.length_cons, List.flatMap_cons, List.length_append]
            omega
      have bound := all x.servers
      simp only [payload, Kind.marshal, ServerListResponse.marshal, List.length_append] at fits
      show x.servers.length < 2 ^ 32
      have small : maxPacketSize < 2 ^ 32 := by decide
      omega
  | _ => trivial

/-- **What `ReadPacket` returns for a packet that was written.** -/
theorem readPacket_write (inverse : codec.Inverse) (pool : Pool) (k : Kind) (x : k.Body)
    (rest : List UInt8) (fits : (payload codec ⟨k, x⟩).length ≤ maxPacketSize) :
    readPacket codec pool (writePacket codec ⟨k, x⟩ ++ rest) =
      (.ok ⟨k, merge k (pool k) x⟩, Function.update pool k (merge k (pool k) x), rest) := by
  rw [writePacket, readPacket_frame pool _ rest fits,
    decode_payload inverse pool k x (countable_of_fits inverse _ fits)]

/-! ## The stream of a backend -/

/-- The packets a backend sends. -/
def Kind.isRequest : Kind → Bool
  | authRequest => true
  | registerServer => true
  | transferRequest => true
  | playerInfoRequest => true
  | serverListRequest => true
  | findPlayerRequest => true
  | setServerDraining => true
  | _ => false

theorem merge_request {k : Kind} (request : k.isRequest = true) (old x : k.Body) :
    merge k old x = x := by
  cases k with
  | transferResponse | findPlayerResponse => cases request
  | _ => rfl

/-- What arrives in one frame. -/
inductive Item where
  | packet (pk : Packet)
  | garbage (data : List UInt8)

def Item.data (codec : Prims) : Item → List UInt8
  | packet pk => payload codec pk
  | garbage data => data

/-- A request, or a payload that does not decode. -/
def Item.Admissible (codec : Prims) : Item → Prop
  | packet pk => pk.1.isRequest = true
  | garbage data => ∃ err, (decode codec newPool data).1 = .error err

/-- The packet that was written, or an error. -/
def Item.Returned : Item → Except ReadError Packet → Prop
  | packet pk, result => result = .ok pk
  | garbage _, result => ∃ err, result = .error err

/-- One frame, whatever stands in the pool. -/
theorem readPacket_item (inverse : codec.Inverse) (pool : Pool) (item : Item) (rest : List UInt8)
    (admissible : item.Admissible codec) (fits : (item.data codec).length ≤ maxPacketSize) :
    ∃ result pool', readPacket codec pool (frame (item.data codec) ++ rest) =
      (result, pool', rest) ∧ item.Returned result := by
  cases item with
  | packet pk =>
      obtain ⟨k, x⟩ := pk
      exact ⟨_, _, readPacket_write inverse pool k x rest fits,
        by rw [merge_request admissible]; rfl⟩
  | garbage data =>
      refine ⟨_, _, readPacket_frame pool data rest fits, ?_⟩
      obtain ⟨err, failed⟩ := admissible
      have status := decode_isOk codec pool newPool data
      rw [failed] at status
      cases out : (decode codec pool data).1 with
      | error err' => exact ⟨err', rfl⟩
      | ok pk =>
          rw [out] at status
          cases status

/-- **Requests are read back as written.**  On every sequence of frames, each of a
request with arbitrary fields or of a payload that does not decode, a client whose
pool holds anything at all returns for each frame in order the packet that was
written, or an error, and has then consumed these frames and nothing else. -/
theorem request_stream_round_trip (inverse : codec.Inverse) (items : List Item)
    (admissible : ∀ item ∈ items, item.Admissible codec)
    (fits : ∀ item ∈ items, (item.data codec).length ≤ maxPacketSize) (pool : Pool)
    (rest : List UInt8) :
    ∃ results pool',
      readPackets codec items.length pool
        (items.flatMap (fun item => frame (item.data codec)) ++ rest) = (results, pool', rest) ∧
      List.Forall₂ Item.Returned items results := by
  induction items generalizing pool with
  | nil => exact ⟨[], pool, rfl, .nil⟩
  | cons item items ih =>
      obtain ⟨result, next, read, returned⟩ := readPacket_item inverse pool item
        (items.flatMap (fun item => frame (item.data codec)) ++ rest)
        (admissible item (List.mem_cons_self ..)) (fits item (List.mem_cons_self ..))
      obtain ⟨results, last, reads, all⟩ := ih
        (fun item member => admissible item (List.mem_cons_of_mem _ member))
        (fun item member => fits item (List.mem_cons_of_mem _ member)) next
      refine ⟨result :: results, last, ?_, .cons returned all⟩
      rw [List.length_cons, List.flatMap_cons, List.append_assoc, readPackets, read]
      simp only [reads]

/-- A backend registers; between its packets a frame stops inside a field. -/
def interrupted : List Item :=
  [.packet ⟨.authRequest, ⟨3, "secret", "Lobby"⟩⟩, .garbage [2, 0, 1],
    .packet ⟨.registerServer, ⟨"127.0.0.1:19133", "", false, "", 1⟩⟩]

theorem request_stream_round_trip_interrupted :
    ∃ results pool,
      readPackets plain 3 newPool (interrupted.flatMap (fun item => frame (item.data plain)) ++ []) =
        (results, pool, []) ∧
      List.Forall₂ Item.Returned interrupted results := by
  refine request_stream_round_trip plain_inverse interrupted ?_ ?_ newPool []
  · intro item member
    simp only [interrupted, List.mem_cons, List.not_mem_nil, or_false] at member
    rcases member with rfl | rfl | rfl
    · rfl
    · exact ⟨_, rfl⟩
    · rfl
  · intro item member
    simp only [interrupted, List.mem_cons, List.not_mem_nil, or_false] at member
    rcases member with rfl | rfl | rfl <;> decide

/-! ## The stream of the proxy -/

/-- What earlier packets left in the fields that a frame may leave out. -/
structure Stale where
  error : String
  server : String
  proxy : String
  deriving DecidableEq, Repr

/-- The latest `TransferResponse` with an error and the latest `FindPlayerResponse` of a
player who is online decide. -/
def Stale.after (old : Stale) : Packet → Stale
  | ⟨.transferResponse, pk⟩ =>
      if pk.status = transferResponseError then { old with error := pk.error } else old
  | ⟨.findPlayerResponse, pk⟩ =>
      if pk.online then { old with server := pk.server, proxy := pk.proxy } else old
  | _ => old

/-- Nothing left behind shows through the packet. -/
def Stale.hidden (old : Stale) : Packet → Bool
  | ⟨.transferResponse, pk⟩ => pk.status = transferResponseError ∨ old.error = ""
  | ⟨.findPlayerResponse, pk⟩ => pk.online ∨ (old.server = "" ∧ old.proxy = "")
  | _ => true

def freshFrom : Stale → List Packet → Bool
  | _, [] => true
  | old, pk :: pks => old.hidden pk && freshFrom (old.after pk) pks

/-- No packet of the sequence shows what an earlier one left behind. -/
def fresh (pks : List Packet) : Bool := freshFrom ⟨"", "", ""⟩ pks

/-- A packet as the proxy sends it: the fields that are left out are empty. -/
def Sendable : Packet → Prop
  | ⟨.transferResponse, pk⟩ => pk.status ≠ transferResponseError → pk.error = ""
  | ⟨.findPlayerResponse, pk⟩ => pk.online = false → pk.server = "" ∧ pk.proxy = ""
  | _ => True

/-- The pool holds in these fields what was left behind. -/
structure Stale.In (old : Stale) (pool : Pool) : Prop where
  error : (pool .transferResponse).error = old.error
  server : (pool .findPlayerResponse).server = old.server
  proxy : (pool .findPlayerResponse).proxy = old.proxy

theorem Stale.In.after {old : Stale} {pool : Pool} (left : old.In pool) (k : Kind) (x : k.Body) :
    (old.after ⟨k, x⟩).In (Function.update pool k (merge k (pool k) x)) := by
  cases k with
  | transferResponse =>
      by_cases failed : x.status = transferResponseError
      · simp only [Stale.after, merge, if_pos failed]
        exact ⟨by rw [Function.update_self], left.server, left.proxy⟩
      · simp only [Stale.after, merge, if_neg failed]
        exact ⟨by rw [Function.update_self]; exact left.error, left.server, left.proxy⟩
  | findPlayerResponse =>
      by_cases online : x.online = true
      · simp only [Stale.after, merge, if_pos online]
        exact ⟨left.error, by rw [Function.update_self], by rw [Function.update_self]⟩
      · simp only [Stale.after, merge, if_neg online]
        exact ⟨left.error, by rw [Function.update_self]; exact left.server,
          by rw [Function.update_self]; exact left.proxy⟩
  | _ => exact ⟨left.error, left.server, left.proxy⟩

theorem merge_eq_iff {old : Stale} {pool : Pool} (left : old.In pool) (k : Kind) (x : k.Body)
    (sendable : Sendable ⟨k, x⟩) : merge k (pool k) x = x ↔ old.hidden ⟨k, x⟩ = true := by
  cases k with
  | transferResponse =>
      obtain ⟨uuid, status, error⟩ := x
      by_cases failed : status = transferResponseError
      · simp [merge, Stale.hidden, failed]
      · have empty : error = "" := sendable failed
        simp [merge, Stale.hidden, failed, left.error, empty]
  | findPlayerResponse =>
      obtain ⟨uuid, name, online, server, proxy⟩ := x
      cases online with
      | true => simp [merge, Stale.hidden]
      | false =>
          obtain ⟨noServer, noProxy⟩ : server = "" ∧ proxy = "" := sendable rfl
          simp [merge, Stale.hidden, left.server, left.proxy, noServer, noProxy]
  | _ => exact ⟨fun _ => rfl, fun _ => rfl⟩

/-- Reading from a pool in which `old` was left behind. -/
theorem readPackets_write (inverse : codec.Inverse) (pks : List Packet)
    (sendable : ∀ pk ∈ pks, Sendable pk)
    (fits : ∀ pk ∈ pks, (payload codec pk).length ≤ maxPacketSize) (pool : Pool) (old : Stale)
    (left : old.In pool) :
    (readPackets codec pks.length pool (pks.flatMap (writePacket codec))).1 = pks.map .ok ↔
      freshFrom old pks = true := by
  induction pks generalizing pool old with
  | nil => exact ⟨fun _ => rfl, fun _ => rfl⟩
  | cons pk pks ih =>
      obtain ⟨k, x⟩ := pk
      have read := readPacket_write inverse pool k x (pks.flatMap (writePacket codec))
        (fits _ (List.mem_cons_self ..))
      have here := merge_eq_iff left k x (sendable _ (List.mem_cons_self ..))
      have later := ih (fun pk member => sendable pk (List.mem_cons_of_mem _ member))
        (fun pk member => fits pk (List.mem_cons_of_mem _ member)) _ _ (left.after k x)
      rw [List.length_cons, List.flatMap_cons, readPackets, read, freshFrom, Bool.and_eq_true,
        ← here, ← later, List.map_cons]
      simp only [List.cons.injEq, Except.ok.injEq, Sigma.mk.injEq, heq_eq_eq, true_and]

/-- **Responses are read back exactly when nothing stale shows.**  For every sequence of
packets as the proxy sends them: a client with a new pool that reads them one after the
other gets back the packets that were written if and only if no `TransferResponse`
without an error comes after one whose error was not empty, the latest with an error
counting, and no `FindPlayerResponse` of an offline player after one whose server or
proxy was not empty, the latest of an online player counting. -/
theorem response_stream_round_trip (inverse : codec.Inverse) (pks : List Packet)
    (sendable : ∀ pk ∈ pks, Sendable pk)
    (fits : ∀ pk ∈ pks, (payload codec pk).length ≤ maxPacketSize) :
    (readPackets codec pks.length newPool (pks.flatMap (writePacket codec))).1 = pks.map .ok ↔
      fresh pks = true :=
  readPackets_write inverse pks sendable fits newPool ⟨"", "", ""⟩ ⟨rfl, rfl, rfl⟩

/-- A transfer that fails and one that succeeds. -/
def failedThenMoved : List Packet :=
  [⟨.transferResponse, ⟨1, 4, "no"⟩⟩, ⟨.transferResponse, ⟨2, 0, ""⟩⟩]

/-- The same two the other way round, and a player who is found. -/
def movedThenFailed : List Packet :=
  [⟨.transferResponse, ⟨2, 0, ""⟩⟩, ⟨.transferResponse, ⟨1, 4, "no"⟩⟩,
    ⟨.findPlayerResponse, ⟨1, "Steve", true, "Lobby", ""⟩⟩]

theorem response_stream_round_trip_movedThenFailed :
    (readPackets plain 3 newPool (movedThenFailed.flatMap (writePacket plain))).1 =
      movedThenFailed.map .ok := by
  refine (response_stream_round_trip plain_inverse movedThenFailed ?_ ?_).mpr rfl
  · intro pk member
    simp only [movedThenFailed, List.mem_cons, List.not_mem_nil, or_false] at member
    rcases member with rfl | rfl | rfl
    · exact fun _ => rfl
    · exact fun other => absurd rfl other
    · exact fun offline => by cases offline
  · intro pk member
    simp only [movedThenFailed, List.mem_cons, List.not_mem_nil, or_false] at member
    rcases member with rfl | rfl | rfl <;> decide

/-- The success comes with the error of the transfer before it. -/
theorem stale_error_returned :
    (readPackets plain 2 newPool (failedThenMoved.flatMap (writePacket plain))).1 =
      [.ok ⟨.transferResponse, ⟨1, 4, "no"⟩⟩, .ok ⟨.transferResponse, ⟨2, 0, "no"⟩⟩] := by
  decide

end Portal.Socket.Wire
