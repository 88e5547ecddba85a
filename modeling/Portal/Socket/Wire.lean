/-
# Socket.Wire — the packets of the socket protocol, and how a `Client` reads and writes them

A packet on the wire is a frame: a length of four bytes, the packet ID of two, and
the fields.  `ReadPacket` decodes the fields into the object its pool holds for the
ID and returns that object, so the same object is filled again by every packet of
its kind, and what a decode does not write stays as an earlier one left it.

The primitives of gophertunnel's `Writer` and `Reader` are a parameter (`Prims`).  Go
strings are byte strings; nothing here looks into one.

`Kind` are the packet IDs, `Kind.Body` the fields of each.  A pool has one object of
each kind, and an object can only be filled by the decoder of its own.
-/
import Portal.Theory.Bytes
import Portal.Session.Store

namespace Portal.Socket

open Portal.Theory.Codec

set_option autoImplicit false

/-! ## Packets -/

structure AuthRequest where
  protocol : UInt32
  secret : String
  name : String
  deriving DecidableEq, Repr

structure AuthResponse where
  protocol : UInt32
  status : UInt8
  deriving DecidableEq, Repr

structure RegisterServer where
  address : String
  transport : String
  legacyAuth : Bool
  group : String
  weight : UInt32
  deriving DecidableEq, Repr

structure TransferRequest where
  playerUUID : UUID
  server : String
  deriving DecidableEq, Repr

structure TransferResponse where
  playerUUID : UUID
  status : UInt8
  error : String
  deriving DecidableEq, Repr

def transferResponseError : UInt8 := 4

structure PlayerInfoRequest where
  playerUUID : UUID
  deriving DecidableEq, Repr

structure PlayerInfoResponse where
  playerUUID : UUID
  status : UInt8
  xuid : String
  address : String
  deriving DecidableEq, Repr

structure ServerListRequest where
  deriving DecidableEq, Repr

structure ServerEntry where
  name : String
  playerCount : Int64
  deriving DecidableEq, Repr

structure ServerListResponse where
  servers : List ServerEntry
  deriving DecidableEq, Repr

structure FindPlayerRequest where
  playerUUID : UUID
  playerName : String
  deriving DecidableEq, Repr

structure FindPlayerResponse where
  playerUUID : UUID
  playerName : String
  online : Bool
  server : String
  proxy : String
  deriving DecidableEq, Repr

structure UpdatePlayerLatency where
  playerUUID : UUID
  latency : Int64
  deriving DecidableEq, Repr

structure DisconnectPlayer where
  playerName : String
  deriving DecidableEq, Repr

structure SetServerDraining where
  draining : Bool
  deriving DecidableEq, Repr

/-- `packet.ProtocolVersion`. -/
def protocolVersion : UInt32 := 3

/-! ## `Marshal` and `Unmarshal` -/

/-- gophertunnel's primitives. -/
structure Prims where
  uint8 : Prim UInt8 UInt8
  uint32 : Prim UInt8 UInt32
  varuint32 : Prim UInt8 UInt32
  int64 : Prim UInt8 Int64
  bool : Prim UInt8 Bool
  string : Prim UInt8 String
  uuid : Prim UInt8 UUID

/-- Each reader reads back what its writer wrote. -/
structure Prims.Inverse (codec : Prims) : Prop where
  uint8 : codec.uint8.Inverse
  uint32 : codec.uint32.Inverse
  varuint32 : codec.varuint32.Inverse
  int64 : codec.int64.Inverse
  bool : codec.bool.Inverse
  string : codec.string.Inverse
  uuid : codec.uuid.Inverse

section Fields

variable (codec : Prims)

open Decoder

def AuthRequest.marshal (pk : AuthRequest) : List UInt8 :=
  codec.uint32.write pk.protocol ++ (codec.string.write pk.secret ++ codec.string.write pk.name)

def AuthRequest.unmarshal : Decoder UInt8 AuthRequest :=
  seq (field codec.uint32 fun pk x => { pk with protocol := x })
    (seq (field codec.string fun pk x => { pk with secret := x })
      (field codec.string fun pk x => { pk with name := x }))

def AuthResponse.marshal (pk : AuthResponse) : List UInt8 :=
  codec.uint32.write pk.protocol ++ codec.uint8.write pk.status

def AuthResponse.unmarshal : Decoder UInt8 AuthResponse :=
  seq (field codec.uint32 fun pk x => { pk with protocol := x })
    (field codec.uint8 fun pk x => { pk with status := x })

def RegisterServer.marshal (pk : RegisterServer) : List UInt8 :=
  codec.string.write pk.address ++ (codec.string.write pk.transport ++
    (codec.bool.write pk.legacyAuth ++ (codec.string.write pk.group ++
      codec.varuint32.write pk.weight)))

def RegisterServer.unmarshal : Decoder UInt8 RegisterServer :=
  seq (field codec.string fun pk x => { pk with address := x })
    (seq (field codec.string fun pk x => { pk with transport := x })
      (seq (field codec.bool fun pk x => { pk with legacyAuth := x })
        (seq (field codec.string fun pk x => { pk with group := x })
          (field codec.varuint32 fun pk x => { pk with weight := x }))))

def TransferRequest.marshal (pk : TransferRequest) : List UInt8 :=
  codec.uuid.write pk.playerUUID ++ codec.string.write pk.server

def TransferRequest.unmarshal : Decoder UInt8 TransferRequest :=
  seq (field codec.uuid fun pk x => { pk with playerUUID := x })
    (field codec.string fun pk x => { pk with server := x })

/-- The error is on the wire only with its status. -/
def TransferResponse.marshal (pk : TransferResponse) : List UInt8 :=
  codec.uuid.write pk.playerUUID ++ (codec.uint8.write pk.status ++
    if pk.status = transferResponseError then codec.string.write pk.error else [])

def TransferResponse.unmarshal : Decoder UInt8 TransferResponse :=
  seq (field codec.uuid fun pk x => { pk with playerUUID := x })
    (seq (field codec.uint8 fun pk x => { pk with status := x })
      (onlyIf (fun pk => pk.status = transferResponseError)
        (field codec.string fun pk x => { pk with error := x })))

def PlayerInfoRequest.marshal (pk : PlayerInfoRequest) : List UInt8 :=
  codec.uuid.write pk.playerUUID

def PlayerInfoRequest.unmarshal : Decoder UInt8 PlayerInfoRequest :=
  field codec.uuid fun pk x => { pk with playerUUID := x }

def PlayerInfoResponse.marshal (pk : PlayerInfoResponse) : List UInt8 :=
  codec.uuid.write pk.playerUUID ++ (codec.uint8.write pk.status ++
    (codec.string.write pk.xuid ++ codec.string.write pk.address))

def PlayerInfoResponse.unmarshal : Decoder UInt8 PlayerInfoResponse :=
  seq (field codec.uuid fun pk x => { pk with playerUUID := x })
    (seq (field codec.uint8 fun pk x => { pk with status := x })
      (seq (field codec.string fun pk x => { pk with xuid := x })
        (field codec.string fun pk x => { pk with address := x })))

def ServerListRequest.marshal (_ : ServerListRequest) : List UInt8 := []

def ServerListRequest.unmarshal : Decoder UInt8 ServerListRequest := assign id

/-- One round of the loop over the entries. -/
def ServerEntry.marshal (e : ServerEntry) : List UInt8 :=
  codec.string.write e.name ++ codec.int64.write e.playerCount

/-- The count is `uint32(len(pk.Servers))`. -/
def ServerListResponse.marshal (pk : ServerListResponse) : List UInt8 :=
  codec.uint32.write (UInt32.ofNat pk.servers.length) ++ pk.servers.flatMap (ServerEntry.marshal codec)

/-- One round of the loop: an entry is appended once both its fields are read. -/
def ServerEntry.unmarshal : Decoder UInt8 ServerListResponse :=
  bind codec.string fun name => bind codec.int64 fun playerCount =>
    assign fun pk => { pk with servers := pk.servers ++ [⟨name, playerCount⟩] }

def ServerListResponse.unmarshal : Decoder UInt8 ServerListResponse :=
  bind codec.uint32 fun l => seq (assign fun pk => { pk with servers := [] })
    (loop l.toNat (ServerEntry.unmarshal codec))

def FindPlayerRequest.marshal (pk : FindPlayerRequest) : List UInt8 :=
  codec.uuid.write pk.playerUUID ++ codec.string.write pk.playerName

def FindPlayerRequest.unmarshal : Decoder UInt8 FindPlayerRequest :=
  seq (field codec.uuid fun pk x => { pk with playerUUID := x })
    (field codec.string fun pk x => { pk with playerName := x })

/-- The server and the proxy are on the wire only for a player who is online. -/
def FindPlayerResponse.marshal (pk : FindPlayerResponse) : List UInt8 :=
  codec.uuid.write pk.playerUUID ++ (codec.string.write pk.playerName ++
    (codec.bool.write pk.online ++
      if pk.online then codec.string.write pk.server ++ codec.string.write pk.proxy else []))

def FindPlayerResponse.unmarshal : Decoder UInt8 FindPlayerResponse :=
  seq (field codec.uuid fun pk x => { pk with playerUUID := x })
    (seq (field codec.string fun pk x => { pk with playerName := x })
      (seq (field codec.bool fun pk x => { pk with online := x })
        (onlyIf (fun pk => pk.online)
          (seq (field codec.string fun pk x => { pk with server := x })
            (field codec.string fun pk x => { pk with proxy := x })))))

def UpdatePlayerLatency.marshal (pk : UpdatePlayerLatency) : List UInt8 :=
  codec.uuid.write pk.playerUUID ++ codec.int64.write pk.latency

def UpdatePlayerLatency.unmarshal : Decoder UInt8 UpdatePlayerLatency :=
  seq (field codec.uuid fun pk x => { pk with playerUUID := x })
    (field codec.int64 fun pk x => { pk with latency := x })

def DisconnectPlayer.marshal (pk : DisconnectPlayer) : List UInt8 :=
  codec.string.write pk.playerName

def DisconnectPlayer.unmarshal : Decoder UInt8 DisconnectPlayer :=
  field codec.string fun pk x => { pk with playerName := x }

def SetServerDraining.marshal (pk : SetServerDraining) : List UInt8 :=
  codec.bool.write pk.draining

def SetServerDraining.unmarshal : Decoder UInt8 SetServerDraining :=
  field codec.bool fun pk x => { pk with draining := x }

end Fields

/-! ## IDs, pools and frames -/

namespace Wire

/-- The packet IDs, in the order of id.go. -/
inductive Kind where
  | authRequest
  | authResponse
  | registerServer
  | transferRequest
  | transferResponse
  | playerInfoRequest
  | playerInfoResponse
  | serverListRequest
  | serverListResponse
  | findPlayerRequest
  | findPlayerResponse
  | updatePlayerLatency
  | disconnectPlayer
  | setServerDraining
  deriving DecidableEq, Repr

namespace Kind

def id : Kind → UInt16
  | authRequest => 0
  | authResponse => 1
  | registerServer => 2
  | transferRequest => 3
  | transferResponse => 4
  | playerInfoRequest => 5
  | playerInfoResponse => 6
  | serverListRequest => 7
  | serverListResponse => 8
  | findPlayerRequest => 9
  | findPlayerResponse => 10
  | updatePlayerLatency => 11
  | disconnectPlayer => 12
  | setServerDraining => 13

def all : List Kind :=
  [authRequest, authResponse, registerServer, transferRequest, transferResponse, playerInfoRequest,
    playerInfoResponse, serverListRequest, serverListResponse, findPlayerRequest,
    findPlayerResponse, updatePlayerLatency, disconnectPlayer, setServerDraining]

/-- The kind a pool has under an ID. -/
def ofID (id : UInt16) : Option Kind := all.find? fun k => k.id = id

@[simp] theorem ofID_id (k : Kind) : ofID k.id = some k := by
  cases k <;> rfl

/-- The fields of a packet. -/
abbrev Body : Kind → Type
  | authRequest => AuthRequest
  | authResponse => AuthResponse
  | registerServer => RegisterServer
  | transferRequest => TransferRequest
  | transferResponse => TransferResponse
  | playerInfoRequest => PlayerInfoRequest
  | playerInfoResponse => PlayerInfoResponse
  | serverListRequest => ServerListRequest
  | serverListResponse => ServerListResponse
  | findPlayerRequest => FindPlayerRequest
  | findPlayerResponse => FindPlayerResponse
  | updatePlayerLatency => UpdatePlayerLatency
  | disconnectPlayer => DisconnectPlayer
  | setServerDraining => SetServerDraining

instance (k : Kind) : DecidableEq k.Body := by
  cases k <;> infer_instance

/-- A new object: every field has its zero value. -/
def zero : (k : Kind) → k.Body
  | authRequest => ⟨0, "", ""⟩
  | authResponse => ⟨0, 0⟩
  | registerServer => ⟨"", "", false, "", 0⟩
  | transferRequest => ⟨0, ""⟩
  | transferResponse => ⟨0, 0, ""⟩
  | playerInfoRequest => ⟨0⟩
  | playerInfoResponse => ⟨0, 0, "", ""⟩
  | serverListRequest => ⟨⟩
  | serverListResponse => ⟨[]⟩
  | findPlayerRequest => ⟨0, ""⟩
  | findPlayerResponse => ⟨0, "", false, "", ""⟩
  | updatePlayerLatency => ⟨0, 0⟩
  | disconnectPlayer => ⟨""⟩
  | setServerDraining => ⟨false⟩

/-- The verb `%T` on a packet. -/
def typeName : Kind → String
  | authRequest => "*packet.AuthRequest"
  | authResponse => "*packet.AuthResponse"
  | registerServer => "*packet.RegisterServer"
  | transferRequest => "*packet.TransferRequest"
  | transferResponse => "*packet.TransferResponse"
  | playerInfoRequest => "*packet.PlayerInfoRequest"
  | playerInfoResponse => "*packet.PlayerInfoResponse"
  | serverListRequest => "*packet.ServerListRequest"
  | serverListResponse => "*packet.ServerListResponse"
  | findPlayerRequest => "*packet.FindPlayerRequest"
  | findPlayerResponse => "*packet.FindPlayerResponse"
  | updatePlayerLatency => "*packet.UpdatePlayerLatency"
  | disconnectPlayer => "*packet.DisconnectPlayer"
  | setServerDraining => "*packet.SetServerDraining"

def marshal (codec : Prims) : (k : Kind) → k.Body → List UInt8
  | authRequest => AuthRequest.marshal codec
  | authResponse => AuthResponse.marshal codec
  | registerServer => RegisterServer.marshal codec
  | transferRequest => TransferRequest.marshal codec
  | transferResponse => TransferResponse.marshal codec
  | playerInfoRequest => PlayerInfoRequest.marshal codec
  | playerInfoResponse => PlayerInfoResponse.marshal codec
  | serverListRequest => ServerListRequest.marshal
  | serverListResponse => ServerListResponse.marshal codec
  | findPlayerRequest => FindPlayerRequest.marshal codec
  | findPlayerResponse => FindPlayerResponse.marshal codec
  | updatePlayerLatency => UpdatePlayerLatency.marshal codec
  | disconnectPlayer => DisconnectPlayer.marshal codec
  | setServerDraining => SetServerDraining.marshal codec

def unmarshal (codec : Prims) : (k : Kind) → Decoder UInt8 k.Body
  | authRequest => AuthRequest.unmarshal codec
  | authResponse => AuthResponse.unmarshal codec
  | registerServer => RegisterServer.unmarshal codec
  | transferRequest => TransferRequest.unmarshal codec
  | transferResponse => TransferResponse.unmarshal codec
  | playerInfoRequest => PlayerInfoRequest.unmarshal codec
  | playerInfoResponse => PlayerInfoResponse.unmarshal codec
  | serverListRequest => ServerListRequest.unmarshal
  | serverListResponse => ServerListResponse.unmarshal codec
  | findPlayerRequest => FindPlayerRequest.unmarshal codec
  | findPlayerResponse => FindPlayerResponse.unmarshal codec
  | updatePlayerLatency => UpdatePlayerLatency.unmarshal codec
  | disconnectPlayer => DisconnectPlayer.unmarshal codec
  | setServerDraining => SetServerDraining.unmarshal codec

end Kind

/-- `packet.Packet`: a kind and its fields. -/
abbrev Packet := (k : Kind) × k.Body

/-- `packet.Pool`: one object of each kind. -/
abbrev Pool := (k : Kind) → k.Body

/-- `packet.NewPool`. -/
def newPool : Pool := Kind.zero

/-- `Header.Write`. -/
def writeHeader (id : UInt16) : List UInt8 := [id.toUInt8, (id >>> 8).toUInt8]

/-- `Header.Read`, from the first two bytes. -/
def readHeader (b1 b2 : UInt8) : UInt16 := b1.toUInt16 ||| b2.toUInt16 <<< 8

def maxPacketSize : Nat := 1 <<< 20

/-- Why `ReadPacket` failed. -/
inductive ReadError where
  /-- the connection: its end, a deadline -/
  | conn (err : String)
  | tooLarge (l : Nat)
  /-- the payload ends inside the header -/
  | header
  | unknown (id : UInt16)
  /-- the reader panicked -/
  | panicked (k : Kind) (err : String)
  | unread (n : Nat)
  deriving DecidableEq, Repr

def ReadError.text : ReadError → String
  | conn err => err
  | tooLarge l => "packet size " ++ toString l ++ " exceeds maximum of " ++ toString maxPacketSize
  | header => "EOF"
  | unknown id => "unknown packet " ++ toString id
  | panicked k err => k.typeName ++ ": " ++ err
  | unread n => "still have " ++ toString n ++ " bytes unread"

namespace ReadError

@[simp] theorem text_tooLarge (l : Nat) : (tooLarge l).text =
    "packet size " ++ toString l ++ " exceeds maximum of " ++ toString maxPacketSize := rfl

@[simp] theorem text_unknown (id : UInt16) :
    (unknown id).text = "unknown packet " ++ toString id := rfl

@[simp] theorem text_panicked (k : Kind) (err : String) :
    (panicked k err).text = k.typeName ++ ": " ++ err := rfl

@[simp] theorem text_unread (n : Nat) :
    (unread n).text = "still have " ++ toString n ++ " bytes unread" := rfl

end ReadError

section Client

variable (codec : Prims)

/-- `ReadPacket`, once it has the payload: the packet or the error, and the pool. -/
def decode (pool : Pool) : List UInt8 → Except ReadError Packet × Pool
  | b1 :: b2 :: buf =>
      match Kind.ofID (readHeader b1 b2) with
      | none => (.error (.unknown (readHeader b1 b2)), pool)
      | some k =>
          match k.unmarshal codec (pool k) buf with
          | (pk, .error err) => (.error (.panicked k err), Function.update pool k pk)
          | (pk, .ok rest) =>
              (if rest.length > 0 then .error (.unread rest.length) else .ok ⟨k, pk⟩,
                Function.update pool k pk)
  | _ => (.error .header, pool)

/-- `io.ReadFull` on a stream that ends: `k` bytes and what follows them. -/
def readFull (k : Nat) (input : List UInt8) : Except ReadError (List UInt8 × List UInt8) :=
  if k ≤ input.length then .ok (input.take k, input.drop k)
  else .error (.conn (if input.length = 0 then "EOF" else "unexpected EOF"))

/-- `Client.ReadPacket` on the bytes still to be read from the connection. -/
def readPacket (pool : Pool) (input : List UInt8) :
    Except ReadError Packet × Pool × List UInt8 :=
  match readFull 4 input with
  | .error err => (.error err, pool, [])
  | .ok (size, input) =>
      let l := ofLE size
      if l > maxPacketSize then (.error (.tooLarge l), pool, input)
      else
        match readFull l input with
        | .error err => (.error err, pool, [])
        | .ok (data, input) =>
            let (result, pool) := decode codec pool data
            (result, pool, input)

/-- The header and the fields. -/
def payload (pk : Packet) : List UInt8 := writeHeader pk.1.id ++ pk.1.marshal codec pk.2

/-- A payload after its length, which is a `uint32`. -/
def frame (data : List UInt8) : List UInt8 := le 4 data.length ++ data

/-- `Client.WritePacket`: the bytes passed to the connection. -/
def writePacket (pk : Packet) : List UInt8 := frame (payload codec pk)

/-- `n` calls of `ReadPacket`, one after the other. -/
def readPackets : Nat → Pool → List UInt8 → List (Except ReadError Packet) × Pool × List UInt8
  | 0, pool, input => ([], pool, input)
  | n + 1, pool, input =>
      let (result, pool, input) := readPacket codec pool input
      let (results, pool, input) := readPackets n pool input
      (result :: results, pool, input)

end Client

/-! ## A codec to run the model with

Little-endian numbers, and strings as counted code points. -/

def int64LE : Prim UInt8 Int64 :=
  fixed 8 (fun x => x.toBitVec.toNat) (fun n => ⟨⟨BitVec.ofNat 64 n⟩⟩)

def uuidLE : Prim UInt8 UUID := fixed 16 BitVec.toNat (BitVec.ofNat 128)

def boolByte : Prim UInt8 Bool := fixed 1 Bool.toNat (fun n => n = 1)

/-- A string as its code points, counted. -/
def codePoints : Prim UInt8 String where
  write s := (counted (fixed 4 Char.toNat Char.ofNat)).write s.toList
  read bs := ((counted (fixed 4 Char.toNat Char.ofNat)).read bs).map
    fun (chars, rest) => (String.ofList chars, rest)

theorem int64LE_inverse : int64LE.Inverse := by
  refine fixed_inverse (fun x => ?_) (fun x => by simp)
  exact lt_of_lt_of_eq x.toBitVec.isLt (by decide)

theorem uuidLE_inverse : uuidLE.Inverse := by
  refine fixed_inverse (fun x => ?_) (fun x => by simp)
  exact lt_of_lt_of_eq x.isLt (by decide)

theorem boolByte_inverse : boolByte.Inverse := by
  refine fixed_inverse (fun x => ?_) (fun x => ?_)
  · cases x <;> decide
  · cases x <;> rfl

theorem codePoints_inverse : codePoints.Inverse := by
  intro s rest
  have chars : (fixed 4 Char.toNat Char.ofNat).Inverse :=
    fixed_inverse (fun c => c.val.toNat_lt) (fun c => Char.ofNat_toNat c)
  have read := counted_inverse chars s.toList rest
  simp only [codePoints, read, Except.map, String.ofList_toList]

def plain : Prims where
  uint8 := fixed 1 UInt8.toNat UInt8.ofNat
  uint32 := fixed 4 UInt32.toNat UInt32.ofNat
  varuint32 := fixed 4 UInt32.toNat UInt32.ofNat
  int64 := int64LE
  bool := boolByte
  string := codePoints
  uuid := uuidLE

theorem plain_inverse : plain.Inverse where
  uint8 := fixed_inverse (fun x => x.toNat_lt) (fun _ => UInt8.ofNat_toNat)
  uint32 := fixed_inverse (fun x => x.toNat_lt) (fun _ => UInt32.ofNat_toNat)
  varuint32 := fixed_inverse (fun x => x.toNat_lt) (fun _ => UInt32.ofNat_toNat)
  int64 := int64LE_inverse
  bool := boolByte_inverse
  string := codePoints_inverse
  uuid := uuidLE_inverse

end Wire

end Portal.Socket
