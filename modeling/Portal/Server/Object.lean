/-
# Server.Object — a backend server as the proxy holds it

A `Server` is the object `server.New` returns.  Its fields never change after
construction, so they are one record; `ptr` is the identity of the object, and
two registrations under one name are two records.  What does change (the player
count, the draining and healthy flags) is kept by the state that runs change,
keyed by the object.
-/
import Mathlib.Init

namespace Portal

set_option autoImplicit false

/-- The network transport a server is dialed over: `server.Transport`, with its
two constants named. -/
inductive Transport where
  | rakNet
  | netherNet
  | unknown (s : String)
  deriving DecidableEq, Repr

/-- The value a transport string stands for. -/
def Transport.ofString (s : String) : Transport :=
  if s = "raknet" then .rakNet else if s = "nethernet" then .netherNet else .unknown s

/-- The immutable part of `server.Server`, and the identity of the object. -/
structure Server where
  ptr : Nat
  name : String
  address : String
  transport : Transport
  group : String
  weight : UInt32
  legacyAuth : Bool
  deriving DecidableEq, Repr

/-- `server.New`: weight 0 is treated as 1, transport "" as RakNet. -/
def Server.new (ptr : Nat) (name address : String) (transport : Transport) (group : String)
    (weight : UInt32) (legacyAuth : Bool) : Server where
  ptr := ptr
  name := name
  address := address
  transport := if transport = .unknown "" then .rakNet else transport
  group := group
  weight := if weight = 0 then 1 else weight
  legacyAuth := legacyAuth

end Portal
