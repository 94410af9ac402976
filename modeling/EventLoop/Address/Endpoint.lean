import EventLoop.Address.IPv6

/-!
# Endpoints

A host and a port, written `host:port` or `[host]:port`.

## Main definitions

* `Address` — an IPv4 or IPv6 address; `Address.parse?` picks the family by the presence
  of a colon.
* `SocketAddress` — an address with a port, and its text.
* `Endpoint.parse?` — reads the text of an endpoint. `localhost` stands for 127.0.0.1.
-/

namespace EventLoop

/-- An address of either family. -/
inductive Address
  | v4 (ip : IPv4)
  | v6 (ip : IPv6)
  deriving DecidableEq, Repr

/-- Reads a host. A host with a colon is read as IPv6, any other as IPv4; reading stops at a
NUL character. -/
def Address.parse? (host : List Char) : Option Address :=
  if ':' ∈ host then (IPv6.parse? (beforeNul host)).map .v6
  else (IPv4.parse? (beforeNul host)).map .v4

/-- An address and a port. -/
structure SocketAddress where
  /-- The address. -/
  address : Address
  /-- The port. -/
  port : UInt16
  deriving DecidableEq, Repr

/-- The text of a socket address; an IPv6 address stands in brackets. -/
def SocketAddress.text (s : SocketAddress) : List Char :=
  match s.address with
  | .v4 ip => ip.text ++ ':' :: Address.decimalText s.port.toNat
  | .v6 ip => '[' :: ip.text ++ ']' :: ':' :: Address.decimalText s.port.toNat

/-- A host and a port as they were written, and what they mean. -/
structure Endpoint where
  /-- The host, without brackets. -/
  host : List Char
  /-- Address and port. -/
  target : SocketAddress
  deriving DecidableEq, Repr

namespace Endpoint

/-- The host name that stands for the loopback address. -/
def localhost : List Char := "localhost".toList

/-- The loopback address in writing. -/
def loopback : List Char := "127.0.0.1".toList

/-- The host between brackets, or a host that needs none. -/
def unbracket? (host : List Char) : Option (List Char) :=
  match host with
  | [] => none
  | '[' :: rest =>
    if 2 ≤ rest.length ∧ rest.getLast? = some ']' then some rest.dropLast else none
  | _ => if ':' ∈ host then none else some host

/-- Reads a port: decimal digits, at most 65535. -/
def port? (cs : List Char) : Option UInt16 :=
  match Address.decimal? cs with
  | some n => if n ≤ 65535 then some (UInt16.ofNat n) else none
  | none => none

/-- Reads an endpoint. -/
def parse? (cs : List Char) : Option Endpoint := do
  let (before, after) ← Address.splitLast? ':' cs
  let inner ← unbracket? before
  let port ← port? after
  let host := if inner = localhost then loopback else inner
  let address ← Address.parse? host
  return ⟨host, ⟨address, port⟩⟩

end Endpoint

end EventLoop
