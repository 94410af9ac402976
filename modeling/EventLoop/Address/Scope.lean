import EventLoop.Address.Endpoint

/-!
# Address scopes

What an address stands for, seen from a host that knows no address but its own unspecified
ones.

## Main definitions

* `Scope` — the kinds of address; `Address.scope` tells them apart.
* `Address.isUnspecified` — does it stand for every address of the host?
* `Address.covers` — is whatever is meant for one address meant for another as well?
* `Address.overlaps` — can one connection be meant for both addresses?
-/

namespace EventLoop

/-- What an address stands for. -/
inductive Scope
  /-- An IPv4 address, also one that is written as an IPv6 address. -/
  | quad (ip : IPv4)
  /-- Every address of the host. -/
  | unspecified
  /-- A group of hosts. -/
  | multicast
  /-- A host on a link that would have to be named as well. -/
  | linkLocal
  /-- Any other IPv6 address. -/
  | elsewhere
  deriving DecidableEq, Repr

namespace Address

/-- What an IPv6 address stands for, by its groups. -/
def scopeOfGroups : List UInt16 → Scope
  | [0, 0, 0, 0, 0, 0, 0, 0] => .unspecified
  | [0, 0, 0, 0, 0, 0xffff, high, low] => .quad (IPv6.extract high low)
  | first :: _ =>
    if 0xff00 ≤ first then .multicast
    else if 0xfe80 ≤ first && first ≤ 0xfebf then .linkLocal
    else .elsewhere
  | [] => .elsewhere

/-- What an address stands for. -/
def scope : Address → Scope
  | .v4 ip => .quad ip
  | .v6 ip => scopeOfGroups ip.groups.toList

/-- Does an address stand for every address of the host? -/
def isUnspecified (a : Address) : Bool :=
  a.scope = .unspecified || a.scope = .quad ⟨0, 0, 0, 0⟩

/-- Is whatever is meant for `b` meant for `a` as well? The unspecified IPv6 address stands for
the IPv4 addresses too, but not the other way round. -/
def covers (a b : Address) : Bool :=
  match a.scope, b.scope with
  | .unspecified, _ => true
  | .quad p, .quad q => p = q || p = ⟨0, 0, 0, 0⟩
  | _, _ => a = b

/-- Can one connection be meant for both addresses? -/
def overlaps (a b : Address) : Bool := a.covers b || b.covers a

theorem covers_self (a : Address) : a.covers a = true := by
  unfold covers
  cases a.scope <;> simp

end Address

end EventLoop
