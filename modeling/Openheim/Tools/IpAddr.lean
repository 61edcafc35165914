import Openheim.Library.Cidr

/-
This file follows the addresses of the standard library, as far as `src/tools/web_fetch.rs` uses
them.
-/

namespace Openheim.Tools

/-- The octets of an IPv4 address. -/
structure Ipv4Addr where
  a : BitVec 8
  b : BitVec 8
  c : BitVec 8
  d : BitVec 8
  deriving DecidableEq, Repr

namespace Ipv4Addr
variable (addr : Ipv4Addr)

def octets : List (BitVec 8) := [addr.a, addr.b, addr.c, addr.d]

/-- The address as a number of 32 bits. -/
def value : Nat := Cidr.value addr.octets

def isLoopback : Bool := addr.a == 127

def isPrivate : Bool :=
  addr.a == 10 || (addr.a == 172 && 16 ≤ addr.b && addr.b ≤ 31) || (addr.a == 192 && addr.b == 168)

def isLinkLocal : Bool := addr.a == 169 && addr.b == 254

def isDocumentation : Bool :=
  (addr.a == 192 && addr.b == 0 && addr.c == 2) ||
    (addr.a == 198 && addr.b == 51 && addr.c == 100) ||
    (addr.a == 203 && addr.b == 0 && addr.c == 113)

def isMulticast : Bool := 224 ≤ addr.a && addr.a ≤ 239

end Ipv4Addr

/-- The segments of an IPv6 address. -/
structure Ipv6Addr where
  s0 : BitVec 16
  s1 : BitVec 16
  s2 : BitVec 16
  s3 : BitVec 16
  s4 : BitVec 16
  s5 : BitVec 16
  s6 : BitVec 16
  s7 : BitVec 16
  deriving DecidableEq, Repr

/-- The two octets of a segment. -/
def highOctet (segment : BitVec 16) : BitVec 8 := (segment >>> 8).setWidth 8

def lowOctet (segment : BitVec 16) : BitVec 8 := segment.setWidth 8

/-- The address that two segments hold. -/
def Ipv4Addr.ofSegments (first second : BitVec 16) : Ipv4Addr :=
  ⟨highOctet first, lowOctet first, highOctet second, lowOctet second⟩

namespace Ipv6Addr
variable (addr : Ipv6Addr)

def segments : List (BitVec 16) :=
  [addr.s0, addr.s1, addr.s2, addr.s3, addr.s4, addr.s5, addr.s6, addr.s7]

/-- The address as a number of 128 bits. -/
def value : Nat := Cidr.value addr.segments

def unspecified : Ipv6Addr := ⟨0, 0, 0, 0, 0, 0, 0, 0⟩

def loopback : Ipv6Addr := ⟨0, 0, 0, 0, 0, 0, 0, 1⟩

def isUnspecified : Bool := addr == unspecified

def isLoopback : Bool := addr == loopback

def isMulticast : Bool := addr.s0 &&& 0xff00 == 0xff00

def toIpv4Mapped : Option Ipv4Addr :=
  if addr.s0 == 0 && addr.s1 == 0 && addr.s2 == 0 && addr.s3 == 0 && addr.s4 == 0 &&
    addr.s5 == 0xffff then
    some (.ofSegments addr.s6 addr.s7)
  else none

end Ipv6Addr

inductive IpAddr where
  | v4 (addr : Ipv4Addr)
  | v6 (addr : Ipv6Addr)
  deriving DecidableEq, Repr

structure SocketAddr where
  ip : IpAddr
  port : BitVec 16
  deriving DecidableEq, Repr

end Openheim.Tools
