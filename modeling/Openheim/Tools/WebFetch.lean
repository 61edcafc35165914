import Openheim.Core.Error
import Openheim.Tools.IpAddr

/-
This file follows the address filter of `src/tools/web_fetch.rs`.
-/

namespace Openheim.Tools

/-- The IPv4 address that an IPv6 address carries. -/
def embeddedIpv4 (v6 : Ipv6Addr) : Option Ipv4Addr :=
  match v6.toIpv4Mapped with
  | some v4 => some v4
  | none =>
      if (v6.s0 == 0 && v6.s1 == 0 && v6.s2 == 0 && v6.s3 == 0 && v6.s4 == 0 && v6.s5 == 0) ||
          (v6.s0 == 0x64 && v6.s1 == 0xff9b && v6.s2 == 0 && v6.s3 == 0 && v6.s4 == 0 &&
            v6.s5 == 0) then
        some (.ofSegments v6.s6 v6.s7)
      else if v6.s0 == 0x2002 then some (.ofSegments v6.s1 v6.s2)
      else none

/-- The arm for IPv4 addresses. -/
def isDisallowedIpv4 (v4 : Ipv4Addr) : Bool :=
  v4.isLoopback || v4.isPrivate || v4.isLinkLocal || v4.isDocumentation || v4.isMulticast ||
    v4.a == 0 ||
    (v4.a == 100 && v4.b &&& 0xc0 == 64) || (v4.a == 192 && v4.b == 0 && v4.c == 0) ||
    (v4.a == 198 && v4.b &&& 0xfe == 18) || 240 ≤ v4.a

def isDisallowedIp : IpAddr → Bool
  | .v4 v4 => isDisallowedIpv4 v4
  | .v6 v6 =>
      if v6.isLoopback || v6.isUnspecified then true
      else
        match embeddedIpv4 v6 with
        | some v4 => isDisallowedIpv4 v4
        | none =>
            v6.isMulticast || v6.s0 &&& 0xfe00 == 0xfc00 || v6.s0 &&& 0xffc0 == 0xfe80 ||
              v6.s0 &&& 0xffc0 == 0xfec0 || (v6.s0 == 0x2001 && v6.s1 == 0x0db8) ||
                (v6.s0 == 0x2001 && v6.s1 == 0) ||
              (v6.s0 == 0x64 && v6.s1 == 0xff9b && v6.s2 == 1) ||
              (v6.s0 == 0x100 && v6.s1 == 0 && v6.s2 == 0 && v6.s3 == 0)

/-- What the fetch asks the standard library and the system: an address from its text and back, and
the addresses of a host. -/
structure Resolver where
  parse : String → Option IpAddr
  display : IpAddr → String
  lookupHost : String → BitVec 16 → Except String (List SocketAddr)

/-- The text of a host without the brackets of an IPv6 literal. -/
def hostLiteral (host : String) : String :=
  match host.toList with
  | '[' :: rest => if rest.getLast? = some ']' then .ofList rest.dropLast else host
  | _ => host

/-- Checks every address of a host and returns the first one, to which the connection is pinned. -/
def resolveAndCheck (resolver : Resolver) (host : String) (port : BitVec 16) :
    Except Error (Option SocketAddr) :=
  match resolver.parse (hostLiteral host) with
  | some ip =>
      if isDisallowedIp ip then
        .error (.toolExecutionError ("Refusing to fetch " ++ host ++
          ": address is not publicly routable"))
      else .ok none
  | none =>
      match resolver.lookupHost host port with
      | .error reason =>
          .error (.toolExecutionError ("Failed to resolve host '" ++ host ++ "': " ++ reason))
      | .ok [] =>
          .error (.toolExecutionError ("Host '" ++ host ++ "' did not resolve to any address"))
      | .ok (first :: rest) =>
          match (first :: rest).find? fun addr => isDisallowedIp addr.ip with
          | some addr =>
              .error (.toolExecutionError ("Refusing to fetch " ++ host ++
                ": resolves to non-public address " ++ resolver.display addr.ip))
          | none => .ok (some first)

end Openheim.Tools
