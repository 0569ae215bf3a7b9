import Turna.Net.Addr

/-! # Peer addresses: normalisation and filter -/

namespace Turna.Net

def IpAddr.isIpv6 : IpAddr → Bool
  | .v4 _ => false
  | .v6 _ => true

end Turna.Net

namespace Turna.Relay
open Net

def normalizeIp : IpAddr → IpAddr
  | .v6 ip =>
    match ip.toIpv4Mapped with
    | some ip4 => .v4 ip4
    | none => .v6 ip
  | .v4 ip => .v4 ip

def normalizeAddr (addr : SocketAddr) : SocketAddr := .new (normalizeIp addr.ip) addr.port

def bitsV4 (ip : Ipv4Addr) : BitVec 32 :=
  ip.a.toBitVec ++ ip.b.toBitVec ++ ip.c.toBitVec ++ ip.d.toBitVec

def bitsV6 (ip : Ipv6Addr) : BitVec 128 :=
  ip.s0.toBitVec ++ ip.s1.toBitVec ++ ip.s2.toBitVec ++ ip.s3.toBitVec ++ ip.s4.toBitVec ++ ip.s5.toBitVec ++
    ip.s6.toBitVec ++ ip.s7.toBitVec

structure Cidr where
  addr : IpAddr
  prefixLen : Nat
  deriving DecidableEq, Repr

/-- Whether the first `prefixLen` bits agree; an address of the other family is never inside. -/
def Cidr.contains (range : Cidr) (ip : IpAddr) : Bool :=
  match range.addr, ip with
  | .v4 net, .v4 ip => bitsV4 net >>> (32 - range.prefixLen) == bitsV4 ip >>> (32 - range.prefixLen)
  | .v6 net, .v6 ip => bitsV6 net >>> (128 - range.prefixLen) == bitsV6 ip >>> (128 - range.prefixLen)
  | _, _ => false

structure PeerPolicy where
  selfAddrs : List IpAddr
  forbidden : List Cidr
  denyPrivate : Bool
  allowLoopback : Bool
  denied : List Cidr
  allowed : List Cidr

def isLoopback : IpAddr → Bool
  | .v4 ip => ip.a == 127
  | .v6 ip => ip.segments == [0, 0, 0, 0, 0, 0, 0, 1]

def isUnspecified : IpAddr → Bool
  | .v4 ip => ip.octets == [0, 0, 0, 0]
  | .v6 ip => ip.segments == [0, 0, 0, 0, 0, 0, 0, 0]

def isMulticast : IpAddr → Bool
  | .v4 ip => ip.a &&& 0xF0 == 0xE0
  | .v6 ip => ip.s0 &&& 0xFF00 == 0xFF00

def isSpecialV4 (ip : Ipv4Addr) : Bool :=
  (ip.a == 169 && ip.b == 254) || ip.octets == [255, 255, 255, 255] || ip.a == 0

def isSpecialV6 (ip : Ipv6Addr) : Bool :=
  ip.s0 &&& 0xFFC0 == 0xFE80 || ip.s0 &&& 0xFFC0 == 0xFEC0 ||
    ip.segments.take 6 == [0x0064, 0xFF9B, 0, 0, 0, 0] || ip.s0 == 0x2002 ||
    (ip.s0 == 0x2001 && ip.s1 == 0) || ip.segments.take 6 == [0, 0, 0, 0, 0, 0] ||
    ip.segments.take 4 == [0x0100, 0, 0, 0] ||
    (ip.s0 == 0x2001 && (ip.s1 == 0x0002 || ip.s1 &&& 0xFFF0 == 0x0020))

def isSpecial : IpAddr → Bool
  | .v4 ip => isSpecialV4 ip
  | .v6 ip => isSpecialV6 ip

def isPrivate : IpAddr → Bool
  | .v4 ip => ip.a == 10 || (ip.a == 172 && ip.b &&& 0xF0 == 16) || (ip.a == 192 && ip.b == 168)
  | .v6 ip => ip.s0 &&& 0xFE00 == 0xFC00

/-- The allow list overrides the deny list and the private ranges, and nothing before them. -/
def PeerPolicy.isForbidden (policy : PeerPolicy) (ip : IpAddr) : Bool :=
  if policy.forbidden.any (·.contains ip) then true
  else if isLoopback ip then !policy.allowLoopback
  else if isUnspecified ip || isMulticast ip then true
  else if isSpecial ip then true
  else if policy.selfAddrs.contains ip then true
  else if policy.allowed.any (·.contains ip) then false
  else if policy.denied.any (·.contains ip) then true
  else policy.denyPrivate && isPrivate ip

end Turna.Relay
