import Netmon.Library.Bytes

/-! Addresses and protocols shared by capture, resolver and aggregator. -/
namespace Netmon
open Library

structure Ipv4Addr where
  a : UInt8
  b : UInt8
  c : UInt8
  d : UInt8
deriving DecidableEq, Repr

structure Ipv6Addr where
  octets : Bytes
  size : octets.length = 16
deriving DecidableEq, Repr

inductive IpAddr where
  | v4 (address : Ipv4Addr)
  | v6 (address : Ipv6Addr)
deriving DecidableEq, Repr

structure SocketAddr where
  ip : IpAddr
  port : UInt16
deriving DecidableEq, Repr

inductive Protocol where
  | tcp
  | udp
  | other (number : UInt8)
deriving DecidableEq, Repr

def Protocol.isOther : Protocol → Bool
  | .other _ => true
  | _ => false

def Ipv4Addr.octets (address : Ipv4Addr) : Bytes := [address.a, address.b, address.c, address.d]

/-- `Ipv6Addr::from` of sixteen octets copied from a slice; `copy_from_slice`
panics when the lengths differ. -/
def Ipv6Addr.ofSlice (slice : Bytes) : Except Panic Ipv6Addr :=
  if size : slice.length = 16 then .ok ⟨slice, size⟩ else .error .outOfBounds

@[simp] theorem Ipv6Addr.ofSlice_octets (address : Ipv6Addr) : ofSlice address.octets = .ok address := by
  simp [ofSlice, address.size]

def u16FromBeBytes (high low : UInt8) : UInt16 := UInt16.ofNat (beNat [high, low])

def u16ToBeBytes (n : UInt16) : Bytes := beBytes 2 n.toNat

@[simp] theorem u16ToBeBytes_length (n : UInt16) : (u16ToBeBytes n).length = 2 := by simp [u16ToBeBytes]

theorem u16FromBeBytes_toBeBytes (n : UInt16) :
    u16FromBeBytes (octet (u16ToBeBytes n) 0) (octet (u16ToBeBytes n) 1) = n := by
  have bound := n.toNat_lt
  have word : [octet (u16ToBeBytes n) 0, octet (u16ToBeBytes n) 1] = beBytes 2 n.toNat := by
    simp [u16ToBeBytes, beBytes, octet]
  rw [u16FromBeBytes, word, beNat_beBytes 2 _ (by omega), UInt16.ofNat_toNat]

end Netmon
