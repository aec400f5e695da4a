import Netmon.Network
import Netmon.Library.Text

/-! Who owns a flow: threads and their connections, as the resolver reports them. -/
namespace Netmon.Resolver
open Library

structure ProcessInfo where
  pid : Nat
  /-- Equal to the pid for the main thread. -/
  tid : Nat
  name : Text
  threadName : Text
  uid : Nat
  username : Text
deriving DecidableEq, Repr

structure ResolvedConnection where
  localAddr : SocketAddr
  remoteAddr : SocketAddr
  protocol : Protocol
  state : Text
  inode : Nat
  pid : Nat
  tid : Nat
  process : Text
  threadName : Text
  uid : Nat
  username : Text
deriving DecidableEq, Repr

end Netmon.Resolver
