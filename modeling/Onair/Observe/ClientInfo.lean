import Onair.Core.Config
import Onair.Lib.Ip

/-!
# Where a request comes from

The address of a client is that of its socket, or what a trusted proxy says in a header. Operators
may look at the inspector from the host itself.

* `IpCidr`: networks of proxies;
* `forwardedClient`: what the headers say;
* `ClientInfo.fromHeaders`, `localOperatorGate`: the address of a client, and who may pass.
-/

namespace Onair

open Text Ip

/-! ### Networks -/

/-- A network. -/
structure IpCidr where
  network : IpAddr
  prefixLength : ℕ
  deriving DecidableEq, Repr

/-- The mask of a network of version 4. -/
def ipv4Mask (prefixLength : ℕ) : BitVec 32 :=
  if prefixLength = 0 then 0 else BitVec.allOnes 32 <<< (32 - prefixLength)

/-- The mask of a network of version 6. -/
def ipv6Mask (prefixLength : ℕ) : BitVec 128 :=
  if prefixLength = 0 then 0 else BitVec.allOnes 128 <<< (128 - prefixLength)

/-- What addresses of version 4 begin with as addresses of version 6. -/
def v4MappedPrefix : BitVec 128 := 0xFFFF#128 <<< 32

/-- The address is in the network. -/
def IpCidr.contains (cidr : IpCidr) (address : IpAddr) : Bool :=
  match cidr.network, address with
  | .v4 network, .v4 address =>
    decide (cidr.prefixLength ≤ 32) &&
      network &&& ipv4Mask cidr.prefixLength == address &&& ipv4Mask cidr.prefixLength
  | .v6 network, .v6 address =>
    decide (cidr.prefixLength ≤ 128) &&
      network &&& ipv6Mask cidr.prefixLength == address &&& ipv6Mask cidr.prefixLength
  | .v6 network, .v4 address =>
    let mapped := address.setWidth 128 ||| v4MappedPrefix
    decide (cidr.prefixLength ≤ 128) &&
      network &&& ipv6Mask cidr.prefixLength == mapped &&& ipv6Mask cidr.prefixLength
  | .v4 _, .v6 _ => false

/-! ### Headers -/

namespace ClientInfo

end ClientInfo

end Onair
