import Mprpc.Data.Bytes
import Mprpc.Data.OrderedMap

/-!
# Load balancing: `ConsistentHash`

The ring maps the hashes of virtual nodes to hosts.  `std::hash` differs from
library to library, so the hash function is an argument of every operation.
-/

namespace Mprpc.Client

/-- `class ConsistentHash`.  Ring positions are the values of `uint32_t`
hashes. -/
structure ConsistentHash where
  virtualNodeNum : Int := 150
  ring : OrderedMap Nat Bytes := .empty
  deriving DecidableEq

namespace ConsistentHash

/-- The name that is hashed for the `i`-th virtual node of a host. -/
def virtualNodeName (host : Bytes) (i : Nat) : Bytes :=
  host ++ Bytes.ofString "#" ++ Bytes.ofNat i

/-- The inner loop of `AddNodes`: all virtual nodes of one host. -/
def addHost (hash : Bytes → UInt32) (virtualNodeNum : Int) (ring : OrderedMap Nat Bytes)
    (host : Bytes) : OrderedMap Nat Bytes :=
  (List.range virtualNodeNum.toNat).foldl
    (fun ring i => ring.set (hash (virtualNodeName host i)).toNat host) ring

/-- `AddNodes`: the ring is cleared first. -/
def addNodes (hash : Bytes → UInt32) (ch : ConsistentHash) (hosts : List Bytes) :
    ConsistentHash :=
  { ch with ring := hosts.foldl (addHost hash ch.virtualNodeNum) .empty }

/-- `GetTargetHost`: the first virtual node at or after the key's hash, or the
first of all behind the end of the ring. -/
def getTargetHost (hash : Bytes → UInt32) (ch : ConsistentHash) (key : Bytes) : Bytes :=
  match ch.ring.entries with
  | [] => []
  | (_, first) :: _ =>
      match ch.ring.lowerBound (hash key).toNat with
      | none => first
      | some (_, host) => host

end ConsistentHash

end Mprpc.Client
