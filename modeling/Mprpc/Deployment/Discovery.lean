import Mprpc.Client.Channel
import Mprpc.Rpc.Registration

/-!
# From the address of a provider to the address that a client connects to

`RpcProvider::Run` writes `method_path/ip:port` with `sprintf` into a buffer of
128 bytes, and `CallMethod` takes the name that ZooKeeper lists under the method
path apart at its colon.  The address comes back for all names, addresses and
ports, when the path fits; and nothing checks that it does.
-/

namespace Mprpc.Deployment

open Mprpc.Client
open Mprpc.Protobuf
open Mprpc.Rpc

universe u

/-- The text of an IPv4 address. -/
structure IpText where
  text : Bytes
  dotted : ∀ c ∈ text, c = 46 ∨ 48 ≤ c.toNat ∧ c.toNat ≤ 57

/-- `method_path` of `RpcProvider::Run`. -/
def methodPath (serviceName methodName : Bytes) : Bytes :=
  Bytes.ofString "/" ++ serviceName ++ Bytes.ofString "/" ++ methodName

/-- What `sprintf` writes: the format `%s/%s:%d`. -/
def hostPath (serviceName methodName ip : Bytes) (port : UInt16) : Bytes :=
  Bytes.cString (methodPath serviceName methodName) ++ Bytes.ofString "/" ++
    hostName (Bytes.cString ip) port

/-- The text fits into `char host_path[128]` with its terminator. -/
def FitsHostPath (text : Bytes) : Prop :=
  text.length + 1 ≤ 128

/-- The name of a node: the path behind its last slash. -/
def nodeName (path : Bytes) : Bytes :=
  (path.reverse.takeWhile (· ≠ 47)).reverse

/-- The path of its parent: all before that slash. -/
def parentPath (path : Bytes) : Bytes :=
  (path.reverse.dropWhile (· ≠ 47)).tail.reverse

/-- A path splits at the slash in front of a name. -/
theorem split_path {name : Bytes} (noSlash : 47 ∉ name) (parent : Bytes) :
    parentPath (parent ++ 47 :: name) = parent ∧ nodeName (parent ++ 47 :: name) = name := by
  have noSlash' : 47 ∉ name.reverse := fun member => noSlash (List.mem_reverse.mp member)
  have reversed : (parent ++ 47 :: name).reverse = name.reverse ++ 47 :: parent.reverse := by simp
  constructor
  · rw [parentPath, reversed, Bytes.dropWhile_append_cons noSlash', List.tail_cons,
      List.reverse_reverse]
  · rw [nodeName, reversed, Bytes.takeWhile_append_cons noSlash', List.reverse_reverse]

namespace IpText

variable (ip : IpText)

theorem notMem {c : UInt8} (other : c ≠ 46 ∧ ¬ (48 ≤ c.toNat ∧ c.toNat ≤ 57)) : c ∉ ip.text := by
  intro member
  rcases ip.dotted c member with dot | digit
  · exact other.1 dot
  · exact other.2 digit

/-- The name of a provider's node has no slash. -/
theorem slash_notMem_hostName (port : UInt16) : 47 ∉ hostName ip.text port := by
  have colon : Bytes.ofString ":" = [58] := rfl
  rw [hostName, colon]
  simp only [List.mem_append, List.mem_singleton]
  rintro ((inside | same) | digit)
  · exact ip.notMem (by decide) inside
  · cases same
  · exact absurd (Bytes.isDigit_of_mem_ofNat digit).1 (by decide)

/-- `CallMethod` reads the address back. -/
theorem parseAddress_hostName (path : Bytes) (port : UInt16) :
    parseAddress path (hostName ip.text port) = .ok ⟨ip.text, port⟩ := by
  have name : hostName ip.text port = ip.text ++ 58 :: Bytes.ofNat port.toNat :=
    List.append_assoc ..
  have found : (hostName ip.text port).idxOf? 58 = some ip.text.length := by
    rw [name]
    exact Bytes.idxOf?_append_cons (ip.notMem (by decide)) _
  have number : Bytes.atoi (Bytes.ofNat port.toNat) = port.toNat :=
    Bytes.atoi_ofNat (Nat.lt_trans port.toNat_lt (by decide))
  have same : UInt16.ofInt port.toNat = port := by
    have bound := port.toNat_lt
    apply UInt16.toNat_inj.mp
    rw [UInt16.ofInt, UInt16.toNat_ofNat']
    omega
  unfold parseAddress
  rw [found, name]
  simp [number, same]

end IpText

/-- What the provider registers for a call's service and method, and what the
client makes of it: the path fits into the buffer, it is a child of the path that
the client asks for, and the child's name is read as the same address. -/
def Discovers {Msg : Type u} (call : StubCall Msg) (ip : Bytes) (port : UInt16) : Prop :=
  let path := hostPath call.service.name call.method.name ip port
  FitsHostPath path ∧ parentPath path = Bytes.cString call.methodPath ∧
    parseAddress call.methodPath (nodeName path) = .ok ⟨ip, port⟩

/-- For all names, addresses and ports discovery finds what was registered just
when the path of the method, the address and the decimal port leave room for two
separators and the terminator. -/
theorem discovers_iff {Msg : Type u} (call : StubCall Msg) (ip : IpText) (port : UInt16) :
    Discovers call ip.text port ↔
      (Bytes.cString call.methodPath).length + ip.text.length +
        (Bytes.ofNat port.toNat).length + 3 ≤ 128 := by
  have whole : Bytes.cString ip.text = ip.text := Bytes.cString_eq_self (ip.notMem (by decide))
  have path : hostPath call.service.name call.method.name ip.text port =
      Bytes.cString call.methodPath ++ 47 :: hostName ip.text port := by
    rw [hostPath, whole]
    exact List.append_assoc ..
  rcases split_path (ip.slash_notMem_hostName port) (Bytes.cString call.methodPath) with
    ⟨parent, node⟩
  have name : (hostName ip.text port).length =
      ip.text.length + 1 + (Bytes.ofNat port.toNat).length := by
    rw [hostName, List.length_append, List.length_append]
    rfl
  unfold Discovers FitsHostPath
  dsimp only
  rw [path, parent, node, ip.parseAddress_hostName]
  simp only [and_true, List.length_append, List.length_cons, name]
  omega

/-- The address in the examples below. -/
def localHost : IpText where
  text := Bytes.ofString "127.0.0.1"
  dotted := by decide +kernel

/-- A call of a method of a service, both with long names. -/
def longCall (length : Nat) : StubCall RpcHeader where
  service := ⟨List.replicate length 83, [], []⟩
  method := ⟨List.replicate length 77, RpcHeader.codec, RpcHeader.codec⟩
  request := {}
  nameField := none

/-- With two names of 56 bytes the path has 129 bytes. -/
theorem long_path_overflows : ¬ Discovers (longCall 56) localHost.text 8000 := by
  rintro ⟨fits, -⟩
  have length : (hostPath (longCall 56).service.name (longCall 56).method.name
    localHost.text 8000).length = 129 := by decide +kernel
  rw [FitsHostPath, length] at fits
  exact absurd fits (by decide)

end Mprpc.Deployment
