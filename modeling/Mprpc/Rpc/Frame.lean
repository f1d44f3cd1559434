import Mprpc.Rpc.Header

/-!
# Request frames

`MprpcChannel::CallMethod` sends a request as four bytes of header length, the
serialized header and the serialized arguments.  The frame is built from the
two names and the argument string; it fails only when the header does not
serialize.
-/

namespace Mprpc.Rpc

open Mprpc.Protobuf

/-- What a request frame carries. -/
structure RpcRequest where
  serviceName : Bytes
  methodName : Bytes
  args : Bytes
  deriving DecidableEq, Repr

namespace RpcRequest

/-- The header that `CallMethod` fills in. -/
def header (request : RpcRequest) : RpcHeader where
  serviceName := request.serviceName
  methodName := request.methodName
  argsSize := UInt32.ofNat request.args.length

/-- The string `send_rpc_str` of `CallMethod`. -/
def frame (request : RpcRequest) : Option Bytes :=
  request.header.serialize.map fun rpcHeaderStr =>
    Bytes.ofUInt32 (uint32 rpcHeaderStr.length) ++ rpcHeaderStr ++ request.args

/-- The parts of a frame that was built. -/
theorem frame_eq_some_iff {request : RpcRequest} {bytes : Bytes} :
    request.frame = some bytes ↔
      request.header.encode.length < sizeLimit ∧
        Bytes.ofUInt32 request.header.encode.length ++ request.header.encode ++ request.args =
          bytes := by
  simp only [frame, Option.map_eq_some_iff, RpcHeader.serialize_eq_some_iff]
  constructor
  · rintro ⟨_, ⟨bound, rfl⟩, rfl⟩
    refine ⟨bound, ?_⟩
    rw [uint32_of_lt (Nat.lt_trans bound (by decide))]
  · rintro ⟨bound, rfl⟩
    refine ⟨_, ⟨bound, rfl⟩, ?_⟩
    rw [uint32_of_lt (Nat.lt_trans bound (by decide))]

theorem length_of_frame {request : RpcRequest} {bytes : Bytes}
    (built : request.frame = some bytes) :
    bytes.length = 4 + request.header.encode.length + request.args.length := by
  obtain ⟨_, rfl⟩ := frame_eq_some_iff.mp built
  simp only [List.length_append, Bytes.length_ofUInt32]

end RpcRequest

end Mprpc.Rpc
