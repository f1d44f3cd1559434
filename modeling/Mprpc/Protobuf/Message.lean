import Mprpc.Protobuf.Wire

/-!
# Message types as codecs

A generated message class is used through `SerializeToString` and
`ParseFromString` only, so it is a pair of partial functions here.  What the
protobuf documentation promises about the pair is stated as separate
properties, so that each result names the ones it rests on.
-/

namespace Mprpc.Protobuf

universe u

/-- A message class, seen through its two conversions.  `none` is a conversion
that returns `false`. -/
structure MessageCodec (Msg : Type u) where
  serialize : Msg → Option Bytes
  parse : Bytes → Option Msg

namespace MessageCodec

variable {Msg : Type u}

/-- Parsing undoes serialization, and only messages below the size limit are
serialized. -/
structure Lawful (codec : MessageCodec Msg) : Prop where
  parse_serialize : ∀ {message : Msg} {bytes : Bytes},
    codec.serialize message = some bytes → codec.parse bytes = some message
  serialize_length : ∀ {message : Msg} {bytes : Bytes},
    codec.serialize message = some bytes → bytes.length < sizeLimit

/-- A serialization has no redundant tail: its last record is part of the
message, so a cut serialization is an error or another message. -/
def PrefixExact (codec : MessageCodec Msg) : Prop :=
  ∀ ⦃message : Msg⦄ ⦃bytes cut : Bytes⦄, codec.serialize message = some bytes →
    cut <+: bytes → codec.parse cut = some message → cut = bytes

/-- The low three bits of a message's first byte are its first record's wire
type; 4 ends a group that was never opened, 6 and 7 do not exist. -/
def ChecksWireType (codec : MessageCodec Msg) : Prop :=
  ∀ ⦃byte : UInt8⦄ ⦃rest : Bytes⦄,
    (byte.toNat % 8 = 4 ∨ byte.toNat % 8 = 6 ∨ byte.toNat % 8 = 7) →
      codec.parse (byte :: rest) = none

end MessageCodec

end Mprpc.Protobuf
