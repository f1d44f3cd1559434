import Mprpc.Protobuf.Message

/-!
# The request header `mprpc.RpcHeader`

The header names the service and the method and carries the length of the
arguments.  Serializer and parser follow the generated code: a field with its
default value is not written, records may come in any order and number, the
last record of a field wins, and unknown fields are skipped.

Two facts about the pair are used later: the parser inverts the serializer, and
no byte string that parses to a header is shorter than the header's own
serialization.
-/

namespace Mprpc.Rpc

open Mprpc.Protobuf

/-- The fields of `mprpc.RpcHeader`. -/
structure RpcHeader where
  serviceName : Bytes := []
  methodName : Bytes := []
  argsSize : UInt32 := 0
  deriving DecidableEq, Repr

namespace RpcHeader

/-- A `bytes` field: tag and payload, nothing when the payload is empty. -/
def bytesField (tag : UInt8) (payload : Bytes) : Bytes :=
  if payload.length = 0 then [] else tag :: writeBytes payload

/-- A `uint32` field: tag and varint, nothing for zero. -/
def uint32Field (tag : UInt8) (value : Nat) : Bytes :=
  if value = 0 then [] else tag :: writeVarint 4 value

/-- `RpcHeader::_InternalSerialize`. -/
def encode (header : RpcHeader) : Bytes :=
  bytesField 10 header.serviceName ++ bytesField 18 header.methodName ++
    uint32Field 24 header.argsSize.toNat

/-- `SerializeToString`: refused above the size limit. -/
def serialize (header : RpcHeader) : Option Bytes :=
  if header.encode.length < sizeLimit then some header.encode else none

/-- Parse one record into the header: the body of the loop of
`RpcHeader::_InternalParse` after the tag has been read. -/
def parseRecord (header : RpcHeader) (tag : Nat) (input : Bytes) : Option (RpcHeader × Bytes) :=
  if tag = 10 then
    (readBytes input).map fun (payload, rest) => ({ header with serviceName := payload }, rest)
  else if tag = 18 then
    (readBytes input).map fun (payload, rest) => ({ header with methodName := payload }, rest)
  else if tag = 24 then
    (readVarint 10 input).map fun (value, rest) =>
      ({ header with argsSize := UInt32.ofNat value }, rest)
  else if tag % 8 = 4 ∨ tag = 0 then none
  else (skipUnknown tag input).map fun rest => (header, rest)

/-- The loop of `RpcHeader::_InternalParse`.  Every record takes at least its
tag, so the input's length is enough fuel. -/
def parseLoop : Nat → RpcHeader → Bytes → Option RpcHeader
  | _, header, [] => some header
  | 0, _, _ :: _ => none
  | fuel + 1, header, input => do
      let (tag, rest) ← readTag input
      let (header, rest) ← parseRecord header tag rest
      parseLoop fuel header rest

/-- `ParseFromString` on a fresh header. -/
def parse (input : Bytes) : Option RpcHeader :=
  parseLoop input.length {} input

theorem serialize_eq_some_iff {header : RpcHeader} {bytes : Bytes} :
    header.serialize = some bytes ↔ header.encode.length < sizeLimit ∧ header.encode = bytes := by
  simp [serialize]

/-! ## Shortest serialization -/

theorem length_bytesField_le (tag : UInt8) (payload : Bytes) :
    (bytesField tag payload).length ≤ 1 + (writeBytes payload).length := by
  unfold bytesField
  split
  · simp
  · simp [Nat.add_comm]

theorem length_le_bytesField (tag : UInt8) (payload : Bytes) :
    payload.length ≤ (bytesField tag payload).length := by
  unfold bytesField
  split
  · omega
  · simp only [writeBytes, List.length_cons, List.length_append]
    omega

theorem length_uint32Field_le (tag : UInt8) (value : Nat) :
    (uint32Field tag value).length ≤ 1 + (writeVarint 4 value).length := by
  unfold uint32Field
  split
  · simp
  · simp [Nat.add_comm]

/-- A record that is parsed adds no more to the serialization of the header
than it takes from the input. -/
theorem length_encode_parseRecord {header next : RpcHeader} {tag : Nat} {input rest : Bytes}
    (record : parseRecord header tag input = some (next, rest)) :
    next.encode.length + rest.length ≤ header.encode.length + 1 + input.length := by
  unfold parseRecord at record
  split at record
  · obtain ⟨⟨payload, tail⟩, read, result⟩ := Option.map_eq_some_iff.mp record
    cases result
    have written := length_writeBytes_add_le read
    have field := length_bytesField_le 10 payload
    simp only [encode, List.length_append]
    omega
  · split at record
    · obtain ⟨⟨payload, tail⟩, read, result⟩ := Option.map_eq_some_iff.mp record
      cases result
      have written := length_writeBytes_add_le read
      have field := length_bytesField_le 18 payload
      simp only [encode, List.length_append]
      omega
    · split at record
      · obtain ⟨⟨value, tail⟩, read, result⟩ := Option.map_eq_some_iff.mp record
        cases result
        have written := length_writeVarint_add_le (j := 4) read (Nat.mod_le value (2 ^ 32))
        have field := length_uint32Field_le 24 (value % 2 ^ 32)
        simp only [encode, List.length_append, UInt32.toNat_ofNat']
        omega
      · split at record
        · contradiction
        · obtain ⟨tail, skipped, result⟩ := Option.map_eq_some_iff.mp record
          cases result
          have shrinks := length_le_of_skipUnknown skipped
          omega

theorem length_encode_parseLoop {fuel : Nat} {header result : RpcHeader} {input : Bytes}
    (parsed : parseLoop fuel header input = some result) :
    result.encode.length ≤ header.encode.length + input.length := by
  induction fuel generalizing header input with
  | zero =>
      cases input with
      | nil =>
          cases parsed
          simp
      | cons byte tail => simp [parseLoop] at parsed
  | succ fuel inductionHypothesis =>
      cases input with
      | nil =>
          cases parsed
          simp
      | cons byte tail =>
          simp only [parseLoop, Option.bind_eq_bind, Option.bind_eq_some_iff] at parsed
          obtain ⟨⟨tag, afterTag⟩, tagRead, ⟨next, rest⟩, record, parsed⟩ := parsed
          have tagShrinks := length_lt_of_readTag tagRead
          have recordBound : next.encode.length + rest.length ≤
              header.encode.length + 1 + afterTag.length :=
            length_encode_parseRecord record
          have loopBound : result.encode.length ≤ next.encode.length + rest.length :=
            inductionHypothesis parsed
          omega

/-- No byte string that parses to a header is shorter than the header's own
serialization. -/
theorem length_encode_le_of_parse {header : RpcHeader} {input : Bytes}
    (parsed : parse input = some header) : header.encode.length ≤ input.length := by
  have bound := length_encode_parseLoop parsed
  simpa [encode, bytesField, uint32Field] using bound

/-! ## Round trip -/

theorem parseLoop_nil (fuel : Nat) (header : RpcHeader) :
    parseLoop fuel header [] = some header := by
  cases fuel <;> rfl

/-- One turn of the loop. -/
theorem parseLoop_eq_some_iff {fuel : Nat} {header result : RpcHeader} {byte : UInt8}
    {tail : Bytes} :
    parseLoop (fuel + 1) header (byte :: tail) = some result ↔
      ∃ tag afterTag next rest, readTag (byte :: tail) = some (tag, afterTag) ∧
        parseRecord header tag afterTag = some (next, rest) ∧
        parseLoop fuel next rest = some result := by
  simp [parseLoop, Option.bind_eq_some_iff]

/-- More fuel does not change a successful parse. -/
theorem parseLoop_mono {fuel more : Nat} {header result : RpcHeader} {input : Bytes}
    (parsed : parseLoop fuel header input = some result) :
    parseLoop (fuel + more) header input = some result := by
  induction fuel generalizing header input with
  | zero =>
      cases input with
      | nil =>
          rw [parseLoop_nil] at parsed ⊢
          exact parsed
      | cons byte tail => simp [parseLoop] at parsed
  | succ fuel inductionHypothesis =>
      cases input with
      | nil =>
          rw [parseLoop_nil] at parsed ⊢
          exact parsed
      | cons byte tail =>
          obtain ⟨tag, afterTag, next, rest, tagRead, record, parsed⟩ :=
            parseLoop_eq_some_iff.mp parsed
          rw [Nat.add_right_comm]
          exact parseLoop_eq_some_iff.mpr
            ⟨tag, afterTag, next, rest, tagRead, record, inductionHypothesis parsed⟩

theorem length_le_of_parseRecord {header next : RpcHeader} {tag : Nat} {input rest : Bytes}
    (record : parseRecord header tag input = some (next, rest)) :
    rest.length ≤ input.length := by
  have payloadShrinks : ∀ {payload tail : Bytes}, readBytes input = some (payload, tail) →
      tail.length ≤ input.length := fun read =>
    Nat.le_trans (Nat.le_add_left _ _) (length_writeBytes_add_le read)
  unfold parseRecord at record
  split at record
  · obtain ⟨⟨payload, tail⟩, read, result⟩ := Option.map_eq_some_iff.mp record
    cases result
    exact payloadShrinks read
  · split at record
    · obtain ⟨⟨payload, tail⟩, read, result⟩ := Option.map_eq_some_iff.mp record
      cases result
      exact payloadShrinks read
    · split at record
      · obtain ⟨⟨value, tail⟩, read, result⟩ := Option.map_eq_some_iff.mp record
        cases result
        exact Nat.le_of_lt (length_lt_of_readVarint read)
      · split at record
        · contradiction
        · obtain ⟨tail, skipped, result⟩ := Option.map_eq_some_iff.mp record
          cases result
          exact length_le_of_skipUnknown skipped

/-- The input's length is enough fuel. -/
theorem parseLoop_length {fuel : Nat} {header result : RpcHeader} {input : Bytes}
    (parsed : parseLoop fuel header input = some result) :
    parseLoop input.length header input = some result := by
  induction fuel generalizing header input with
  | zero =>
      cases input with
      | nil => exact parsed
      | cons byte tail => simp [parseLoop] at parsed
  | succ fuel inductionHypothesis =>
      cases input with
      | nil => exact parsed
      | cons byte tail =>
          obtain ⟨tag, afterTag, next, rest, tagRead, record, parsed⟩ :=
            parseLoop_eq_some_iff.mp parsed
          have tagShrinks := length_lt_of_readTag tagRead
          have recordShrinks := length_le_of_parseRecord record
          have enough : tail.length = rest.length + (tail.length - rest.length) := by
            simp only [List.length_cons] at tagShrinks
            omega
          refine parseLoop_eq_some_iff.mpr ⟨tag, afterTag, next, rest, tagRead, record, ?_⟩
          rw [enough]
          exact parseLoop_mono (inductionHypothesis parsed)

/-- The loop reads one written record and goes on with the rest. -/
theorem parseLoop_record (tag : Nat) {fuel : Nat} {header next result : RpcHeader}
    {body rest : Bytes} (small : tag < 128)
    (record : parseRecord header tag (body ++ rest) = some (next, rest))
    (parsed : parseLoop fuel next rest = some result) :
    parseLoop (fuel + 1) header (UInt8.ofNat tag :: body ++ rest) = some result :=
  parseLoop_eq_some_iff.mpr
    ⟨tag, body ++ rest, next, rest, readTag_cons small _, record, parsed⟩

theorem parseLoop_serviceName {fuel : Nat} {header result : RpcHeader} {payload rest : Bytes}
    (bound : payload.length < sizeLimit) (empty : header.serviceName = [])
    (parsed : parseLoop fuel { header with serviceName := payload } rest = some result) :
    parseLoop (fuel + 1) header (bytesField 10 payload ++ rest) = some result := by
  cases payload with
  | nil =>
      have unchanged : { header with serviceName := [] } = header := by
        rw [← empty]
      rw [unchanged] at parsed
      exact parseLoop_mono parsed
  | cons byte tail =>
      exact parseLoop_record 10 (by decide)
        (by simp [parseRecord, readBytes_writeBytes_append bound]) parsed

theorem parseLoop_methodName {fuel : Nat} {header result : RpcHeader} {payload rest : Bytes}
    (bound : payload.length < sizeLimit) (empty : header.methodName = [])
    (parsed : parseLoop fuel { header with methodName := payload } rest = some result) :
    parseLoop (fuel + 1) header (bytesField 18 payload ++ rest) = some result := by
  cases payload with
  | nil =>
      have unchanged : { header with methodName := [] } = header := by
        rw [← empty]
      rw [unchanged] at parsed
      exact parseLoop_mono parsed
  | cons byte tail =>
      exact parseLoop_record 18 (by decide)
        (by simp [parseRecord, readBytes_writeBytes_append bound]) parsed

theorem parseLoop_argsSize {fuel : Nat} {value : UInt32} {header result : RpcHeader}
    {rest : Bytes} (zero : header.argsSize = 0)
    (parsed : parseLoop fuel { header with argsSize := value } rest = some result) :
    parseLoop (fuel + 1) header (uint32Field 24 value.toNat ++ rest) = some result := by
  unfold uint32Field
  split
  · rename_i default
    have unchanged : { header with argsSize := value } = header := by
      rw [UInt32.toNat_inj.mp (default.trans UInt32.toNat_zero.symm), ← zero]
    rw [unchanged] at parsed
    exact parseLoop_mono parsed
  · have groups : value.toNat < 128 ^ (4 + 1) :=
      Nat.lt_trans value.toNat_lt (by decide)
    have read : readVarint 10 (writeVarint 4 value.toNat ++ rest) = some (value.toNat, rest) :=
      readVarint_writeVarint_append (by decide) groups rest
    exact parseLoop_record 24 (by decide) (by simp [parseRecord, read]) parsed

/-- The parser inverts the serializer. -/
theorem parse_of_serialize {header : RpcHeader} {bytes : Bytes}
    (serialized : header.serialize = some bytes) : parse bytes = some header := by
  obtain ⟨bound, rfl⟩ := serialize_eq_some_iff.mp serialized
  have serviceLength := length_le_bytesField 10 header.serviceName
  have methodLength := length_le_bytesField 18 header.methodName
  simp only [encode, List.length_append] at bound
  have serviceBound : header.serviceName.length < sizeLimit := by omega
  have methodBound : header.methodName.length < sizeLimit := by omega
  have loop : parseLoop 3 {} (bytesField 10 header.serviceName ++
      (bytesField 18 header.methodName ++ (uint32Field 24 header.argsSize.toNat ++ []))) =
        some header :=
    parseLoop_serviceName serviceBound rfl
      (parseLoop_methodName methodBound rfl (parseLoop_argsSize rfl rfl))
  rw [List.append_nil, ← List.append_assoc] at loop
  exact parseLoop_length loop

/-! ## The header as a message class -/

/-- `mprpc.RpcHeader` as a codec. -/
def codec : MessageCodec RpcHeader where
  serialize := serialize
  parse := parse

theorem codec_lawful : codec.Lawful where
  parse_serialize := parse_of_serialize
  serialize_length serialized := by
    obtain ⟨bound, rfl⟩ := serialize_eq_some_iff.mp serialized
    exact bound

/-- A cut serialization is too short to parse to the same header. -/
theorem codec_prefixExact : codec.PrefixExact := by
  intro header bytes cut serialized isPrefix parsed
  obtain ⟨-, rfl⟩ := serialize_eq_some_iff.mp serialized
  exact isPrefix.eq_of_length_le (length_encode_le_of_parse parsed)

theorem codec_checksWireType : codec.ChecksWireType := by
  intro byte rest badType
  change parseLoop (rest.length + 1) {} (byte :: rest) = none
  rw [Option.eq_none_iff_forall_ne_some]
  intro result parsed
  obtain ⟨tag, afterTag, next, tail, tagRead, record, -⟩ := parseLoop_eq_some_iff.mp parsed
  have wireType := mod_eight_of_readTag tagRead
  have unknown : tag ≠ 10 ∧ tag ≠ 18 ∧ tag ≠ 24 := by omega
  rw [parseRecord, if_neg unknown.1, if_neg unknown.2.1, if_neg unknown.2.2] at record
  split at record
  · contradiction
  · rename_i notEnd
    rw [skipUnknown_eq_none (by omega)] at record
    contradiction

end RpcHeader

end Mprpc.Rpc
