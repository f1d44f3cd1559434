import Mprpc.Protobuf.MessageClass
import Mprpc.Rpc.Header

/-!
# The messages of `user.proto`

`ResultCode`, `LoginRequest` and `LoginResponse` with the serializers, the
parsers and the `MergeFrom` of the generated code.  A response holds a nested
message, which is there or not: `mutable_result` makes it, and an empty one is
written with length zero.

The parser of each class inverts its serializer, and more: serialized messages
that stand one behind the other are parsed to what `MergeFrom` makes of the
messages.
-/

namespace Mprpc.Example

open Mprpc.Protobuf
open Mprpc.Rpc

/-- The fields of `fixbug.ResultCode`. -/
structure ResultCode where
  errcode : Int32 := 0
  errmsg : Bytes := []
  deriving DecidableEq, Repr

/-- The fields of `fixbug.LoginRequest`. -/
structure LoginRequest where
  name : Bytes := []
  pwd : Bytes := []
  deriving DecidableEq, Repr

/-- The fields of `fixbug.LoginResponse`; `result` is `none` where `result_` is
null. -/
structure LoginResponse where
  result : Option ResultCode := none
  success : Bool := false
  deriving DecidableEq, Repr

/-! ## Scalar fields -/

/-- `ReadVarint64`. -/
def readVarint64 (input : Bytes) : Option (UInt64 × Bytes) :=
  (readVarint 10 input).map fun (value, rest) => (UInt64.ofNat value, rest)

/-- An `int32` field: tag and varint, which a negative value fills with its
sign; nothing for zero. -/
def int32Field (tag : UInt8) (value : Int32) : Bytes :=
  if value = 0 then [] else tag :: writeVarint 9 value.toInt64.toUInt64.toNat

/-- A `bool` field: tag and one byte, nothing for `false`. -/
def boolField (tag : UInt8) (value : Bool) : Bytes :=
  if value then [tag, 1] else []

/-- A field with a nested message: nothing when there is none. -/
def messageField {Sub : Type} (tag : UInt8) (encode : Sub → Bytes) : Option Sub → Bytes
  | none => []
  | some nested => tag :: writeBytes (encode nested)

theorem incremental_readVarint64 : Incremental readVarint64 := by
  intro input value rest read more
  rcases Option.map_eq_some_iff.mp read with ⟨⟨number, after⟩, varint, result⟩
  cases result
  rw [readVarint64, incremental_readVarint 10 varint more]
  rfl

theorem length_le_of_readVarint64 {input rest : Bytes} {value : UInt64}
    (read : readVarint64 input = some (value, rest)) : rest.length ≤ input.length := by
  rcases Option.map_eq_some_iff.mp read with ⟨⟨number, after⟩, varint, result⟩
  cases result
  exact Nat.le_of_lt (length_lt_of_readVarint varint)

/-- A number of 64 bits takes ten bytes at most. -/
theorem readVarint64_writeVarint (value : UInt64) :
    readVarint64 (writeVarint 9 value.toNat) = some (value, []) := by
  have groups : value.toNat < 128 ^ (9 + 1) := Nat.lt_trans value.toNat_lt (by decide)
  have read := readVarint_writeVarint_append (show 9 < 10 by decide) groups []
  rw [List.append_nil] at read
  rw [readVarint64, read, Option.map_some]
  dsimp only
  rw [UInt64.ofNat_toNat]

/-- The low 32 bits of a sign-extended number are the number. -/
theorem toInt32_signExtended (value : Int32) :
    value.toInt64.toUInt64.toUInt32.toInt32 = value := by
  have narrowed : value.toInt64.toUInt64.toUInt32.toInt32 = value.toInt64.toInt32 := by
    apply Int32.toBitVec.inj
    rw [Int64.toBitVec_toInt32, BitVec.signExtend_eq_setWidth_of_le _ (by decide),
      UInt32.toBitVec_toInt32, UInt64.toBitVec_toUInt32]
    rfl
  rw [narrowed, Int32.toInt32_toInt64]

/-- A `bytes` field is parsed into a message: an empty payload is not written. -/
theorem parseFrom_bytesField {Msg : Type} {cls : MessageClass Msg} (regular : cls.Regular)
    {depth : Nat} {tag : UInt8} {store : Msg → Bytes → Msg} {payload : Bytes}
    (small : tag.toNat < 128)
    (known : cls.field depth tag.toNat = some (MessageClass.storing readBytes store))
    (bound : payload.length < sizeLimit) (msg : Msg) :
    cls.parseFrom depth msg (RpcHeader.bytesField tag payload) =
      some (if 0 < payload.length then store msg payload else msg) := by
  cases payload with
  | nil => rfl
  | cons byte tail =>
      have read := readBytes_writeBytes_append bound []
      rw [List.append_nil] at read
      exact regular.parseFrom_storing small known read

/-! ## `ResultCode` -/

namespace ResultCode

/-- `ResultCode::_InternalSerialize`. -/
def encode (msg : ResultCode) : Bytes :=
  int32Field 8 msg.errcode ++ RpcHeader.bytesField 18 msg.errmsg

/-- The cases of `ResultCode::_InternalParse`. -/
def messageClass : MessageClass ResultCode where
  fresh := {}
  field _ tag :=
    if tag = 8 then
      some (MessageClass.storing readVarint64
        fun msg value => { msg with errcode := value.toUInt32.toInt32 })
    else if tag = 18 then
      some (MessageClass.storing readBytes fun msg payload => { msg with errmsg := payload })
    else none

/-- `ResultCode::MergeFrom`. -/
def mergeFrom (msg source : ResultCode) : ResultCode :=
  let msg := if 0 < source.errmsg.length then { msg with errmsg := source.errmsg } else msg
  if source.errcode ≠ 0 then { msg with errcode := source.errcode } else msg

theorem regular : messageClass.Regular := by
  constructor
  · intro depth tag parser known msg
    simp only [messageClass] at known
    split at known
    · cases known
      exact MessageClass.incremental_storing incremental_readVarint64 _ msg
    · split at known
      · cases known
        exact MessageClass.incremental_storing incremental_readBytes _ msg
      · cases known
  · intro depth tag parser msg input next rest known read
    simp only [messageClass] at known
    split at known
    · cases known
      exact MessageClass.length_le_of_storing length_le_of_readVarint64 read
    · split at known
      · cases known
        exact MessageClass.length_le_of_storing length_le_of_readBytes read
      · cases known

/-- The order of the fields does not matter to `MergeFrom`. -/
theorem mergeFrom_eq (msg source : ResultCode) :
    msg.mergeFrom source =
      { errcode := if source.errcode = 0 then msg.errcode else source.errcode
        errmsg := if 0 < source.errmsg.length then source.errmsg else msg.errmsg } := by
  unfold mergeFrom
  by_cases coded : source.errcode = 0
  · by_cases written : 0 < source.errmsg.length
    · simp [coded, written]
    · simp [coded, written]
  · by_cases written : 0 < source.errmsg.length
    · simp [coded, written]
    · simp [coded, written]

theorem mergeFrom_fresh (source : ResultCode) : ({} : ResultCode).mergeFrom source = source := by
  rcases source with ⟨errcode, errmsg⟩
  rw [mergeFrom_eq]
  cases errmsg with
  | nil =>
      by_cases coded : errcode = 0
      · simp [coded]
      · simp [coded]
  | cons byte tail =>
      by_cases coded : errcode = 0
      · simp [coded]
      · simp [coded]

theorem parseFrom_errcode (depth : Nat) (msg : ResultCode) (value : Int32) :
    messageClass.parseFrom depth msg (int32Field 8 value) =
      some { msg with errcode := if value = 0 then msg.errcode else value } := by
  unfold int32Field
  by_cases zero : value = 0
  · rw [if_pos zero, if_pos zero]
    rfl
  · rw [if_neg zero, if_neg zero]
    have stored : messageClass.parseFrom depth msg (8 :: writeVarint 9 _) = _ :=
      regular.parseFrom_storing (by decide) rfl (readVarint64_writeVarint value.toInt64.toUInt64)
    rw [stored, toInt32_signExtended]

theorem merges (depth : Nat) : messageClass.Merges depth encode mergeFrom := by
  intro msg source bound
  have payload := RpcHeader.length_le_bytesField 18 source.errmsg
  rw [encode, List.length_append] at bound
  have errmsg : messageClass.parseFrom depth _ (RpcHeader.bytesField 18 source.errmsg) = _ :=
    parseFrom_bytesField regular (by decide) rfl (by omega)
      { msg with errcode := if source.errcode = 0 then msg.errcode else source.errcode }
  rw [encode, regular.parseFrom_append (parseFrom_errcode depth msg source.errcode) errmsg,
    mergeFrom_eq]
  split
  · rfl
  · rfl

end ResultCode

/-! ## `LoginRequest` -/

namespace LoginRequest

/-- `LoginRequest::_InternalSerialize`. -/
def encode (msg : LoginRequest) : Bytes :=
  RpcHeader.bytesField 10 msg.name ++ RpcHeader.bytesField 18 msg.pwd

/-- The cases of `LoginRequest::_InternalParse`. -/
def messageClass : MessageClass LoginRequest where
  fresh := {}
  field _ tag :=
    if tag = 10 then
      some (MessageClass.storing readBytes fun msg payload => { msg with name := payload })
    else if tag = 18 then
      some (MessageClass.storing readBytes fun msg payload => { msg with pwd := payload })
    else none

/-- `LoginRequest::MergeFrom`. -/
def mergeFrom (msg source : LoginRequest) : LoginRequest :=
  let msg := if 0 < source.name.length then { msg with name := source.name } else msg
  if 0 < source.pwd.length then { msg with pwd := source.pwd } else msg

theorem regular : messageClass.Regular := by
  constructor
  · intro depth tag parser known msg
    simp only [messageClass] at known
    split at known
    · cases known
      exact MessageClass.incremental_storing incremental_readBytes _ msg
    · split at known
      · cases known
        exact MessageClass.incremental_storing incremental_readBytes _ msg
      · cases known
  · intro depth tag parser msg input next rest known read
    simp only [messageClass] at known
    split at known
    · cases known
      exact MessageClass.length_le_of_storing length_le_of_readBytes read
    · split at known
      · cases known
        exact MessageClass.length_le_of_storing length_le_of_readBytes read
      · cases known

theorem merges (depth : Nat) : messageClass.Merges depth encode mergeFrom := by
  intro msg source bound
  have name := RpcHeader.length_le_bytesField 10 source.name
  have pwd := RpcHeader.length_le_bytesField 18 source.pwd
  rw [encode, List.length_append] at bound
  have first : messageClass.parseFrom depth msg (RpcHeader.bytesField 10 source.name) = _ :=
    parseFrom_bytesField regular (by decide) rfl (by omega) msg
  have second : messageClass.parseFrom depth _ (RpcHeader.bytesField 18 source.pwd) = _ :=
    parseFrom_bytesField regular (by decide) rfl (by omega)
      (if 0 < source.name.length then { msg with name := source.name } else msg)
  rw [encode, regular.parseFrom_append first second]
  rfl

/-- `fixbug.LoginRequest` as a codec. -/
def codec : MessageCodec LoginRequest :=
  messageClass.codec encode

theorem mergeFrom_fresh (source : LoginRequest) :
    ({} : LoginRequest).mergeFrom source = source := by
  rcases source with ⟨name, pwd⟩
  cases name with
  | nil =>
      cases pwd with
      | nil => rfl
      | cons byte tail => rfl
  | cons byte tail =>
      cases pwd with
      | nil => rfl
      | cons byte tail => rfl

theorem codec_lawful : codec.Lawful :=
  MessageClass.codec_lawful (merges recursionLimit) mergeFrom_fresh

end LoginRequest

/-! ## `LoginResponse` -/

namespace LoginResponse

/-- `result()`: the default message where there is none. -/
def resultCode (msg : LoginResponse) : ResultCode :=
  msg.result.getD {}

/-- `LoginResponse::_InternalSerialize`. -/
def encode (msg : LoginResponse) : Bytes :=
  messageField 10 ResultCode.encode msg.result ++ boolField 16 msg.success

/-- The cases of `LoginResponse::_InternalParse`. -/
def messageClass : MessageClass LoginResponse where
  fresh := {}
  field depth tag :=
    if tag = 10 then
      some fun msg => MessageClass.storing
        (ResultCode.messageClass.readMessage depth msg.resultCode)
        (fun msg nested => { msg with result := some nested }) msg
    else if tag = 16 then
      some (MessageClass.storing readVarint64
        fun msg value => { msg with success := decide (value ≠ 0) })
    else none

/-- A nested message is merged into the one that `mutable_result` finds or
makes. -/
def mergeResult (msg : LoginResponse) : Option ResultCode → LoginResponse
  | some result => { msg with result := some (msg.resultCode.mergeFrom result) }
  | none => msg

/-- `LoginResponse::MergeFrom`. -/
def mergeFrom (msg source : LoginResponse) : LoginResponse :=
  let msg := msg.mergeResult source.result
  if source.success then { msg with success := source.success } else msg

theorem regular : messageClass.Regular := by
  constructor
  · intro depth tag parser known msg
    simp only [messageClass] at known
    split at known
    · cases known
      exact MessageClass.incremental_storing (MessageClass.incremental_readMessage _ _ _) _ msg
    · split at known
      · cases known
        exact MessageClass.incremental_storing incremental_readVarint64 _ msg
      · cases known
  · intro depth tag parser msg input next rest known read
    simp only [messageClass] at known
    split at known
    · cases known
      exact MessageClass.length_le_of_storing MessageClass.length_le_of_readMessage read
    · split at known
      · cases known
        exact MessageClass.length_le_of_storing length_le_of_readVarint64 read
      · cases known

/-- The nested message is merged into the one that is there. -/
theorem parseFrom_result {depth : Nat} (positive : 0 < depth) (msg : LoginResponse)
    {result : Option ResultCode}
    (bound : (messageField 10 ResultCode.encode result).length < sizeLimit) :
    messageClass.parseFrom depth msg (messageField 10 ResultCode.encode result) =
      some (msg.mergeResult result) := by
  cases result with
  | none => rfl
  | some result =>
      have payload : result.encode.length < sizeLimit := by
        simp only [messageField, writeBytes, List.length_cons, List.length_append] at bound
        omega
      have merged := ResultCode.merges (depth - 1) msg.resultCode result payload
      have read := MessageClass.readMessage_writeBytes positive payload merged
      have ten : (10 : UInt8).toNat < 128 := by decide
      apply regular.parseFrom_record ten rfl
      rw [MessageClass.storing, read]
      rfl

theorem parseFrom_success (depth : Nat) (msg : LoginResponse) (value : Bool) :
    messageClass.parseFrom depth msg (boolField 16 value) =
      some (if value then { msg with success := value } else msg) := by
  cases value with
  | false => rfl
  | true =>
      have sixteen : (16 : UInt8).toNat < 128 := by decide
      have read : readVarint64 [1] = some (1, []) := rfl
      exact regular.parseFrom_storing sixteen rfl read

theorem merges {depth : Nat} (positive : 0 < depth) :
    messageClass.Merges depth encode mergeFrom := by
  intro msg source bound
  rw [encode, List.length_append] at bound
  have nested : (messageField 10 ResultCode.encode source.result).length < sizeLimit := by omega
  have result := parseFrom_result positive msg nested
  rw [encode, regular.parseFrom_append result (parseFrom_success depth _ source.success)]
  rfl

/-- `fixbug.LoginResponse` as a codec. -/
def codec : MessageCodec LoginResponse :=
  messageClass.codec encode

theorem mergeFrom_fresh (source : LoginResponse) :
    ({} : LoginResponse).mergeFrom source = source := by
  rcases source with ⟨result, success⟩
  have copied : ({} : LoginResponse).mergeResult result = { result := result } := by
    cases result with
    | none => rfl
    | some result =>
        have same := ResultCode.mergeFrom_fresh result
        simp [mergeResult, resultCode, same]
  unfold mergeFrom
  rw [copied]
  cases success with
  | false => rfl
  | true => rfl

theorem codec_lawful : codec.Lawful :=
  MessageClass.codec_lawful (merges (by decide)) mergeFrom_fresh

/-- Responses that stand one behind the other are merged. -/
theorem parse_concatenated {responses : List LoginResponse}
    (bound : (responses.flatMap encode).length < sizeLimit) :
    codec.parse (responses.flatMap encode) = some (responses.foldl mergeFrom {}) :=
  regular.parseFrom_flatMap (merges (by decide)) bound {}

end LoginResponse

end Mprpc.Example
