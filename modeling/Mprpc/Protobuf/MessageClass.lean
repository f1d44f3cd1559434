import Mprpc.Protobuf.Message

/-!
# Generated parsers

`_InternalParse` of every generated class is one loop: read a tag, let the
field that the tag announces read its payload into the message, skip what is
unknown.  A class is given here by its fresh message and the parsers of its
fields, and the loop is written once.

A parser that succeeds has looked at what it took and at nothing behind it.
So messages that stand one behind the other are parsed one after the other into
the same message, which is what `MergeFrom` does with messages in memory:
`Merges` says so of one class, and `parseFrom_flatMap` of any number of its
messages.
-/

namespace Mprpc.Protobuf

universe u v

/-- A field's parser: it reads the payload behind the tag into the message. -/
abbrev FieldParser (Msg : Type u) := Msg → Bytes → Option (Msg × Bytes)

/-- A generated class.  `field depth tag` is the parser of the field that `tag`
announces, where `depth` more messages or groups may be nested. -/
structure MessageClass (Msg : Type u) where
  fresh : Msg
  field : Nat → Nat → Option (FieldParser Msg)

/-- Skip the payload of an unknown record. -/
def skipAt (depth tag : Nat) (input : Bytes) : Option Bytes :=
  skipField (skipGroup input.length) depth tag input

namespace MessageClass

variable {Msg : Type u} {Sub : Type v} {α : Type v}

/-- The body of the loop after the tag has been read. -/
def parseRecord (cls : MessageClass Msg) (depth : Nat) (msg : Msg) (tag : Nat) (input : Bytes) :
    Option (Msg × Bytes) :=
  match cls.field depth tag with
  | some parser => parser msg input
  | none =>
      if tag % 8 = 4 ∨ tag = 0 then none
      else (skipAt depth tag input).map fun rest => (msg, rest)

/-- The loop of `_InternalParse`.  Every record takes at least its tag, so the
input's length is enough fuel. -/
def parseLoop (cls : MessageClass Msg) (depth : Nat) : Nat → Msg → Bytes → Option Msg
  | _, msg, [] => some msg
  | 0, _, _ :: _ => none
  | fuel + 1, msg, input =>
      (readTag input).bind fun (tag, rest) =>
        (cls.parseRecord depth msg tag rest).bind fun (msg, rest) =>
          cls.parseLoop depth fuel msg rest

/-- `_InternalParse` up to the end of the input. -/
def parseFrom (cls : MessageClass Msg) (depth : Nat) (msg : Msg) (input : Bytes) : Option Msg :=
  cls.parseLoop depth input.length msg input

/-- `ParseFromArray` and `ParseFromString`: clear the message, then parse. -/
def parse (cls : MessageClass Msg) (input : Bytes) : Option Msg :=
  cls.parseFrom recursionLimit cls.fresh input

/-- A field whose payload is read and stored. -/
def storing (read : Bytes → Option (α × Bytes)) (store : Msg → α → Msg) : FieldParser Msg :=
  fun msg input => (read input).map fun (value, rest) => (store msg value, rest)

/-- `ParseContext::ParseMessage`: the payload is parsed into the nested message
that is there. -/
def readMessage (sub : MessageClass Sub) (depth : Nat) (current : Sub) (input : Bytes) :
    Option (Sub × Bytes) :=
  if depth = 0 then none
  else (readBytes input).bind fun (payload, rest) =>
    (sub.parseFrom (depth - 1) current payload).map fun nested => (nested, rest)

end MessageClass

/-! ## Readers do not look ahead -/

/-- What stands behind the part that a reader takes is left as it is. -/
def Incremental {α : Type u} (read : Bytes → Option (α × Bytes)) : Prop :=
  ∀ ⦃input : Bytes⦄ ⦃value : α⦄ ⦃rest : Bytes⦄, read input = some (value, rest) →
    ∀ more, read (input ++ more) = some (value, rest ++ more)

theorem incremental_readVarint (k : Nat) : Incremental (readVarint k) := by
  intro input value rest read more
  induction k generalizing input value with
  | zero => cases read
  | succ k inductionHypothesis =>
      cases input with
      | nil => cases read
      | cons byte tail =>
          rw [List.cons_append, readVarint]
          rw [readVarint] at read
          split at read
          · rename_i last
            cases read
            rw [if_pos last]
          · rename_i continued
            rcases Option.map_eq_some_iff.mp read with ⟨⟨number, after⟩, later, result⟩
            cases result
            rw [if_neg continued, inductionHypothesis later]
            rfl

theorem incremental_readTag : Incremental readTag := by
  intro input tag rest read more
  rcases Option.map_eq_some_iff.mp read with ⟨⟨value, after⟩, varint, result⟩
  cases result
  rw [readTag, incremental_readVarint 5 varint more]
  rfl

theorem readBytes_eq_some_iff {input payload rest : Bytes} :
    readBytes input = some (payload, rest) ↔
      ∃ size after, readSize input = some (size, after) ∧ size ≤ after.length ∧
        after.take size = payload ∧ after.drop size = rest := by
  simp only [readBytes, Option.bind_eq_bind, Option.bind_eq_some_iff]
  constructor
  · rintro ⟨⟨size, after⟩, sizeRead, cut⟩
    dsimp only at cut
    split at cut
    · rename_i fits
      cases cut
      exact ⟨size, after, sizeRead, fits, rfl, rfl⟩
    · cases cut
  · rintro ⟨size, after, sizeRead, fits, rfl, rfl⟩
    exact ⟨(size, after), sizeRead, if_pos fits⟩

theorem incremental_readBytes : Incremental readBytes := by
  intro input payload rest read more
  rcases readBytes_eq_some_iff.mp read with ⟨size, after, sizeRead, fits, rfl, rfl⟩
  rcases readSize_eq_some_iff.mp sizeRead with ⟨varint, bound⟩
  apply readBytes_eq_some_iff.mpr
  refine ⟨size, after ++ more, ?_, ?_, ?_, ?_⟩
  · exact readSize_eq_some_iff.mpr ⟨incremental_readVarint 5 varint more, bound⟩
  · rw [List.length_append]
    exact Nat.le_add_right_of_le fits
  · exact List.take_append_of_le_length fits
  · exact List.drop_append_of_le_length fits

theorem skipFixed_append {width : Nat} {input rest : Bytes}
    (skipped : skipFixed width input = some rest) (more : Bytes) :
    skipFixed width (input ++ more) = some (rest ++ more) := by
  unfold skipFixed at skipped ⊢
  split at skipped
  · rename_i fits
    cases skipped
    rw [if_pos (by rw [List.length_append]; exact Nat.le_add_right_of_le fits),
      List.drop_append_of_le_length fits]
  · cases skipped

/-- A skipped record is skipped with anything behind it, when groups are. -/
theorem skipField_append {group group' : Nat → Nat → Bytes → Option Bytes} {more : Bytes}
    (groupAppend : ∀ {depth tag input rest}, group depth tag input = some rest →
      group' depth tag (input ++ more) = some (rest ++ more))
    {depth tag : Nat} {input rest : Bytes} (skipped : skipField group depth tag input = some rest) :
    skipField group' depth tag (input ++ more) = some (rest ++ more) := by
  unfold skipField at skipped ⊢
  split at skipped
  · cases skipped
  · rename_i numbered
    rw [if_neg numbered]
    split at skipped
    · rcases Option.map_eq_some_iff.mp skipped with ⟨⟨value, after⟩, varint, rfl⟩
      rw [incremental_readVarint 10 varint more]
      rfl
    · exact skipFixed_append skipped more
    · rcases Option.map_eq_some_iff.mp skipped with ⟨⟨payload, after⟩, read, rfl⟩
      rw [incremental_readBytes read more]
      rfl
    · split at skipped
      · cases skipped
      · rename_i nests
        rw [if_neg nests]
        exact groupAppend skipped
    · exact skipFixed_append skipped more
    · cases skipped

/-- A skipped group is skipped with anything behind it and with more fuel. -/
theorem skipGroup_append {fuel : Nat} (extra : Nat) {depth start : Nat} {input rest : Bytes}
    (skipped : skipGroup fuel depth start input = some rest) (more : Bytes) :
    skipGroup (fuel + extra) depth start (input ++ more) = some (rest ++ more) := by
  induction fuel generalizing depth start input rest with
  | zero => cases skipped
  | succ fuel inductionHypothesis =>
      rw [Nat.add_right_comm]
      simp only [skipGroup, Option.bind_eq_bind, Option.bind_eq_some_iff] at skipped ⊢
      rcases skipped with ⟨⟨tag, after⟩, tagRead, skipped⟩
      refine ⟨(tag, after ++ more), incremental_readTag tagRead more, ?_⟩
      dsimp only at skipped ⊢
      split at skipped
      · rename_i ends
        rw [if_pos ends]
        split at skipped
        · rename_i matching
          cases skipped
          rw [if_pos matching]
        · cases skipped
      · rename_i goesOn
        rw [if_neg goesOn]
        rcases Option.bind_eq_some_iff.mp skipped with ⟨next, field, group⟩
        have skippedField : skipField (skipGroup (fuel + extra)) depth tag (after ++ more) =
            some (next ++ more) := skipField_append inductionHypothesis field
        rw [skippedField]
        exact inductionHypothesis group

theorem skipAt_append {depth tag : Nat} {input rest : Bytes}
    (skipped : skipAt depth tag input = some rest) (more : Bytes) :
    skipAt depth tag (input ++ more) = some (rest ++ more) := by
  unfold skipAt at skipped ⊢
  rw [List.length_append]
  exact skipField_append (fun group => skipGroup_append more.length group more) skipped

theorem length_le_of_skipAt {depth tag : Nat} {input rest : Bytes}
    (skipped : skipAt depth tag input = some rest) : rest.length ≤ input.length :=
  length_le_of_skipField length_le_of_skipGroup skipped

theorem length_le_of_readBytes {input payload rest : Bytes}
    (read : readBytes input = some (payload, rest)) : rest.length ≤ input.length :=
  (Nat.le_add_left _ _).trans (length_writeBytes_add_le read)

namespace MessageClass

variable {Msg : Type u} {Sub : Type v} {α : Type v}

/-- Fields whose parsers take a part of the input and do not look behind it. -/
structure Regular (cls : MessageClass Msg) : Prop where
  incremental : ∀ {depth tag parser}, cls.field depth tag = some parser →
    ∀ msg, Incremental (parser msg)
  length_le : ∀ {depth tag parser msg input next rest}, cls.field depth tag = some parser →
    parser msg input = some (next, rest) → rest.length ≤ input.length

theorem incremental_storing {read : Bytes → Option (α × Bytes)} (incremental : Incremental read)
    (store : Msg → α → Msg) (msg : Msg) : Incremental (storing read store msg) := by
  intro input next rest stored more
  rcases Option.map_eq_some_iff.mp stored with ⟨⟨value, after⟩, found, result⟩
  cases result
  rw [storing, incremental found more]
  rfl

theorem length_le_of_storing {read : Bytes → Option (α × Bytes)} {store : Msg → α → Msg}
    {msg next : Msg} {input rest : Bytes}
    (shrinks : ∀ {value}, read input = some (value, rest) → rest.length ≤ input.length)
    (stored : storing read store msg input = some (next, rest)) : rest.length ≤ input.length := by
  rcases Option.map_eq_some_iff.mp stored with ⟨⟨value, after⟩, found, result⟩
  cases result
  exact shrinks found

theorem incremental_readMessage (sub : MessageClass Sub) (depth : Nat) (current : Sub) :
    Incremental (sub.readMessage depth current) := by
  intro input nested rest read more
  unfold readMessage at read ⊢
  split at read
  · cases read
  · rename_i nests
    rw [if_neg nests]
    rcases Option.bind_eq_some_iff.mp read with ⟨⟨payload, after⟩, found, parsed⟩
    rcases Option.map_eq_some_iff.mp parsed with ⟨inner, innerParsed, result⟩
    cases result
    rw [incremental_readBytes found more, Option.bind_some]
    dsimp only
    rw [innerParsed]
    rfl

theorem length_le_of_readMessage {sub : MessageClass Sub} {depth : Nat} {current nested : Sub}
    {input rest : Bytes} (read : sub.readMessage depth current input = some (nested, rest)) :
    rest.length ≤ input.length := by
  unfold readMessage at read
  split at read
  · cases read
  · rcases Option.bind_eq_some_iff.mp read with ⟨⟨payload, after⟩, found, parsed⟩
    rcases Option.map_eq_some_iff.mp parsed with ⟨inner, -, result⟩
    cases result
    exact length_le_of_readBytes found

namespace Regular

variable {cls : MessageClass Msg} {depth tag : Nat} {msg next : Msg} {input rest : Bytes}

theorem length_le_of_parseRecord (regular : cls.Regular)
    (record : cls.parseRecord depth msg tag input = some (next, rest)) :
    rest.length ≤ input.length := by
  unfold parseRecord at record
  cases known : cls.field depth tag with
  | some parser =>
      rw [known] at record
      exact regular.length_le known record
  | none =>
      rw [known] at record
      dsimp only at record
      split at record
      · cases record
      · rcases Option.map_eq_some_iff.mp record with ⟨after, skipped, result⟩
        cases result
        exact length_le_of_skipAt skipped

theorem parseRecord_append (regular : cls.Regular)
    (record : cls.parseRecord depth msg tag input = some (next, rest)) (more : Bytes) :
    cls.parseRecord depth msg tag (input ++ more) = some (next, rest ++ more) := by
  unfold parseRecord at record ⊢
  cases known : cls.field depth tag with
  | some parser =>
      rw [known] at record
      exact regular.incremental known msg record more
  | none =>
      rw [known] at record
      dsimp only at record ⊢
      split at record
      · cases record
      · rename_i unknown
        rcases Option.map_eq_some_iff.mp record with ⟨after, skipped, result⟩
        cases result
        rw [if_neg unknown, skipAt_append skipped more]
        rfl

/-! ## The loop on parts of the input -/

theorem parseLoop_nil (cls : MessageClass Msg) (depth fuel : Nat) (msg : Msg) :
    cls.parseLoop depth fuel msg [] = some msg := by
  cases fuel with
  | zero => rfl
  | succ fuel => rfl

/-- One turn of the loop. -/
theorem parseLoop_succ_eq_some_iff {result : Msg} {fuel : Nat} (more : input ≠ []) :
    cls.parseLoop depth (fuel + 1) msg input = some result ↔
      ∃ tag after next rest, readTag input = some (tag, after) ∧
        cls.parseRecord depth msg tag after = some (next, rest) ∧
        cls.parseLoop depth fuel next rest = some result := by
  cases input with
  | nil => exact absurd rfl more
  | cons byte tail => simp [parseLoop, Option.bind_eq_some_iff]

/-- Fuel beyond the length of the input changes nothing. -/
theorem parseLoop_of_length_le (regular : cls.Regular) {result : Msg} {fuel more : Nat}
    (enough : input.length ≤ fuel) (parsed : cls.parseLoop depth more msg input = some result) :
    cls.parseLoop depth fuel msg input = some result := by
  induction more generalizing fuel msg input with
  | zero =>
      cases input with
      | nil => rwa [parseLoop_nil] at parsed ⊢
      | cons byte tail => cases parsed
  | succ more inductionHypothesis =>
      by_cases empty : input = []
      · subst empty
        rwa [parseLoop_nil] at parsed ⊢
      · rcases (parseLoop_succ_eq_some_iff empty).mp parsed with
          ⟨tag, after, next, rest, tagRead, record, later⟩
        have tagShrinks := length_lt_of_readTag tagRead
        have recordShrinks := regular.length_le_of_parseRecord record
        cases fuel with
        | zero => omega
        | succ fuel =>
            apply (parseLoop_succ_eq_some_iff empty).mpr
            exact ⟨tag, after, next, rest, tagRead, record,
              inductionHypothesis (by omega) later⟩

theorem parseFrom_of_parseLoop (regular : cls.Regular) {result : Msg} {fuel : Nat}
    (parsed : cls.parseLoop depth fuel msg input = some result) :
    cls.parseFrom depth msg input = some result :=
  regular.parseLoop_of_length_le (Nat.le_refl _) parsed

/-- What stands behind a complete message is parsed into it. -/
theorem parseFrom_append (regular : cls.Regular) {middle result : Msg} {first second : Bytes}
    (parsed : cls.parseFrom depth msg first = some middle)
    (rest : cls.parseFrom depth middle second = some result) :
    cls.parseFrom depth msg (first ++ second) = some result := by
  have loops : ∀ (fuel : Nat) {msg : Msg} {first : Bytes},
      cls.parseLoop depth fuel msg first = some middle →
        cls.parseLoop depth (fuel + second.length) msg (first ++ second) = some result := by
    intro fuel
    induction fuel with
    | zero =>
        intro msg first parsed
        cases first with
        | nil =>
            cases parsed
            rw [Nat.zero_add]
            exact rest
        | cons byte tail => cases parsed
    | succ fuel inductionHypothesis =>
        intro msg first parsed
        by_cases empty : first = []
        · subst empty
          rw [parseLoop_nil] at parsed
          cases parsed
          exact regular.parseLoop_of_length_le (Nat.le_add_left _ _) rest
        · rcases (parseLoop_succ_eq_some_iff empty).mp parsed with
            ⟨tag, after, next, left, tagRead, record, later⟩
          rw [Nat.add_right_comm]
          apply (parseLoop_succ_eq_some_iff (by simp [empty])).mpr
          exact ⟨tag, after ++ second, next, left ++ second, incremental_readTag tagRead second,
            regular.parseRecord_append record second, inductionHypothesis later⟩
  exact regular.parseFrom_of_parseLoop (loops first.length parsed)

/-- A written record is read by the parser of its field. -/
theorem parseFrom_record (regular : cls.Regular) {byte : UInt8} {parser : FieldParser Msg}
    {body : Bytes} (small : byte.toNat < 128) (known : cls.field depth byte.toNat = some parser)
    (reads : parser msg body = some (next, [])) :
    cls.parseFrom depth msg (byte :: body) = some next := by
  have tagRead : readTag (byte :: body) = some (byte.toNat, body) := by
    have read := readTag_cons small body
    rwa [UInt8.ofNat_toNat] at read
  have record : cls.parseRecord depth msg byte.toNat body = some (next, []) := by
    unfold parseRecord
    rw [known]
    exact reads
  have loop : cls.parseLoop depth 1 msg (byte :: body) = some next :=
    (parseLoop_succ_eq_some_iff (List.cons_ne_nil _ _)).mpr
      ⟨byte.toNat, body, next, [], tagRead, record, rfl⟩
  exact regular.parseFrom_of_parseLoop loop

/-- A written payload is read and stored. -/
theorem parseFrom_storing (regular : cls.Regular) {byte : UInt8}
    {read : Bytes → Option (α × Bytes)} {store : Msg → α → Msg} {body : Bytes} {value : α}
    (small : byte.toNat < 128)
    (known : cls.field depth byte.toNat = some (storing read store))
    (reads : read body = some (value, [])) :
    cls.parseFrom depth msg (byte :: body) = some (store msg value) := by
  apply regular.parseFrom_record small known
  rw [storing, reads]
  rfl

end Regular

/-- The reader of a nested message inverts its writer. -/
theorem readMessage_writeBytes {sub : MessageClass Sub} {depth : Nat} {current nested : Sub}
    {payload : Bytes} (positive : 0 < depth) (bound : payload.length < sizeLimit)
    (parsed : sub.parseFrom (depth - 1) current payload = some nested) :
    sub.readMessage depth current (writeBytes payload) = some (nested, []) := by
  have read := readBytes_writeBytes_append bound []
  rw [List.append_nil] at read
  rw [readMessage, if_neg (Nat.pos_iff_ne_zero.mp positive), read, Option.bind_some]
  dsimp only
  rw [parsed]
  rfl

/-! ## Serialized messages -/

/-- Parsing a serialized source into a message merges it. -/
def Merges {Src : Type v} (cls : MessageClass Msg) (depth : Nat) (encode : Src → Bytes)
    (merge : Msg → Src → Msg) : Prop :=
  ∀ msg source, (encode source).length < sizeLimit →
    cls.parseFrom depth msg (encode source) = some (merge msg source)

/-- Sources that stand one behind the other are merged in order. -/
theorem Regular.parseFrom_flatMap {Src : Type v} {cls : MessageClass Msg} (regular : cls.Regular)
    {depth : Nat} {encode : Src → Bytes} {merge : Msg → Src → Msg}
    (merges : cls.Merges depth encode merge) {sources : List Src}
    (bound : (sources.flatMap encode).length < sizeLimit) (msg : Msg) :
    cls.parseFrom depth msg (sources.flatMap encode) = some (sources.foldl merge msg) := by
  induction sources generalizing msg with
  | nil => rfl
  | cons source sources inductionHypothesis =>
      rw [List.flatMap_cons, List.length_append] at bound
      rw [List.flatMap_cons, List.foldl_cons]
      exact regular.parseFrom_append (merges msg source (by omega))
        (inductionHypothesis (by omega) (merge msg source))

/-- A complete record of a field that the class does not know. -/
structure UnknownRecord (cls : MessageClass Msg) (depth : Nat) where
  bytes : Bytes
  tag : Nat
  payload : Bytes
  tagged : readTag bytes = some (tag, payload)
  unknown : cls.field depth tag = none
  ordinary : ¬ (tag % 8 = 4 ∨ tag = 0)
  complete : skipAt depth tag payload = some []

/-- A serialized message or a record of an unknown field. -/
inductive Piece (cls : MessageClass Msg) (depth : Nat)
  | message (msg : Msg)
  | unknown (record : cls.UnknownRecord depth)

namespace Piece

variable {cls : MessageClass Msg} {depth : Nat}

def encode (encode : Msg → Bytes) : cls.Piece depth → Bytes
  | .message msg => encode msg
  | .unknown record => record.bytes

def merge (merge : Msg → Msg → Msg) (msg : Msg) : cls.Piece depth → Msg
  | .message source => merge msg source
  | .unknown _ => msg

/-- Unknown fields are skipped. -/
theorem merges (regular : cls.Regular) {encode : Msg → Bytes} {merge : Msg → Msg → Msg}
    (merges : cls.Merges depth encode merge) :
    cls.Merges depth (Piece.encode encode : cls.Piece depth → Bytes) (Piece.merge merge) := by
  intro msg piece bound
  cases piece with
  | message source => exact merges msg source bound
  | unknown record =>
      have skips : cls.parseRecord depth msg record.tag record.payload = some (msg, []) := by
        rw [parseRecord, record.unknown]
        dsimp only
        rw [if_neg record.ordinary, record.complete]
        rfl
      have nonempty : record.bytes ≠ [] := by
        intro empty
        have shrinks := length_lt_of_readTag record.tagged
        rw [empty] at shrinks
        exact absurd shrinks (Nat.not_lt_zero _)
      have loop : cls.parseLoop depth 1 msg record.bytes = some msg :=
        (Regular.parseLoop_succ_eq_some_iff nonempty).mpr
          ⟨record.tag, record.payload, msg, [], record.tagged, skips, rfl⟩
      exact regular.parseFrom_of_parseLoop loop

end Piece

/-- A class as it is used: `SerializeToString`, refused above the size limit,
and `ParseFromArray`. -/
def codec (cls : MessageClass Msg) (encode : Msg → Bytes) : MessageCodec Msg where
  serialize msg := if (encode msg).length < sizeLimit then some (encode msg) else none
  parse := cls.parse

theorem codec_serialize_eq_some_iff {cls : MessageClass Msg} {encode : Msg → Bytes} {msg : Msg}
    {bytes : Bytes} : (cls.codec encode).serialize msg = some bytes ↔
      (encode msg).length < sizeLimit ∧ encode msg = bytes := by
  simp [codec]

/-- Merging into a fresh message copies, so parsing undoes serialization. -/
theorem codec_lawful {cls : MessageClass Msg} {encode : Msg → Bytes} {merge : Msg → Msg → Msg}
    (merges : cls.Merges recursionLimit encode merge)
    (copies : ∀ source, merge cls.fresh source = source) : (cls.codec encode).Lawful where
  parse_serialize := by
    intro source bytes serialized
    rcases codec_serialize_eq_some_iff.mp serialized with ⟨bound, rfl⟩
    have merged := merges cls.fresh source bound
    rwa [copies] at merged
  serialize_length serialized := by
    rcases codec_serialize_eq_some_iff.mp serialized with ⟨bound, rfl⟩
    exact bound

end MessageClass

end Mprpc.Protobuf
