import Mprpc.Protobuf.Varint

/-!
# The protobuf wire format

A message is a sequence of records; each record starts with a tag
`8 * number + wireType`.  This file has the pieces a generated parser is made
of: the tag reader, the reader and writer of length-delimited payloads, and the
function that skips a record whose field is unknown, nested groups included.

Messages are limited to 2 GiB, so a declared length of `2^31` or more is
refused.  Groups nest at most `recursionLimit` deep.
-/

namespace Mprpc.Protobuf

/-- Size limit of messages and of length-delimited payloads. -/
def sizeLimit : Nat := 2 ^ 31

/-- Default nesting limit of the parser. -/
def recursionLimit : Nat := 100

/-- Read a record's tag: a varint of at most five bytes, kept in 32 bits. -/
def readTag (input : Bytes) : Option (Nat × Bytes) :=
  (readVarint 5 input).map fun (value, rest) => (uint32 value, rest)

/-- Read a declared payload length. -/
def readSize (input : Bytes) : Option (Nat × Bytes) := do
  let (size, rest) ← readVarint 5 input
  if size < sizeLimit then some (size, rest) else none

/-- Read a length-delimited payload; a payload cut by the end of the input is
an error. -/
def readBytes (input : Bytes) : Option (Bytes × Bytes) := do
  let (size, rest) ← readSize input
  if size ≤ rest.length then some (rest.take size, rest.drop size) else none

/-- Write a length-delimited payload. -/
def writeBytes (payload : Bytes) : Bytes :=
  writeVarint 4 payload.length ++ payload

/-- Skip a payload of fixed width. -/
def skipFixed (width : Nat) (input : Bytes) : Option Bytes :=
  if width ≤ input.length then some (input.drop width) else none

/-- Skip the payload of a record with an unknown field.  `skipGroup depth tag`
skips the rest of a group that `tag` opened. -/
def skipField (skipGroup : Nat → Nat → Bytes → Option Bytes) (depth tag : Nat)
    (input : Bytes) : Option Bytes :=
  if tag / 8 = 0 then none
  else match tag % 8 with
    | 0 => (readVarint 10 input).map Prod.snd
    | 1 => skipFixed 8 input
    | 2 => (readBytes input).map Prod.snd
    | 3 => if depth = 0 then none else skipGroup (depth - 1) tag input
    | 5 => skipFixed 4 input
    | _ => none

/-- Skip records up to the end tag of the group that `start` opened.  Every
record takes at least its tag, so the input's length is enough fuel. -/
def skipGroup : Nat → Nat → Nat → Bytes → Option Bytes
  | 0, _, _, _ => none
  | fuel + 1, depth, start, input => do
      let (tag, rest) ← readTag input
      if tag = 0 ∨ tag % 8 = 4 then
        if tag = start + 1 then some rest else none
      else
        let rest ← skipField (skipGroup fuel) depth tag rest
        skipGroup fuel depth start rest

/-- Skip the payload of an unknown record of a top-level message. -/
def skipUnknown (tag : Nat) (input : Bytes) : Option Bytes :=
  skipField (skipGroup input.length) recursionLimit tag input

/-- A one-byte tag is read as it stands. -/
theorem readTag_cons {tag : Nat} (small : tag < 128) (rest : Bytes) :
    readTag (UInt8.ofNat tag :: rest) = some (tag, rest) := by
  have exact : tag % 256 = tag := Nat.mod_eq_of_lt (by omega)
  have inRange : uint32 tag = tag := uint32_of_lt (by omega)
  simp [readTag, readVarint, exact, small, inRange]

theorem length_lt_of_readTag {tag : Nat} {input rest : Bytes}
    (read : readTag input = some (tag, rest)) : rest.length < input.length := by
  obtain ⟨⟨value, rest'⟩, varint, result⟩ := Option.map_eq_some_iff.mp read
  cases result
  exact length_lt_of_readVarint varint

/-- A tag's wire type is in the low bits of its first byte. -/
theorem mod_eight_of_readTag {tag : Nat} {byte : UInt8} {input rest : Bytes}
    (read : readTag (byte :: input) = some (tag, rest)) : tag % 8 = byte.toNat % 8 := by
  obtain ⟨⟨value, rest'⟩, varint, result⟩ := Option.map_eq_some_iff.mp read
  cases result
  rw [readVarint] at varint
  split at varint
  · cases varint
    simp only [uint32]
    omega
  · obtain ⟨⟨tail, _⟩, -, result⟩ := Option.map_eq_some_iff.mp varint
    cases result
    simp only [uint32]
    omega

/-- The payload reader inverts the payload writer, whatever follows. -/
theorem readBytes_writeBytes_append {payload : Bytes} (bound : payload.length < sizeLimit)
    (rest : Bytes) : readBytes (writeBytes payload ++ rest) = some (payload, rest) := by
  have groups : payload.length < 128 ^ (4 + 1) :=
    Nat.lt_trans bound (by decide)
  simp [readBytes, readSize, writeBytes, List.append_assoc,
    readVarint_writeVarint_append (show 4 < 5 by decide) groups, bound]

theorem readSize_eq_some_iff {size : Nat} {input rest : Bytes} :
    readSize input = some (size, rest) ↔
      readVarint 5 input = some (size, rest) ∧ size < sizeLimit := by
  unfold readSize
  rcases readVarint 5 input with _ | ⟨value, tail⟩
  · simp
  · by_cases limited : value < sizeLimit
    · simp [limited]
      rintro rfl -
      exact limited
    · simp [limited]
      rintro rfl -
      exact Nat.le_of_not_lt limited

/-- A payload read from the input takes no less than writing it again. -/
theorem length_writeBytes_add_le {payload input rest : Bytes}
    (read : readBytes input = some (payload, rest)) :
    (writeBytes payload).length + rest.length ≤ input.length := by
  simp only [readBytes, Option.bind_eq_bind, Option.bind_eq_some_iff] at read
  obtain ⟨⟨size, afterSize⟩, sizeRead, cut⟩ := read
  have varint := (readSize_eq_some_iff.mp sizeRead).1
  dsimp only at cut
  split at cut
  · rename_i fits
    cases cut
    have payloadLength : (afterSize.take size).length = size :=
      List.length_take_of_le fits
    have short := length_writeVarint_add_le (j := 4) varint (Nat.le_refl size)
    simp only [writeBytes, List.length_append, payloadLength, List.length_drop]
    omega
  · contradiction

theorem length_le_of_skipFixed {width : Nat} {input rest : Bytes}
    (skipped : skipFixed width input = some rest) : rest.length ≤ input.length := by
  unfold skipFixed at skipped
  split at skipped
  · cases skipped
    simp
  · contradiction

theorem length_le_of_skipField {group : Nat → Nat → Bytes → Option Bytes}
    (groupShrinks : ∀ {depth tag input rest}, group depth tag input = some rest →
      rest.length ≤ input.length)
    {depth tag : Nat} {input rest : Bytes}
    (skipped : skipField group depth tag input = some rest) : rest.length ≤ input.length := by
  unfold skipField at skipped
  split at skipped
  · contradiction
  · split at skipped
    · obtain ⟨⟨_, _⟩, varint, rfl⟩ := Option.map_eq_some_iff.mp skipped
      exact Nat.le_of_lt (length_lt_of_readVarint varint)
    · exact length_le_of_skipFixed skipped
    · obtain ⟨⟨_, _⟩, payload, rfl⟩ := Option.map_eq_some_iff.mp skipped
      exact Nat.le_trans (Nat.le_add_left _ _) (length_writeBytes_add_le payload)
    · split at skipped
      · contradiction
      · exact groupShrinks skipped
    · exact length_le_of_skipFixed skipped
    · contradiction

theorem length_le_of_skipGroup {fuel depth start : Nat} {input rest : Bytes}
    (skipped : skipGroup fuel depth start input = some rest) : rest.length ≤ input.length := by
  induction fuel generalizing depth start input rest with
  | zero => simp [skipGroup] at skipped
  | succ fuel inductionHypothesis =>
      simp only [skipGroup, Option.bind_eq_bind, Option.bind_eq_some_iff] at skipped
      obtain ⟨⟨tag, afterTag⟩, tagRead, skipped⟩ := skipped
      have tagShrinks := length_lt_of_readTag tagRead
      dsimp only at skipped
      split at skipped
      · split at skipped
        · cases skipped
          omega
        · contradiction
      · obtain ⟨afterField, fieldSkipped, groupSkipped⟩ := Option.bind_eq_some_iff.mp skipped
        have fieldShrinks := length_le_of_skipField inductionHypothesis fieldSkipped
        have groupShrinks := inductionHypothesis groupSkipped
        omega

/-- There are no records of wire types 6 and 7. -/
theorem skipUnknown_eq_none {tag : Nat} (badType : tag % 8 = 6 ∨ tag % 8 = 7) (input : Bytes) :
    skipUnknown tag input = none := by
  unfold skipUnknown skipField
  rcases badType with six | seven
  · simp [six]
  · simp [seven]

/-- Skipping a record never returns more input than it was given. -/
theorem length_le_of_skipUnknown {tag : Nat} {input rest : Bytes}
    (skipped : skipUnknown tag input = some rest) : rest.length ≤ input.length :=
  length_le_of_skipField length_le_of_skipGroup skipped

end Mprpc.Protobuf
