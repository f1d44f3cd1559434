import Mprpc.Data.Bytes

/-!
# Base-128 varints

A varint carries seven payload bits per byte, low group first; every byte but
the last has its top bit set.  `writeVarint k n` is the writer for numbers of
at most `k + 1` groups, `readVarint k` the reader that gives up after `k`
bytes.  The reader returns the untruncated number: callers reduce it to the
width they read.

Besides the round trip, the file shows that the writer is the shortest: no
varint that the reader maps to `n` or a larger number has fewer bytes.
-/

namespace Mprpc.Protobuf

/-- Write a number of at most `k + 1` base-128 groups. -/
def writeVarint : Nat → Nat → Bytes
  | 0, n => [UInt8.ofNat n]
  | k + 1, n =>
      if n < 128 then [UInt8.ofNat n]
      else UInt8.ofNat (n % 128 + 128) :: writeVarint k (n / 128)

/-- Read a varint of at most `k` bytes; the rest of the input is returned. -/
def readVarint : Nat → Bytes → Option (Nat × Bytes)
  | 0, _ => none
  | _ + 1, [] => none
  | k + 1, byte :: rest =>
      if byte.toNat < 128 then some (byte.toNat, rest)
      else (readVarint k rest).map fun (value, rest) => (byte.toNat - 128 + 128 * value, rest)

/-- The reader inverts the writer, whatever follows. -/
theorem readVarint_writeVarint_append {j k n : Nat} (enough : k < j) (bound : n < 128 ^ (k + 1))
    (rest : Bytes) : readVarint j (writeVarint k n ++ rest) = some (n, rest) := by
  induction k generalizing j n with
  | zero =>
      obtain ⟨j, rfl⟩ := Nat.exists_eq_add_of_lt enough
      have small : n < 128 := by simpa using bound
      have exact : n % 256 = n := Nat.mod_eq_of_lt (by omega)
      simp [writeVarint, readVarint, exact, small]
  | succ k inductionHypothesis =>
      obtain ⟨j, rfl⟩ : ∃ i, j = i + 1 := ⟨j - 1, by omega⟩
      by_cases small : n < 128
      · have exact : n % 256 = n := Nat.mod_eq_of_lt (by omega)
        simp [writeVarint, readVarint, exact, small]
      · have quotient : n / 128 < 128 ^ (k + 1) := by
          rw [Nat.div_lt_iff_lt_mul (by decide)]
          simpa [Nat.pow_succ] using bound
        have continued : (n % 128 + 128) % 256 = n % 128 + 128 := Nat.mod_eq_of_lt (by omega)
        have large : ¬ (UInt8.ofNat (n % 128 + 128)).toNat < 128 := by
          rw [UInt8.toNat_ofNat', continued]
          omega
        have value : n % 128 + 128 - 128 + 128 * (n / 128) = n := by omega
        rw [writeVarint, if_neg small, List.cons_append, readVarint, if_neg large,
          inductionHypothesis (by omega) quotient, Option.map_some, UInt8.toNat_ofNat', continued]
        simp only [value]

/-- A read consumes at least one byte and at most what was offered, and the
number fits the bytes it was read from. -/
theorem readVarint_spec {k value : Nat} {input rest : Bytes}
    (read : readVarint k input = some (value, rest)) :
    ∃ used, 0 < used ∧ input.length = used + rest.length ∧ value < 128 ^ used := by
  induction k generalizing input value rest with
  | zero => simp [readVarint] at read
  | succ k inductionHypothesis =>
      cases input with
      | nil => simp [readVarint] at read
      | cons byte tail =>
          rw [readVarint] at read
          split at read
          · rename_i last
            cases read
            exact ⟨1, by decide, by simp [Nat.add_comm], by simpa using last⟩
          · obtain ⟨⟨value', rest'⟩, tailRead, result⟩ := Option.map_eq_some_iff.mp read
            cases result
            obtain ⟨used, positive, lengthEq, valueBound⟩ := inductionHypothesis tailRead
            refine ⟨used + 1, by omega, by simp [lengthEq]; omega, ?_⟩
            have byteBound := byte.toNat_lt
            rw [Nat.pow_succ]
            omega

theorem length_lt_of_readVarint {k value : Nat} {input rest : Bytes}
    (read : readVarint k input = some (value, rest)) : rest.length < input.length := by
  obtain ⟨used, positive, lengthEq, _⟩ := readVarint_spec read
  omega

/-- The writer needs no more groups than the number has. -/
theorem length_writeVarint_le {k n groups : Nat} (positive : 0 < groups)
    (bound : n < 128 ^ groups) : (writeVarint k n).length ≤ groups := by
  induction k generalizing n groups with
  | zero => exact positive
  | succ k inductionHypothesis =>
      rw [writeVarint]
      split
      · exact positive
      · obtain ⟨groups, rfl⟩ : ∃ g, groups = g + 1 := ⟨groups - 1, by omega⟩
        have several : 0 < groups := by
          rcases Nat.eq_zero_or_pos groups with rfl | several
          · simp at bound
            omega
          · exact several
        have quotient : n / 128 < 128 ^ groups := by
          rw [Nat.div_lt_iff_lt_mul (by decide)]
          simpa [Nat.pow_succ] using bound
        have tail := inductionHypothesis several quotient
        simp only [List.length_cons]
        omega

/-- The writer is the shortest: a read that yields `n` or more took at least as
many bytes as writing `n` takes. -/
theorem length_writeVarint_add_le {j k n value : Nat} {input rest : Bytes}
    (read : readVarint k input = some (value, rest)) (le : n ≤ value) :
    (writeVarint j n).length + rest.length ≤ input.length := by
  obtain ⟨used, positive, lengthEq, valueBound⟩ := readVarint_spec read
  have short : (writeVarint j n).length ≤ used :=
    length_writeVarint_le positive (Nat.lt_of_le_of_lt le valueBound)
  omega

end Mprpc.Protobuf
