import Mathlib.Algebra.Order.Ring.Int
import Mathlib.Algebra.Order.Ring.Nat
import Mathlib.Data.List.Basic
import Mathlib.Data.List.TakeWhile

/-!
# Byte strings

`std::string` and `char` buffers hold arbitrary bytes, so both are lists of
bytes here.  The file gives the few operations of `std::string` that throw or
truncate, and the memory image of a 32-bit unsigned integer on a little-endian
host.
-/

namespace Mprpc

/-- A `std::string`, or the contents of a `char` buffer. -/
abbrev Bytes := List UInt8

/-- Conversion to `uint32_t`. -/
def uint32 (n : Nat) : Nat :=
  n % 2 ^ 32

theorem uint32_of_lt {n : Nat} (bound : n < 2 ^ 32) : uint32 n = n :=
  Nat.mod_eq_of_lt bound

namespace Bytes

section Separator

variable {text front : Bytes} {sep : UInt8}

theorem forall_ne_of_notMem (missing : sep ∉ text) : ∀ c ∈ text, decide (c ≠ sep) = true := by
  intro c member
  rw [decide_eq_true_eq]
  rintro rfl
  exact missing member

theorem takeWhile_of_notMem (missing : sep ∉ text) : text.takeWhile (· ≠ sep) = text :=
  List.takeWhile_eq_self_iff.mpr (forall_ne_of_notMem missing)

theorem dropWhile_of_notMem (missing : sep ∉ text) : text.dropWhile (· ≠ sep) = [] :=
  List.dropWhile_eq_nil_iff.mpr (forall_ne_of_notMem missing)

/-- What stands in front of the first separator. -/
theorem takeWhile_append_cons (missing : sep ∉ front) (rest : Bytes) :
    (front ++ sep :: rest).takeWhile (· ≠ sep) = front := by
  rw [List.takeWhile_append_of_pos (forall_ne_of_notMem missing),
    List.takeWhile_cons_of_neg (by simp), List.append_nil]

/-- The first separator and what is behind it. -/
theorem dropWhile_append_cons (missing : sep ∉ front) (rest : Bytes) :
    (front ++ sep :: rest).dropWhile (· ≠ sep) = sep :: rest := by
  rw [List.dropWhile_append_of_pos (forall_ne_of_notMem missing),
    List.dropWhile_cons_of_neg (by simp)]

end Separator

/-- A text splits in one way at the first occurrence of a byte. -/
theorem split_first {first first' rest rest' : Bytes} {sep : UInt8} (none : sep ∉ first)
    (none' : sep ∉ first') (same : first ++ sep :: rest = first' ++ sep :: rest') :
    first = first' ∧ rest = rest' := by
  have front := congrArg (List.takeWhile (· ≠ sep)) same
  rw [takeWhile_append_cons none, takeWhile_append_cons none'] at front
  subst front
  exact ⟨rfl, List.tail_eq_of_cons_eq (List.append_cancel_left same)⟩

/-- A text splits in one way at the last occurrence of a byte. -/
theorem split_last {first first' last last' : Bytes} {sep : UInt8} (none : sep ∉ last)
    (none' : sep ∉ last') (same : first ++ sep :: last = first' ++ sep :: last') :
    first = first' ∧ last = last' := by
  have reversed : last.reverse ++ sep :: first.reverse = last'.reverse ++ sep :: first'.reverse :=
    by simpa using congrArg List.reverse same
  rcases split_first (fun member => none (List.mem_reverse.mp member))
    (fun member => none' (List.mem_reverse.mp member)) reversed with ⟨sameLast, sameFirst⟩
  exact ⟨List.reverse_injective sameFirst, List.reverse_injective sameLast⟩

/-- `std::string::find` of a byte: its first occurrence. -/
theorem idxOf?_append_cons {front : Bytes} {sep : UInt8} (missing : sep ∉ front) (rest : Bytes) :
    (front ++ sep :: rest).idxOf? sep = some front.length := by
  induction front with
  | nil => simp [List.idxOf?_cons]
  | cons c front inductionHypothesis =>
      rcases List.ne_and_not_mem_of_not_mem_cons missing with ⟨other, later⟩
      rw [List.cons_append, List.idxOf?_cons, inductionHypothesis later]
      simp [other.symm]

/-- The bytes of an ASCII literal. -/
def ofString (text : String) : Bytes :=
  text.toList.map fun c => UInt8.ofNat c.toNat

/-- `std::to_string` of a non-negative integer. -/
def ofNat (n : Nat) : Bytes :=
  (Nat.toDigits 10 n).map fun c => UInt8.ofNat c.toNat

/-- The decimal conversion of a signed integer. -/
def ofInt : Int → Bytes
  | .ofNat n => ofNat n
  | .negSucc n => ofString "-" ++ ofNat (n + 1)

/-- `std::string::substr(pos, count)`: `none` when it throws
`std::out_of_range`; a count that runs past the end is cut. -/
def substr (text : Bytes) (pos count : Nat) : Option Bytes :=
  if pos ≤ text.length then some ((text.drop pos).take count) else none

theorem substr_eq_some_iff {text result : Bytes} {pos count : Nat} :
    text.substr pos count = some result ↔
      pos ≤ text.length ∧ (text.drop pos).take count = result := by
  simp [substr]

/-- The text that a `const char *` to its start means: all up to the first zero. -/
def cString (text : Bytes) : Bytes :=
  text.takeWhile (· ≠ 0)

/-- A terminator ends the text, whatever is behind it. -/
theorem cString_append_zero {text : Bytes} (noTerminator : 0 ∉ text) (rest : Bytes) :
    cString (text ++ 0 :: rest) = text :=
  takeWhile_append_cons noTerminator rest

theorem cString_eq_self {text : Bytes} (noTerminator : 0 ∉ text) : cString text = text :=
  takeWhile_of_notMem noTerminator

/-- The value of the digits at the start of a text, behind those read before. -/
def digits (value : Nat) : Bytes → Nat
  | [] => value
  | c :: rest => if 48 ≤ c ∧ c ≤ 57 then digits (10 * value + (c.toNat - 48)) rest else value

/-- Decimal digits are bytes of their own. -/
theorem toNat_ofNat_of_isDigit {c : Char} (isDigit : c.isDigit = true) :
    (UInt8.ofNat c.toNat).toNat = c.toNat ∧ 48 ≤ c.toNat ∧ c.toNat ≤ 57 := by
  have bounds : 48 ≤ c.toNat ∧ c.toNat ≤ 57 := by
    simpa [Char.isDigit, UInt32.le_iff_toNat_le] using isDigit
  refine ⟨?_, bounds⟩
  rw [UInt8.toNat_ofNat']
  omega

theorem digits_map {chars : List Char} (areDigits : ∀ c ∈ chars, c.isDigit = true) (value : Nat) :
    digits value (chars.map fun c => UInt8.ofNat c.toNat) = Nat.ofDigitChars 10 chars value := by
  induction chars generalizing value with
  | nil => rfl
  | cons c rest inductionHypothesis =>
      rcases toNat_ofNat_of_isDigit (areDigits c List.mem_cons_self) with ⟨same, low, high⟩
      have inRange : 48 ≤ UInt8.ofNat c.toNat ∧ UInt8.ofNat c.toNat ≤ 57 := by
        rw [UInt8.le_iff_toNat_le, UInt8.le_iff_toNat_le, same]
        exact ⟨low, high⟩
      rw [List.map_cons, digits, if_pos inRange, same, Nat.ofDigitChars_cons,
        inductionHypothesis fun c member => areDigits c (List.mem_cons_of_mem _ member)]
      rfl

/-- Reading back a decimal number. -/
theorem digits_ofNat (n : Nat) : digits 0 (ofNat n) = n := by
  unfold ofNat
  rw [digits_map, Nat.ofDigitChars_ten_toDigits]
  intro c member
  exact Nat.isDigit_of_mem_toDigits (by decide) (by decide) member

theorem ofNat_injective {n m : Nat} (same : ofNat n = ofNat m) : n = m := by
  rw [← digits_ofNat n, same, digits_ofNat]

/-- A decimal number has no colon. -/
theorem colon_notMem_ofNat (n : Nat) : 58 ∉ ofNat n := by
  intro member
  rcases List.mem_map.mp member with ⟨c, isDigit, colon⟩
  rcases toNat_ofNat_of_isDigit (Nat.isDigit_of_mem_toDigits (by decide) (by decide) isDigit) with
    ⟨same, -, high⟩
  rw [colon] at same
  have value : (58 : UInt8).toNat = 58 := rfl
  omega

theorem ofNat_ne_nil (n : Nat) : ofNat n ≠ [] := by
  unfold ofNat
  rw [ne_eq, List.map_eq_nil_iff]
  exact Nat.toDigits_ne_nil

/-- A decimal number is made of digits. -/
theorem isDigit_of_mem_ofNat {n : Nat} {c : UInt8} (member : c ∈ ofNat n) :
    48 ≤ c.toNat ∧ c.toNat ≤ 57 := by
  rcases List.mem_map.mp member with ⟨digit, inside, rfl⟩
  rcases toNat_ofNat_of_isDigit (Nat.isDigit_of_mem_toDigits (by decide) (by decide) inside) with
    ⟨same, low, high⟩
  rw [same]
  exact ⟨low, high⟩

/-- `isspace` in the C locale. -/
def isSpace (c : UInt8) : Bool :=
  c = 32 || (9 ≤ c && c ≤ 13)

/-- `atoi`, before its result is narrowed to `int`: blanks, an optional sign and
digits, with the value held between the bounds of `long`. -/
def atoi (text : Bytes) : Int :=
  match text.dropWhile isSpace with
  | 45 :: rest => max (-(2 ^ 63)) (-(digits 0 rest : Int))
  | 43 :: rest => min (2 ^ 63 - 1) (digits 0 rest : Int)
  | rest => min (2 ^ 63 - 1) (digits 0 rest : Int)

/-- `atoi` reads back a decimal number. -/
theorem atoi_ofNat {n : Nat} (bound : n < 2 ^ 63) : atoi (ofNat n) = n := by
  have value := digits_ofNat n
  have first := fun c => @isDigit_of_mem_ofNat n c
  cases shape : ofNat n with
  | nil => exact absurd shape (ofNat_ne_nil n)
  | cons c rest =>
      rw [shape] at value first
      have isDigit := first c List.mem_cons_self
      have noSpace : isSpace c = false := by
        simp only [isSpace, Bool.or_eq_false_iff, Bool.and_eq_false_iff, decide_eq_false_iff_not,
          ← UInt8.toNat_inj, UInt8.le_iff_toNat_le]
        simp
        omega
      have noMinus : c ≠ 45 := by
        rintro rfl
        exact absurd isDigit.1 (by decide)
      have noPlus : c ≠ 43 := by
        rintro rfl
        exact absurd isDigit.1 (by decide)
      unfold atoi
      rw [List.dropWhile_cons_of_neg (by simp [noSpace])]
      split
      · rename_i same
        exact absurd (List.head_eq_of_cons_eq same) noMinus
      · rename_i same
        exact absurd (List.head_eq_of_cons_eq same) noPlus
      · rw [value]
        omega

/-- The four bytes of a `uint32_t` in memory, low byte first. -/
def ofUInt32 (n : Nat) : Bytes :=
  [UInt8.ofNat n, UInt8.ofNat (n / 256), UInt8.ofNat (n / 65536), UInt8.ofNat (n / 16777216)]

/-- The value of bytes read as a little-endian number. -/
def littleEndian : Bytes → Nat
  | [] => 0
  | byte :: rest => byte.toNat + 256 * littleEndian rest

/-- A zeroed `uint32_t` after `text.copy((char*)&value, 4, 0)`: fewer than four
bytes fill the low end only. -/
def toUInt32 (text : Bytes) : Nat :=
  littleEndian (text.take 4)

@[simp]
theorem length_ofUInt32 (n : Nat) : (ofUInt32 n).length = 4 :=
  rfl

theorem littleEndian_lt (text : Bytes) : littleEndian text < 256 ^ text.length := by
  induction text with
  | nil => simp [littleEndian]
  | cons byte rest inductionHypothesis =>
      have byteBound := byte.toNat_lt
      simp only [littleEndian, List.length_cons, Nat.pow_succ]
      omega

theorem toUInt32_lt (text : Bytes) : text.toUInt32 < 2 ^ 32 := by
  calc
    text.toUInt32 < 256 ^ (text.take 4).length := littleEndian_lt _
    _ ≤ 256 ^ 4 := Nat.pow_le_pow_right (by decide) (List.length_take_le 4 text)
    _ = 2 ^ 32 := by decide

/-- Reading back a stored `uint32_t`, whatever follows it. -/
theorem toUInt32_ofUInt32_append {n : Nat} (bound : n < 2 ^ 32) (rest : Bytes) :
    toUInt32 (ofUInt32 n ++ rest) = n := by
  simp only [toUInt32, ofUInt32, List.cons_append, List.nil_append, List.take_succ_cons,
    List.take_zero, littleEndian, UInt8.toNat_ofNat']
  omega

end Bytes

end Mprpc
