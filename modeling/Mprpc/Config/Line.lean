import Mprpc.Config.Core

/-!
# One line of the configuration file

The grammar takes the spaces off both ends of a key and of a value.  The `trim`
of the code leaves a text of spaces only as it is; so a value of spaces with a
newline behind it stays, and this is all that a line can differ in, if it comes
in one piece.
-/

namespace Mprpc.Config

/-- A text without the spaces at both ends. -/
def strip (text : Bytes) : Bytes :=
  (text.dropWhile (· = 32)).rdropWhile (· = 32)

/-- The part of a line behind its first `=`. -/
def rawValue (line : Bytes) : Bytes :=
  (line.dropWhile (· ≠ 61)).drop 1

/-- The key and the value that a line sets: none if it is blank or a comment, or
if it has no `=`. -/
def setting (line : Bytes) : Option (Bytes × Bytes) :=
  if (line.dropWhile (· = 32)).head? = some 35 ∨ 61 ∉ line then none
  else some (strip (line.takeWhile (· ≠ 61)), strip (rawValue line))

/-- A piece without its newline. -/
def body (piece : Bytes) : Bytes :=
  piece.takeWhile (· ≠ 10)

/-- A piece with a value of one or more spaces and a newline behind it. -/
def KeepsSpaces (piece : Bytes) : Prop :=
  10 ∈ piece ∧ rawValue (body piece) ≠ [] ∧ ∀ c ∈ rawValue (body piece), c = 32

instance (piece : Bytes) : Decidable (KeepsSpaces piece) :=
  inferInstanceAs (Decidable (_ ∧ _ ∧ _))

/-! ## Trimming -/

theorem dropWhile_of_spaces {spaces : Bytes} (areSpaces : ∀ c ∈ spaces, c = 32) :
    spaces.dropWhile (· = 32) = [] :=
  List.dropWhile_eq_nil_iff.mpr (by simpa using areSpaces)

/-- Spaces behind a text are stripped. -/
theorem strip_append_spaces {spaces : Bytes} (areSpaces : ∀ c ∈ spaces, c = 32)
    (text : Bytes) : strip (text ++ spaces) = strip text := by
  rw [strip, strip, List.dropWhile_append]
  split
  · rename_i blank
    rw [dropWhile_of_spaces areSpaces, List.isEmpty_iff.mp blank]
  · rw [List.rdropWhile, List.reverse_append, List.dropWhile_append_of_pos, List.rdropWhile]
    simpa using areSpaces

/-- The search from the back finds the end of the stripped text. -/
theorem take_findLastNotSpace {text : Bytes} {c : UInt8} (member : c ∈ text) (other : c ≠ 32) :
    ∃ idx, findLastNotSpace text = some idx ∧
      text.take (idx + 1) = text.rdropWhile (· = 32) := by
  have inside : text.reverse.findIdx (· ≠ 32) < text.reverse.length :=
    List.findIdx_lt_length.mpr ⟨c, List.mem_reverse.mpr member, by simpa using other⟩
  refine ⟨text.length - 1 - text.reverse.findIdx (· ≠ 32), ?_, ?_⟩
  · rw [findLastNotSpace, List.findIdx?_eq_some_iff_findIdx_eq.mpr ⟨inside, rfl⟩]
    rfl
  · rw [List.length_reverse] at inside
    rw [List.rdropWhile, List.dropWhile_eq_drop_findIdx_not, List.reverse_drop,
      List.reverse_reverse, List.length_reverse]
    congr 1
    simp only [ne_eq, decide_not] at inside ⊢
    omega

theorem trim_of_spaces {text : Bytes} (areSpaces : ∀ c ∈ text, c = 32) : trim text = text := by
  have noFirst : text.findIdx? (· ≠ 32) = none :=
    List.findIdx?_eq_none_iff.mpr (by simpa using areSpaces)
  have noLast : findLastNotSpace text = none := by
    rw [findLastNotSpace, Option.map_eq_none_iff]
    exact List.findIdx?_eq_none_iff.mpr (by simpa using areSpaces)
  simp only [trim, noFirst, noLast]

/-- In a text with another byte than a space, both searches find one. -/
theorem trim_eq_strip {text : Bytes} {c : UInt8} (member : c ∈ text) (other : c ≠ 32) :
    trim text = strip text := by
  have inside : text.findIdx (· ≠ 32) < text.length :=
    List.findIdx_lt_length.mpr ⟨c, member, by simpa using other⟩
  have front : text.drop (text.findIdx (· ≠ 32)) = text.dropWhile (· = 32) := by
    rw [List.dropWhile_eq_drop_findIdx_not]
    simp
  have kept : c ∈ text.dropWhile (· = 32) := by
    rw [← List.takeWhile_append_dropWhile (p := (· = 32)) (l := text)] at member
    rcases List.mem_append.mp member with space | later
    · have isSpace := List.mem_takeWhile_imp space
      exact absurd (of_decide_eq_true isSpace) other
    · exact later
  rcases take_findLastNotSpace kept other with ⟨idx, last, taken⟩
  simp only [trim, List.findIdx?_eq_some_iff_findIdx_eq.mpr ⟨inside, rfl⟩, front, last, taken,
    strip]

/-- `trim` misses nothing but a text of one or more spaces. -/
theorem trim_of_not_spaces {text : Bytes} (mixed : ¬ (text ≠ [] ∧ ∀ c ∈ text, c = 32)) :
    trim text = strip text := by
  by_cases empty : text = []
  · rw [empty]
    rfl
  · have other : ¬ ∀ c ∈ text, c = 32 := fun spaces => mixed ⟨empty, spaces⟩
    simp only [not_forall] at other
    rcases other with ⟨c, member, isOther⟩
    exact trim_eq_strip member isOther

/-- What is left of a text without the spaces in front has none that `trim` misses. -/
theorem trim_dropWhile (text : Bytes) : trim (text.dropWhile (· = 32)) = strip text := by
  have stripped : strip (text.dropWhile (· = 32)) = strip text := by
    rw [strip, List.dropWhile_idempotent, strip]
  cases left : text.dropWhile (· = 32) with
  | nil => rw [strip, left, List.rdropWhile_nil, trim_of_spaces (List.forall_mem_nil _)]
  | cons c rest =>
      have other : c ≠ 32 := by
        have first := List.head?_dropWhile_not (· = 32) text
        rw [left] at first
        simpa using first
      rw [trim_eq_strip List.mem_cons_self other, ← left, stripped]

/-- Likewise without the spaces behind it. -/
theorem trim_rdropWhile (text : Bytes) : trim (text.rdropWhile (· = 32)) = strip text := by
  have behind : ∀ c ∈ text.rtakeWhile (· = 32), c = 32 := by
    intro c member
    have isSpace := List.mem_rtakeWhile_imp member
    exact of_decide_eq_true isSpace
  have stripped : strip (text.rdropWhile (· = 32)) = strip text := by
    conv_rhs => rw [← List.rdropWhile_append_rtakeWhile (p := (· = 32)) (l := text)]
    exact (strip_append_spaces behind _).symm
  by_cases blank : text.rdropWhile (· = 32) = []
  · rw [← stripped, blank]
    rfl
  · exact (trim_eq_strip (List.getLast_mem blank)
      (by simpa using List.rdropWhile_last_not _ _ blank)).trans stripped

/-- Stripping from the back stops at a byte that is not a space. -/
theorem rdropWhile_append_cons {c : UInt8} (other : c ≠ 32) (front rest : Bytes) :
    (front ++ c :: rest).rdropWhile (· = 32) = front ++ c :: rest.rdropWhile (· = 32) := by
  rw [List.rdropWhile, List.reverse_append, List.reverse_cons, List.append_assoc,
    List.dropWhile_append]
  split
  · rename_i blank
    rw [List.rdropWhile, List.isEmpty_iff.mp blank, List.singleton_append,
      List.dropWhile_cons_of_neg (by simpa using other)]
    simp
  · simp [List.rdropWhile]

/-- Stripping leaves no text of spaces. -/
theorem strip_of_spaces {text : Bytes} (spaces : ∀ c ∈ strip text, c = 32) : strip text = [] := by
  unfold strip at spaces ⊢
  by_contra present
  have last := List.rdropWhile_last_not _ _ present
  exact last (by simpa using spaces _ (List.getLast_mem present))

theorem length_strip_le (text : Bytes) : (strip text).length ≤ text.length :=
  (List.rdropWhile_prefix _ _).length_le.trans (List.dropWhile_sublist _).length_le

/-! ## One piece -/

theorem find_of_notMem {text : Bytes} {c : UInt8} (missing : c ∉ text) (pos : Nat) :
    find text c pos = -1 := by
  have absent : (text.drop pos).idxOf? c = none :=
    List.idxOf?_eq_none_iff.mpr fun member => missing (List.mem_of_mem_drop member)
  rw [find, absent]

theorem find_append {front : Bytes} {c : UInt8} (missing : c ∉ front) (rest : Bytes) :
    find (front ++ c :: rest) c 0 = front.length := by
  rw [find, List.drop_zero, Bytes.idxOf?_append_cons missing]
  simp

/-- The count given to `substr` ends the value before the newline; without one it
runs beyond the end. -/
theorem take_value {front rest tail : Bytes} (noNewline : 10 ∉ rest)
    (ending : tail = [] ∨ tail = [10]) (short : front.length + rest.length + 2 < 2 ^ 63) :
    (rest ++ tail).take (sizeOfInt
      (find (front ++ 61 :: (rest ++ tail)) 10 front.length - front.length - 1)) = rest := by
  rcases ending with rfl | rfl
  · have missing : 10 ∉ 61 :: (rest ++ []) := by simpa using noNewline
    have beyond : rest.length ≤ sizeOfInt
        (find (front ++ 61 :: (rest ++ [])) 10 front.length - front.length - 1) := by
      simp only [find, List.drop_left, List.idxOf?_eq_none_iff.mpr missing, sizeOfInt]
      omega
    rw [List.append_nil] at beyond ⊢
    exact List.take_of_length_le beyond
  · have missing : 10 ∉ 61 :: rest := by simpa using noNewline
    have found := Bytes.idxOf?_append_cons missing []
    have counted : sizeOfInt (find (front ++ 61 :: (rest ++ [10])) 10 front.length -
        front.length - 1) = rest.length := by
      rw [List.cons_append] at found
      simp only [find, List.drop_left, found, sizeOfInt, List.length_cons]
      omega
    rw [counted, List.take_left]

/-- Cutting a trimmed text at its first `=` and before its newline, if any. -/
theorem parseLine_of_trim {buf front rest tail : Bytes}
    (trimmed : trim (Bytes.cString buf) = front ++ 61 :: (rest ++ tail)) (noEquals : 61 ∉ front)
    (noNewline : 10 ∉ rest) (ending : tail = [] ∨ tail = [10])
    (short : front.length + rest.length + 2 < 2 ^ 63) :
    parseLine buf =
      if front.head? = some 35 then none else some (trim front, trim rest) := by
  have first : (front ++ 61 :: (rest ++ tail)).head? = some 35 ↔ front.head? = some 35 := by
    cases front <;> simp
  have behind : (front ++ 61 :: (rest ++ tail)).drop (front.length + 1) = rest ++ tail := by
    rw [List.drop_append]
    simp
  have index : ((front.length : Int) + 1).toNat = front.length + 1 := rfl
  have present : (front.length : Int) ≠ -1 := by omega
  simp only [parseLine, trimmed, find_append noEquals, first, present, if_false, Int.toNat_natCast,
    List.take_left, index, behind, take_value noNewline ending short, List.append_eq_nil_iff,
    List.cons_ne_nil, and_false, or_false]

theorem mem_of_mem_trim {text : Bytes} {c : UInt8} (member : c ∈ trim text) : c ∈ text := by
  by_cases blank : ∀ c ∈ text, c = 32
  · rwa [trim_of_spaces blank] at member
  · simp only [not_forall] at blank
    rcases blank with ⟨other, present, isOther⟩
    rw [trim_eq_strip present isOther] at member
    exact (List.dropWhile_sublist _).mem ((List.rdropWhile_prefix _ _).mem member)

/-- A text without an `=` sets nothing. -/
theorem parseLine_of_notMem {buf : Bytes} (noEquals : 61 ∉ Bytes.cString buf) :
    parseLine buf = none := by
  have missing : 61 ∉ trim (Bytes.cString buf) := fun member => noEquals (mem_of_mem_trim member)
  simp only [parseLine, find_of_notMem missing, if_true, ite_self]

theorem rawValue_append {front : Bytes} (noEquals : 61 ∉ front) (rest : Bytes) :
    rawValue (front ++ 61 :: rest) = rest := by
  rw [rawValue, Bytes.dropWhile_append_cons noEquals]
  rfl

theorem dropWhile_append_equals (front rest : Bytes) :
    (front ++ 61 :: rest).dropWhile (· = 32) = front.dropWhile (· = 32) ++ 61 :: rest := by
  rw [List.dropWhile_append]
  split
  · rename_i blank
    rw [List.isEmpty_iff.mp blank, List.dropWhile_cons_of_neg (by simp), List.nil_append]
  · rfl

theorem trim_append_equals (front rest : Bytes) :
    trim (front ++ 61 :: rest) =
      front.dropWhile (· = 32) ++ 61 :: rest.rdropWhile (· = 32) := by
  have present : 61 ∈ front ++ 61 :: rest := by simp
  rw [trim_eq_strip present (by decide), strip, dropWhile_append_equals,
    rdropWhile_append_cons (by decide)]

/-- The grammar cuts a line at its first `=`. -/
theorem setting_append {front : Bytes} (noEquals : 61 ∉ front) (rest : Bytes) :
    setting (front ++ 61 :: rest) =
      if (front.dropWhile (· = 32)).head? = some 35 then none
      else some (strip front, strip rest) := by
  have key := Bytes.takeWhile_append_cons noEquals rest
  have first : (front.dropWhile (· = 32) ++ 61 :: rest).head? = some 35 ↔
      (front.dropWhile (· = 32)).head? = some 35 := by
    cases front.dropWhile (· = 32) <;> simp
  have present : 61 ∈ front ++ 61 :: rest := by simp
  rw [setting, dropWhile_append_equals, key, rawValue_append noEquals]
  simp only [first, present, not_true_eq_false, or_false]

section Reading

variable {buf front rest : Bytes} (noEquals : 61 ∉ front) (noNewline : 10 ∉ rest)

include noEquals noNewline

/-- Without a newline the first `trim` takes the spaces off the value. -/
theorem parseLine_line (text : Bytes.cString buf = front ++ 61 :: rest)
    (short : front.length + rest.length + 2 < 2 ^ 63) :
    parseLine buf = setting (front ++ 61 :: rest) := by
  have frontShort := (List.dropWhile_sublist (l := front) (· = 32)).length_le
  have restShort := (List.rdropWhile_prefix (· = 32) rest).length_le
  have trimmed : trim (Bytes.cString buf) =
      front.dropWhile (· = 32) ++ 61 :: (rest.rdropWhile (· = 32) ++ []) := by
    rw [text, trim_append_equals, List.append_nil]
  rw [parseLine_of_trim trimmed, setting_append noEquals, trim_dropWhile, trim_rdropWhile]
  · exact fun member => noEquals ((List.dropWhile_sublist _).mem member)
  · exact fun member => noNewline ((List.rdropWhile_prefix _ _).mem member)
  · exact .inl rfl
  · omega

/-- A newline protects the spaces in front of it from the first `trim`. -/
theorem parseLine_newline (text : Bytes.cString buf = front ++ 61 :: (rest ++ [10]))
    (short : front.length + rest.length + 2 < 2 ^ 63) :
    parseLine buf =
      (setting (front ++ 61 :: rest)).map fun entry => (entry.1, trim rest) := by
  have frontShort := (List.dropWhile_sublist (l := front) (· = 32)).length_le
  have trimmed : trim (Bytes.cString buf) =
      front.dropWhile (· = 32) ++ 61 :: (rest ++ [10]) := by
    rw [text, trim_append_equals, List.rdropWhile_concat_neg _ _ _ (by simp)]
  rw [parseLine_of_trim trimmed, setting_append noEquals, trim_dropWhile]
  · split <;> rfl
  · exact fun member => noEquals ((List.dropWhile_sublist _).mem member)
  · exact noNewline
  · exact .inr rfl
  · omega

end Reading

/-- A piece is part of a line, with or without the newline, and fits into some room. -/
structure IsPiece (room : Nat) (piece : Bytes) : Prop where
  length_le : piece.length ≤ room
  newline : piece = body piece ∨ piece = body piece ++ [10]

theorem notMem_body (piece : Bytes) : 10 ∉ body piece := by
  intro member
  have noNewline := List.mem_takeWhile_imp member
  exact of_decide_eq_true noNewline rfl

/-- The buffer holds a piece and at least one zero behind it. -/
theorem cString_lineBuffer {piece : Bytes} (short : piece.length ≤ 511)
    (noTerminator : 0 ∉ piece) : Bytes.cString (MprpcConfig.lineBuffer piece) = piece := by
  have zeros : List.replicate (512 - piece.length) (0 : UInt8) =
      0 :: List.replicate (511 - piece.length) 0 := by
    rw [← List.replicate_succ]
    congr 1
    omega
  rw [MprpcConfig.lineBuffer, zeros, Bytes.cString_append_zero noTerminator]

/-- The code reads a piece as the grammar reads a line, but for the spaces that
it keeps. -/
theorem parseLine_piece {piece : Bytes} (shape : IsPiece 511 piece) (noTerminator : 0 ∉ piece) :
    parseLine (MprpcConfig.lineBuffer piece) =
      (setting (body piece)).map fun entry =>
        (entry.1, if KeepsSpaces piece then rawValue (body piece) else entry.2) := by
  have text := cString_lineBuffer shape.length_le noTerminator
  have noNewline := notMem_body piece
  by_cases equals : 61 ∈ body piece
  · rcases List.eq_append_cons_of_mem equals with ⟨front, rest, cut, noEquals⟩
    rw [cut] at noNewline
    have restLine : 10 ∉ rest := fun member => noNewline (by simp [member])
    have short : front.length + rest.length + 1 ≤ piece.length := by
      have part := congrArg List.length cut
      have inside := (List.takeWhile_sublist (l := piece) (· ≠ 10)).length_le
      rw [List.length_append, List.length_cons] at part
      rw [body] at part
      omega
    have fits := shape.length_le
    rw [cut, rawValue_append noEquals]
    rcases shape.newline with whole | ended
    · have noKept : ¬ KeepsSpaces piece := fun keeps => notMem_body piece (whole ▸ keeps.1)
      have same : piece = front ++ 61 :: rest := whole.trans cut
      rw [parseLine_line noEquals restLine (text.trans same) (by omega)]
      simp only [noKept, if_false, Option.map_id']
    · have same : piece = front ++ 61 :: (rest ++ [10]) := by
        rw [ended, cut, List.append_assoc, List.cons_append]
      have kept : KeepsSpaces piece ↔ rest ≠ [] ∧ ∀ c ∈ rest, c = 32 := by
        have ending : 10 ∈ piece := by simp [same]
        rw [KeepsSpaces, cut, rawValue_append noEquals]
        exact and_iff_right ending
      have value : trim rest = if KeepsSpaces piece then rest else strip rest := by
        split
        · rename_i keeps
          exact trim_of_spaces (kept.mp keeps).2
        · rename_i noKept
          exact trim_of_not_spaces fun keeps => noKept (kept.mpr keeps)
      rw [parseLine_newline noEquals restLine (text.trans same) (by omega), value,
        setting_append noEquals]
      split_ifs <;> rfl
  · rw [setting, if_pos (.inr equals), Option.map_none]
    apply parseLine_of_notMem
    rw [text]
    rcases shape.newline with whole | ended
    · rwa [whole]
    · rw [ended]
      simpa using equals

end Mprpc.Config
