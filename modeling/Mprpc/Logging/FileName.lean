import Mprpc.Logging.Core

/-!
# The names of the log files

The name of a log file is the directory, the date and the rest.  The date ends
with its third underscore, so a name carries one date only; and a rotation by
count adds a number that no other rotation of that day has.
-/

namespace Mprpc.Logging

namespace Tm

/-- The calendar order of two dates. -/
def NotAfter (first second : Tm) : Prop :=
  first.year < second.year ∨ first.year = second.year ∧
    (first.mon < second.mon ∨ first.mon = second.mon ∧ first.mday ≤ second.mday)

instance (first second : Tm) : Decidable (first.NotAfter second) :=
  inferInstanceAs (Decidable (_ ∨ _ ∧ (_ ∨ _ ∧ _)))

variable {first second third : Tm}

theorem NotAfter.refl (now : Tm) : now.NotAfter now :=
  .inr ⟨rfl, .inr ⟨rfl, Nat.le_refl _⟩⟩

theorem NotAfter.trans (before : first.NotAfter second) (after : second.NotAfter third) :
    first.NotAfter third := by
  unfold NotAfter at *
  omega

theorem NotAfter.antisymm (before : first.NotAfter second) (after : second.NotAfter first) :
    first = second := by
  unfold NotAfter at *
  have year : first.year = second.year := by omega
  have mon : first.mon = second.mon := by omega
  have mday : first.mday = second.mday := by omega
  cases first
  cases second
  simp_all

end Tm

/-! ## The date in a name -/

theorem underscore_notMem_ofNat (n : Nat) : 95 ∉ Bytes.ofNat n := by
  intro member
  exact absurd (Bytes.isDigit_of_mem_ofNat member).2 (by decide)

theorem underscore_notMem_twoDigits (n : Nat) : 95 ∉ twoDigits n := by
  have zero : Bytes.ofString "0" = [48] := rfl
  unfold twoDigits
  split
  · rw [zero, List.singleton_append]
    exact List.not_mem_cons_of_ne_of_not_mem (by decide) (underscore_notMem_ofNat n)
  · exact underscore_notMem_ofNat n

/-- Reading back `%02d`. -/
theorem digits_twoDigits (n : Nat) : Bytes.digits 0 (twoDigits n) = n := by
  have zero : Bytes.ofString "0" = [48] := rfl
  unfold twoDigits
  split
  · rw [zero, List.singleton_append, Bytes.digits, if_pos (by decide)]
    exact Bytes.digits_ofNat n
  · exact Bytes.digits_ofNat n

theorem twoDigits_injective {n m : Nat} (same : twoDigits n = twoDigits m) : n = m := by
  rw [← digits_twoDigits n, same, digits_twoDigits]

/-- A date ends where it ends, whatever is behind it. -/
theorem date_append_inj {first second : Tm} {rest rest' : Bytes}
    (same : first.date ++ rest = second.date ++ rest') : first = second ∧ rest = rest' := by
  have underscore : Bytes.ofString "_" = [95] := rfl
  simp only [Tm.date, underscore, List.append_assoc, List.singleton_append] at same
  rcases Bytes.split_first (underscore_notMem_ofNat _) (underscore_notMem_ofNat _) same with
    ⟨year, same⟩
  rcases Bytes.split_first (underscore_notMem_twoDigits _) (underscore_notMem_twoDigits _) same
    with ⟨mon, same⟩
  rcases Bytes.split_first (underscore_notMem_twoDigits _) (underscore_notMem_twoDigits _) same
    with ⟨mday, same⟩
  have sameYear := Bytes.ofNat_injective year
  have sameMon := twoDigits_injective mon
  have sameMday := twoDigits_injective mday
  refine ⟨?_, same⟩
  cases first
  cases second
  simp_all

/-- The directory in a file name, with its slash. -/
def directory (fileName : Bytes) : Bytes :=
  (fileName.reverse.dropWhile (· ≠ 47)).reverse

/-- The name behind the directory. -/
def baseName (fileName : Bytes) : Bytes :=
  (fileName.reverse.takeWhile (· ≠ 47)).reverse

/-- A log file has a date in its name, behind the directory. -/
def CarriesDate (fileName file : Bytes) (now : Tm) : Prop :=
  directory fileName ++ now.date <+: file

instance (fileName file : Bytes) (now : Tm) : Decidable (CarriesDate fileName file now) :=
  inferInstanceAs (Decidable (_ <+: _))

theorem CarriesDate.unique {fileName file : Bytes} {first second : Tm}
    (carries : CarriesDate fileName file first) (carries' : CarriesDate fileName file second) :
    first = second := by
  rcases carries with ⟨rest, whole⟩
  rcases carries' with ⟨rest', whole'⟩
  rw [← whole', List.append_assoc, List.append_assoc] at whole
  exact (date_append_inj (List.append_cancel_left whole)).1

namespace Log

/-- The file of the first rotation of a day. -/
def dayName (log : Log) (now : Tm) : Bytes :=
  log.dirName ++ now.date ++ log.logName

/-- The file of a rotation by count. -/
def splitName (log : Log) (now : Tm) (part : Nat) : Bytes :=
  log.dayName now ++ Bytes.ofString "." ++ Bytes.ofNat part

/-- Cut or not, the name for the day is shorter than one with a number. -/
theorem snprintf_dayName_ne (log : Log) (now : Tm) (size part : Nat) :
    snprintf size (log.dayName now) ≠ log.splitName now part := by
  intro same
  have dot : (Bytes.ofString ".").length = 1 := rfl
  have shorter := List.length_take_le' (size - 1) (log.dayName now)
  have length := congrArg List.length same
  rw [splitName, List.length_append, List.length_append, dot, snprintf] at length
  omega

theorem splitName_injective {log : Log} {now : Tm} {part part' : Nat}
    (same : log.splitName now part = log.splitName now part') : part = part' :=
  Bytes.ofNat_injective (List.append_cancel_left same)

end Log

end Mprpc.Logging
