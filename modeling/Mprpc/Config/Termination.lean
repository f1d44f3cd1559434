import Mprpc.Config.Core

/-!
# When the read loop ends

The loop of `LoadConfigFile` tests `feof` and ignores what `fgets` returns.  A
stream here is what each attempt to read a byte of it finds, so it may go on for
ever and its errors may come anywhere; a `FileStream` is the special case of
finitely many bytes and one ending.

Every pass makes an attempt, and only one that finds the end of the file sets
the flag.
-/

namespace Mprpc.Config

/-- What an attempt to read a byte finds. -/
inductive ReadResult where
  | byte (c : UInt8)
  | endOfFile
  | readError
deriving DecidableEq, Repr

/-- The results of all attempts to read a byte of a file, in order. -/
abbrev Reads := Nat → ReadResult

/-- The byte loop of `fgets` with room for some bytes, from an attempt on: what it
takes, the attempt that comes next, and whether it has met the end of the file. -/
def getLineFrom (reads : Reads) : Nat → Nat → Bytes × Nat × Bool
  | 0, next => ([], next, false)
  | room + 1, next =>
      match reads next with
      | .endOfFile => ([], next + 1, true)
      | .readError => ([], next + 1, false)
      | .byte c =>
          if c = 10 then ([c], next + 1, false)
          else
            let (read, after, ended) := getLineFrom reads room (next + 1)
            (c :: read, after, ended)

end Mprpc.Config

namespace Mprpc.MprpcConfig

open Mprpc.Config

/-- `while(!feof(pf))` when the next attempt to read has some number: the result
if the loop ends within a number of tests. -/
def loadLoopFrom (config : MprpcConfig) (reads : Reads) (next : Nat) (eof : Bool) :
    Nat → Option MprpcConfig
  | 0 => none
  | passes + 1 =>
      if eof then some config
      else
        -- `fgets(buf, 512, pf)` has room for 511 bytes; nothing asks whether it failed
        let (read, after, ended) := getLineFrom reads 511 next
        (config.addLine read).loadLoopFrom reads after ended passes

end Mprpc.MprpcConfig

namespace Mprpc.Config

/-- What every attempt behind the last byte of a `FileStream` finds. -/
def StreamEnd.result : StreamEnd → ReadResult
  | .endOfFile => .endOfFile
  | .readError => .readError

/-- What the attempts to read a `FileStream` find. -/
def FileStream.reads (pf : FileStream) : Reads :=
  fun attempt => (pf.data[attempt]?.map .byte).getD pf.ending.result

variable {reads : Reads} {config result : MprpcConfig} {room next passes : Nat} {eof : Bool}

/-! ## One pass -/

/-- A call of `fgets` makes an attempt if there is room for a byte. -/
theorem le_getLineFrom (reads : Reads) (room next : Nat) :
    next + min room 1 ≤ (getLineFrom reads room next).2.1 := by
  induction room generalizing next with
  | zero => exact Nat.le_refl next
  | succ room inductionHypothesis =>
      have one : min (room + 1) 1 = 1 := by omega
      rw [getLineFrom, one]
      cases reads next with
      | endOfFile => exact Nat.le_refl _
      | readError => exact Nat.le_refl _
      | byte c =>
          dsimp only
          split
          · exact Nat.le_refl _
          · exact (Nat.le_add_right _ _).trans (inductionHypothesis (next + 1))

/-- It meets the end of the file if one of its attempts does. -/
theorem getLineFrom_ended_iff (reads : Reads) (room next : Nat) :
    (getLineFrom reads room next).2.2 = true ↔
      ∃ attempt, next ≤ attempt ∧ attempt < (getLineFrom reads room next).2.1 ∧
        reads attempt = .endOfFile := by
  induction room generalizing next with
  | zero =>
      constructor
      · intro ended
        cases ended
      · rintro ⟨attempt, from_, before, -⟩
        exact absurd before (Nat.not_lt.mpr from_)
  | succ room inductionHypothesis =>
      have oneAttempt : reads next ≠ .endOfFile →
          ¬ ∃ attempt, next ≤ attempt ∧ attempt < next + 1 ∧ reads attempt = .endOfFile := by
        rintro goesOn ⟨attempt, later, before, ends⟩
        have same : attempt = next := by omega
        exact goesOn (same ▸ ends)
      rw [getLineFrom]
      cases found : reads next with
      | endOfFile => exact ⟨fun _ => ⟨next, Nat.le_refl _, Nat.lt_succ_self _, found⟩, fun _ => rfl⟩
      | readError => simpa using oneAttempt (by simp [found])
      | byte c =>
          dsimp only
          split
          · simpa using oneAttempt (by simp [found])
          · rw [inductionHypothesis (next + 1)]
            constructor
            · rintro ⟨attempt, later, before, ends⟩
              exact ⟨attempt, Nat.le_of_succ_le later, before, ends⟩
            · rintro ⟨attempt, later, before, ends⟩
              refine ⟨attempt, Nat.lt_of_le_of_ne later ?_, before, ends⟩
              rintro rfl
              rw [found] at ends
              cases ends

/-! ## The loop -/

/-- A pass that is not stopped by the flag makes attempts, and sets the flag if one
of them finds the end of the file. -/
theorem loadLoopFrom_pass (config : MprpcConfig) (reads : Reads) (next passes : Nat) :
    ∃ read after ended, config.loadLoopFrom reads next false (passes + 1) =
        (config.addLine read).loadLoopFrom reads after ended passes ∧ next < after ∧
      (ended = true ↔
        ∃ attempt, next ≤ attempt ∧ attempt < after ∧ reads attempt = .endOfFile) :=
  ⟨_, _, _, rfl, le_getLineFrom reads 511 next, getLineFrom_ended_iff reads 511 next⟩

/-- A loop that ends has met the end of the file. -/
theorem exists_endOfFile_of_loadLoopFrom
    (ends : config.loadLoopFrom reads next eof passes = some result) :
    eof = true ∨ ∃ attempt, next ≤ attempt ∧ reads attempt = .endOfFile := by
  induction passes generalizing config next eof with
  | zero => cases ends
  | succ passes inductionHypothesis =>
      cases eof with
      | true => exact .inl rfl
      | false =>
          right
          rcases loadLoopFrom_pass config reads next passes with
            ⟨read, after, ended, pass, moved, meets⟩
          rw [pass] at ends
          rcases inductionHypothesis ends with met | ⟨attempt, later, found⟩
          · rcases meets.mp met with ⟨attempt, later, -, found⟩
            exact ⟨attempt, later, found⟩
          · exact ⟨attempt, moved.le.trans later, found⟩

/-- The loop ends at the latest in the test after as many passes as there are
attempts until one finds the end of the file. -/
theorem exists_loadLoopFrom {attempt : Nat} (found : reads attempt = .endOfFile)
    (config : MprpcConfig)
    (near : eof = true ∨ next ≤ attempt ∧ attempt < next + passes) :
    ∃ result, config.loadLoopFrom reads next eof (passes + 1) = some result := by
  induction passes generalizing config next eof with
  | zero =>
      have isEof : eof = true := near.resolve_right (by omega)
      exact ⟨config, by rw [MprpcConfig.loadLoopFrom, isEof, if_pos rfl]⟩
  | succ passes inductionHypothesis =>
      cases eof with
      | true => exact ⟨config, rfl⟩
      | false =>
          have ahead := near.resolve_left Bool.false_ne_true
          rcases loadLoopFrom_pass config reads next (passes + 1) with
            ⟨read, after, ended, pass, moved, meets⟩
          rw [pass]
          apply inductionHypothesis
          by_cases passed : attempt < after
          · exact .inl (meets.mpr ⟨attempt, ahead.1, passed, found⟩)
          · exact .inr (by omega)

/-- What decides whether the loop ends from an attempt on. -/
theorem exists_passes_iff (config : MprpcConfig) (reads : Reads) (next : Nat) (eof : Bool) :
    (∃ passes result, config.loadLoopFrom reads next eof passes = some result) ↔
      eof = true ∨ ∃ attempt, next ≤ attempt ∧ reads attempt = .endOfFile := by
  constructor
  · rintro ⟨passes, result, ended⟩
    exact exists_endOfFile_of_loadLoopFrom ended
  · rintro (isEof | ⟨attempt, later, ends⟩)
    · exact ⟨1, config, by rw [MprpcConfig.loadLoopFrom, isEof, if_pos rfl]⟩
    · exact ⟨attempt + 2, exists_loadLoopFrom ends config (.inr ⟨later, by omega⟩)⟩

/-- The loop of a file that was opened ends just when some attempt to read finds
the end of the file. -/
theorem loadLoopFrom_ends_iff (config : MprpcConfig) (reads : Reads) :
    (∃ passes result, config.loadLoopFrom reads 0 false passes = some result) ↔
      ∃ attempt, reads attempt = .endOfFile := by
  simpa using exists_passes_iff config reads 0 false

/-- A directory: it can be opened, and every read of it fails. -/
def directory : Reads := fun _ => .readError

theorem directory_never_ends :
    ¬ ∃ passes result, (⟨[]⟩ : MprpcConfig).loadLoopFrom directory 0 false passes =
      some result := by
  rw [exists_passes_iff]
  rintro (isEof | ⟨attempt, -, ends⟩)
  · cases isEof
  · cases ends

/-! ## Streams of finitely many bytes -/

/-- The loop over a `FileStream` is the loop over what its attempts find. -/
theorem getLineFrom_reads {data : Bytes} {ending : StreamEnd}
    (agree : ∀ attempt, reads (next + attempt) = (FileStream.mk data ending eof).reads attempt) :
    (getLineFrom reads room next).1 = (getLine room data).1 ∧
      (getLineFrom reads room next).2.2 =
        ((getLine room data).2.2 && ending == .endOfFile) ∧
      ∀ attempt, reads ((getLineFrom reads room next).2.1 + attempt) =
        (FileStream.mk (getLine room data).2.1 ending eof).reads attempt := by
  induction room generalizing next data with
  | zero => exact ⟨rfl, rfl, agree⟩
  | succ room inductionHypothesis =>
      have now := agree 0
      cases data with
      | nil =>
          have later : ∀ attempt, reads (next + 1 + attempt) =
              (FileStream.mk [] ending eof).reads attempt := by
            intro attempt
            rw [Nat.add_assoc, agree]
            rfl
          cases ending with
          | endOfFile =>
              have found : reads next = .endOfFile := now
              rw [getLineFrom, getLine, found]
              exact ⟨rfl, rfl, later⟩
          | readError =>
              have found : reads next = .readError := now
              rw [getLineFrom, getLine, found]
              exact ⟨rfl, rfl, later⟩
      | cons c rest =>
          have found : reads next = .byte c := now
          have later : ∀ attempt, reads (next + 1 + attempt) =
              (FileStream.mk rest ending eof).reads attempt := by
            intro attempt
            rw [Nat.add_assoc, agree, Nat.add_comm]
            rfl
          rw [getLineFrom, getLine, found]
          dsimp only
          by_cases newline : c = 10
          · rw [if_pos newline, if_pos newline]
            exact ⟨rfl, rfl, later⟩
          · have tail := inductionHypothesis later
            rw [if_neg newline, if_neg newline]
            exact ⟨congrArg (c :: ·) tail.1, tail.2⟩

theorem loadLoop_eq_loadLoopFrom (pf : FileStream)
    (agree : ∀ attempt, reads (next + attempt) = pf.reads attempt) :
    config.loadLoop pf passes = config.loadLoopFrom reads next pf.eof passes := by
  induction passes generalizing config pf next with
  | zero => rfl
  | succ passes inductionHypothesis =>
      rcases pf with ⟨data, ending, eof⟩
      cases eof with
      | true => rfl
      | false =>
          have line := @getLineFrom_reads reads 511 next false data ending agree
          rw [MprpcConfig.loadLoop, MprpcConfig.loadLoopFrom]
          simp only [FileStream.fgets, Bool.false_or, Bool.false_eq_true, if_false]
          rw [line.1, line.2.1]
          apply inductionHypothesis
          intro attempt
          exact line.2.2 attempt

/-- A `FileStream` meets the end of the file unless it ends with an error. -/
theorem exists_endOfFile_reads_iff (pf : FileStream) :
    (∃ attempt, pf.reads attempt = .endOfFile) ↔ pf.ending = .endOfFile := by
  constructor
  · rintro ⟨attempt, ends⟩
    unfold FileStream.reads at ends
    cases found : pf.data[attempt]? with
    | some c =>
        rw [found] at ends
        cases ends
    | none =>
        rw [found] at ends
        cases ending : pf.ending with
        | endOfFile => rfl
        | readError =>
            rw [ending] at ends
            cases ends
  · intro ending
    refine ⟨pf.data.length, ?_⟩
    rw [FileStream.reads, List.getElem?_length, ending]
    rfl

/-- Loading a file that could be opened ends unless a read fails. -/
theorem loadConfigFile_ends_iff {fopen : Bytes → Option FileStream} {configFile data : Bytes}
    {ending : StreamEnd} (opened : fopen configFile = some ⟨data, ending, false⟩)
    (config : MprpcConfig) :
    (∃ passes result, config.loadConfigFile fopen configFile passes = some result) ↔
      ending = .endOfFile := by
  have sameLoop : ∀ passes, config.loadConfigFile fopen configFile passes =
      (config.loadLoopFrom (FileStream.mk data ending false).reads 0 false passes).map
        .returns := by
    intro passes
    rw [MprpcConfig.loadConfigFile, opened]
    dsimp only
    rw [loadLoop_eq_loadLoopFrom]
    intro attempt
    rw [Nat.zero_add]
  have meets := exists_endOfFile_reads_iff ⟨data, ending, false⟩
  have ends := exists_passes_iff config (FileStream.mk data ending false).reads 0 false
  simp only [Nat.zero_le, true_and, Bool.false_eq_true, false_or, meets] at ends
  simp only [sameLoop, Option.map_eq_some_iff]
  rw [← ends]
  constructor
  · rintro ⟨passes, loadEnd, result, ended, -⟩
    exact ⟨passes, result, ended⟩
  · rintro ⟨passes, result, ended⟩
    exact ⟨passes, .returns result, result, ended, rfl⟩

end Mprpc.Config
