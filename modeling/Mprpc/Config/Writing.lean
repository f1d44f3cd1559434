import Mprpc.Config.Loading

/-!
# Files of settings

A file that is written with one `key=value` line for each setting, as the scripts of
the repository write theirs, is read back by `LoadConfigFile`: every key has the value
of its first setting, and there are no others.
-/

namespace Mprpc.Config

/-- The line of a setting. -/
def settingLine (entry : Bytes × Bytes) : Bytes :=
  entry.1 ++ 61 :: entry.2

/-- A file with one line for each setting. -/
def writeSettings (entries : List (Bytes × Bytes)) : Bytes :=
  entries.flatMap fun entry => settingLine entry ++ [10]

/-- A setting that a line can hold: no spaces around its parts, no `=` in its key,
which starts no comment, no other line and no terminator in it, and with the newline
it is no longer than what one `fgets` reads. -/
def Writable (entry : Bytes × Bytes) : Prop :=
  (strip entry.1 = entry.1 ∧ strip entry.2 = entry.2) ∧
    (61 ∉ entry.1 ∧ (entry.1.dropWhile (· = 32)).head? ≠ some 35) ∧
      (10 ∉ settingLine entry ∧ 0 ∉ settingLine entry) ∧ (settingLine entry).length ≤ 510

instance (entry : Bytes × Bytes) : Decidable (Writable entry) :=
  inferInstanceAs (Decidable ((_ ∧ _) ∧ (_ ∧ _) ∧ (_ ∧ _) ∧ _))

variable {entry : Bytes × Bytes} {entries : List (Bytes × Bytes)}

namespace Writable

theorem setting_eq (writable : Writable entry) : setting (settingLine entry) = some entry := by
  rcases writable with ⟨⟨key, value⟩, ⟨noEquals, noComment⟩, -⟩
  rw [settingLine, setting_append noEquals, if_neg noComment, key, value]

/-- The line of a setting is one piece with its newline. -/
theorem pieces_eq (writable : Writable entry) (rest : Bytes) :
    pieces 511 (settingLine entry ++ 10 :: rest) =
      (settingLine entry ++ [10]) :: pieces 511 rest := by
  rcases writable with ⟨-, -, ⟨noNewline, -⟩, short⟩
  rw [pieces_append noNewline (Nat.lt_succ_of_le short), pieces, if_pos (.inl rfl)]
  rfl

/-- A value without spaces around it is no value of spaces. -/
theorem not_keepsSpaces (writable : Writable entry) :
    ¬ KeepsSpaces (settingLine entry ++ [10]) := by
  rcases writable with ⟨⟨-, value⟩, ⟨noEquals, -⟩, ⟨noNewline, -⟩, -⟩
  rintro ⟨-, present, spaces⟩
  have alone : body (settingLine entry ++ [10]) = settingLine entry :=
    Bytes.takeWhile_append_cons noNewline []
  rw [alone, settingLine, rawValue_append noEquals] at present spaces
  rw [← value] at present spaces
  exact present (strip_of_spaces spaces)

end Writable

theorem writeSettings_cons (entry : Bytes × Bytes) (entries : List (Bytes × Bytes)) :
    writeSettings (entry :: entries) = settingLine entry ++ 10 :: writeSettings entries := by
  rw [writeSettings, List.flatMap_cons, List.append_assoc]
  rfl

/-- The lines of the file, and the piece at its end. -/
theorem pieces_writeSettings (writable : ∀ entry ∈ entries, Writable entry) :
    pieces 511 (writeSettings entries) =
      (entries.map fun entry => settingLine entry ++ [10]) ++ [[]] := by
  induction entries with
  | nil => rfl
  | cons entry entries inductionHypothesis =>
      rw [writeSettings_cons, (writable entry List.mem_cons_self).pieces_eq,
        inductionHypothesis fun other member => writable other (.tail _ member)]
      rfl

theorem lines_writeSettings (writable : ∀ entry ∈ entries, Writable entry) :
    lines (writeSettings entries) = entries.map settingLine ++ [[]] := by
  induction entries with
  | nil => rfl
  | cons entry entries inductionHypothesis =>
      have noNewline := (writable entry List.mem_cons_self).2.2.1.1
      have split : lines (settingLine entry ++ 10 :: writeSettings entries) =
          settingLine entry :: lines (writeSettings entries) :=
        List.splitOn_append_cons_self_of_not_mem noNewline _
      rw [writeSettings_cons, split,
        inductionHypothesis fun other member => writable other (.tail _ member)]
      rfl

/-- The grammar reads the settings back. -/
theorem settings_writeSettings (writable : ∀ entry ∈ entries, Writable entry) :
    (lines (writeSettings entries)).filterMap setting = entries := by
  rw [lines_writeSettings writable, List.filterMap_append, List.filterMap_map]
  have read : entries.filterMap (setting ∘ settingLine) = entries.filterMap some :=
    List.filterMap_congr fun entry member => (writable entry member).setting_eq
  rw [read, List.filterMap_some]
  exact List.append_nil _

/-- No line is cut. -/
theorem short_of_mem_lines (writable : ∀ entry ∈ entries, Writable entry) {line : Bytes}
    (member : line ∈ lines (writeSettings entries)) : line.length ≤ 511 := by
  rw [lines_writeSettings writable] at member
  rcases List.mem_append.mp member with written | last
  · rcases List.mem_map.mp written with ⟨entry, inside, rfl⟩
    exact (writable entry inside).2.2.2.trans (by decide)
  · rw [List.mem_singleton.mp last]
    exact Nat.zero_le 511

theorem not_keepsSpaces_of_mem (writable : ∀ entry ∈ entries, Writable entry) {piece : Bytes}
    (member : piece ∈ pieces 511 (writeSettings entries)) : ¬ KeepsSpaces piece := by
  rw [pieces_writeSettings writable] at member
  rcases List.mem_append.mp member with written | last
  · rcases List.mem_map.mp written with ⟨entry, inside, rfl⟩
    exact (writable entry inside).not_keepsSpaces
  · rw [List.mem_singleton.mp last]
    decide

theorem zero_notMem_writeSettings (writable : ∀ entry ∈ entries, Writable entry) :
    0 ∉ writeSettings entries := by
  intro member
  rcases List.mem_flatMap.mp member with ⟨entry, inside, zero⟩
  rcases List.mem_append.mp zero with written | newline
  · exact (writable entry inside).2.2.1.2 written
  · cases List.mem_singleton.mp newline

/-- The value of the first setting of a key. -/
def firstValue (entries : List (Bytes × Bytes)) (key : Bytes) : Option Bytes :=
  (entries.find? fun entry => entry.1 = key).map Prod.snd

/-- The first setting of a key is its first line. -/
theorem firstSetting_writeSettings (writable : ∀ entry ∈ entries, Writable entry) (key : Bytes) :
    firstSetting (lines (writeSettings entries)) key = firstValue entries key := by
  rw [firstSetting, settings_writeSettings writable, firstValue]

theorem lookup_written (writable : ∀ entry ∈ entries, Writable entry) (key : Bytes) :
    ((pieces 511 (writeSettings entries)).foldl MprpcConfig.addLine ⟨[]⟩).configMap.lookup key =
      firstValue entries key := by
  rw [lookup_of_stripped (zero_notMem_writeSettings writable), firstSetting,
    settings_pieces fun line => short_of_mem_lines writable, ← firstSetting,
    firstSetting_writeSettings writable]
  intro piece first
  exact not_keepsSpaces_of_mem writable (List.mem_of_find?_eq_some first)

/-- `LoadConfigFile` ends with the pieces of the file. -/
theorem loadConfigFile_ofText {fopen : Bytes → Option FileStream} {configFile text : Bytes}
    (opened : fopen configFile = some (.ofText text)) :
    (⟨[]⟩ : MprpcConfig).loadConfigFile fopen configFile ((pieces 511 text).length + 1) =
      some (.returns ((pieces 511 text).foldl MprpcConfig.addLine ⟨[]⟩)) := by
  rw [MprpcConfig.loadConfigFile, opened]
  exact congrArg (Option.map _) (loadLoop_eq_some_iff.mpr ⟨Nat.lt_succ_self _, rfl⟩)

/-- A file of settings follows the grammar. -/
theorem fitsWindow_writeSettings (writable : ∀ entry ∈ entries, Writable entry) :
    FitsWindow (writeSettings entries) :=
  fitsWindow_of_short (fun _ => short_of_mem_lines writable)
    (fun _ => not_keepsSpaces_of_mem writable)

/-- A file of settings loads into exactly these settings: every key has the value of
its first setting, and there are no other keys. -/
theorem writeSettings_round_trip (writable : ∀ entry ∈ entries, Writable entry)
    {fopen : Bytes → Option FileStream} {configFile : Bytes}
    (opened : fopen configFile = some (.ofText (writeSettings entries))) :
    ∃ passes config, (⟨[]⟩ : MprpcConfig).loadConfigFile fopen configFile passes =
        some (.returns config) ∧
      ∀ key, config.configMap.lookup key = firstValue entries key :=
  ⟨_, _, loadConfigFile_ofText opened, lookup_written writable⟩

/-- Two settings of one key, and a value with spaces, an `=` and a `#` in it. -/
theorem writeSettings_round_trip_repeated :
    ∃ passes config, (⟨[]⟩ : MprpcConfig).loadConfigFile
        (fun _ => some (.ofText (writeSettings [([107], [49]), ([107], [50]),
          ([97, 32, 98], [61, 32, 35])]))) [] passes = some (.returns config) ∧
      ∀ key, config.configMap.lookup key =
        firstValue [([107], [49]), ([107], [50]), ([97, 32, 98], [61, 32, 35])] key :=
  writeSettings_round_trip (by decide +kernel) rfl

end Mprpc.Config
