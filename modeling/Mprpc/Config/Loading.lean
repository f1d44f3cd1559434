import Mprpc.Config.Line
import Mathlib.Data.List.Find

/-!
# Which settings a configuration file makes

The grammar reads the lines of a text whole, `fgets` reads pieces of at most 511
bytes.  For every text, the pieces and the spaces that a piece keeps decide
whether the loaded configuration follows the grammar.
-/

namespace Mprpc.Config

/-- The value of the first of some lines that sets a key. -/
def firstSetting (lines : List Bytes) (key : Bytes) : Option Bytes :=
  ((lines.filterMap setting).find? fun entry => entry.1 = key).map Prod.snd

/-- The lines of a text. -/
def lines (text : Bytes) : List Bytes :=
  text.splitOn 10

/-- A configuration holds what the lines of a text set, and has no other key. -/
structure FollowsGrammar (text : Bytes) (config : MprpcConfig) : Prop where
  value : ∀ key value, firstSetting (lines text) key = some value → config.load key = value
  noOther : ∀ key, (config.configMap.lookup key).isSome →
    (firstSetting (lines text) key).isSome

/-- What successive calls of `fgets` read of a text, the first of them with room
for some bytes: a piece ends with a newline, or when the room is used up. -/
def pieces (room : Nat) : Bytes → List Bytes
  | [] => [[]]
  | c :: rest =>
      if c = 10 ∨ room = 1 then [c] :: pieces 511 rest
      else (pieces (room - 1) rest).modifyHead (c :: ·)

/-- The first piece that sets a key. -/
def firstPiece (text key : Bytes) : Option Bytes :=
  (pieces 511 text).find? fun piece => (setting (body piece)).any fun entry => entry.1 = key

/-- Cutting the lines of a text at every 511 bytes does not change what the
grammar reads, and no key gets its value from a piece that keeps spaces. -/
structure FitsWindow (text : Bytes) : Prop where
  sameValue : ∀ key value, firstSetting (lines text) key = some value →
    (firstSetting ((pieces 511 text).map body) key).getD [] = value
  noOther : ∀ key, (firstSetting ((pieces 511 text).map body) key).isSome →
    (firstSetting (lines text) key).isSome
  stripped : ∀ key piece, firstPiece text key = some piece → ¬ KeepsSpaces piece

/-! ## The read loop -/

/-- One call of `fgets` reads the first piece, and unless it has met the end,
the other pieces are those of what it leaves. -/
theorem pieces_getLine (room : Nat) (text : Bytes) :
    pieces (room + 1) text = (getLine (room + 1) text).1 ::
      if (getLine (room + 1) text).2.2 then [] else pieces 511 (getLine (room + 1) text).2.1 := by
  induction text generalizing room with
  | nil => rfl
  | cons c rest inductionHypothesis =>
      by_cases newline : c = 10
      · simp [pieces, getLine, newline]
      · cases room with
        | zero => simp [pieces, getLine, newline]
        | succ room =>
            have step : getLine (room + 1 + 1) (c :: rest) =
                (c :: (getLine (room + 1) rest).1, (getLine (room + 1) rest).2) := by
              rw [getLine, if_neg newline]
            have goesOn : ¬ (c = 10 ∨ room + 1 + 1 = 1) := by simp [newline]
            rw [pieces, if_neg goesOn, Nat.add_sub_cancel, inductionHypothesis,
              List.modifyHead_cons, step]

/-- The stream after a call of `fgets`. -/
theorem fgets_ofText (text : Bytes) :
    (FileStream.ofText text).fgets 512 =
      ((getLine 511 text).1, ⟨(getLine 511 text).2.1, .endOfFile, (getLine 511 text).2.2⟩) := by
  simp [FileStream.fgets, FileStream.ofText]

/-- At the end of the file the loop stops at its next test. -/
theorem loadLoop_eof {config result : MprpcConfig} {pf : FileStream} (eof : pf.eof = true)
    {passes : Nat} : config.loadLoop pf passes = some result ↔ 0 < passes ∧ result = config := by
  cases passes <;> simp [MprpcConfig.loadLoop, eof, eq_comm]

/-- The loop ends, and has then read all pieces in order. -/
theorem loadLoop_eq_some_iff {config result : MprpcConfig} {text : Bytes} {passes : Nat} :
    config.loadLoop (.ofText text) passes = some result ↔
      (pieces 511 text).length < passes ∧
        result = (pieces 511 text).foldl MprpcConfig.addLine config := by
  induction passes generalizing config text with
  | zero => simp [MprpcConfig.loadLoop]
  | succ passes inductionHypothesis =>
      have isOpen : (FileStream.ofText text).eof = false := rfl
      rw [MprpcConfig.loadLoop, isOpen, fgets_ofText, pieces_getLine 510]
      cases ended : (getLine 511 text).2.2 with
      | true => simp [loadLoop_eof]
      | false =>
          have step := @inductionHypothesis (config.addLine (getLine 511 text).1)
            (getLine 511 text).2.1
          rw [FileStream.ofText] at step
          simp [step]

theorem isPiece_cons {room : Nat} {piece : Bytes} {c : UInt8} (noNewline : c ≠ 10)
    (shape : IsPiece room piece) : IsPiece (room + 1) (c :: piece) := by
  have grown : body (c :: piece) = c :: body piece :=
    List.takeWhile_cons_of_pos (by simpa using noNewline)
  refine ⟨Nat.succ_le_succ shape.length_le, ?_⟩
  rw [grown]
  rcases shape.newline with whole | ended
  · exact .inl (congrArg (c :: ·) whole)
  · exact .inr (congrArg (c :: ·) ended)

theorem isPiece_singleton (c : UInt8) : IsPiece 1 [c] := by
  refine ⟨Nat.le_refl 1, ?_⟩
  by_cases newline : c = 10
  · exact .inr (by simp [newline, body])
  · exact .inl (by simp [newline, body])

/-- The first piece fits into the room that is left, every later one into a new buffer. -/
theorem isPiece_pieces {room : Nat} (bound : room ≤ 510) (text : Bytes) :
    ∃ first others, pieces (room + 1) text = first :: others ∧ IsPiece (room + 1) first ∧
      (∀ piece ∈ others, IsPiece 511 piece) ∧ first ++ others.flatten = text := by
  induction text generalizing room with
  | nil => exact ⟨[], [], rfl, ⟨by simp, .inl rfl⟩, by simp, rfl⟩
  | cons c rest inductionHypothesis =>
      by_cases cut : c = 10 ∨ room + 1 = 1
      · rcases @inductionHypothesis 510 (Nat.le_refl _) with
          ⟨first, others, same, firstPiece, laterPieces, whole⟩
        have single := isPiece_singleton c
        refine ⟨[c], pieces 511 rest, by rw [pieces, if_pos cut], ⟨?_, single.newline⟩, ?_, ?_⟩
        · exact single.length_le.trans (by omega)
        · rw [same]
          exact List.forall_mem_cons.mpr ⟨firstPiece, laterPieces⟩
        · rw [same, List.flatten_cons, whole]
          rfl
      · cases room with
        | zero => exact absurd (.inr rfl) cut
        | succ room =>
            rcases @inductionHypothesis room (by omega) with
              ⟨first, others, same, firstPiece, laterPieces, whole⟩
            refine ⟨c :: first, others, ?_, ?_, laterPieces, by rw [List.cons_append, whole]⟩
            · rw [pieces, if_neg cut, Nat.add_sub_cancel, same, List.modifyHead_cons]
            · exact isPiece_cons (fun newline => cut (.inl newline)) firstPiece

theorem isPiece_of_mem {text piece : Bytes} (member : piece ∈ pieces 511 text) :
    IsPiece 511 piece := by
  rcases isPiece_pieces (Nat.le_refl 510) text with ⟨first, others, same, shape, later, -⟩
  rw [same] at member
  exact List.forall_mem_cons.mpr ⟨shape, later⟩ piece member

/-- No byte of a text is lost between two pieces, and none is read twice. -/
theorem flatten_pieces (text : Bytes) : (pieces 511 text).flatten = text := by
  rcases isPiece_pieces (Nat.le_refl 510) text with ⟨first, others, same, -, -, whole⟩
  rw [same, List.flatten_cons, whole]

/-- What the configuration of a new process holds for a key: the value of the
first piece that sets it. -/
theorem lookup_foldl_addLine (texts : List Bytes) (config : MprpcConfig) (key : Bytes) :
    (texts.foldl MprpcConfig.addLine config).configMap.lookup key =
      (config.configMap.lookup key).or
        (((texts.filterMap fun read => parseLine (MprpcConfig.lineBuffer read)).find? fun entry =>
          entry.1 = key).map Prod.snd) := by
  rw [← AssocMap.lookup_foldl_insertNew Prod.fst Prod.snd]
  congr 1
  induction texts generalizing config with
  | nil => rfl
  | cons read texts inductionHypothesis =>
      rw [List.foldl_cons, inductionHypothesis, MprpcConfig.addLine]
      cases entry : parseLine (MprpcConfig.lineBuffer read) <;> simp [entry]

/-- The settings that pieces make under a key all come from the first of them. -/
theorem find?_filterMap_piece (text key : Bytes) (read : Bytes → Option (Bytes × Bytes))
    (sameKeys : ∀ piece ∈ pieces 511 text,
      (read piece).map Prod.fst = (setting (body piece)).map Prod.fst) :
    ((pieces 511 text).filterMap read).find? (fun entry => entry.1 = key) =
      (firstPiece text key).bind read := by
  rw [List.find?_filterMap, firstPiece]
  congr 1
  apply List.find?_congr
  intro piece member
  have same := sameKeys piece member
  cases left : read piece <;> cases right : setting (body piece) <;> simp_all

/-- No line sets a value of one or more spaces. -/
theorem firstSetting_of_spaces {texts : List Bytes} {key value : Bytes}
    (found : firstSetting texts key = some value) (spaces : ∀ c ∈ value, c = 32) :
    value = [] := by
  rcases Option.map_eq_some_iff.mp found with ⟨entry, first, rfl⟩
  rcases List.mem_filterMap.mp (List.mem_of_find?_eq_some first) with ⟨line, -, made⟩
  rw [setting] at made
  split at made
  · cases made
  · cases made
    exact strip_of_spaces spaces

section Loaded

variable {text : Bytes} (noTerminator : 0 ∉ text)

include noTerminator

theorem parseLine_of_mem {piece : Bytes} (member : piece ∈ pieces 511 text) :
    parseLine (MprpcConfig.lineBuffer piece) =
      (setting (body piece)).map fun entry =>
        (entry.1, if KeepsSpaces piece then rawValue (body piece) else entry.2) := by
  refine parseLine_piece (isPiece_of_mem member) fun zero => noTerminator ?_
  rw [← flatten_pieces text]
  exact List.mem_flatten.mpr ⟨piece, member, zero⟩

/-- The configuration gives a key what the code reads in the first piece that sets it. -/
theorem lookup_loaded (key : Bytes) :
    ((pieces 511 text).foldl MprpcConfig.addLine ⟨[]⟩).configMap.lookup key =
      ((firstPiece text key).bind fun piece => parseLine (MprpcConfig.lineBuffer piece)).map
        Prod.snd := by
  rw [lookup_foldl_addLine, find?_filterMap_piece, List.lookup_nil, Option.none_or]
  intro piece member
  rw [parseLine_of_mem noTerminator member, Option.map_map]
  rfl

omit noTerminator in
/-- The grammar gives a key what it reads in the same piece. -/
theorem firstSetting_pieces (key : Bytes) :
    firstSetting ((pieces 511 text).map body) key =
      ((firstPiece text key).bind fun piece => setting (body piece)).map Prod.snd := by
  rw [firstSetting, List.filterMap_map, find?_filterMap_piece]
  · rfl
  · exact fun _ _ => rfl

/-- Where no spaces are kept, the code reads what the grammar reads. -/
theorem lookup_of_stripped {key : Bytes}
    (stripped : ∀ piece, firstPiece text key = some piece → ¬ KeepsSpaces piece) :
    ((pieces 511 text).foldl MprpcConfig.addLine ⟨[]⟩).configMap.lookup key =
      firstSetting ((pieces 511 text).map body) key := by
  rw [lookup_loaded noTerminator, firstSetting_pieces]
  cases first : firstPiece text key with
  | none => rfl
  | some piece =>
      have member := List.mem_of_find?_eq_some first
      simp [parseLine_of_mem noTerminator member, stripped piece first]

/-- A key whose piece keeps spaces has these for its value. -/
theorem lookup_of_keepsSpaces {key piece : Bytes} (first : firstPiece text key = some piece)
    (keeps : KeepsSpaces piece) :
    ((pieces 511 text).foldl MprpcConfig.addLine ⟨[]⟩).configMap.lookup key =
      some (rawValue (body piece)) := by
  have member := List.mem_of_find?_eq_some first
  have sets := List.find?_some first
  rcases (Option.any_eq_true _ _).mp sets with ⟨entry, made, -⟩
  rw [lookup_loaded noTerminator, first, Option.bind_some, parseLine_of_mem noTerminator member,
    made, Option.map_some, Option.map_some, if_pos keeps]

/-- Whatever `Load` returns, and whatever keys there are: the configuration
follows the grammar just when the lines fit. -/
theorem followsGrammar_iff :
    FollowsGrammar text ((pieces 511 text).foldl MprpcConfig.addLine ⟨[]⟩) ↔
      FitsWindow text := by
  constructor
  · intro follows
    have stripped : ∀ key piece, firstPiece text key = some piece → ¬ KeepsSpaces piece := by
      intro key piece first keeps
      have held := lookup_of_keepsSpaces noTerminator first keeps
      rcases Option.isSome_iff_exists.mp (follows.noOther key (by rw [held]; rfl)) with
        ⟨value, wanted⟩
      have loaded := follows.value key value wanted
      rw [MprpcConfig.load, held, Option.getD_some] at loaded
      rw [← loaded] at wanted
      exact keeps.2.1 (firstSetting_of_spaces wanted keeps.2.2)
    refine ⟨fun key value wanted => ?_, fun key present => ?_, stripped⟩
    · rw [← lookup_of_stripped noTerminator (stripped key)]
      exact follows.value key value wanted
    · rw [← lookup_of_stripped noTerminator (stripped key)] at present
      exact follows.noOther key present
  · intro fits
    constructor
    · intro key value wanted
      rw [MprpcConfig.load, lookup_of_stripped noTerminator (fits.stripped key)]
      exact fits.sameValue key value wanted
    · intro key present
      rw [lookup_of_stripped noTerminator (fits.stripped key)] at present
      exact fits.noOther key present

end Loaded

/-! ## Short lines -/

/-- Bytes that neither end a line nor fill the buffer stay in one piece. -/
theorem pieces_append {line : Bytes} (noNewline : 10 ∉ line) {room : Nat}
    (fits : line.length < room) (rest : Bytes) :
    pieces room (line ++ rest) =
      (pieces (room - line.length) rest).modifyHead (line ++ ·) := by
  induction line generalizing room with
  | nil => exact (congrFun List.modifyHead_id _).symm
  | cons c line inductionHypothesis =>
      rcases List.ne_and_not_mem_of_not_mem_cons noNewline with ⟨other, later⟩
      rw [List.length_cons] at fits
      have goesOn : ¬ (c = 10 ∨ room = 1) := by
        rintro (rfl | rfl)
        · exact other rfl
        · omega
      have room' : room - 1 - line.length = room - (line.length + 1) := by omega
      rw [List.cons_append, pieces, if_neg goesOn,
        inductionHypothesis later (by omega), List.modifyHead_modifyHead, List.length_cons, room']
      rfl

/-- Bytes that fill the buffer are a piece of their own. -/
theorem pieces_full {line : Bytes} (noNewline : 10 ∉ line) (present : line ≠ []) (rest : Bytes) :
    pieces line.length (line ++ rest) = line :: pieces 511 rest := by
  induction line with
  | nil => exact absurd rfl present
  | cons c line inductionHypothesis =>
      rcases List.ne_and_not_mem_of_not_mem_cons noNewline with ⟨other, later⟩
      cases line with
      | nil => simp [pieces]
      | cons next line =>
          have goesOn : ¬ (c = 10 ∨ (c :: next :: line).length = 1) := by simp [other.symm]
          rw [List.cons_append, pieces, if_neg goesOn, List.length_cons, Nat.add_sub_cancel,
            inductionHypothesis later (List.cons_ne_nil _ _), List.modifyHead_cons]

theorem setting_nil : setting [] = none :=
  rfl

/-- A line of at most 511 bytes is a piece; when it fills the buffer, its newline
or the end of the file is one more, which sets nothing. -/
theorem settings_pieces_line {line : Bytes} (noNewline : 10 ∉ line) (short : line.length ≤ 511) :
    ((pieces 511 line).map body).filterMap setting = [line].filterMap setting ∧
      ∀ rest, ((pieces 511 (line ++ 10 :: rest)).map body).filterMap setting =
        (line :: (pieces 511 rest).map body).filterMap setting := by
  have alone : body line = line := Bytes.takeWhile_of_notMem noNewline
  have ended : body (line ++ [10]) = line := Bytes.takeWhile_append_cons noNewline []
  have newline : ∀ room rest, pieces room (10 :: rest) = [10] :: pieces 511 rest :=
    fun room rest => by rw [pieces, if_pos (.inl rfl)]
  have skipped : ∀ others, (line :: [] :: others).filterMap setting =
      (line :: others).filterMap setting := by
    intro others
    cases made : setting line <;> simp [List.filterMap_cons, made, setting_nil]
  by_cases full : line.length = 511
  · have present : line ≠ [] := by
      rintro rfl
      cases full
    have cut := pieces_full noNewline present
    rw [full] at cut
    constructor
    · have read := cut []
      rw [List.append_nil] at read
      rw [read, pieces, List.map_cons, List.map_singleton, alone]
      exact skipped []
    · intro rest
      rw [cut, newline, List.map_cons, List.map_cons, alone]
      exact skipped _
  · have fits : line.length < 511 := by omega
    have cut := pieces_append noNewline fits
    constructor
    · have read := cut []
      rw [List.append_nil] at read
      rw [read, pieces, List.modifyHead_cons, List.append_nil, List.map_singleton, alone]
    · intro rest
      rw [cut, newline, List.modifyHead_cons, List.map_cons, ended]

/-- Pieces read by the grammar set what the lines set, if no line is cut. -/
theorem settings_pieces {text : Bytes} (short : ∀ line ∈ lines text, line.length ≤ 511) :
    ((pieces 511 text).map body).filterMap setting = (lines text).filterMap setting := by
  induction hlines : lines text generalizing text with
  | nil => exact absurd hlines (List.splitOn_ne_nil _ _)
  | cons first others inductionHypothesis =>
      by_cases newline : 10 ∈ text
      · rcases List.eq_append_cons_of_mem newline with ⟨line, rest, rfl, noNewline⟩
        have split : lines (line ++ 10 :: rest) = line :: lines rest :=
          List.splitOn_append_cons_self_of_not_mem noNewline _
        rw [split] at hlines short
        rcases List.cons.inj hlines with ⟨rfl, sameRest⟩
        have tail := inductionHypothesis (fun other member => short other (.tail _ member)) sameRest
        rw [(settings_pieces_line noNewline (short line (.head _))).2, List.filterMap_cons,
          List.filterMap_cons, tail]
      · have whole : lines text = [text] := List.splitOn_eq_singleton newline
        rw [whole] at hlines short
        cases hlines
        exact (settings_pieces_line newline (short _ (.head _))).1

/-- A text whose lines have at most 511 bytes fits, unless a value of spaces only
stands in front of a newline. -/
theorem fitsWindow_of_short {text : Bytes} (short : ∀ line ∈ lines text, line.length ≤ 511)
    (stripped : ∀ piece ∈ pieces 511 text, ¬ KeepsSpaces piece) : FitsWindow text := by
  have same : ∀ key, firstSetting ((pieces 511 text).map body) key =
      firstSetting (lines text) key := by
    intro key
    rw [firstSetting, settings_pieces short, firstSetting]
  constructor
  · intro key value wanted
    rw [same, wanted, Option.getD_some]
  · intro key present
    rwa [same] at present
  · intro key piece first
    exact stripped piece (List.mem_of_find?_eq_some first)

/-- A value that runs beyond the buffer loses its end. -/
theorem not_fitsWindow_of_long {key value : Bytes} (noEquals : 61 ∉ key)
    (noNewline : 10 ∉ key ++ 61 :: value) (sets : setting (key ++ 61 :: value) = some (key, value))
    (inside : key.length + 1 ≤ 511) (long : 511 < (key ++ 61 :: value).length) :
    ¬ FitsWindow (key ++ 61 :: value) := by
  intro fits
  have wanted : firstSetting (lines (key ++ 61 :: value)) key = some value := by
    rw [lines, List.splitOn_eq_singleton noNewline, firstSetting, List.filterMap_cons, sets]
    simp
  have cut : key ++ 61 :: value =
      (key ++ 61 :: value.take (510 - key.length)) ++ value.drop (510 - key.length) := by
    rw [List.append_assoc, List.cons_append, List.take_append_drop]
  have full : (key ++ 61 :: value.take (510 - key.length)).length = 511 := by
    simp only [List.length_append, List.length_cons, List.length_take] at long ⊢
    omega
  have firstLine : 10 ∉ key ++ 61 :: value.take (510 - key.length) := fun member =>
    noNewline (by rw [cut]; exact List.mem_append_left _ member)
  have read := pieces_full firstLine (by simp) (value.drop (510 - key.length))
  rw [full, ← cut] at read
  have got : firstSetting ((pieces 511 (key ++ 61 :: value)).map body) key =
      some (strip (value.take (510 - key.length))) := by
    rw [setting_append noEquals] at sets
    split at sets
    · cases sets
    · rename_i noComment
      have sameKey : strip key = key := congrArg Prod.fst (Option.some.inj sets)
      have alone := Bytes.takeWhile_of_notMem firstLine
      rw [read, List.map_cons, body, alone, firstSetting, List.filterMap_cons,
        setting_append noEquals, if_neg noComment, sameKey]
      simp
  have same := fits.sameValue key value wanted
  have shorter := length_strip_le (value.take (510 - key.length))
  rw [got, Option.getD_some] at same
  rw [same, List.length_take] at shorter
  simp only [List.length_append, List.length_cons] at long
  omega

/-! ## Loading -/

section Loading

variable {text configFile : Bytes} {fopen : Bytes → Option FileStream}

/-- Loading a file into a new configuration returns one that follows the grammar
just when the lines fit. -/
theorem loads_grammar_iff (noTerminator : 0 ∉ text)
    (opened : fopen configFile = some (.ofText text)) :
    (∃ passes config, (⟨[]⟩ : MprpcConfig).loadConfigFile fopen configFile passes =
        some (.returns config) ∧ FollowsGrammar text config) ↔ FitsWindow text := by
  rw [← followsGrammar_iff noTerminator]
  constructor
  · rintro ⟨passes, config, loaded, follows⟩
    rw [MprpcConfig.loadConfigFile, opened] at loaded
    rcases Option.map_eq_some_iff.mp loaded with ⟨result, ended, same⟩
    cases same
    rwa [← (loadLoop_eq_some_iff.mp ended).2]
  · intro follows
    refine ⟨(pieces 511 text).length + 1, _, ?_, follows⟩
    rw [MprpcConfig.loadConfigFile, opened]
    exact congrArg (Option.map _) (loadLoop_eq_some_iff.mpr ⟨Nat.lt_succ_self _, rfl⟩)

end Loading

/-- A comment, two settings of one key, blanks around the parts, an empty value
at the end of the file and a line without an `=`. -/
def sampleText : Bytes :=
  Bytes.ofString "# address\n ip = 10.0.0.1 \nip=none\nport\nname =  "

theorem loads_grammar_sample :
    ∃ passes config, (⟨[]⟩ : MprpcConfig).loadConfigFile (fun _ => some (.ofText sampleText))
      (Bytes.ofString "test.conf") passes = some (.returns config) ∧
        FollowsGrammar sampleText config :=
  (loads_grammar_iff (by decide) rfl).mpr
    (fitsWindow_of_short (by decide) (by decide))

/-- The value of `k` is a space: the configuration does not have it empty. -/
theorem keeps_space_before_newline :
    ∃ config, (⟨[]⟩ : MprpcConfig).loadConfigFile
        (fun _ => some (.ofText (Bytes.ofString "k= \n"))) (Bytes.ofString "test.conf") 3 =
          some (.returns config) ∧
      ¬ FollowsGrammar (Bytes.ofString "k= \n") config := by
  refine ⟨⟨[(Bytes.ofString "k", [32])]⟩, rfl, fun follows => ?_⟩
  have wanted := follows.value (Bytes.ofString "k") [] (by decide)
  exact absurd wanted (by decide)

end Mprpc.Config
