import Mprpc.Logging.FileName
import Mprpc.Transition.Core

/-!
# Which file a line goes to

In synchronous mode a call of `write_log` writes its line before it returns.
The day test looks at the day of the month only.  As long as two successive
calls with the same day of the month are of one date, every line is in a file
with its date, and no file gets more lines than a split allows.
-/

namespace Mprpc.Logging

open Mprpc.Threads
open Mprpc.Transition

universe u

variable {β : Type u}

/-- A line with the time that `write_log` puts into it. -/
structure Stamped (β : Type u) where
  stamp : Tm
  text : β
  deriving DecidableEq, Repr

/-- A call of `write_log`. -/
structure Call (β : Type u) where
  thread : Nat
  now : Tm
  text : β
  deriving DecidableEq, Repr

/-- What a call logs. -/
def Call.entry (call : Call β) : Entry (Stamped β) :=
  ⟨call.thread, ⟨call.now, call.text⟩⟩

/-! ## One rotation -/

/-- The name that `init` gave to the first file holds its date, the two members
hold the parts of the name, and the name is not that of a later split file. -/
structure NameFits (fileName : Bytes) (start : Tm) : Prop where
  directory_le : (directory fileName).length ≤ 127
  baseName_le : 47 ∈ fileName → (baseName fileName).length ≤ 127
  date_le : start.date.length ≤ 127
  notSplit : 47 ∉ fileName → ∀ part, 0 < part →
    snprintf 255 (start.date ++ fileName) ≠
      start.date ++ Bytes.ofString "." ++ Bytes.ofNat part

namespace Log

/-- A call finds the logger in a state in which it gets the right file. -/
def Suits (log : Log) (last now : Tm) : Prop :=
  (log.rotates now = false → now = last) ∧
    (log.rotates now = true → now.date.length ≤ 15) ∧
    (log.rotates now = true → log.today = now.mday →
      (log.splitName now ((log.count + 1).tdiv log.splitLines).toNat).length ≤ 254)

instance (log : Log) (last now : Tm) : Decidable (log.Suits last now) :=
  inferInstanceAs (Decidable (_ ∧ _ ∧ _))

theorem snprintf_of_le {size : Nat} {text : Bytes} (fits : text.length + 1 ≤ size) :
    snprintf size text = text :=
  List.take_of_length_le (by omega)

/-- A rotation finds no null pointer and no zero to divide by. -/
theorem exists_rotate {log : Log} (hasFile : log.fp ≠ none) (positive : 1 ≤ log.splitLines)
    (now : Tm) : ∃ rotated, log.rotate now true = some rotated := by
  rcases Option.ne_none_iff_exists'.mp hasFile with ⟨file, opened⟩
  have nonzero : log.splitLines ≠ 0 := by omega
  simp only [rotate, reopen, opened, nonzero, if_false, Option.map_some]
  split
  · exact ⟨_, rfl⟩
  · split
    · exact ⟨_, rfl⟩
    · exact ⟨_, rfl⟩

/-- The new name of a day begins with the directory and the date. -/
theorem carriesDate_dayName {fileName : Bytes} {log : Log} {now : Tm}
    (sameDir : log.dirName = directory fileName)
    (fits : (directory fileName).length + now.date.length ≤ 254) :
    CarriesDate fileName (snprintf 255 (log.dayName now)) now := by
  have whole : directory fileName ++ now.date <+: log.dayName now := by
    rw [dayName, sameDir]
    exact List.prefix_append _ _
  refine List.prefix_take_iff.mpr ⟨whole, ?_⟩
  rw [List.length_append]
  omega

theorem carriesDate_splitName {fileName : Bytes} {log : Log} {now : Tm}
    (sameDir : log.dirName = directory fileName) (part : Nat) :
    CarriesDate fileName (log.splitName now part) now := by
  rw [CarriesDate, splitName, dayName, sameDir, List.append_assoc, List.append_assoc]
  exact List.prefix_append _ _

end Log

/-! ## Counting lines -/

/-- The count of a split is the next one. -/
theorem split_of_tmod_eq_zero {count splitLines : Int} {part : Nat} (counted : 0 ≤ count)
    (positive : 1 ≤ splitLines) (divides : (count + 1).tmod splitLines = 0)
    (quotient : (count + 1).tdiv splitLines = part) :
    (count + 1) / splitLines = part ∧ (count + 1) % splitLines = 0 ∧ count / splitLines < part := by
  rw [Int.tmod_eq_emod_of_nonneg (by omega)] at divides
  rw [Int.tdiv_eq_ediv_of_nonneg (by omega)] at quotient
  refine ⟨quotient, divides, (Int.ediv_lt_iff_lt_mul (by omega)).mpr ?_⟩
  have whole := Int.mul_ediv_add_emod (count + 1) splitLines
  rw [divides, quotient, Int.mul_comm] at whole
  omega

/-- Without a split the file goes on. -/
theorem goesOn_of_tmod_ne_zero {count splitLines : Int} (counted : 0 ≤ count)
    (positive : 1 ≤ splitLines) (divides : (count + 1).tmod splitLines ≠ 0) :
    (count + 1) % splitLines = count % splitLines + 1 := by
  rw [Int.tmod_eq_emod_of_nonneg (by omega), ← Int.emod_add_emod] at divides
  rw [← Int.emod_add_emod]
  have below := Int.emod_lt_of_pos count (by omega : 0 < splitLines)
  have nonneg := Int.emod_nonneg count (by omega : splitLines ≠ 0)
  by_cases full : count % splitLines + 1 = splitLines
  · rw [full, Int.emod_self] at divides
    exact absurd rfl divides
  · exact Int.emod_eq_of_lt (by omega) (by omega)

/-! ## The history of the files -/

/-- The lines that a file has got. -/
def linesIn (file : Bytes) (written : List (Bytes × Tm)) : Nat :=
  (written.map Prod.fst).count file

theorem linesIn_append (file : Bytes) (written : List (Bytes × Tm)) (new : Bytes) (now : Tm) :
    linesIn file (written ++ [(new, now)]) =
      linesIn file written + if new = file then 1 else 0 := by
  simp [linesIn, List.count_singleton]

/-- The logger between two calls: what it has written, the time of the last call
and the file it has open. -/
structure History (fileName : Bytes) (log : Log) (last : Tm) (written : List (Bytes × Tm))
    (file : Bytes) : Prop where
  opened : log.fp = some file
  sameDir : log.dirName = directory fileName
  positive : 1 ≤ log.splitLines
  counted : 0 ≤ log.count
  sameDay : log.today = last.mday
  current : CarriesDate fileName file last
  dated : ∀ entry ∈ written, CarriesDate fileName entry.1 entry.2 ∧ entry.2.NotAfter last
  room : (linesIn file written : Int) ≤ log.count % log.splitLines + 1
  bounded : ∀ other, (linesIn other written : Int) ≤ log.splitLines
  unused : ∀ part : Nat, log.count / log.splitLines < part →
    file ≠ log.splitName last part ∧ ∀ entry ∈ written, entry.1 ≠ log.splitName last part

namespace History

variable {fileName file new : Bytes} {log rotated : Log} {last now : Tm}
  {written : List (Bytes × Tm)}

theorem hasFile (history : History fileName log last written file) : log.fp ≠ none := by
  rw [history.opened]
  exact Option.some_ne_none file

/-- No file of an earlier date has the date of a later one. -/
theorem not_carriesDate (history : History fileName log last written file)
    (later : last.NotAfter now) (other : now ≠ last) {entry : Bytes × Tm}
    (member : entry ∈ written) : ¬ CarriesDate fileName entry.1 now := by
  intro carries
  rcases history.dated entry member with ⟨own, notAfter⟩
  have same := own.unique carries
  rw [same] at notAfter
  exact other (notAfter.antisymm later)

/-- No file has the name of a split that is still to come. -/
theorem ne_splitName (history : History fileName log last written file)
    (later : last.NotAfter now) {part : Nat}
    (next : now = last → log.count / log.splitLines < part) {entry : Bytes × Tm}
    (member : entry ∈ written) : entry.1 ≠ log.splitName now part := by
  by_cases same : now = last
  · subst same
    exact (history.unused part (next rfl)).2 entry member
  · intro named
    apply history.not_carriesDate later same member
    rw [named]
    exact Log.carriesDate_splitName history.sameDir part

/-- A call writes its line into the file that is open behind the rotation. -/
theorem write (history : History fileName log last written file) (later : last.NotAfter now)
    (opened : rotated.fp = some new) (sameDir : rotated.dirName = log.dirName)
    (sameSplit : rotated.splitLines = log.splitLines) (counted : 0 ≤ rotated.count)
    (sameDay : rotated.today = now.mday) (carries : CarriesDate fileName new now)
    (room : (linesIn new written : Int) ≤ rotated.count % rotated.splitLines)
    (unused : ∀ part : Nat, rotated.count / rotated.splitLines < part →
      new ≠ rotated.splitName now part ∧
        ∀ entry ∈ written, entry.1 ≠ rotated.splitName now part) :
    History fileName rotated now (written ++ [(new, now)]) new where
  opened := opened
  sameDir := sameDir.trans history.sameDir
  positive := sameSplit ▸ history.positive
  counted := counted
  sameDay := sameDay
  current := carries
  dated := by
    intro entry member
    rcases List.mem_append.mp member with before | last
    · rcases history.dated entry before with ⟨own, notAfter⟩
      exact ⟨own, notAfter.trans later⟩
    · cases List.mem_singleton.mp last
      exact ⟨carries, .refl now⟩
  room := by
    rw [linesIn_append, if_pos rfl, Nat.cast_add]
    exact Int.add_le_add_right room 1
  bounded := by
    intro other
    have positive : 0 < rotated.splitLines := by
      have known := history.positive
      omega
    have below := Int.emod_lt_of_pos rotated.count positive
    rw [linesIn_append]
    split
    · rename_i same
      rw [← same]
      push_cast
      omega
    · rw [sameSplit]
      exact history.bounded other
  unused := by
    intro part next
    refine ⟨(unused part next).1, fun entry member => ?_⟩
    rcases List.mem_append.mp member with before | last
    · exact (unused part next).2 entry before
    · cases List.mem_singleton.mp last
      exact (unused part next).1

theorem linesIn_fresh (fresh : ∀ entry ∈ written, entry.1 ≠ new) : linesIn new written = 0 := by
  refine List.count_eq_zero_of_not_mem fun member => ?_
  rcases List.mem_map.mp member with ⟨entry, inside, same⟩
  exact fresh entry inside same

/-- A call that finds the logger suited leaves it with a file for its line. -/
theorem of_rotated (history : History fileName log last written file)
    (fits : (directory fileName).length ≤ 127) (later : last.NotAfter now)
    (suits : log.Suits last now) (step : log.rotate now true = some rotated) :
    ∃ new, History fileName rotated now (written ++ [(new, now)]) new := by
  have positive := history.positive
  have counted := history.counted
  rcases suits with ⟨sameDate, dateFits, nameFits⟩
  cases Log.rotated_of_rotate step with
  | newDay changed hasFile =>
      have other : now ≠ last := by
        rintro rfl
        exact changed history.sameDay
      have rotates : log.rotates now = true := decide_eq_true (.inl changed)
      have date := dateFits rotates
      have tail := @Log.snprintf_of_le 16 now.date (by omega)
      have carries : CarriesDate fileName (snprintf 255 (log.dayName now)) now :=
        Log.carriesDate_dayName history.sameDir (by omega)
      refine ⟨snprintf 255 (log.dayName now), history.write later ?_ rfl rfl le_rfl rfl carries
        ?_ ?_⟩
      · rw [tail]
        rfl
      · rw [linesIn_fresh]
        · simp
        · rintro entry member same
          exact history.not_carriesDate later other member (same ▸ carries)
      · intro part next
        exact ⟨Log.snprintf_dayName_ne log now 255 part,
          fun entry member => history.ne_splitName later (absurd · other) member⟩
  | split sameDay divides hasFile =>
      have rotates : log.rotates now = true := decide_eq_true (.inr divides)
      have date := dateFits rotates
      have tail := @Log.snprintf_of_le 16 now.date (by omega)
      rcases Int.eq_ofNat_of_zero_le (Int.tdiv_nonneg (by omega) (by omega) :
        0 ≤ (log.count + 1).tdiv log.splitLines) with ⟨part, quotient⟩
      have known := nameFits rotates sameDay
      rw [quotient, Int.toNat_natCast] at known
      have name := @Log.snprintf_of_le 255 (log.splitName now part) (by omega)
      rcases split_of_tmod_eq_zero counted positive divides quotient with
        ⟨number, whole, larger⟩
      refine ⟨log.splitName now part, history.write later ?_ rfl rfl (Int.add_nonneg counted
        (by decide)) sameDay (Log.carriesDate_splitName history.sameDir part) ?_ ?_⟩
      · rw [tail, quotient]
        exact congrArg some name
      · rw [linesIn_fresh fun entry member => history.ne_splitName later (fun _ => larger) member]
        exact whole.ge
      · intro later' next
        have next' : part < later' := by exact_mod_cast number ▸ next
        refine ⟨fun same => Nat.ne_of_lt next' (Log.splitName_injective same), ?_⟩
        intro entry member
        exact history.ne_splitName later (fun _ => larger.trans (by exact_mod_cast next')) member
  | stays sameDay divides =>
      have rotates : log.rotates now = false :=
        decide_eq_false (by simp [sameDay, divides])
      have same := sameDate rotates
      subst same
      have step := goesOn_of_tmod_ne_zero counted positive divides
      refine ⟨file, history.write later history.opened rfl rfl (Int.add_nonneg counted (by decide))
        sameDay history.current ?_ ?_⟩
      · exact history.room.trans step.ge
      · intro part next
        have larger : log.count / log.splitLines ≤ (log.count + 1) / log.splitLines :=
          Int.ediv_le_ediv (by omega) (by omega)
        exact history.unused part (Int.lt_of_le_of_lt larger next)

end History

/-- A logger that has written nothing yet. -/
theorem History.of_nothing_written {fileName file : Bytes} {log : Log} {start : Tm}
    (opened : log.fp = some file) (sameDir : log.dirName = directory fileName)
    (positive : 1 ≤ log.splitLines) (zero : log.count = 0) (sameDay : log.today = start.mday)
    (current : CarriesDate fileName file start)
    (unused : ∀ part, 0 < part → file ≠ log.splitName start part) :
    History fileName log start [] file where
  opened := opened
  sameDir := sameDir
  positive := positive
  counted := zero.ge
  sameDay := sameDay
  current := current
  dated := nofun
  room := by simp [linesIn, zero]
  bounded _ := by
    rw [linesIn, List.map_nil, List.count_nil]
    omega
  unused part next := by
    rw [zero, Int.zero_ediv] at next
    exact ⟨unused part (by exact_mod_cast next), nofun⟩

theorem history_init {fileName : Bytes} {start : Tm} {splitLines : Int}
    (fits : NameFits fileName start) (positive : 1 ≤ splitLines) :
    ∃ file, History fileName (.init fileName splitLines start true) start [] file := by
  have directoryFits := fits.directory_le
  have dateFits := fits.date_le
  by_cases slash : 47 ∈ fileName
  · let log : Log := ⟨directory fileName, baseName fileName, splitLines, 0, start.mday, none⟩
    rw [Log.init, if_pos slash]
    exact ⟨snprintf 255 (log.dayName start), .of_nothing_written rfl rfl positive rfl rfl
      (Log.carriesDate_dayName rfl (by omega))
      fun part _ => Log.snprintf_dayName_ne log start 255 part⟩
  · have noDirectory : directory fileName = [] := by
      rw [directory, Bytes.dropWhile_of_notMem fun member => slash (List.mem_reverse.mp member)]
      rfl
    rw [Log.init, if_neg slash]
    refine ⟨snprintf 255 (start.date ++ fileName), .of_nothing_written rfl noDirectory.symm
      positive rfl rfl ?_ fun part next => ?_⟩
    · rw [CarriesDate, noDirectory, List.nil_append]
      exact List.prefix_take_iff.mpr ⟨List.prefix_append _ _, by omega⟩
    · have wanted := fits.notSplit slash part next
      rwa [Log.splitName, Log.dayName, List.nil_append, List.append_nil]

namespace LogState

/-- A whole call, section after section, when `fopen` succeeds. -/
def call (s : LogState (Stamped β)) (c : Call β) : Option (LogState (Stamped β)) :=
  run next s [.writeLog c.thread c.now ⟨c.now, c.text⟩, .rotate c.thread true, .full c.thread,
    .fputs c.thread]

/-- The time of the last call, or of `init`. -/
def lastTime (start : Tm) (s : LogState (Stamped β)) : Tm :=
  (s.called.getLast?.map fun entry => entry.line.stamp).getD start

/-- Time does not run back. -/
def InOrder (start : Tm) (s : LogState (Stamped β)) (c : Call β) : Prop :=
  (s.lastTime start).NotAfter c.now

/-- Time does not run back, and the call finds the logger suited. -/
def Filing (start : Tm) (s : LogState (Stamped β)) (c : Call β) : Prop :=
  s.InOrder start c ∧ s.log.Suits (s.lastTime start) c.now

instance (start : Tm) (s : LogState (Stamped β)) (c : Call β) : Decidable (s.InOrder start c) :=
  inferInstanceAs (Decidable (Tm.NotAfter _ _))

instance (start : Tm) (s : LogState (Stamped β)) (c : Call β) : Decidable (s.Filing start c) :=
  inferInstanceAs (Decidable (_ ∧ _))

/-- The effect of a call. -/
theorem call_eq {s : LogState (Stamped β)} {c : Call β} {log : Log} {file : Bytes}
    (sync : s.queue = none) (idle : s.writers[c.thread]? = some .idle) (hasFile : s.log.fp ≠ none)
    (rotates : s.log.rotate c.now true = some log) (opened : log.fp = some file) :
    s.call c = some { s with
      log := log
      called := s.called ++ [c.entry]
      written := s.written ++ [(file, c.entry)] } := by
  rcases List.getElem?_eq_some_iff.mp idle with ⟨inside, isIdle⟩
  have restored : s.writers.set c.thread .idle = s.writers := by
    rw [← isIdle, List.set_getElem_self]
  simp [call, run, next, hasFile, rotates, sync, fputs, opened, setWriter, inside, Call.entry,
    isIdle, restored]

/-- Between two calls no thread is in `write_log`, and every line is written. -/
structure Kept (fileName : Bytes) (splitLines : Int) (start : Tm) (threads : Nat)
    (s : LogState (Stamped β)) : Prop where
  sync : s.queue = none
  idle : s.writers = List.replicate threads .idle
  sameSplit : s.log.splitLines = splitLines
  complete : s.written.map Prod.snd = s.called
  history : ∃ file, History fileName s.log (s.lastTime start)
    (s.written.map fun line => (line.1, line.2.line.stamp)) file

namespace Kept

variable {fileName : Bytes} {splitLines : Int} {start : Tm} {threads : Nat}
  {s t : LogState (Stamped β)} {c : Call β}

theorem init {maxQueueSize : Int} (positive : 1 ≤ splitLines) (sync : maxQueueSize < 1)
    (fits : NameFits fileName start) :
    Kept fileName splitLines start threads
      (LogState.start fileName splitLines maxQueueSize start threads : LogState (Stamped β)) where
  sync := if_neg (by omega)
  idle := rfl
  sameSplit := by
    unfold LogState.start Log.init
    dsimp only
    split
    · rfl
    · rfl
  complete := rfl
  history := history_init fits positive

/-- A call finds its thread idle. -/
theorem idle_of_call (kept : Kept fileName splitLines start threads s)
    (step : s.call c = some t) : s.writers[c.thread]? = some .idle := by
  cases here : s.writers[c.thread]? with
  | none => simp [call, run, next, here] at step
  | some pc =>
      have member := List.mem_of_getElem? here
      rw [kept.idle] at member
      rw [List.eq_of_mem_replicate member]

/-- A call that files its line well. -/
theorem of_call (kept : Kept fileName splitLines start threads s)
    (fits : (directory fileName).length ≤ 127) (filing : s.Filing start c)
    (step : s.call c = some t) : Kept fileName splitLines start threads t := by
  rcases kept.history with ⟨file, history⟩
  rcases Log.exists_rotate history.hasFile history.positive c.now with ⟨rotated, rotates⟩
  rcases history.of_rotated fits filing.1 filing.2 rotates with ⟨new, later⟩
  have effect := call_eq kept.sync (kept.idle_of_call step) history.hasFile rotates later.opened
  rw [effect] at step
  cases step
  refine ⟨kept.sync, kept.idle, ?_, ?_, new, ?_⟩
  · rw [← kept.sameSplit]
    cases Log.rotated_of_rotate rotates with
    | newDay changed hasFile => rfl
    | split sameDay divides hasFile => rfl
    | stays sameDay divides => rfl
  · rw [List.map_append, kept.complete]
    rfl
  · have now : lastTime start { s with
        log := rotated
        called := s.called ++ [c.entry]
        written := s.written ++ [(new, c.entry)] } = c.now := by
      simp [lastTime, Call.entry]
    rw [now, List.map_append]
    exact later

/-- Every call returns. -/
theorem call_isSome (kept : Kept fileName splitLines start threads s)
    (inside : c.thread < threads) : (s.call c).isSome := by
  rcases kept.history with ⟨file, history⟩
  have idle : s.writers[c.thread]? = some .idle := by
    rw [kept.idle, List.getElem?_replicate_of_lt inside]
  rcases Log.exists_rotate history.hasFile history.positive c.now with ⟨rotated, rotates⟩
  rcases Option.ne_none_iff_exists'.mp (Log.hasFile_rotate history.hasFile rotates) with
    ⟨new, opened⟩
  rw [call_eq kept.sync idle history.hasFile rotates opened]
  rfl

end Kept

theorem kept_of_reachable {fileName : Bytes} {splitLines maxQueueSize : Int} {start : Tm}
    {threads : Nat} {s : LogState (Stamped β)} (positive : 1 ≤ splitLines)
    (sync : maxQueueSize < 1) (fits : NameFits fileName start)
    (reached : Reachable call (Filing start)
      (LogState.start fileName splitLines maxQueueSize start threads) s) :
    Kept fileName splitLines start threads s := by
  apply reached.invariant
  · exact .init positive sync fits
  · intro state c successor kept filing step
    exact kept.of_call fits.directory_le filing step

/-- In synchronous mode, over calls that each find the logger suited: every line
is in a file with its date, no file has more lines than a split allows, no line
is left out, and the next call returns. -/
theorem lines_filed_by_date {fileName : Bytes} {splitLines maxQueueSize : Int} {start : Tm}
    {threads : Nat} {s : LogState (Stamped β)} (positive : 1 ≤ splitLines)
    (sync : maxQueueSize < 1) (fits : NameFits fileName start)
    (reached : Reachable call (Filing start)
      (LogState.start fileName splitLines maxQueueSize start threads) s) :
    (∀ line ∈ s.written, CarriesDate fileName line.1 line.2.line.stamp) ∧
      (∀ file, ((s.written.map Prod.fst).count file : Int) ≤ splitLines) ∧
      s.written.map Prod.snd = s.called ∧
      ∀ c : Call β, c.thread < threads → (s.call c).isSome := by
  have kept := kept_of_reachable positive sync fits reached
  rcases kept.history with ⟨file, history⟩
  refine ⟨?_, ?_, kept.complete, fun c inside => kept.call_isSome inside⟩
  · intro line member
    exact (history.dated _ (List.mem_map_of_mem member)).1
  · intro other
    have bounded := history.bounded other
    rwa [linesIn, List.map_map, kept.sameSplit] at bounded

/-- Two days of one month and a day of the next one, with two lines to a file. -/
theorem lines_filed_over_month :
    ∃ s : LogState (Stamped Nat),
      Reachable call (Filing ⟨126, 3, 3⟩)
        (LogState.start (Bytes.ofString "./log/Server") 2 0 ⟨126, 3, 3⟩ 2) s ∧
      s.written.map Prod.fst = [Bytes.ofString "./log/2026_04_03_Server",
        Bytes.ofString "./log/2026_04_03_Server.1", Bytes.ofString "./log/2026_04_30_Server",
        Bytes.ofString "./log/2026_05_03_Server"] ∧
      ((∀ line ∈ s.written,
          CarriesDate (Bytes.ofString "./log/Server") line.1 line.2.line.stamp) ∧
        (∀ file, ((s.written.map Prod.fst).count file : Int) ≤ 2) ∧
        s.written.map Prod.snd = s.called ∧
        ∀ c : Call Nat, c.thread < 2 → (s.call c).isSome) := by
  have run : ∃ s : LogState (Stamped Nat),
      Reachable call (Filing ⟨126, 3, 3⟩)
        (LogState.start (Bytes.ofString "./log/Server") 2 0 ⟨126, 3, 3⟩ 2) s ∧
      s.written.map Prod.fst = [Bytes.ofString "./log/2026_04_03_Server",
        Bytes.ofString "./log/2026_04_03_Server.1", Bytes.ofString "./log/2026_04_30_Server",
        Bytes.ofString "./log/2026_05_03_Server"] := by
    apply exists_reachable [⟨0, ⟨126, 3, 3⟩, 7⟩, ⟨1, ⟨126, 3, 3⟩, 8⟩, ⟨0, ⟨126, 3, 30⟩, 9⟩,
      ⟨1, ⟨126, 4, 3⟩, 10⟩]
    · decide +kernel
    · decide +kernel
  have fits : NameFits (Bytes.ofString "./log/Server") ⟨126, 3, 3⟩ :=
    ⟨by decide, by decide, by decide, fun noSlash => absurd (by decide) noSlash⟩
  rcases run with ⟨s, reached, files⟩
  exact ⟨s, reached, files, lines_filed_by_date (by decide) (by decide) fits reached⟩

/-- A call on the same day of a later month goes to the file of the earlier one. -/
theorem not_carriesDate_of_same_mday {fileName : Bytes} {splitLines maxQueueSize : Int}
    {start : Tm} {threads : Nat} {s t : LogState (Stamped β)} {c : Call β}
    (positive : 1 ≤ splitLines) (sync : maxQueueSize < 1) (fits : NameFits fileName start)
    (reached : Reachable call (Filing start)
      (LogState.start fileName splitLines maxQueueSize start threads) s)
    (stays : s.log.rotates c.now = false) (other : c.now ≠ s.lastTime start)
    (step : s.call c = some t) :
    ∃ file, (file, c.entry) ∈ t.written ∧ ¬ CarriesDate fileName file c.now := by
  have kept := kept_of_reachable positive sync fits reached
  rcases kept.history with ⟨file, history⟩
  rcases Log.exists_rotate history.hasFile history.positive c.now with ⟨rotated, rotates⟩
  have opened : rotated.fp = some file := by
    rw [← history.opened]
    cases Log.rotated_of_rotate rotates with
    | newDay changed _ => simp [Log.rotates, changed] at stays
    | split _ divides _ => simp [Log.rotates, divides] at stays
    | stays sameDay divides => rfl
  rw [call_eq kept.sync (kept.idle_of_call step) history.hasFile rotates opened] at step
  cases step
  exact ⟨file, by simp, fun carries => other (carries.unique history.current)⟩

/-- The logger starts on the third of April, and the only line is of the third of
May. -/
theorem may_line_filed_under_april :
    ∃ s : LogState (Stamped Nat),
      Reachable call (InOrder ⟨126, 3, 3⟩)
        (LogState.start (Bytes.ofString "./log/Server") 800 0 ⟨126, 3, 3⟩ 1) s ∧
      ∃ line ∈ s.written,
        ¬ CarriesDate (Bytes.ofString "./log/Server") line.1 line.2.line.stamp := by
  apply exists_reachable [⟨0, ⟨126, 4, 3⟩, 7⟩]
  · decide +kernel
  · decide +kernel

end LogState

end Mprpc.Logging
