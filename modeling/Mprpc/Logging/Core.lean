import Mprpc.Data.Bytes
import Mprpc.Threads.BlockQueue

/-!
# The logger `Log`

`write_log` counts the line and rotates the file in one locked section, formats
the line in a second, and then hands it to the queue or writes it itself.  The
fullness test, the `push` and the writing are sections of their own.  The flush
thread pops a line in one section and writes it in another.

The second section leaves nothing that others see, so the formatted line is an
argument of the call.  Lines are of any type, and the members of `Log` that only
the formatting uses are left out.
-/

namespace Mprpc.Logging

open Mprpc.Threads
open Mprpc.Transition

universe u

/-- The date in a `struct tm`: years since 1900 and months since January. -/
structure Tm where
  year : Nat
  mon : Nat
  mday : Nat
  deriving DecidableEq, Repr

/-- The conversion `%02d`. -/
def twoDigits (n : Nat) : Bytes :=
  if n < 10 then Bytes.ofString "0" ++ Bytes.ofNat n else Bytes.ofNat n

/-- The format `%d_%02d_%02d_` of a date. -/
def Tm.date (now : Tm) : Bytes :=
  Bytes.ofNat (now.year + 1900) ++ Bytes.ofString "_" ++ twoDigits (now.mon + 1) ++
    Bytes.ofString "_" ++ twoDigits now.mday ++ Bytes.ofString "_"

/-- `snprintf(buffer, size, ...)` into a buffer of its own. -/
def snprintf (size : Nat) (text : Bytes) : Bytes :=
  text.take (size - 1)

/-- The members of `class Log` that rotation uses.  `fp` is the name of the file
behind `m_fp`, and `none` is the null pointer. -/
structure Log where
  dirName : Bytes
  logName : Bytes
  splitLines : Int
  count : Int
  today : Nat
  fp : Option Bytes
  deriving DecidableEq, Repr

namespace Log

/-- `fopen`. -/
def fopen (name : Bytes) (opens : Bool) : Option Bytes :=
  if opens then some name else none

/-- The file of `init`: a name with a directory is split at its last slash, and
without one the two name members stay empty. -/
def init (fileName : Bytes) (splitLines : Int) (now : Tm) (opens : Bool) : Log :=
  let logName := (fileName.reverse.takeWhile (· ≠ 47)).reverse
  let dirName := (fileName.reverse.dropWhile (· ≠ 47)).reverse
  if 47 ∈ fileName then {
    dirName := dirName
    logName := logName
    splitLines := splitLines
    count := 0
    today := now.mday
    fp := fopen (snprintf 255 (dirName ++ now.date ++ logName)) opens }
  else {
    dirName := []
    logName := []
    splitLines := splitLines
    count := 0
    today := now.mday
    fp := fopen (snprintf 255 (now.date ++ fileName)) opens }

/-- The file is closed and another one opened; `none` is the `fflush` and
`fclose` of a null pointer. -/
def reopen (log : Log) (newLog : Bytes) (opens : Bool) : Option Log :=
  log.fp.map fun _ => { log with fp := fopen newLog opens }

/-- The first locked section of `write_log`; `none` is also a division by zero. -/
def rotate (log : Log) (now : Tm) (opens : Bool) : Option Log :=
  let log := { log with count := log.count + 1 }
  let tail := snprintf 16 now.date
  if log.today ≠ now.mday then
    { log with today := now.mday, count := 0 }.reopen
      (snprintf 255 (log.dirName ++ tail ++ log.logName)) opens
  else if log.splitLines = 0 then none
  else if log.count.tmod log.splitLines = 0 then
    log.reopen
      (snprintf 255 (log.dirName ++ tail ++ log.logName ++ Bytes.ofString "." ++
        Bytes.ofInt (log.count.tdiv log.splitLines))) opens
  else some log

/-- The effect of the first locked section. -/
inductive Rotated (log : Log) (now : Tm) (opens : Bool) : Log → Prop
  | newDay (changed : log.today ≠ now.mday) (hasFile : log.fp ≠ none) :
      Rotated log now opens
        { log with
          count := 0
          today := now.mday
          fp := fopen (snprintf 255 (log.dirName ++ snprintf 16 now.date ++ log.logName)) opens }
  | split (sameDay : log.today = now.mday) (divides : (log.count + 1).tmod log.splitLines = 0)
      (hasFile : log.fp ≠ none) :
      Rotated log now opens
        { log with
          count := log.count + 1
          fp := fopen (snprintf 255 (log.dirName ++ snprintf 16 now.date ++ log.logName ++
            Bytes.ofString "." ++ Bytes.ofInt ((log.count + 1).tdiv log.splitLines))) opens }
  | stays (sameDay : log.today = now.mday)
      (divides : (log.count + 1).tmod log.splitLines ≠ 0) :
      Rotated log now opens { log with count := log.count + 1 }

/-- The file is closed and another one opened. -/
def rotates (log : Log) (now : Tm) : Bool :=
  decide (log.today ≠ now.mday ∨ (log.count + 1).tmod log.splitLines = 0)

theorem reopen_eq_some {log reopened : Log} {newLog : Bytes} {opens : Bool}
    (reopens : log.reopen newLog opens = some reopened) :
    log.fp ≠ none ∧ reopened = { log with fp := fopen newLog opens } := by
  rcases Option.map_eq_some_iff.mp reopens with ⟨file, hasFile, rfl⟩
  exact ⟨by rw [hasFile]; exact Option.some_ne_none file, rfl⟩

theorem rotated_of_rotate {log rotated : Log} {now : Tm} {opens : Bool}
    (step : log.rotate now opens = some rotated) : Rotated log now opens rotated := by
  unfold rotate at step
  dsimp only at step
  split at step
  · rename_i changed
    rcases reopen_eq_some step with ⟨hasFile, rfl⟩
    exact .newDay changed hasFile
  · rename_i sameDay
    split at step
    · cases step
    · split at step
      · rename_i divides
        rcases reopen_eq_some step with ⟨hasFile, rfl⟩
        exact .split (not_not.mp sameDay) divides hasFile
      · rename_i divides
        cases step
        exact .stays (not_not.mp sameDay) divides

/-- A rotation that opens its file leaves the logger with one. -/
theorem hasFile_rotate {log rotated : Log} {now : Tm} (hasFile : log.fp ≠ none)
    (rotates : log.rotate now true = some rotated) : rotated.fp ≠ none := by
  cases rotated_of_rotate rotates with
  | newDay changed hasFile => exact Option.some_ne_none _
  | split sameDay divides hasFile => exact Option.some_ne_none _
  | stays sameDay divides => exact hasFile

end Log

/-- A line with the thread that logs it. -/
structure Entry (α : Type u) where
  thread : Nat
  line : α
  deriving DecidableEq, Repr

/-- Where a thread is in `write_log`. -/
inductive WriterPc (α : Type u)
  | idle
  /-- behind the null check, before the first locked section -/
  | entered (now : Tm) (line : α)
  /-- before `m_log_queue->full()` -/
  | formatted (line : α)
  /-- before `m_log_queue->push` -/
  | pushing (line : α)
  /-- before its own `fputs` -/
  | writing (line : α)
  deriving DecidableEq, Repr

/-- The line of a `write_log` in progress. -/
def WriterPc.line? {α : Type u} : WriterPc α → Option α
  | .idle => none
  | .entered _ line | .formatted line | .pushing line | .writing line => some line

/-- The logger with its threads.  `flusher` is what the flush thread has popped,
`called` lists the calls of `write_log` and `written` what went to which file,
both in order. -/
structure LogState (α : Type u) where
  log : Log
  queue : Option (BlockQueue (Entry α))
  writers : List (WriterPc α)
  flusher : Option (Entry α) := none
  called : List (Entry α) := []
  written : List (Bytes × Entry α) := []

/-- A step of the `i`-th writer or of the flush thread. -/
inductive LogAction (α : Type u)
  | writeLog (i : Nat) (now : Tm) (line : α)
  /-- the first locked section; `opens` is the success of `fopen` -/
  | rotate (i : Nat) (opens : Bool)
  | full (i : Nat)
  | push (i : Nat)
  | fputs (i : Nat)
  /-- the flush thread pops a line -/
  | flushPop
  /-- and writes it -/
  | flushFputs
  deriving DecidableEq, Repr

namespace LogState

variable {α : Type u}

/-- The logger after a successful `init`; the queue is there in asynchronous mode. -/
def start (fileName : Bytes) (splitLines maxQueueSize : Int) (now : Tm) (threads : Nat) :
    LogState α where
  log := .init fileName splitLines now true
  queue := if maxQueueSize ≥ 1 then BlockQueue.new maxQueueSize else none
  writers := List.replicate threads .idle

def setWriter (s : LogState α) (i : Nat) (pc : WriterPc α) : LogState α :=
  { s with writers := s.writers.set i pc }

/-- The lines in the queue. -/
def queued (s : LogState α) : List (Entry α) :=
  match s.queue with
  | none => []
  | some bq => bq.queue

/-- `fputs`; `none` is a write to the null pointer. -/
def fputs (s : LogState α) (entry : Entry α) : Option (LogState α) :=
  s.log.fp.map fun file => { s with written := s.written ++ [(file, entry)] }

/-- One step. -/
def next (s : LogState α) : LogAction α → Option (LogState α)
  | .writeLog i now line =>
      (s.writers[i]?).bind fun pc =>
        match pc with
        | .idle =>
            let s := { s with called := s.called ++ [Entry.mk i line] }
            if s.log.fp = none then some s else some (s.setWriter i (.entered now line))
        | _ => none
  | .rotate i opens =>
      (s.writers[i]?).bind fun pc =>
        match pc with
        | .entered now line =>
            (s.log.rotate now opens).map fun log =>
              { s with log := log }.setWriter i (.formatted line)
        | _ => none
  | .full i =>
      (s.writers[i]?).bind fun pc =>
        match pc, s.queue with
        | .formatted line, none => some (s.setWriter i (.writing line))
        | .formatted line, some bq =>
            some (s.setWriter i (if bq.full then .writing line else .pushing line))
        | _, _ => none
  | .push i =>
      (s.writers[i]?).bind fun pc =>
        match pc, s.queue with
        | .pushing line, some bq =>
            match bq.push ⟨i, line⟩ with
            | some bq => some ({ s with queue := some bq }.setWriter i .idle)
            | none => some (s.setWriter i .idle)
        | _, _ => none
  | .fputs i =>
      (s.writers[i]?).bind fun pc =>
        match pc with
        | .writing line => (s.fputs (Entry.mk i line)).map fun s => s.setWriter i .idle
        | _ => none
  | .flushPop =>
      match s.flusher, s.queue with
      | none, some bq =>
          bq.pop.map fun (entry, bq) => { s with queue := some bq, flusher := some entry }
      | _, _ => none
  | .flushFputs =>
      s.flusher.bind fun entry => (s.fputs entry).map fun s => { s with flusher := none }

/-- The effect of one step. -/
inductive Stepped (s : LogState α) : LogAction α → LogState α → Prop
  | ignored {i : Nat} {now : Tm} {line : α} (idle : s.writers[i]? = some .idle)
      (noFile : s.log.fp = none) :
      Stepped s (.writeLog i now line) { s with called := s.called ++ [Entry.mk i line] }
  | entered {i : Nat} {now : Tm} {line : α} (idle : s.writers[i]? = some .idle)
      (hasFile : s.log.fp ≠ none) :
      Stepped s (.writeLog i now line)
        ({ s with called := s.called ++ [Entry.mk i line] }.setWriter i (.entered now line))
  | rotated {i : Nat} {opens : Bool} {now : Tm} {line : α} {log : Log}
      (here : s.writers[i]? = some (.entered now line))
      (rotates : s.log.rotate now opens = some log) :
      Stepped s (.rotate i opens) ({ s with log := log }.setWriter i (.formatted line))
  | foundFull {i : Nat} {line : α} (here : s.writers[i]? = some (.formatted line))
      (isFull : ∀ bq ∈ s.queue, bq.full = true) :
      Stepped s (.full i) (s.setWriter i (.writing line))
  | foundRoom {i : Nat} {line : α} {bq : BlockQueue (Entry α)}
      (here : s.writers[i]? = some (.formatted line)) (queue : s.queue = some bq)
      (room : bq.full = false) :
      Stepped s (.full i) (s.setWriter i (.pushing line))
  | pushed {i : Nat} {line : α} {bq later : BlockQueue (Entry α)}
      (here : s.writers[i]? = some (.pushing line)) (queue : s.queue = some bq)
      (pushes : bq.push ⟨i, line⟩ = some later) :
      Stepped s (.push i) ({ s with queue := some later }.setWriter i .idle)
  | refused {i : Nat} {line : α} {bq : BlockQueue (Entry α)}
      (here : s.writers[i]? = some (.pushing line)) (queue : s.queue = some bq)
      (refuses : bq.push ⟨i, line⟩ = none) :
      Stepped s (.push i) (s.setWriter i .idle)
  | wrote {i : Nat} {line : α} {file : Bytes} (here : s.writers[i]? = some (.writing line))
      (hasFile : s.log.fp = some file) :
      Stepped s (.fputs i)
        ({ s with written := s.written ++ [(file, Entry.mk i line)] }.setWriter i .idle)
  | popped {bq later : BlockQueue (Entry α)} {entry : Entry α} (idle : s.flusher = none)
      (queue : s.queue = some bq) (pops : bq.pop = some (entry, later)) :
      Stepped s .flushPop { s with queue := some later, flusher := some entry }
  | flushed {entry : Entry α} {file : Bytes} (holds : s.flusher = some entry)
      (hasFile : s.log.fp = some file) :
      Stepped s .flushFputs
        { s with written := s.written ++ [(file, entry)], flusher := none }

/-- Every step is one of the listed effects. -/
theorem stepped_of_next {s t : LogState α} {action : LogAction α}
    (step : s.next action = some t) : Stepped s action t := by
  cases action with
  | writeLog i now line =>
      rcases Option.bind_eq_some_iff.mp step with ⟨pc, here, step⟩
      split at step
      · dsimp only at step
        split at step
        · rename_i noFile
          cases step
          exact .ignored here noFile
        · rename_i hasFile
          cases step
          exact .entered here hasFile
      · cases step
  | rotate i opens =>
      rcases Option.bind_eq_some_iff.mp step with ⟨pc, here, step⟩
      split at step
      · rcases Option.map_eq_some_iff.mp step with ⟨log, rotates, rfl⟩
        exact .rotated here rotates
      · cases step
  | full i =>
      rcases Option.bind_eq_some_iff.mp step with ⟨pc, here, step⟩
      split at step
      · rename_i queue
        cases step
        exact .foundFull here (by simp [queue])
      · rename_i bq queue
        cases step
        split
        · rename_i isFull
          exact .foundFull here (by simp [queue, isFull])
        · rename_i room
          exact .foundRoom here queue (by simpa using room)
      · cases step
  | push i =>
      rcases Option.bind_eq_some_iff.mp step with ⟨pc, here, step⟩
      split at step
      · rename_i line bq queue
        split at step
        · rename_i later pushes
          cases step
          exact .pushed here queue pushes
        · rename_i refuses
          cases step
          exact .refused here queue refuses
      · cases step
  | fputs i =>
      rcases Option.bind_eq_some_iff.mp step with ⟨pc, here, step⟩
      split at step
      · rcases Option.map_eq_some_iff.mp step with ⟨middle, writes, rfl⟩
        rcases Option.map_eq_some_iff.mp writes with ⟨file, hasFile, rfl⟩
        exact .wrote here hasFile
      · cases step
  | flushPop =>
      simp only [next] at step
      split at step
      · rename_i bq idle queue
        rcases Option.map_eq_some_iff.mp step with ⟨⟨entry, later⟩, pops, rfl⟩
        exact .popped idle queue pops
      · cases step
  | flushFputs =>
      rcases Option.bind_eq_some_iff.mp step with ⟨entry, holds, step⟩
      rcases Option.map_eq_some_iff.mp step with ⟨middle, writes, rfl⟩
      rcases Option.map_eq_some_iff.mp writes with ⟨file, hasFile, rfl⟩
      exact .flushed holds hasFile

end LogState

end Mprpc.Logging
