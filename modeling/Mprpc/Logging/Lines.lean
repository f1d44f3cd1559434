import Mprpc.Logging.Core
import Mprpc.Transition.Parties

/-!
# The lines of one thread in the log files

A line travels from its thread through the queue and the flush thread into a
file, or straight from its thread into the file.  No line is lost and none
overtakes another one of its thread, unless the queue has filled up between the
fullness test and the `push`, a thread writes to the file while an earlier line
of its own is on the way, or a rotation leaves the logger without a file.
-/

namespace Mprpc.Logging

open Mprpc.Threads
open Mprpc.Transition

universe u

variable {α : Type u}

/-- The lines of one thread. -/
def linesOf (i : Nat) (entries : List (Entry α)) : List α :=
  entries.filterMap fun entry => if entry.thread = i then some entry.line else none

@[simp]
theorem linesOf_nil (i : Nat) : linesOf i ([] : List (Entry α)) = [] :=
  rfl

theorem linesOf_own (i : Nat) (line : α) : linesOf i [Entry.mk i line] = [line] := by
  simp [linesOf]

theorem linesOf_other {i j : Nat} (other : j ≠ i) (line : α) :
    linesOf j [Entry.mk i line] = [] := by
  simp [linesOf, other.symm]

@[simp]
theorem linesOf_append (i : Nat) (first second : List (Entry α)) :
    linesOf i (first ++ second) = linesOf i first ++ linesOf i second :=
  List.filterMap_append

theorem linesOf_eq_nil {i : Nat} {entries : List (Entry α)}
    (others : ∀ entry ∈ entries, entry.thread ≠ i) : linesOf i entries = [] :=
  List.filterMap_eq_nil_iff.mpr fun entry member => if_neg (others entry member)

namespace LogState

variable {s t : LogState α}

/-- The line of the call that a thread is in. -/
def inHand (s : LogState α) (i : Nat) : Option α :=
  (s.writers[i]?).bind WriterPc.line?

/-- The lines on the way from the queue to a file, oldest first. -/
def underway (s : LogState α) : List (Entry α) :=
  s.flusher.toList ++ s.queued

/-- A `push` finds room, a thread that writes to the file has no line on the way,
and `fopen` succeeds. -/
def Delivers (s : LogState α) : LogAction α → Prop
  | .rotate _ opens => opens = true
  | .push _ => ∀ bq ∈ s.queue, bq.full = false
  | .fputs i => ∀ entry ∈ s.underway, entry.thread ≠ i
  | _ => True

instance (s : LogState α) : (action : LogAction α) → Decidable (s.Delivers action)
  | .rotate _ opens => inferInstanceAs (Decidable (opens = true))
  | .push _ => inferInstanceAs (Decidable (∀ bq ∈ s.queue, bq.full = false))
  | .fputs i => inferInstanceAs (Decidable (∀ entry ∈ s.underway, entry.thread ≠ i))
  | .writeLog _ _ _ => isTrue trivial
  | .full _ => isTrue trivial
  | .flushPop => isTrue trivial
  | .flushFputs => isTrue trivial

/-- There is a file; and the lines of each thread, in order, are written, on the
way or in its hand. -/
structure Intact (s : LogState α) : Prop where
  hasFile : s.log.fp ≠ none
  lines : ∀ j, linesOf j s.called =
    linesOf j (s.written.map Prod.snd) ++ linesOf j s.underway ++ (s.inHand j).toList

theorem inHand_setWriter {i : Nat} {pc : WriterPc α} (here : s.writers[i]? = some pc)
    (new : WriterPc α) (j : Nat) :
    (s.setWriter i new).inHand j = if j = i then new.line? else s.inHand j :=
  bind_set WriterPc.line? here new j

theorem inHand_of_pc {i : Nat} {pc : WriterPc α} (here : s.writers[i]? = some pc) :
    s.inHand i = pc.line? := by
  rw [inHand, here, Option.bind_some]

theorem inHand_of_idle (idle : ∀ pc ∈ s.writers, pc = .idle) (i : Nat) : s.inHand i = none := by
  unfold inHand
  cases here : s.writers[i]? with
  | none => rfl
  | some pc =>
      rw [idle pc (List.mem_of_getElem? here)]
      rfl

/-- The queue is made empty. -/
theorem underway_start (fileName : Bytes) (splitLines maxQueueSize : Int) (now : Tm)
    (threads : Nat) :
    (start fileName splitLines maxQueueSize now threads : LogState α).underway = [] := by
  simp only [underway, start, queued, Option.toList_none, List.nil_append]
  split
  · rfl
  · rename_i bq made
    split at made
    · rw [BlockQueue.new] at made
      split at made
      · cases made
      · cases made
        rfl
    · cases made

namespace Intact

theorem start (fileName : Bytes) (splitLines maxQueueSize : Int) (now : Tm) (threads : Nat) :
    (LogState.start fileName splitLines maxQueueSize now threads : LogState α).Intact where
  hasFile := by
    unfold LogState.start Log.init
    dsimp only
    split
    · exact Option.some_ne_none _
    · exact Option.some_ne_none _
  lines j := by
    rw [underway_start, inHand_of_idle fun pc member => List.eq_of_mem_replicate member]
    rfl

/-- A thread goes on with its line. -/
theorem setWriter (intact : s.Intact) {i : Nat} {pc new : WriterPc α}
    (here : s.writers[i]? = some pc) (same : new.line? = pc.line?) :
    (s.setWriter i new).Intact where
  hasFile := intact.hasFile
  lines j := by
    have unchanged : (s.setWriter i new).inHand j = s.inHand j := bind_set_of_eq here same j
    rw [unchanged]
    exact intact.lines j

/-- A thread calls `write_log`. -/
theorem enter (intact : s.Intact) {i : Nat} (idle : s.writers[i]? = some .idle) (now : Tm)
    (line : α) :
    ({ s with called := s.called ++ [Entry.mk i line] }.setWriter i
      (.entered now line)).Intact where
  hasFile := intact.hasFile
  lines j := by
    have moved := inHand_setWriter idle (.entered now line) j
    change linesOf j (s.called ++ [Entry.mk i line]) =
      linesOf j (s.written.map Prod.snd) ++ linesOf j s.underway ++
        ((s.setWriter i (.entered now line)).inHand j).toList
    rw [moved, linesOf_append, intact.lines j]
    by_cases own : j = i
    · subst own
      have nothing : s.inHand j = none := inHand_of_pc idle
      rw [nothing, linesOf_own, if_pos rfl, Option.toList_none, List.append_nil]
      rfl
    · rw [linesOf_other own, if_neg own, List.append_nil]

/-- A thread has passed on its line. -/
theorem leave (intact : s.Intact) {i : Nat} {pc : WriterPc α} {line : α}
    (here : s.writers[i]? = some pc) (holds : pc.line? = some line)
    (sameFile : t.log = s.log) (sameCalls : t.called = s.called)
    (gone : ∀ j, t.inHand j = if j = i then none else s.inHand j)
    (passedOn : ∀ j, linesOf j (t.written.map Prod.snd) ++ linesOf j t.underway =
      linesOf j (s.written.map Prod.snd) ++ linesOf j s.underway ++
        linesOf j [Entry.mk i line]) : t.Intact where
  hasFile := by
    rw [sameFile]
    exact intact.hasFile
  lines j := by
    rw [sameCalls, intact.lines j, passedOn j, gone j]
    by_cases own : j = i
    · subst own
      rw [inHand_of_pc here, holds, linesOf_own, if_pos rfl, Option.toList_none, List.append_nil]
      rfl
    · rw [linesOf_other own, if_neg own, List.append_nil]

/-- The flush thread moves lines on. -/
theorem flush (intact : s.Intact) (sameFile : t.log = s.log) (sameCalls : t.called = s.called)
    (sameWriters : t.writers = s.writers)
    (moved : t.written.map Prod.snd ++ t.underway = s.written.map Prod.snd ++ s.underway) :
    t.Intact where
  hasFile := by
    rw [sameFile]
    exact intact.hasFile
  lines j := by
    rw [sameCalls, intact.lines j, ← linesOf_append, ← linesOf_append, moved, inHand, inHand,
      sameWriters]

theorem of_stepped {action : LogAction α} (intact : s.Intact) (delivers : s.Delivers action)
    (stepped : Stepped s action t) : t.Intact := by
  cases stepped with
  | ignored idle noFile => exact absurd noFile intact.hasFile
  | @entered i now line idle hasFile => exact intact.enter idle now line
  | @rotated i opens now line log here rotates =>
      cases delivers
      have rotated : { s with log := log }.Intact :=
        ⟨Log.hasFile_rotate intact.hasFile rotates, intact.lines⟩
      exact rotated.setWriter here rfl
  | foundFull here isFull => exact intact.setWriter here rfl
  | foundRoom here queue room => exact intact.setWriter here rfl
  | @pushed i line bq later here queue pushes =>
      refine intact.leave here rfl rfl rfl (inHand_setWriter here .idle) fun j => ?_
      change _ ++ linesOf j (s.flusher.toList ++ later.queue) = _
      rw [(BlockQueue.push_eq_some_iff.mp pushes).2.1, underway, queued, queue,
        List.append_assoc, ← List.append_assoc s.flusher.toList, linesOf_append j _ [_]]
      rfl
  | @refused i line bq here queue refuses =>
      have isFull := BlockQueue.push_eq_none_iff.mp refuses
      rw [delivers bq queue] at isFull
      cases isFull
  | @wrote i line file here hasFile =>
      refine intact.leave here rfl rfl rfl (inHand_setWriter here .idle) fun j => ?_
      change linesOf j ((s.written ++ [(file, Entry.mk i line)]).map Prod.snd) ++
        linesOf j s.underway = _
      rw [List.map_append, linesOf_append, List.append_assoc, List.append_assoc]
      congr 1
      by_cases own : j = i
      · subst own
        rw [linesOf_eq_nil delivers, List.append_nil]
        rfl
      · rw [linesOf_other own, List.append_nil]
        exact congrArg (· ++ _) (linesOf_other own line)
  | @popped bq later entry idle queue pops =>
      refine intact.flush rfl rfl rfl ?_
      simp only [underway, queued, idle, queue, (BlockQueue.pop_eq_some pops).1]
      rfl
  | @flushed entry file holds hasFile =>
      refine intact.flush rfl rfl rfl ?_
      simp only [underway, holds, List.map_append, List.append_assoc]
      rfl

end Intact

/-- When no call is in progress and nothing is on the way, the files hold exactly
the lines of each thread, in the order of its calls. -/
theorem lines_written {fileName : Bytes} {splitLines maxQueueSize : Int} {now : Tm}
    {threads : Nat} {s : LogState α}
    (reached : Reachable next Delivers (start fileName splitLines maxQueueSize now threads) s)
    (idle : ∀ pc ∈ s.writers, pc = .idle) (drained : s.underway = []) (i : Nat) :
    linesOf i (s.written.map Prod.snd) = linesOf i s.called := by
  have intact : s.Intact := by
    apply reached.invariant
    · exact .start fileName splitLines maxQueueSize now threads
    · intro state action successor intact delivers step
      exact intact.of_stepped delivers (stepped_of_next step)
  rw [intact.lines i, drained, inHand_of_idle idle, linesOf_nil, Option.toList_none,
    List.append_nil, List.append_nil]

/-- Two threads and a queue for one line: the first line goes through the queue,
and the second thread, which finds the queue full, writes its own line before. -/
theorem lines_of_two_threads_written :
    ∃ s : LogState Nat,
      Reachable next Delivers (start (Bytes.ofString "./log/RpcServerLog") 800000 1 ⟨126, 4, 3⟩ 2)
        s ∧
      s.called = [⟨0, 7⟩, ⟨1, 8⟩] ∧ linesOf 0 (s.written.map Prod.snd) = linesOf 0 s.called := by
  have run : ∃ s : LogState Nat,
      Reachable next Delivers (start (Bytes.ofString "./log/RpcServerLog") 800000 1 ⟨126, 4, 3⟩ 2)
        s ∧
      (s.called = [⟨0, 7⟩, ⟨1, 8⟩] ∧ (∀ pc ∈ s.writers, pc = .idle) ∧ s.underway = []) := by
    apply exists_reachable [.writeLog 0 ⟨126, 4, 3⟩ 7, .rotate 0 true, .full 0, .push 0,
      .writeLog 1 ⟨126, 4, 4⟩ 8, .rotate 1 true, .full 1, .fputs 1, .flushPop, .flushFputs]
    · decide +kernel
    · decide +kernel
  rcases run with ⟨s, reached, called, idle, drained⟩
  exact ⟨s, reached, called, lines_written reached idle drained 0⟩

/-- Both threads find room for one line, and the line that comes second is lost. -/
theorem line_lost :
    ∃ s : LogState Nat,
      Reachable next Unrestricted
        (start (Bytes.ofString "./log/RpcServerLog") 800000 1 ⟨126, 4, 3⟩ 2) s ∧
      (∀ pc ∈ s.writers, pc = .idle) ∧ s.underway = [] ∧
      linesOf 1 (s.written.map Prod.snd) = [] ∧ linesOf 1 s.called = [8] := by
  apply exists_reachable [.writeLog 0 ⟨126, 4, 3⟩ 7, .rotate 0 true, .writeLog 1 ⟨126, 4, 3⟩ 8,
    .rotate 1 true, .full 0, .full 1, .push 0, .push 1, .flushPop, .flushFputs]
  · exact Meets.unrestricted _ _ _
  · decide +kernel

end LogState

end Mprpc.Logging
