import Mprpc.Data.Passage
import Mprpc.Logging.Lines

/-!
# How far a line gets ahead

A line that finds the queue full is written at once, ahead of those in the queue, and
threads that have called `write_log` are overtaken by others at any time.  Still a line
cannot get far ahead of its turn: only the queue, the flush thread and the threads
hold lines back, and they hold a bounded number.
-/

namespace Mprpc.Logging

open Mprpc.Threads
open Mprpc.Transition

universe u

variable {α : Type u}

namespace LogState

variable {s t : LogState α}

/-- A `push` finds room, and `fopen` succeeds. -/
def Retains (s : LogState α) : LogAction α → Prop
  | .rotate _ opens => opens = true
  | .push _ => ∀ bq ∈ s.queue, bq.full = false
  | _ => True

instance (s : LogState α) : (action : LogAction α) → Decidable (s.Retains action)
  | .rotate _ opens => inferInstanceAs (Decidable (opens = true))
  | .push _ => inferInstanceAs (Decidable (∀ bq ∈ s.queue, bq.full = false))
  | .writeLog .. | .full _ | .fputs _ | .flushPop | .flushFputs => isTrue trivial

/-- The line in the hand of a thread. -/
def carried (i : Nat) (pc : WriterPc α) : Option (Entry α) :=
  pc.line?.map (Entry.mk i)

/-- The lines in the hands of the threads. -/
def inHands (s : LogState α) : List (Entry α) :=
  (s.writers.mapIdx carried).filterMap id

/-- What the queue and the flush thread hold at most. -/
def capacity (s : LogState α) : Nat :=
  match s.queue with
  | none => 0
  | some bq => bq.maxSize + 1

/-- What the logger of a start holds back at most, apart from its threads. -/
def heldBack (maxQueueSize : Int) : Nat :=
  if maxQueueSize ≥ 1 then maxQueueSize.toNat + 1 else 0

/-! ## The lines in the hands of the threads -/

theorem inHands_of_idle (idle : ∀ pc ∈ s.writers, pc = .idle) : s.inHands = [] := by
  apply List.eq_nil_iff_forall_not_mem.mpr
  intro entry member
  obtain ⟨held, inside, isHeld⟩ := List.mem_filterMap.mp member
  obtain ⟨i, bound, rfl⟩ := List.mem_mapIdx.mp inside
  rw [idle _ (List.getElem_mem bound)] at isHeld
  cases isHeld

theorem length_inHands_le (s : LogState α) : s.inHands.length ≤ s.writers.length :=
  (List.length_filterMap_le id _).trans_eq List.length_mapIdx

/-- A thread drops what it held and takes something else. -/
theorem inHands_set {i : Nat} {pc : WriterPc α} (here : s.writers[i]? = some pc)
    (new : WriterPc α) :
    ((carried i pc).toList ++ (s.setWriter i new).inHands).Perm
      ((carried i new).toList ++ s.inHands) := by
  have held : (s.writers.mapIdx carried)[i]? = some (carried i pc) := by
    rw [List.getElem?_mapIdx, here]
    rfl
  rw [inHands, setWriter, List.mapIdx_set]
  exact filterMap_set_perm id held (carried i new)

theorem inHands_set_of_eq {i : Nat} {pc new : WriterPc α} (here : s.writers[i]? = some pc)
    (same : new.line? = pc.line?) : s.inHands.Perm (s.setWriter i new).inHands := by
  have moved := inHands_set here new
  rw [carried, carried, same, List.perm_append_left_iff] at moved
  exact moved.symm

theorem inHands_set_take {i : Nat} {pc : WriterPc α} {line : α} (here : s.writers[i]? = some pc)
    (before : pc.line? = none) (new : WriterPc α) (holds : new.line? = some line) :
    (s.setWriter i new).inHands.Perm (Entry.mk i line :: s.inHands) := by
  have moved := inHands_set here new
  rw [carried, carried, before, holds] at moved
  exact moved

theorem inHands_set_drop {i : Nat} {pc : WriterPc α} {line : α} (here : s.writers[i]? = some pc)
    (holds : pc.line? = some line) :
    s.inHands.Perm (Entry.mk i line :: (s.setWriter i .idle).inHands) := by
  have moved := inHands_set here .idle
  rw [carried, carried, holds] at moved
  exact moved.symm

/-! ## The invariant -/

/-- There is a file, the queue and the threads are those of the start, and the lines
pass through them into the files. -/
structure Orderly (capacity threads : Nat) (s : LogState α) : Prop where
  hasFile : s.log.fp ≠ none
  writers : s.writers.length = threads
  sized : s.capacity = capacity
  sync : s.queue = none → s.flusher = none
  passage : Passage (capacity + threads) s.called (s.written.map Prod.snd)
    (s.underway ++ s.inHands)

variable {capacity threads : Nat}

/-- The queue and the flush thread hold no more than they can. -/
theorem length_underway_le (sync : s.queue = none → s.flusher = none) :
    s.underway.length ≤ s.capacity := by
  rw [underway, List.length_append, queued, LogState.capacity]
  cases queue : s.queue with
  | none =>
      rw [sync queue]
      exact Nat.le_refl 0
  | some bq =>
      have one : s.flusher.toList.length ≤ 1 := by
        cases s.flusher with
        | none => exact Nat.zero_le 1
        | some entry => exact Nat.le_refl 1
      have room := bq.bounded
      dsimp only
      omega

namespace Orderly

/-- A thread goes on with its line. -/
theorem setWriter (orderly : s.Orderly capacity threads) {i : Nat} {pc new : WriterPc α}
    (here : s.writers[i]? = some pc) (same : new.line? = pc.line?) :
    (s.setWriter i new).Orderly capacity threads where
  hasFile := orderly.hasFile
  writers := List.length_set.trans orderly.writers
  sized := orderly.sized
  sync := orderly.sync
  passage := orderly.passage.move ((inHands_set_of_eq here same).append_left s.underway)

/-- A line gets into a file. -/
theorem write (orderly : s.Orderly capacity threads) {file : Bytes} {entry : Entry α}
    (hasFile : t.log.fp ≠ none) (writers : t.writers.length = s.writers.length)
    (sized : t.capacity = s.capacity) (sync : t.queue = none → t.flusher = none)
    (called : t.called = s.called) (written : t.written = s.written ++ [(file, entry)])
    (fewer : (s.underway ++ s.inHands).Perm (entry :: (t.underway ++ t.inHands))) :
    t.Orderly capacity threads where
  hasFile := hasFile
  writers := writers.trans orderly.writers
  sized := sized.trans orderly.sized
  sync := sync
  passage := by
    have few : (t.underway ++ t.inHands).length ≤ capacity + threads := by
      rw [List.length_append, ← orderly.sized, ← sized, ← orderly.writers, ← writers]
      exact Nat.add_le_add (length_underway_le sync) (length_inHands_le t)
    rw [called, written, List.map_append]
    exact orderly.passage.leave fewer few

theorem of_stepped {action : LogAction α} (orderly : s.Orderly capacity threads)
    (retains : s.Retains action) (stepped : Stepped s action t) :
    t.Orderly capacity threads := by
  cases stepped with
  | ignored idle noFile => exact absurd noFile orderly.hasFile
  | @entered i now line idle hasFile =>
      constructor
      · exact orderly.hasFile
      · exact List.length_set.trans orderly.writers
      · exact orderly.sized
      · exact orderly.sync
      · apply orderly.passage.enter
        have taken := inHands_set_take idle rfl (.entered now line) rfl
        exact (taken.append_left s.underway).trans List.perm_middle
  | @rotated i opens now line log here rotates =>
      cases retains
      have rotated : { s with log := log }.Orderly capacity threads :=
        ⟨Log.hasFile_rotate orderly.hasFile rotates, orderly.writers, orderly.sized, orderly.sync,
          orderly.passage⟩
      exact rotated.setWriter here rfl
  | foundFull here isFull => exact orderly.setWriter here rfl
  | foundRoom here queue room => exact orderly.setWriter here rfl
  | @pushed i line bq later here queue pushes =>
      obtain ⟨-, longer, sameSize, -⟩ := BlockQueue.push_eq_some_iff.mp pushes
      constructor
      · exact orderly.hasFile
      · exact List.length_set.trans orderly.writers
      · rw [← orderly.sized, LogState.capacity, LogState.capacity, queue]
        exact congrArg (· + 1) sameSize
      · intro absent
        cases absent
      · apply orderly.passage.move
        have dropped := inHands_set_drop here rfl
        have more : s.underway ++ [Entry.mk i line] = s.flusher.toList ++ later.queue := by
          rw [underway, queued, queue, longer, List.append_assoc]
        have moved := dropped.append_left s.underway
        rw [List.append_cons, more] at moved
        exact moved
  | @refused i line bq here queue refuses =>
      have isFull := BlockQueue.push_eq_none_iff.mp refuses
      rw [retains bq queue] at isFull
      cases isFull
  | @wrote i line file here hasFile =>
      refine orderly.write orderly.hasFile List.length_set rfl orderly.sync rfl rfl ?_
      have dropped := (inHands_set_drop here rfl).append_left s.underway
      exact dropped.trans List.perm_middle
  | @popped bq later entry idle queue pops =>
      obtain ⟨first, sameSize, -⟩ := BlockQueue.pop_eq_some pops
      constructor
      · exact orderly.hasFile
      · exact orderly.writers
      · rw [← orderly.sized, LogState.capacity, LogState.capacity, queue]
        exact congrArg (· + 1) sameSize
      · intro absent
        cases absent
      · have same : s.underway = entry :: later.queue := by
          rw [underway, queued, idle, queue]
          exact first
        have passage := orderly.passage
        rw [same] at passage
        exact passage
  | @flushed entry file holds hasFile =>
      refine orderly.write orderly.hasFile rfl rfl (fun _ => rfl) rfl rfl ?_
      rw [underway, holds]
      rfl

theorem start (fileName : Bytes) (splitLines maxQueueSize : Int) (now : Tm) (threads : Nat) :
    (LogState.start fileName splitLines maxQueueSize now threads : LogState α).Orderly
      (heldBack maxQueueSize) threads where
  hasFile := (Intact.start fileName splitLines maxQueueSize now threads).hasFile
  writers := List.length_replicate
  sized := by
    rw [LogState.capacity, heldBack]
    by_cases asynchronous : maxQueueSize ≥ 1
    · have made : (LogState.start fileName splitLines maxQueueSize now threads :
          LogState α).queue = some ⟨[], maxQueueSize.toNat, false, Nat.zero_le _⟩ :=
        (if_pos asynchronous).trans (if_neg (Int.not_le.mpr asynchronous))
      rw [made, if_pos asynchronous]
    · have absent : (LogState.start fileName splitLines maxQueueSize now threads :
          LogState α).queue = none := if_neg asynchronous
      rw [absent, if_neg asynchronous]
  sync := fun _ => rfl
  passage := by
    rw [underway_start, inHands_of_idle fun pc member => List.eq_of_mem_replicate member]
    exact .empty _

end Orderly

/-- In every run in which no `push` is refused and every `fopen` succeeds, the lines
logged are those in the files, on the way and in the hands of threads, and the `k`-th
line in the files is one of the first lines logged: it has overtaken no more than the
queue, the flush thread and the threads hold back. -/
theorem early_of_reachable {fileName : Bytes} {splitLines maxQueueSize : Int} {now : Tm}
    {threads : Nat} {s : LogState α}
    (reached : Reachable next Retains (LogState.start fileName splitLines maxQueueSize now threads)
      s) :
    s.called.Perm (s.written.map Prod.snd ++ (s.underway ++ s.inHands)) ∧
      ∀ k, ((s.written.map Prod.snd).take k).Subperm
        (s.called.take (k + (heldBack maxQueueSize + threads))) := by
  have orderly : s.Orderly (heldBack maxQueueSize) threads := by
    apply reached.invariant
    · exact .start fileName splitLines maxQueueSize now threads
    · exact fun _ _ _ orderly retains step => orderly.of_stepped retains (stepped_of_next step)
  exact ⟨orderly.passage.perm, orderly.passage.early⟩

/-- A queue for one line: the third line is in the file while the first is in the hand
of the flush thread and the second in the queue. -/
theorem early_of_reachable_third :
    ∃ s : LogState Nat,
      Reachable next Retains (LogState.start (Bytes.ofString "./log/RpcServerLog") 800000 1
        ⟨126, 4, 3⟩ 1) s ∧
      s.written.map Prod.snd = [⟨0, 9⟩] ∧
      s.called.Perm (s.written.map Prod.snd ++ (s.underway ++ s.inHands)) ∧
        ∀ k, ((s.written.map Prod.snd).take k).Subperm
          (s.called.take (k + (heldBack 1 + 1))) := by
  have run : ∃ s : LogState Nat,
      Reachable next Retains (LogState.start (Bytes.ofString "./log/RpcServerLog") 800000 1
        ⟨126, 4, 3⟩ 1) s ∧ s.written.map Prod.snd = [⟨0, 9⟩] := by
    apply exists_reachable [.writeLog 0 ⟨126, 4, 3⟩ 7, .rotate 0 true, .full 0, .push 0,
      .flushPop, .writeLog 0 ⟨126, 4, 3⟩ 8, .rotate 0 true, .full 0, .push 0,
      .writeLog 0 ⟨126, 4, 3⟩ 9, .rotate 0 true, .full 0, .fputs 0]
    · decide +kernel
    · decide +kernel
  obtain ⟨s, reached, written⟩ := run
  exact ⟨s, reached, written, early_of_reachable reached⟩

end LogState

end Mprpc.Logging
