import Mprpc.Logging.Core

/-!
# The file pointer of the logger

A rotation closes the file and puts the result of `fopen` into `m_fp`, null or
not.  Behind it the line that caused the rotation, and every line that is on its
way, is written to that pointer without another test.  So the logger uses an
open file as long as no `fopen` has failed, and from then on a null pointer.
-/

namespace Mprpc.Logging

open Mprpc.Transition

universe u

/-- The logger with its file pointers.  `handle` is `m_fp`: the number of the
`fopen` that returned it, or null.  `closed` lists what was given to `fclose`. -/
structure FileState (α : Type u) where
  state : LogState α
  handle : Option Nat
  opened : Nat
  closed : List Nat
  failures : Nat

/-- A step of the logger, or a call of `flush`. -/
inductive FileAction (α : Type u)
  | step (action : LogAction α)
  | flush
  deriving DecidableEq, Repr

/-- The locked section that reopens the file found one, and leaves the result of
`fopen`; any other leaves `m_fp` alone. -/
theorem Log.fp_of_rotate {log rotated : Log} {now : Tm} {opens : Bool}
    (step : log.rotate now opens = some rotated) :
    (log.rotates now = true → log.fp ≠ none ∧ rotated.fp.isSome = opens) ∧
      (log.rotates now = false → rotated.fp = log.fp) := by
  have result : ∀ name, (fopen name opens).isSome = opens := by
    intro name
    cases opens <;> rfl
  unfold rotates
  cases rotated_of_rotate step with
  | newDay changed hasFile => exact ⟨fun _ => ⟨hasFile, result _⟩, by simp [changed]⟩
  | split sameDay divides hasFile => exact ⟨fun _ => ⟨hasFile, result _⟩, by simp [divides]⟩
  | stays sameDay divides => exact ⟨by simp [sameDay, divides], fun _ => rfl⟩

namespace FileState

variable {α : Type u}

/-- The logger after a successful `init`. -/
def start (fileName : Bytes) (splitLines maxQueueSize : Int) (now : Tm) (threads : Nat) :
    FileState α where
  state := .start fileName splitLines maxQueueSize now threads
  handle := some 0
  opened := 1
  closed := []
  failures := 0

/-- Whether a step closes the file and calls `fopen`, and then whether that
succeeds. -/
def reopens (s : FileState α) : LogAction α → Option Bool
  | .rotate i opens =>
      match s.state.writers[i]? with
      | some (.entered now _) => if s.state.log.rotates now then some opens else none
      | _ => none
  | _ => none

/-- `fflush(m_fp)`, `fclose(m_fp)` and `m_fp = fopen(...)`. -/
def reopen (s : FileState α) : Bool → FileState α
  | true =>
      { s with
        handle := some s.opened
        opened := s.opened + 1
        closed := s.closed ++ s.handle.toList }
  | false =>
      { s with
        handle := none
        closed := s.closed ++ s.handle.toList
        failures := s.failures + 1 }

def next (s : FileState α) : FileAction α → Option (FileState α)
  | .step action =>
      (s.state.next action).map fun state =>
        match s.reopens action with
        | some opens => { s.reopen opens with state := state }
        | none => { s with state := state }
  | .flush => some s

/-- The pointer that an action gives to `fputs`, `fflush` or `fclose`, if it calls
one of them. -/
def uses (s : FileState α) : FileAction α → Option (Option Nat)
  | .step (.rotate i opens) => (s.reopens (.rotate i opens)).map fun _ => s.handle
  | .step (.fputs i) =>
      match s.state.writers[i]? with
      | some (.writing _) => some s.handle
      | _ => none
  | .step .flushFputs => s.state.flusher.map fun _ => s.handle
  | .flush => some s.handle
  | _ => none

/-- The pointer belongs to a file that is not closed. -/
def IsOpen (s : FileState α) (pointer : Option Nat) : Prop :=
  ∃ handle, pointer = some handle ∧ handle ∉ s.closed

variable {s t : FileState α}

theorem eq_handle_of_mem_uses {action : FileAction α} {pointer : Option Nat}
    (used : pointer ∈ s.uses action) : pointer = s.handle := by
  cases action with
  | flush => exact (Option.some.inj used).symm
  | step action =>
      cases action with
      | rotate i opens =>
          rcases Option.map_eq_some_iff.mp used with ⟨opens, -, same⟩
          exact same.symm
      | fputs i =>
          simp only [uses] at used
          split at used
          · exact (Option.some.inj used).symm
          · cases used
      | flushFputs =>
          rcases Option.map_eq_some_iff.mp used with ⟨entry, -, same⟩
          exact same.symm
      | writeLog i now line => cases used
      | full i => cases used
      | push i => cases used
      | flushPop => cases used

theorem fp_of_next {action : LogAction α} {state : LogState α}
    (step : s.state.next action = some state) :
    (∀ opens, s.reopens action = some opens →
        s.state.log.fp ≠ none ∧ state.log.fp.isSome = opens) ∧
      (s.reopens action = none → state.log.fp = s.state.log.fp) := by
  cases LogState.stepped_of_next step with
  | @rotated i opens now line log here rotates =>
      have fp := Log.fp_of_rotate rotates
      simp only [reopens, here]
      cases rotating : s.state.log.rotates now with
      | true =>
          refine ⟨?_, nofun⟩
          intro opens same
          cases same
          exact fp.1 rotating
      | false => exact ⟨nofun, fun _ => fp.2 rotating⟩
  | _ => exact ⟨nofun, fun _ => rfl⟩

/-- Before the first failure `m_fp` is the newest file, and all before it are
closed; after it `m_fp` is null. -/
inductive Pointer (s : FileState α) : Prop
  | good (handle : Nat) (current : s.handle = some handle) (newest : handle < s.opened)
      (older : ∀ closed ∈ s.closed, closed < handle) (noFailure : s.failures = 0)
  | null (current : s.handle = none) (noFile : s.state.log.fp = none)
      (failed : s.failures ≠ 0)

theorem Pointer.step (known : Pointer s) {action : LogAction α} {state : LogState α}
    (step : s.state.next action = some state)
    (result : t = match s.reopens action with
      | some opens => { s.reopen opens with state := state }
      | none => { s with state := state }) : Pointer t := by
  rcases fp_of_next step with ⟨reopened, kept⟩
  cases reopens : s.reopens action with
  | none =>
      rw [reopens] at result
      subst result
      cases known with
      | good handle current newest older noFailure =>
          exact .good handle current newest older noFailure
      | null current noFile failed => exact .null current ((kept reopens).trans noFile) failed
  | some opens =>
      rw [reopens] at result
      subst result
      rcases reopened opens reopens with ⟨hasFile, fp⟩
      cases known with
      | null current noFile failed => exact absurd noFile hasFile
      | good handle current newest older noFailure =>
          cases opens with
          | false =>
              have noFile := Option.isNone_iff_eq_none.mp (Option.isSome_eq_false_iff.mp fp)
              exact .null rfl noFile (Nat.succ_ne_zero _)
          | true =>
              refine .good s.opened rfl (Nat.lt_succ_self _) ?_ noFailure
              intro closed member
              rcases List.mem_append.mp member with before | last
              · exact Nat.lt_trans (older closed before) newest
              · rw [current] at last
                cases List.mem_singleton.mp last
                exact newest

theorem pointer_of_reachable {allowed : FileState α → FileAction α → Prop} {fileName : Bytes}
    {splitLines maxQueueSize : Int} {now : Tm} {threads : Nat}
    (reached : Reachable next allowed (start fileName splitLines maxQueueSize now threads) s) :
    Pointer s := by
  apply reached.invariant
  · exact .good 0 rfl Nat.one_pos nofun rfl
  · intro s action t known _ step
    cases action with
    | flush =>
        cases step
        exact known
    | step action =>
        rcases Option.map_eq_some_iff.mp step with ⟨state, moved, result⟩
        exact known.step moved result.symm

/-- In every run of writers and flush thread, in either mode, what the next
`fputs`, `fflush` or `fclose` is given is an open file just when no `fopen` has
failed so far. -/
theorem uses_open_file_iff {fileName : Bytes} {splitLines maxQueueSize : Int} {now : Tm}
    {threads : Nat}
    (reached : Reachable next Unrestricted
      (start fileName splitLines maxQueueSize now threads) s) :
    ∀ action, ∀ pointer ∈ s.uses action, (s.IsOpen pointer ↔ s.failures = 0) := by
  intro action pointer used
  rw [eq_handle_of_mem_uses used]
  cases pointer_of_reachable reached with
  | good handle current newest older noFailure =>
      refine iff_of_true ⟨handle, current, fun closed => ?_⟩ noFailure
      exact Nat.lt_irrefl handle (older handle closed)
  | null current noFile failed =>
      refine iff_of_false ?_ failed
      rintro ⟨handle, same, -⟩
      rw [current] at same
      cases same

/-- The day changes, `fopen` fails, and the line is written to the null pointer. -/
theorem fputs_null_after_failed_rotation :
    ∃ s : FileState Nat,
      Reachable next Unrestricted (start (Bytes.ofString "./log/Server") 800 0 ⟨126, 3, 3⟩ 1) s ∧
      ∃ pointer ∈ s.uses (.step (.fputs 0)), ¬ s.IsOpen pointer := by
  have run : ∃ s : FileState Nat,
      Reachable next Unrestricted (start (Bytes.ofString "./log/Server") 800 0 ⟨126, 3, 3⟩ 1) s ∧
      s.uses (.step (.fputs 0)) = some none := by
    apply exists_reachable [.step (.writeLog 0 ⟨126, 3, 4⟩ 7), .step (.rotate 0 false),
      .step (.full 0)]
    · exact Meets.unrestricted ..
    · decide +kernel
  rcases run with ⟨s, reached, used⟩
  refine ⟨s, reached, none, used, ?_⟩
  rintro ⟨handle, same, -⟩
  cases same

/-- The same with an `fopen` that succeeds: the file of the day before is closed and
the new one is used. -/
theorem uses_open_file_after_rotation :
    ∃ s : FileState Nat,
      Reachable next Unrestricted (start (Bytes.ofString "./log/Server") 800 0 ⟨126, 3, 3⟩ 1) s ∧
      s.closed = [0] ∧ some 1 ∈ s.uses (.step (.fputs 0)) ∧
      ∀ action, ∀ pointer ∈ s.uses action, (s.IsOpen pointer ↔ s.failures = 0) := by
  have run : ∃ s : FileState Nat,
      Reachable next Unrestricted (start (Bytes.ofString "./log/Server") 800 0 ⟨126, 3, 3⟩ 1) s ∧
      s.closed = [0] ∧ some 1 ∈ s.uses (.step (.fputs 0)) := by
    apply exists_reachable [.step (.writeLog 0 ⟨126, 3, 4⟩ 7), .step (.rotate 0 true), .flush,
      .step (.full 0)]
    · exact Meets.unrestricted ..
    · decide +kernel
  rcases run with ⟨s, reached, closed, used⟩
  exact ⟨s, reached, closed, used, uses_open_file_iff reached⟩

end FileState

end Mprpc.Logging
