import Mathlib.Data.List.Infix

/-!
# A connection on which requests are answered

A caller hands frames to one end of a connection and a server answers each of them
from the other.  Bytes are in flight in both directions, and beside them stands what
the caller handed over and what has come back.  While the server reads every frame as
a whole and sends nothing but its answers in order, what comes back is the answer to
the last frame, behind those to the frames before.
-/

namespace Mprpc.Transition

universe u

/-- The two directions of a connection with their history. -/
structure Exchange (α : Type u) where
  requests : List α := []
  answers : List α := []
  /-- what the caller handed over, one frame at a time -/
  frames : List (List α) := []
  /-- what the caller has got -/
  arrived : List α := []
  deriving DecidableEq, Repr

namespace Exchange

variable {α : Type u}

/-- The caller hands a frame over. -/
def send (x : Exchange α) (frame : List α) : Exchange α :=
  { x with
    requests := x.requests ++ frame
    frames := x.frames ++ [frame] }

/-- The server takes some of the requests and puts bytes on the way back. -/
def serve (x : Exchange α) (count : Nat) (bytes : List α) : Exchange α :=
  { x with
    requests := x.requests.drop count
    answers := x.answers ++ bytes }

/-- The server is gone, and with it what it has not read. -/
def abandon (x : Exchange α) : Exchange α :=
  { x with requests := [] }

/-- Bytes get to the caller. -/
def deliver (x : Exchange α) (count : Nat) : Exchange α :=
  { x with
    answers := x.answers.drop count
    arrived := x.arrived ++ x.answers.take count }

/-- What is read at once: a frame or nothing. -/
def batch (bytes : List α) : List (List α) :=
  match bytes with
  | [] => []
  | _ :: _ => [bytes]

theorem batch_of_ne {bytes : List α} (nonempty : bytes ≠ []) : batch bytes = [bytes] := by
  cases bytes with
  | nil => exact absurd rfl nonempty
  | cons byte bytes => rfl

variable {answer : List α → List α} {x : Exchange α} {batches : List (List α)} {accepted : List α}
  {frame inbound : List α} {count : Nat}

/-! ## The server's end -/

/-- The server has read the batches and put the accepted bytes on the way back. -/
structure ReadBy (x : Exchange α) (batches : List (List α)) (accepted : List α) : Prop where
  frames : x.frames = batches ++ batch x.requests
  accepted : x.arrived ++ x.answers = accepted

theorem readBy_new : ({} : Exchange α).ReadBy [] [] :=
  ⟨rfl, rfl⟩

theorem ReadBy.send (readBy : x.ReadBy batches accepted) (nothing : x.requests = [])
    (nonempty : frame ≠ []) : (x.send frame).ReadBy batches accepted := by
  constructor
  · change x.frames ++ [frame] = batches ++ batch (x.requests ++ frame)
    rw [readBy.frames, nothing, List.nil_append, batch_of_ne nonempty, batch, List.append_nil]
  · exact readBy.accepted

theorem ReadBy.deliver (readBy : x.ReadBy batches accepted) (count : Nat) :
    (x.deliver count).ReadBy batches accepted := by
  constructor
  · exact readBy.frames
  · change (x.arrived ++ x.answers.take count) ++ x.answers.drop count = accepted
    rw [List.append_assoc, List.take_append_drop, readBy.accepted]

/-- The server reads all that is there, or nothing. -/
theorem ReadBy.serve (readBy : x.ReadBy batches accepted) {taken bytes : List α}
    (whole : taken = [] ∨ taken = x.requests) :
    (x.serve taken.length bytes).ReadBy (batches ++ batch taken) (accepted ++ bytes) := by
  constructor
  · change x.frames = (batches ++ batch taken) ++ batch (x.requests.drop taken.length)
    rw [readBy.frames]
    rcases whole with rfl | rfl
    · rw [batch, List.append_nil, List.length_nil, List.drop_zero]
    · rw [List.drop_length, batch.eq_1, List.append_nil]
  · change x.arrived ++ (x.answers ++ bytes) = accepted ++ bytes
    rw [← List.append_assoc, readBy.accepted]

/-! ## What the caller may expect -/

/-- Nothing comes back but answers. -/
def Bounded (answer : List α → List α) (x : Exchange α) : Prop :=
  x.arrived ++ x.answers <+: x.frames.flatMap answer

/-- Every frame is answered. -/
def Settled (answer : List α → List α) (x : Exchange α) : Prop :=
  x.arrived = x.frames.flatMap answer

/-- All frames but the last are answered, and the answer to the last begins with what
has come in since. -/
def Owing (answer : List α → List α) (x : Exchange α) (frame inbound : List α) : Prop :=
  ∃ past, x.frames = past ++ [frame] ∧ x.arrived = past.flatMap answer ++ inbound

theorem ReadBy.bounded (readBy : x.ReadBy batches accepted)
    (answers : accepted <+: batches.flatMap answer) : x.Bounded answer := by
  rw [Bounded, readBy.accepted, readBy.frames, List.flatMap_append]
  exact answers.trans (List.prefix_append _ _)

theorem Bounded.send (bounded : x.Bounded answer) (frame : List α) :
    (x.send frame).Bounded answer := by
  change x.arrived ++ x.answers <+: (x.frames ++ [frame]).flatMap answer
  rw [List.flatMap_append]
  exact bounded.trans (List.prefix_append _ _)

theorem Bounded.deliver (bounded : x.Bounded answer) (count : Nat) :
    (x.deliver count).Bounded answer := by
  change (x.arrived ++ x.answers.take count) ++ x.answers.drop count <+: x.frames.flatMap answer
  rw [List.append_assoc, List.take_append_drop]
  exact bounded

/-- The server reads without answering. -/
theorem Bounded.serve_nil (bounded : x.Bounded answer) (count : Nat) :
    (x.serve count []).Bounded answer := by
  change x.arrived ++ (x.answers ++ []) <+: x.frames.flatMap answer
  rw [List.append_nil]
  exact bounded

theorem Bounded.abandon (bounded : x.Bounded answer) : x.abandon.Bounded answer :=
  bounded

/-- When every frame is answered, nothing is on the way back. -/
theorem Settled.answers_eq_nil (settled : x.Settled answer) (bounded : x.Bounded answer) :
    x.answers = [] := by
  rw [Bounded, settled] at bounded
  have short := bounded.length_le
  rw [List.length_append] at short
  exact List.length_eq_zero_iff.mp (Nat.le_zero.mp (Nat.add_le_add_iff_left.mp short))

theorem Settled.send (settled : x.Settled answer) (frame : List α) :
    (x.send frame).Owing answer frame [] :=
  ⟨x.frames, rfl, settled.trans (List.append_nil _).symm⟩

/-- What is on the way back continues the answer to the last frame. -/
theorem Owing.continues (owing : x.Owing answer frame inbound) (bounded : x.Bounded answer)
    (count : Nat) : inbound ++ x.answers.take count <+: answer frame := by
  obtain ⟨past, frames, arrived⟩ := owing
  rw [Bounded, frames, arrived, List.flatMap_append, List.flatMap_singleton,
    List.append_assoc, List.prefix_append_right_inj] at bounded
  have piece := (List.prefix_append_right_inj inbound).mpr (List.take_prefix count x.answers)
  exact piece.trans bounded

theorem Owing.deliver (owing : x.Owing answer frame inbound) (count : Nat) :
    (x.deliver count).Owing answer frame (inbound ++ x.answers.take count) := by
  obtain ⟨past, frames, arrived⟩ := owing
  refine ⟨past, frames, ?_⟩
  change x.arrived ++ x.answers.take count = _
  rw [arrived, List.append_assoc]

/-- The server does what it does behind the caller's back. -/
theorem Owing.congr (owing : x.Owing answer frame inbound) {y : Exchange α}
    (frames : y.frames = x.frames) (arrived : y.arrived = x.arrived) :
    y.Owing answer frame inbound := by
  rw [Owing, frames, arrived]
  exact owing

/-- The last frame is answered when everything is. -/
theorem Owing.settled_iff (owing : x.Owing answer frame inbound) :
    x.Settled answer ↔ inbound = answer frame := by
  obtain ⟨past, frames, arrived⟩ := owing
  rw [Settled, frames, arrived, List.flatMap_append, List.flatMap_singleton,
    List.append_right_inj]

/-- An answer is on the way back only after the server has read its frame. -/
theorem Owing.requests_eq_nil (owing : x.Owing answer frame inbound)
    (readBy : x.ReadBy batches accepted) (answers : accepted <+: batches.flatMap answer)
    (coming : x.answers ≠ []) : x.requests = [] := by
  by_contra unread
  obtain ⟨past, frames, arrived⟩ := owing
  have same := frames.symm.trans readBy.frames
  rw [batch_of_ne unread] at same
  obtain ⟨rfl, -⟩ := List.append_inj' same rfl
  rw [← readBy.accepted, arrived, List.append_assoc] at answers
  have short := answers.length_le
  rw [List.length_append, List.length_append] at short
  exact coming (List.length_eq_zero_iff.mp (by omega))

/-- Nothing gets lost.  The last frame is still to be read, and nothing has come of it,
or its answer is what the caller has, what is on the way back and what the server keeps
back. -/
theorem Owing.unread_or_answered (owing : x.Owing answer frame inbound)
    (readBy : x.ReadBy batches accepted) {unsent : List α}
    (answered : accepted ++ unsent = batches.flatMap answer) :
    x.requests = frame ∧ inbound = [] ∧ x.answers = [] ∧ unsent = [] ∨
      x.requests = [] ∧ inbound ++ x.answers ++ unsent = answer frame := by
  obtain ⟨past, frames, arrived⟩ := owing
  have same := frames.symm.trans readBy.frames
  rw [← readBy.accepted, arrived, List.append_assoc, List.append_assoc] at answered
  cases unread : x.requests with
  | nil =>
      right
      rw [unread, batch, List.append_nil] at same
      rw [← same, List.flatMap_append, List.flatMap_singleton,
        List.append_right_inj] at answered
      exact ⟨rfl, (List.append_assoc ..).trans answered⟩
  | cons byte bytes =>
      left
      rw [unread, batch] at same
      obtain ⟨rfl, last⟩ := List.append_inj' same rfl
      cases last
      have nothing : inbound ++ (x.answers ++ unsent) = [] := List.append_right_eq_self.mp answered
      rw [List.append_eq_nil_iff, List.append_eq_nil_iff] at nothing
      exact ⟨rfl, nothing.1, nothing.2.1, nothing.2.2⟩

end Exchange

end Mprpc.Transition
