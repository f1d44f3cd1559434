import Mprpc.Data.Bytes
import Mprpc.Transition.Observed

/-!
# The network buffer `Buffer`

A vector with a read index and a write index; the bytes between the two are
readable.  The order of the indices is part of the type, so every operation
below is a proof that it stays inside the vector.  `readable` is the abstract
view: on it the buffer is a byte queue, and every sequence of calls is answered
as by the queue.
-/

namespace Mprpc.Net

open Mprpc.Transition

/-- The vector after bytes from `pos` on were replaced by `data`. -/
def overwrite (vector : Bytes) (pos : Nat) (data : Bytes) : Bytes :=
  vector.take pos ++ data ++ vector.drop (pos + data.length)

theorem length_overwrite {vector data : Bytes} {pos : Nat}
    (inside : pos + data.length ≤ vector.length) :
    (overwrite vector pos data).length = vector.length := by
  simp [overwrite]
  omega

/-- A stretch of the vector that a copy reads or writes, with the vector's size at
that time. -/
structure Span where
  pos : Nat
  len : Nat
  size : Nat
  deriving DecidableEq, Repr

def Span.Inside (span : Span) : Prop :=
  span.pos + span.len ≤ span.size

/-- A result with the stretches of the vector that were copied from and to on the
way to it. -/
structure Copied (α : Type) where
  value : α
  spans : List Span

/-- The `len` bytes from `begin + pos` on, read out of a vector. -/
def copyFrom (vector : Bytes) (pos len : Nat) : Copied Bytes where
  value := (vector.drop pos).take len
  spans := [⟨pos, len, vector.length⟩]

/-- `std::copy(data, data + len, begin + pos)` into a vector. -/
def copyTo (vector : Bytes) (pos : Nat) (data : Bytes) : Copied Bytes where
  value := overwrite vector pos data
  spans := [⟨pos, data.length, vector.length⟩]

theorem length_copyTo {vector data : Bytes} {pos : Nat}
    (inside : pos + data.length ≤ vector.length) :
    (copyTo vector pos data).value.length = vector.length :=
  length_overwrite inside

/-- `class Buffer`. -/
structure Buffer where
  buffer : Bytes
  readerIndex : Nat
  writerIndex : Nat
  reader_le_writer : readerIndex ≤ writerIndex
  writer_le_size : writerIndex ≤ buffer.length

namespace Buffer

/-- `Buffer(initialSize)`. -/
def new (initialSize : Nat := 1024) : Buffer where
  buffer := List.replicate initialSize 0
  readerIndex := 0
  writerIndex := 0
  reader_le_writer := Nat.le_refl 0
  writer_le_size := Nat.zero_le _

/-- `ReadableBytes`. -/
def readableBytes (b : Buffer) : Nat :=
  b.writerIndex - b.readerIndex

/-- `WritableBytes`. -/
def writableBytes (b : Buffer) : Nat :=
  b.buffer.length - b.writerIndex

/-- The `ReadableBytes()` bytes that start at `Peek()`. -/
def peek (b : Buffer) : Copied Bytes :=
  copyFrom b.buffer b.readerIndex b.readableBytes

def readable (b : Buffer) : Bytes :=
  b.peek.value

/-- `RetrieveAll`. -/
def retrieveAll (b : Buffer) : Buffer where
  buffer := b.buffer
  readerIndex := 0
  writerIndex := 0
  reader_le_writer := Nat.le_refl 0
  writer_le_size := Nat.zero_le _

/-- `Retrieve`. -/
def retrieve (b : Buffer) (len : Nat) : Buffer :=
  if short : len < b.readableBytes then
    { b with
      readerIndex := b.readerIndex + len
      reader_le_writer := by
        unfold readableBytes at short
        omega }
  else
    b.retrieveAll

/-- `RetrieveAllAsString`. -/
def retrieveAllAsString (b : Buffer) : Bytes × Buffer :=
  (b.readable, b.retrieveAll)

@[simp]
theorem length_readable (b : Buffer) : b.readable.length = b.readableBytes := by
  have readerLe := b.reader_le_writer
  have writerLe := b.writer_le_size
  simp only [readable, peek, copyFrom, readableBytes, List.length_take, List.length_drop]
  omega

/-- `MakeSpace`: grow when the free space before and after the readable bytes
does not suffice, else move the readable bytes to the front. -/
def makeSpace (b : Buffer) (len : Nat) : Copied Buffer :=
  if b.writableBytes + b.readerIndex < len then
    { value :=
        { b with
          buffer := b.buffer ++ List.replicate (b.writerIndex + len - b.buffer.length) 0
          writer_le_size := by
            have writerLe := b.writer_le_size
            rw [List.length_append]
            omega }
      spans := [] }
  else
    let slid := copyTo b.buffer 0 b.peek.value
    { value :=
        { buffer := slid.value
          readerIndex := 0
          writerIndex := b.readableBytes
          reader_le_writer := Nat.zero_le _
          writer_le_size := by
            have moved : b.peek.value.length = b.readableBytes := b.length_readable
            have writerLe := b.writer_le_size
            rw [length_copyTo] <;> simp only [moved, readableBytes] <;> omega }
      spans := b.peek.spans ++ slid.spans }

/-- `EnsureWritableBytes`. -/
def ensureWritableBytes (b : Buffer) (len : Nat) : Copied Buffer :=
  if b.writableBytes < len then b.makeSpace len else ⟨b, []⟩

theorem le_writableBytes_ensureWritableBytes (b : Buffer) (len : Nat) :
    len ≤ (b.ensureWritableBytes len).value.writableBytes := by
  have readerLe := b.reader_le_writer
  have writerLe := b.writer_le_size
  unfold ensureWritableBytes makeSpace
  split
  · split
    · simp only [writableBytes, List.length_append, List.length_replicate] at *
      omega
    · rename_i roomy
      have moved : b.peek.value.length = b.readableBytes := b.length_readable
      have inside : 0 + b.peek.value.length ≤ b.buffer.length := by
        rw [moved, readableBytes]
        omega
      simp only [writableBytes, readableBytes, length_copyTo inside] at *
      omega
  · rename_i enough
    exact Nat.le_of_not_lt enough

/-- Copy to `BeginWrite()` and move the write index. -/
def write (b : Buffer) (data : Bytes) (room : data.length ≤ b.writableBytes) :
    Copied Buffer :=
  let written := copyTo b.buffer b.writerIndex data
  { value :=
      { buffer := written.value
        readerIndex := b.readerIndex
        writerIndex := b.writerIndex + data.length
        reader_le_writer := Nat.le_trans b.reader_le_writer (Nat.le_add_right _ _)
        writer_le_size := by
          have writerLe := b.writer_le_size
          unfold writableBytes at room
          rw [length_copyTo] <;> omega }
    spans := written.spans }

/-- `Append`, with its copies. -/
def appendCopied (b : Buffer) (data : Bytes) : Copied Buffer :=
  let wider := b.ensureWritableBytes data.length
  let written := wider.value.write data (le_writableBytes_ensureWritableBytes b data.length)
  ⟨written.value, wider.spans ++ written.spans⟩

/-- `Append`. -/
def append (b : Buffer) (data : Bytes) : Buffer :=
  (b.appendCopied data).value

/-! ## The buffer as a byte queue -/

@[simp]
theorem readable_new (initialSize : Nat) : (new initialSize).readable = [] :=
  rfl

@[simp]
theorem readable_retrieveAll (b : Buffer) : b.retrieveAll.readable = [] := by
  simp [readable, peek, copyFrom, readableBytes, retrieveAll]

theorem readableBytes_pos_iff (b : Buffer) : 0 < b.readableBytes ↔ b.readable ≠ [] := by
  rw [← length_readable, List.length_pos_iff]

/-- `Retrieve` drops from the front. -/
theorem readable_retrieve (b : Buffer) (len : Nat) :
    (b.retrieve len).readable = b.readable.drop len := by
  unfold retrieve
  split
  · simp only [readable, peek, copyFrom, readableBytes, List.drop_take, List.drop_drop]
    congr 1
    omega
  · rename_i enough
    rw [readable_retrieveAll, List.drop_eq_nil_of_le]
    rw [length_readable]
    omega

theorem readable_makeSpace (b : Buffer) (len : Nat) :
    (b.makeSpace len).value.readable = b.readable := by
  have readerLe := b.reader_le_writer
  have writerLe := b.writer_le_size
  unfold makeSpace
  split
  · have inside : b.readableBytes ≤ (b.buffer.drop b.readerIndex).length := by
      rw [List.length_drop, readableBytes]
      omega
    simp only [readable, peek, copyFrom, readableBytes] at *
    rw [List.drop_append_of_le_length (by omega), List.take_append_of_le_length inside]
  · change ((copyTo b.buffer 0 b.readable).value.drop 0).take b.readableBytes = b.readable
    rw [copyTo, overwrite, List.take_zero, List.nil_append, List.drop_zero,
      List.take_left' b.length_readable]

theorem readable_ensureWritableBytes (b : Buffer) (len : Nat) :
    (b.ensureWritableBytes len).value.readable = b.readable := by
  unfold ensureWritableBytes
  split
  · exact readable_makeSpace b len
  · rfl

theorem readable_write (b : Buffer) (data : Bytes) (room : data.length ≤ b.writableBytes) :
    (b.write data room).value.readable = b.readable ++ data := by
  have readerLe := b.reader_le_writer
  have writerLe := b.writer_le_size
  have split : b.writerIndex + data.length - b.readerIndex =
      (b.writerIndex - b.readerIndex) + data.length := by omega
  have written : (b.buffer.take b.writerIndex).length = b.writerIndex :=
    List.length_take_of_le writerLe
  have queued : ((b.buffer.take b.writerIndex).drop b.readerIndex).length =
      b.writerIndex - b.readerIndex := by
    rw [List.length_drop, written]
  simp only [write, readable, peek, copyFrom, readableBytes, copyTo, overwrite]
  rw [List.append_assoc, List.drop_append_of_le_length (by omega), split, ← queued,
    List.take_length_add_append, List.take_left, queued, List.drop_take]

/-- `Append` adds at the end. -/
theorem readable_append (b : Buffer) (data : Bytes) :
    (b.append data).readable = b.readable ++ data := by
  rw [append, appendCopied, readable_write, readable_ensureWritableBytes]

/-! ## Sequences of calls -/

/-- A call of one of the public functions that change a buffer. -/
inductive Call
  | append (data : Bytes)
  | retrieve (len : Nat)
  | retrieveAll
  | retrieveAllAsString
  deriving DecidableEq, Repr

/-- One call with its copies; the answer is the returned string, if there is one. -/
def callCopied (b : Buffer) : Call → Copied (Option Bytes × Buffer)
  | .append data => ⟨(none, b.append data), (b.appendCopied data).spans⟩
  | .retrieve len => ⟨(none, b.retrieve len), []⟩
  | .retrieveAll => ⟨(none, b.retrieveAll), []⟩
  | .retrieveAllAsString =>
      let (str, next) := b.retrieveAllAsString
      ⟨(some str, next), b.peek.spans⟩

def call (b : Buffer) (next : Call) : Option (Option Bytes × Buffer) :=
  some (b.callCopied next).value

/-- The stretches of the vector that a call copies from and to. -/
def spans (b : Buffer) (next : Call) : List Span :=
  (b.callCopied next).spans

/-- The same call of a byte queue. -/
def queueCall (queue : Bytes) : Call → Option (Option Bytes × Bytes)
  | .append data => some (none, queue ++ data)
  | .retrieve len => some (none, queue.drop (min len queue.length))
  | .retrieveAll => some (none, [])
  | .retrieveAllAsString => some (some queue, [])

theorem inside_peek (b : Buffer) : ∀ span ∈ b.peek.spans, span.Inside := by
  intro span member
  cases List.mem_singleton.mp member
  have readerLe := b.reader_le_writer
  have writerLe := b.writer_le_size
  unfold Span.Inside readableBytes
  dsimp only
  omega

/-- What `MakeSpace` moves within the vector it moves to the left: the target of
`std::copy` starts before its source. -/
theorem spans_makeSpace {b : Buffer} {len : Nat} (short : b.writableBytes < len) :
    (b.makeSpace len).spans = [] ∨
      ∃ source target, (b.makeSpace len).spans = [source, target] ∧
        source.Inside ∧ target.Inside ∧ target.pos < source.pos := by
  unfold makeSpace
  split
  · exact Or.inl rfl
  · rename_i roomy
    have moved : b.peek.value.length = b.readableBytes := b.length_readable
    refine Or.inr ⟨_, _, rfl, b.inside_peek _ (List.mem_singleton_self _), ?_, ?_⟩
    · have writerLe := b.writer_le_size
      simp only [Span.Inside, moved, readableBytes]
      omega
    · dsimp only
      omega

theorem inside_ensureWritableBytes (b : Buffer) (len : Nat) :
    ∀ span ∈ (b.ensureWritableBytes len).spans, span.Inside := by
  intro span member
  unfold ensureWritableBytes at member
  split at member
  · rename_i short
    rcases spans_makeSpace short with grown | ⟨source, target, both, sourceIn, targetIn, -⟩
    · rw [grown] at member
      cases member
    · rw [both, List.mem_pair] at member
      rcases member with rfl | rfl
      · exact sourceIn
      · exact targetIn
  · cases member

theorem inside_write {b : Buffer} {data : Bytes} {room : data.length ≤ b.writableBytes} :
    ∀ span ∈ (b.write data room).spans, span.Inside := by
  intro span member
  cases List.mem_singleton.mp member
  have writerLe := b.writer_le_size
  unfold Span.Inside
  unfold writableBytes at room
  dsimp only
  omega

/-- No call leaves the vector. -/
theorem inside_of_mem_spans {b : Buffer} {next : Call} {span : Span}
    (member : span ∈ b.spans next) : span.Inside := by
  cases next with
  | append data =>
      rcases List.mem_append.mp member with slid | written
      · exact b.inside_ensureWritableBytes data.length span slid
      · exact inside_write span written
  | retrieveAllAsString => exact b.inside_peek span member
  | retrieve len => cases member
  | retrieveAll => cases member

/-- A call of the buffer is the same call of its readable bytes. -/
theorem queueCall_of_call {b next : Buffer} {made : Call} {answer : Option Bytes}
    (step : b.call made = some (answer, next)) :
    queueCall b.readable made = some (answer, next.readable) := by
  cases made with
  | append data =>
      cases step
      rw [readable_append]
      rfl
  | retrieve len =>
      cases step
      rw [readable_retrieve, queueCall]
      by_cases short : len ≤ b.readable.length
      · rw [Nat.min_eq_left short]
      · rw [Nat.min_eq_right (Nat.le_of_not_le short), List.drop_length,
          List.drop_eq_nil_of_le (Nat.le_of_not_le short)]
  | retrieveAll =>
      cases step
      rw [readable_retrieveAll]
      rfl
  | retrieveAllAsString =>
      cases step
      rw [readable_retrieveAll]
      rfl

/-- Whatever the initial size and the calls, the buffer answers as a byte queue,
its indices stay in order, and the next call stays inside the vector. -/
theorem buffer_is_byte_queue {initialSize : Nat} {history : List (Call × Option Bytes)}
    {b : Buffer} (runs : Runs (Answers call) (new initialSize) history b) :
    Runs (Answers queueCall) [] history b.readable ∧
      (b.readerIndex ≤ b.writerIndex ∧ b.writerIndex ≤ b.buffer.length) ∧
      ∀ next, ∀ span ∈ b.spans next, span.Inside := by
  refine ⟨?_, ⟨b.reader_le_writer, b.writer_le_size⟩, fun _ _ => inside_of_mem_spans⟩
  refine runs.refines readable ?_ (fun _ _ _ _ (always : True) _ => always) ?_
  · trivial
  · intro state action answer successor _ step
    exact queueCall_of_call step

/-- A run of an empty buffer that grows, slides and is drained. -/
def slidingCalls : List (Call × Option Bytes) :=
  [(.append [1, 2, 3], none), (.retrieve 2, none), (.append [4, 5], none),
    (.retrieveAllAsString, some [3, 4, 5]), (.retrieve 7, none)]

theorem slidingCalls_as_queue :
    ∃ b, Runs (Answers call) (new 0) slidingCalls b ∧
      Runs (Answers queueCall) [] slidingCalls b.readable ∧
      (b.readerIndex ≤ b.writerIndex ∧ b.writerIndex ≤ b.buffer.length) ∧
      ∀ next, ∀ span ∈ b.spans next, span.Inside := by
  have run : ∃ b, Runs (Answers call) (new 0) slidingCalls b := by
    apply exists_runs (slidingCalls.map Prod.fst)
    decide +kernel
  rcases run with ⟨b, runs⟩
  exact ⟨b, runs, buffer_is_byte_queue runs⟩

end Buffer

end Mprpc.Net
