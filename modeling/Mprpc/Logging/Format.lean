import Mprpc.Logging.Core
import Mprpc.Net.Buffer

/-!
# The formatting buffer of `write_log`

`snprintf` and `vsnprintf` store no more than the size they are given, but the
size given to `vsnprintf` counts from the start of `m_buf`, and both return the
length that the text would have had.  The newline and the terminator go where
that length says.  So a line stays inside `m_buf` just as long as heading,
message and the last two bytes fit together, and then `m_buf` holds the line.
-/

namespace Mprpc.Logging

open Mprpc.Net

/-- The time of a line: `my_tm` and the microseconds. -/
structure Stamp extends Tm where
  hour : Nat
  min : Nat
  sec : Nat
  usec : Nat
  deriving DecidableEq, Repr

/-- The text of a level. -/
def levelText : Int → Bytes
  | 0 => Bytes.ofString "[debug]:"
  | 1 => Bytes.ofString "[info]:"
  | 2 => Bytes.ofString "[warn]:"
  | 3 => Bytes.ofString "[error]:"
  | _ => Bytes.ofString "[info]:"

/-- The conversion `%06ld`. -/
def sixDigits (n : Nat) : Bytes :=
  List.replicate (6 - (Bytes.ofNat n).length) 48 ++ Bytes.ofNat n

/-- The format `%d-%02d-%02d %02d:%02d:%02d.%06ld %s `. -/
def heading (level : Int) (now : Stamp) : Bytes :=
  Bytes.ofNat (now.year + 1900) ++ Bytes.ofString "-" ++ twoDigits (now.mon + 1) ++
    Bytes.ofString "-" ++ twoDigits now.mday ++ Bytes.ofString " " ++ twoDigits now.hour ++
    Bytes.ofString ":" ++ twoDigits now.min ++ Bytes.ofString ":" ++ twoDigits now.sec ++
    Bytes.ofString "." ++ sixDigits now.usec ++ Bytes.ofString " " ++ levelText level ++
    Bytes.ofString " "

/-- Bytes that are stored from an index of `m_buf` on. -/
structure Store where
  pos : Nat
  data : Bytes
  deriving DecidableEq, Repr

/-- The store writes the index. -/
def Store.Writes (store : Store) (i : Nat) : Prop :=
  store.pos ≤ i ∧ i < store.pos + store.data.length

/-- `snprintf(m_buf + pos, size, ...)`, and `vsnprintf`, with a positive size. -/
def printAt (pos size : Nat) (text : Bytes) : Store :=
  ⟨pos, snprintf size text ++ [0]⟩

/-- What `write_log` stores in an `m_buf` of the given size. -/
def stores (logBufSize : Nat) (start message : Bytes) : List Store :=
  let n := start.length
  let m := message.length
  [printAt 0 48 start, printAt n (logBufSize - 1) message, ⟨n + m, [10]⟩, ⟨n + m + 1, [0]⟩]

theorem length_snprintf_le (size : Nat) (text : Bytes) :
    (snprintf size text).length ≤ size - 1 ∧ (snprintf size text).length ≤ text.length := by
  unfold snprintf
  exact ⟨List.length_take_le _ _, List.length_take_le' _ _⟩

/-- The last store is the terminator. -/
theorem terminator_mem (logBufSize : Nat) (start message : Bytes) :
    ⟨start.length + message.length + 1, [0]⟩ ∈ stores logBufSize start message := by
  simp [stores]

theorem Store.writes_pos (pos : Nat) (c : UInt8) : Store.Writes ⟨pos, [c]⟩ pos :=
  ⟨Nat.le_refl pos, Nat.lt_succ_self pos⟩

/-- The four stores stay inside the buffer just when the heading, the message, the
newline and the terminator fit together. -/
theorem stores_inside_iff {logBufSize : Nat} (size : 64 ≤ logBufSize) (level : Int) (now : Stamp)
    (message : Bytes) :
    (∀ store ∈ stores logBufSize (heading level now) message, ∀ i, store.Writes i →
        i < logBufSize) ↔
      (heading level now).length + message.length + 2 ≤ logBufSize := by
  constructor
  · intro inside
    have last := inside _ (terminator_mem ..) _ (Store.writes_pos _ 0)
    omega
  · intro fits store member i writes
    rcases writes with ⟨-, before⟩
    simp only [stores, printAt, List.mem_cons, List.not_mem_nil, or_false] at member
    rcases member with rfl | rfl | rfl | rfl
    · have cut := (length_snprintf_le 48 (heading level now)).1
      simp only [List.length_append, List.length_singleton] at before
      omega
    · have cut := (length_snprintf_le (logBufSize - 1) message).2
      simp only [List.length_append, List.length_singleton] at before
      omega
    · simp only [List.length_singleton] at before
      omega
    · simp only [List.length_singleton] at before
      omega

/-- The time in the examples below. -/
def exampleStamp : Stamp where
  year := 126
  mon := 4
  mday := 3
  hour := 12
  min := 34
  sec := 56
  usec := 789

/-- A request header of 2000 bytes that does not parse, logged into the buffer of
2000 bytes that the application asks for. -/
theorem stores_outside_of_long_header :
    ∃ store ∈ stores 2000 (heading 3 exampleStamp)
      (Bytes.ofString "rpc_header_str:" ++ List.replicate 2000 7 ++
        Bytes.ofString " parse error!"), ∃ i, store.Writes i ∧ ¬ i < 2000 := by
  refine ⟨_, terminator_mem .., _, Store.writes_pos _ 0, ?_⟩
  simp only [List.length_append, List.length_replicate]
  omega

/-- A line that fills the smallest of the buffers to the last byte. -/
theorem stores_inside_iff_full :
    (∀ store ∈ stores 64 (heading 3 exampleStamp) (List.replicate 26 120), ∀ i, store.Writes i →
        i < 64) ↔
      (heading 3 exampleStamp).length + (List.replicate 26 (120 : UInt8)).length + 2 ≤ 64 :=
  stores_inside_iff (by decide) 3 exampleStamp (List.replicate 26 120)

/-! ## The line -/

/-- Store by store. -/
def written (buf : Bytes) (all : List Store) : Bytes :=
  all.foldl (fun buf store => overwrite buf store.pos store.data) buf

/-- A store behind a text at the start of the buffer extends it. -/
theorem isPrefix_overwrite {buf front : Bytes} {pos : Nat} (begins : front <+: buf)
    (behind : pos = front.length) (data : Bytes) : front ++ data <+: overwrite buf pos data := by
  rcases begins with ⟨old, rfl⟩
  rw [overwrite, behind, List.take_left]
  exact List.prefix_append _ _

/-- A line that fits is the heading, the message and a newline: `log_str = m_buf`. -/
theorem cString_written {logBufSize : Nat} {start message : Bytes} (short : start.length < 48)
    (fits : start.length + message.length + 2 ≤ logBufSize) (noTerminator : 0 ∉ start ++ message)
    (buf : Bytes) :
    Bytes.cString (written buf (stores logBufSize start message)) = start ++ message ++ [10] := by
  have wholeStart : snprintf 48 start = start := List.take_of_length_le (by omega)
  have wholeMessage : snprintf (logBufSize - 1) message = message :=
    List.take_of_length_le (by omega)
  unfold written stores printAt
  simp only [List.foldl_cons, List.foldl_nil, wholeStart, wholeMessage]
  have first : start <+: overwrite buf 0 (start ++ [0]) :=
    (List.prefix_append start [0]).trans (isPrefix_overwrite List.nil_prefix rfl (start ++ [0]))
  have second := isPrefix_overwrite first rfl (message ++ [0])
  rw [← List.append_assoc] at second
  have third := isPrefix_overwrite ((List.prefix_append _ _).trans second)
    List.length_append.symm [10]
  have behind : start.length + message.length + 1 = (start ++ message ++ [10]).length := by
    rw [List.length_append, List.length_append, List.length_singleton]
  have fourth := isPrefix_overwrite third behind [0]
  rcases fourth with ⟨rest, same⟩
  rw [← same, List.append_assoc _ [0]]
  refine Bytes.cString_append_zero ?_ rest
  rw [List.mem_append]
  rintro (inside | newline)
  · exact noTerminator inside
  · cases List.mem_singleton.mp newline

end Mprpc.Logging
