import Mprpc.Data.Bytes

/-!
# Results of socket calls

What `send` and `recv` return is the environment's choice.  The model carries
each result as data: the count or the bytes of a call that succeeds, the error
number of one that returns `-1`.
-/

namespace Mprpc.Net

/-- Descriptor numbers. -/
abbrev Fd := Nat

/-- Values of `errno`. -/
abbrev Errno := Nat

/-- Interrupted system call. -/
def EINTR : Errno := 4

/-- Nothing to do now on a non-blocking descriptor; `EWOULDBLOCK` is the same
number. -/
def EAGAIN : Errno := 11

/-- A connection that the peer has reset. -/
def ECONNRESET : Errno := 104

/-- The result of one `send`. -/
inductive SendRet
  | sent (count : Nat)
  | error (errno : Errno)
  deriving DecidableEq, Repr

/-- The result of one `recv`.  `received []` is the return value 0, the end of
the peer's stream. -/
inductive RecvRet
  | received (bytes : Bytes)
  | error (errno : Errno)
  deriving DecidableEq, Repr

end Mprpc.Net
