import Mprpc.Data.AssocMap
import Mprpc.Data.Bytes
import Mathlib.Data.List.DropRight

/-!
# The configuration file

`MprpcConfig::LoadConfigFile` reads a file with `fgets` into a buffer of 512
bytes until `feof` and takes every text it got for a line.  A stream here is
what it has left, how it ends, and its end-of-file flag, which only an attempt
to read beyond the last byte sets.
-/

namespace Mprpc.Config

/-- What a read finds behind the last byte of a stream. -/
inductive StreamEnd where
  | endOfFile
  | readError
deriving DecidableEq, Repr

/-- A `FILE` opened for reading. -/
structure FileStream where
  data : Bytes
  ending : StreamEnd
  eof : Bool

/-- The stream that `fopen` gives for a file with a text. -/
def FileStream.ofText (text : Bytes) : FileStream :=
  ⟨text, .endOfFile, false⟩

/-- The byte loop of `fgets` with room for some bytes: what it takes, what it
leaves, and whether it has asked for a byte behind the last one. -/
def getLine : Nat → Bytes → Bytes × Bytes × Bool
  | 0, data => ([], data, false)
  | _ + 1, [] => ([], [], true)
  | room + 1, c :: rest =>
      if c = 10 then ([c], rest, false)
      else
        let (read, left, ended) := getLine room rest
        (c :: read, left, ended)

/-- `fgets(buf, size, pf)`: the bytes put into the buffer, and the stream after it. -/
def FileStream.fgets (size : Nat) (pf : FileStream) : Bytes × FileStream :=
  let (read, left, ended) := getLine (size - 1) pf.data
  (read, { pf with
    data := left
    eof := pf.eof || (ended && pf.ending == .endOfFile) })

/-- `std::string::find(c, pos)` as an `int`: `npos` becomes -1. -/
def find (text : Bytes) (c : UInt8) (pos : Nat) : Int :=
  match (text.drop pos).idxOf? c with
  | some idx => pos + idx
  | none => -1

/-- An `int` given for a `size_t`. -/
def sizeOfInt (n : Int) : Nat :=
  (n % 2 ^ 64).toNat

/-- The index that `find_last_not_of(' ')` gives. -/
def findLastNotSpace (text : Bytes) : Option Nat :=
  (text.reverse.findIdx? (· ≠ 32)).map fun idx => text.length - 1 - idx

/-- `MprpcConfig::Trim`.  Neither search finds anything in a text of spaces
only, which therefore stays. -/
def trim (srcBuf : Bytes) : Bytes :=
  let front :=
    match srcBuf.findIdx? (· ≠ 32) with
    | some idx => srcBuf.drop idx
    | none => srcBuf
  match findLastNotSpace front with
  | some idx => front.take (idx + 1)
  | none => front

/-- The entry that a pass of the loop inserts for the text in its buffer, unless
it goes on to the next one. -/
def parseLine (buf : Bytes) : Option (Bytes × Bytes) :=
  let srcBuf := trim (Bytes.cString buf)
  if srcBuf.head? = some 35 ∨ srcBuf = [] then none
  else
    let idx := find srcBuf 61 0
    if idx = -1 then none
    else
      let key := trim (srcBuf.take idx.toNat)
      let endidx := find srcBuf 10 idx.toNat
      -- without a newline the count is negative, and as a `size_t` it runs to the end
      let value := (srcBuf.drop (idx + 1).toNat).take (sizeOfInt (endidx - idx - 1))
      some (key, trim value)

end Mprpc.Config

namespace Mprpc

/-- `MprpcConfig`. -/
structure MprpcConfig where
  configMap : AssocMap Bytes Bytes

namespace MprpcConfig

open Mprpc.Config

/-- `char buf[512] = {0}` after `fgets` has stored some bytes and a terminator. -/
def lineBuffer (read : Bytes) : Bytes :=
  read ++ List.replicate (512 - read.length) 0

/-- The rest of a pass of the loop, after `fgets`. -/
def addLine (config : MprpcConfig) (read : Bytes) : MprpcConfig :=
  match parseLine (lineBuffer read) with
  | some (key, value) => { config with configMap := config.configMap.insertNew key value }
  | none => config

/-- `while(!feof(pf))`: the result if the loop ends within a number of tests. -/
def loadLoop (config : MprpcConfig) (pf : FileStream) : Nat → Option MprpcConfig
  | 0 => none
  | passes + 1 =>
      if pf.eof then some config
      else
        let (read, pf') := pf.fgets 512
        (config.addLine read).loadLoop pf' passes

/-- How `LoadConfigFile` ends. -/
inductive LoadEnd where
  | exits (printed : Bytes) (status : Nat)
  | returns (config : MprpcConfig)

/-- `MprpcConfig::LoadConfigFile`, given what `fopen` does with the name. -/
def loadConfigFile (config : MprpcConfig) (fopen : Bytes → Option FileStream) (configFile : Bytes)
    (passes : Nat) : Option LoadEnd :=
  match fopen configFile with
  | none => some (.exits (configFile ++ Bytes.ofString " is not exist!\n") 1)
  | some pf => (config.loadLoop pf passes).map .returns

/-- `MprpcConfig::Load`. -/
def load (config : MprpcConfig) (key : Bytes) : Bytes :=
  (config.configMap.lookup key).getD []

end MprpcConfig

end Mprpc
