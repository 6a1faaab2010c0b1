import Rso.Lib.Transfer
import Rso.Socket.Wire

/-!
# The server child

`main` forks a child for each connection.  The child reads requests in a loop
and answers them, and exits when the peer closes the connection or sends a wrong
request.

The source keeps the result of `read` and `write` in a `size_t`.  A failed call
then counts as the largest number of bytes, and the branches for negative counts
are never taken; the model has them where the source does.
-/

namespace Rso.Socket.Server

open Proc

variable {σ : Type}

/-! ## Reading and writing -/

/-- One pass of the loop in `read_wrapper`. -/
def readPass (host : Host σ) (t : Transfer) : Proc σ (Transfer ⊕ Mem × Int32) := do
  if 0 < t.left then
    let result ← call (host.read t.pointer t.left)
    let t := { t with mem := t.mem.received t.pointer result }
    let currentRead := (ssize (result.map List.length)).toUInt64
    if currentRead ≤ 0 then
      if currentRead = 0 then
        call host.close
        exit 1 "End of the file reached!"
      else if currentRead < 0 then
        call host.close
        exit 1 (host.strerror (errno result))
      else return .inl t
    else return .inl (t.advance currentRead)
  else return .inr (t.mem, t.total.toUInt32.toInt32)

/-- Fills the object with `size` bytes; returns it and their number. -/
def readWrapper (host : Host σ) (buffer : Mem) (size : UInt64) : Proc σ (Mem × Int32) :=
  loop (readPass host) host.fuel (.start size buffer)

/-- One pass of the loop in `write_wrapper`. -/
def writePass (host : Host σ) (t : Transfer) : Proc σ (Transfer ⊕ Int32) := do
  if 0 < t.left then
    let result ← call (host.write t.pointer t.left t.mem)
    let currentWritten := (ssize result).toUInt64
    if currentWritten ≤ 0 then
      if currentWritten = 0 then
        call host.close
        exit 1 "End of the file reached!"
      else if currentWritten < 0 then
        call host.close
        exit 1 (host.strerror (errno result))
      else return .inl t
    else return .inl (t.advance currentWritten)
  else return .inr t.total.toUInt32.toInt32

def writeWrapper (host : Host σ) (buffer : Mem) (size : UInt64) : Proc σ Int32 :=
  loop (writePass host) host.fuel (.start size buffer)

/-! ## The handlers -/

/-- The server's system, with the library functions its answers depend on: `sqrt`
on the bits of a double, and the current date as `strftime` writes it. -/
structure ServerHost (σ : Type) extends Host σ where
  sqrt : UInt64 → UInt64
  strftime : σ → CString 59 × σ

/-- Reads an operand and puts its root in the object `result`.  Returns the
object and, for statements to refer to, the operand. -/
def rootSquareComputer (host : ServerHost σ) (result : Mem) (size : ℕ) :
    Proc σ (Mem × UInt64) := do
  let number ← call host.object
  let (number, _) ← readWrapper host.toHost number 8
  let valueForHost := be64toh host.order (loadU64 host.order (number.read 0 8))
  let outputValue := host.sqrt valueForHost
  let networkResult := htobe64 host.order outputValue
  return (result.write 0 ((storeU64 host.order networkResult).take size), valueForHost)

/-- Answers a root request.  Returns the operand. -/
def squareRootHandler (host : ServerHost σ) (reqId : UInt32) : Proc σ UInt64 := do
  let result ← call host.object
  let (result, operand) ← rootSquareComputer host result 8
  let resultCoded ← call host.object
  let rootCodeResult := htonl host.order rootAnswerCode
  let resultCoded := resultCoded.write 0 (storeU32 host.order rootCodeResult)
  let resultCoded := resultCoded.write 4 (storeU32 host.order reqId)
  let resultCoded := resultCoded.write 8 (result.read 0 8)
  let _ ← writeWrapper host.toHost resultCoded 16
  return operand

/-- `strlen` of a text in the first `n` bytes of an object. -/
def strlen (m : Mem) (n : ℕ) : ℕ := (cString (m.read 0 n)).length

/-- Answers a date request. -/
def dateHandler (host : ServerHost σ) (reqId : UInt32) : Proc σ Unit := do
  let napis ← call host.object
  let date ← call host.strftime
  let napis := napis.write 0 (date.bytes ++ [0])
  let lengthDate := UInt32.ofNat (strlen napis 60)
  match ← call (host.malloc (12 + lengthDate).toUInt64) with
  | none => exit 1 "Error allocating memory!"
  | some responseEncoded =>
    let nResponseCode := htonl host.order dateAnserCode
    let responseEncoded := responseEncoded.write 0 (storeU32 host.order nResponseCode)
    let responseEncoded := responseEncoded.write 4 (storeU32 host.order reqId)
    let dateLength := UInt32.ofNat (strlen napis 60)
    let nDateLength := htonl host.order dateLength
    let responseEncoded := responseEncoded.write 8 (storeU32 host.order nDateLength)
    let responseEncoded := responseEncoded.write 12 (napis.read 0 (strlen napis 60))
    let _ ← writeWrapper host.toHost responseEncoded (12 + lengthDate).toUInt64

/-! ## The loop -/

/-- What a pass did: the operation it answered, and where it took the id from, as
an offset into the header. -/
structure Served where
  operation : Operation
  reqIdAt : UInt64
deriving DecidableEq, Repr

/-- The `switch` of the loop. -/
def answerRequest (host : ServerHost σ) (selectorL reqId : UInt32) : Proc σ Operation := do
  if selectorL = rootRequestCode then
    let operand ← squareRootHandler host reqId
    return .root operand
  else if selectorL = dateRequestCode then
    dateHandler host reqId
    return .date
  else exit 1 "Wrong request\n"

/-- One pass of the child's loop.  For the id `sizeof(uint32_t)` is added to a
`uint64_t *`, so it counts in units of eight bytes. -/
def serveRequest (host : ServerHost σ) : Proc σ Served := do
  let selectorReqIdBuffer ← call host.object
  let (selectorReqIdBuffer, _) ← readWrapper host.toHost selectorReqIdBuffer 8
  let selectorL := loadU32 host.order (selectorReqIdBuffer.read 0 4)
  let reqIdAt : UInt64 := 4 * 8
  let reqId := loadU32 host.order (selectorReqIdBuffer.read reqIdAt 4)
  let selectorL := ntohl host.order selectorL
  let operation ← answerRequest host selectorL reqId
  return ⟨operation, reqIdAt⟩

/-- The first passes of the child's loop. -/
def childLoop (host : ServerHost σ) (passes : ℕ) (s : σ) : Trace σ Served :=
  forever (fun _ => serveRequest host) passes 0 s

end Rso.Socket.Server
