import Rso.Lib.Transfer
import Rso.Socket.Wire

/-!
# The client

The client has two threads.  The one of `main` sends a request for each choice
from the menu and counts the requests of each kind.  The other one runs
`incomming_request_handler`: it reads answers, checks their ids against the
counters, and prints them.

The counters and `should_run` are global variables.  Each pass of the receiving
loop reads them anew, so the loop is told for each pass what it reads, and
nothing is assumed of how the values of different passes hang together.
-/

namespace Rso.Socket.Client

open Proc

variable {σ : Type}

/-! ## Reading and writing -/

/-- One pass of the loop in `read_wrapper`. -/
def readPass (host : Host σ) (t : Transfer) : Proc σ (Transfer ⊕ Mem × Int32) := do
  if 0 < t.left then
    let result ← call (host.read t.pointer t.left)
    let t := { t with mem := t.mem.received t.pointer result }
    let currentRead := ssize (result.map List.length)
    if currentRead ≤ 0 then
      if currentRead = 0 then
        call host.close
        return .inr (t.mem, 0)
      else if currentRead < 0 then
        if errno result = eintr then return .inl t
        else
          call host.close
          return .inr (t.mem, -1)
      else return .inl t
    else return .inl (t.advance currentRead.toUInt64)
  else return .inr (t.mem, t.total.toUInt32.toInt32)

/-- Fills the object with `size` bytes; returns it and their number, or 0 at end
of file, or -1. -/
def readWrapper (host : Host σ) (buffer : Mem) (size : UInt64) : Proc σ (Mem × Int32) :=
  loop (readPass host) host.fuel (.start size buffer)

/-- One pass of the loop in `write_wrapper`. -/
def writePass (host : Host σ) (t : Transfer) : Proc σ (Transfer ⊕ Int32) := do
  if 0 < t.left then
    let result ← call (host.write t.pointer t.left t.mem)
    let currentWritten := ssize result
    if currentWritten ≤ 0 then
      if currentWritten = 0 then
        call host.close
        exit 1 "End of the file reached!"
      else if currentWritten < 0 then
        call host.close
        exit 1 (host.strerror (errno result))
      else return .inl t
    else return .inl (t.advance currentWritten.toUInt64)
  else return .inr t.total.toUInt32.toInt32

def writeWrapper (host : Host σ) (buffer : Mem) (size : UInt64) : Proc σ Int32 :=
  loop (writePass host) host.fuel (.start size buffer)

/-! ## Requests -/

/-- The global counters. -/
structure Counters where
  rootRequestCounter : Int32
  dateRequestCounter : Int32
deriving DecidableEq, Repr

/-- Sends a root request for the bits of a double. -/
def performSquareRootRequest (host : Host σ) (myDigitBits : UInt64) (counters : Counters) :
    Proc σ Counters := do
  let nMyDigitBits := htobe64 host.order myDigitBits
  let requestId := counters.rootRequestCounter.toUInt32
  let requestCoded ← call host.object
  let nRequestCode := htonl host.order rootRequestCode
  let nRequestId := htonl host.order requestId
  let requestCoded := requestCoded.write 0 (storeU32 host.order nRequestCode)
  let requestCoded := requestCoded.write 4 (storeU32 host.order nRequestId)
  let requestCoded := requestCoded.write (4 + 4) (storeU64 host.order nMyDigitBits)
  let _ ← writeWrapper host requestCoded 16
  return { counters with rootRequestCounter := counters.rootRequestCounter + 1 }

/-- Sends a date request. -/
def performDateRequest (host : Host σ) (counters : Counters) : Proc σ Counters := do
  let requestId := counters.dateRequestCounter.toUInt32
  let requestCoded ← call host.object
  let nRequestCode := htonl host.order dateRequestCode
  let nRequestId := htonl host.order requestId
  let requestCoded := requestCoded.write 0 (storeU32 host.order nRequestCode)
  let requestCoded := requestCoded.write 4 (storeU32 host.order nRequestId)
  let _ ← writeWrapper host requestCoded 8
  return { counters with dateRequestCounter := counters.dateRequestCounter + 1 }

/-- What `main` sends for one choice. -/
def performRequest (host : Host σ) : Operation → Counters → Proc σ Counters
  | .root myDigitBits => performSquareRootRequest host myDigitBits
  | .date => performDateRequest host

/-- What `main` sends for one choice after the other. -/
def performRequests (host : Host σ) : List Operation → Counters → Proc σ Counters
  | [], counters => pure counters
  | operation :: operations, counters => do
      performRequests host operations (← performRequest host operation counters)

/-! ## Answers -/

/-- What is printed for an answer: the bits of a result, or a text. -/
inductive Report where
  | root (result : UInt64)
  | date (text : List UInt8)
deriving DecidableEq, Repr

/-- Reads a text behind its length and prints it. -/
def proceedDateAnswer (host : Host σ) : Proc σ Report := do
  let dataLength ← call host.object
  let (dataLength, _) ← readWrapper host dataLength 4
  let hDataLength := ntohl host.order (loadU32 host.order (dataLength.read 0 4))
  match ← call (host.malloc (hDataLength.toUInt64 + 1)) with
  | none => exit 1 "Error allocating memory!"
  | some date =>
    let (date, _) ← readWrapper host date hDataLength.toUInt64
    let date := date.write hDataLength.toUInt64 [0]
    return .date (cString (date.read 0 (hDataLength.toNat + 1)))

/-- Reads a result and prints it. -/
def proceedRootAnswer (host : Host σ) : Proc σ Report := do
  let requestCoded ← call host.object
  let requestCoded := requestCoded.write 0 (List.replicate 8 0)
  let (requestCoded, _) ← readWrapper host requestCoded 8
  let result ← call host.object
  let result := result.write 0 (requestCoded.read 0 8)
  return .root (be64toh host.order (loadU64 host.order (result.read 0 8)))

/-- The globals as one pass of the receiving loop reads them. -/
structure Shared where
  shouldRun : Int32
  counters : Counters
deriving DecidableEq, Repr

/-- The `switch` of the receiving loop.  The comparison of an `int` with a `uint32_t` is
unsigned. -/
def proceedAnswer (host : Host σ) (counters : Counters) (header : Header) : Proc σ Report := do
  if header.code = rootAnswerCode then
    if counters.rootRequestCounter.toUInt32 < header.id then exit 1 "Wrong request id!"
    else proceedRootAnswer host
  else if header.code = dateAnserCode then
    if counters.dateRequestCounter.toUInt32 < header.id then exit 1 "Wrong request id!"
    else proceedDateAnswer host
  else exit 1 "Wrong answer code!"

/-- One pass of the receiving loop. -/
def receiveAnswer (host : Host σ) (shared : Shared) : Proc σ Report := do
  if shared.shouldRun = 0 then throw .finished
  else
    let answerCodeRequestId ← call host.object
    let (answerCodeRequestId, _) ← readWrapper host answerCodeRequestId 8
    let hAnswerCode := loadU32 host.order (answerCodeRequestId.read 0 4)
    let hRequestId := loadU32 host.order (answerCodeRequestId.read 4 4)
    let hAnswerCode := ntohl host.order hAnswerCode
    let hRequestId := ntohl host.order hRequestId
    proceedAnswer host shared.counters ⟨hAnswerCode, hRequestId⟩

/-- The first passes of the receiving loop. -/
def incommingRequestHandler (host : Host σ) (shared : ℕ → Shared) (passes : ℕ) (s : σ) :
    Trace σ Report :=
  forever (fun i => receiveAnswer host (shared i)) passes 0 s

end Rso.Socket.Client
