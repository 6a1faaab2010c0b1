import Rso.Lib.Pipe
import Rso.Socket.ClientSession
import Rso.Socket.Requests

/-!
# The client, the child and the connection between them

Three threads run at the same time: `main` of the client, which sends a request
for each choice from the menu; the child that serves the connection; the thread
that receives the answers.  Two pipes of bounded capacity connect them.  A
thread stands between two calls, and `Network.step` is one call of one of them,
or the work between two calls.  A call moves as many bytes as it likes, so the
schedules of `Network.step` are all interleavings and all chunkings.

A thread is described by what its wrapper call has moved so far: `got` are the
bytes of the present request or answer that were read, `left` are those of it
that are still to be written.  `Child.missing` and `Receiver.missing` are the
`total_left` of the calls of `read_wrapper`, one call after the other.

The choices are followed by a 3, or by none, and then `main` waits for more input for as
long as the session goes on.  Behind a 3 `main` sets `should_run` to 0, cancels the
receiving thread, closes the socket and exits.  Whatever the other thread does in the
meantime it could have done before, so all of this is one step (`leave`).
-/

namespace Rso.Socket

open Client Server

/-! ## The threads -/

/-- `main` of the client. -/
structure Sender where
  /-- The choices to come. -/
  todo : List Operation
  /-- Whether they are followed by a 3. -/
  closes : Bool
  /-- The choice whose request is not yet counted. -/
  busy : Option Operation
  left : List UInt8
  counters : Counters

namespace Sender

/-- The next choice, as far as the call of `write_wrapper`. -/
def choose (s : Sender) : Option Sender :=
  match s.busy, s.todo with
  | none, operation :: todo =>
      some { s with
        todo := todo
        busy := some operation
        left := Request.grammar.encode (s.counters.request operation) }
  | _, _ => none

/-- The increment behind the call of `write_wrapper`. -/
def count (s : Sender) : Option Sender :=
  match s.busy, s.left with
  | some operation, [] => some { s with busy := none, counters := s.counters.next operation }
  | _, _ => none

/-- Nothing is left to do but to leave. -/
def Leaves (s : Sender) : Prop := s.busy = none ∧ s.todo = [] ∧ s.closes = true

instance (s : Sender) : Decidable s.Leaves := inferInstanceAs (Decidable (_ ∧ _))

end Sender

/-- The child that serves the connection. -/
structure Child where
  got : List UInt8
  left : List UInt8
  /-- How many unset objects it has had. -/
  draws : ℕ
  /-- It took the exit `Wrong request`. -/
  exited : Bool

namespace Child

/-- How many bytes the next `read` asks for; none when the request is read. -/
def missing (got : List UInt8) : ℕ :=
  if got.length < 8 then 8 - got.length
  else if (Header.ofBytes (got.take 8)).code = rootRequestCode then 16 - got.length
  else 0

/-- What the `switch` makes of the bytes. -/
def operation (got : List UInt8) : Option Operation :=
  if (Header.ofBytes (got.take 8)).code = rootRequestCode then
    some (.root (loadU64 .big (got.drop 8)))
  else if (Header.ofBytes (got.take 8)).code = dateRequestCode then some .date
  else none

/-- The `switch` and a handler, as far as the call of `write_wrapper`. -/
def serve (env : ServerEnvironment) (s : Child) : Option Child :=
  if s.left = [] ∧ missing s.got = 0 then
    match operation s.got with
    | some operation =>
        some { s with
          got := []
          left := Answer.grammar.encode (env.answer s.draws operation)
          draws := s.draws + 4 }
    | none => some { s with exited := true }
  else none

end Child

/-- The thread that receives the answers. -/
structure Receiver where
  got : List UInt8
  /-- The id in `got` has passed the check. -/
  passed : Bool
  reports : List Report

namespace Receiver

/-- How many bytes the next `read` asks for; none when the answer is read. -/
def missing (got : List UInt8) : ℕ :=
  if got.length < 8 then 8 - got.length
  else if (Header.ofBytes (got.take 8)).code = rootAnswerCode then 16 - got.length
  else if got.length < 12 then 12 - got.length
  else 12 + (loadU32 .big ((got.drop 8).take 4)).toNat - got.length

/-- What is printed for the bytes. -/
def report (got : List UInt8) : Report :=
  if (Header.ofBytes (got.take 8)).code = rootAnswerCode then
    .root (loadU64 .big (got.drop 8))
  else .date (cString (got.drop 12))

/-- The end of a pass. -/
def print (s : Receiver) : Option Receiver :=
  if s.passed = true ∧ missing s.got = 0 then
    some ⟨[], false, s.reports ++ [report s.got]⟩
  else none

end Receiver

/-! ## The system -/

/-- The two processes and the connection. -/
structure Network (up down : ℕ) where
  sender : Sender
  requests : Pipe up
  child : Child
  answers : Pipe down
  receiver : Receiver
  /-- The client has exited with this message. -/
  exited : Option String

namespace Network

/-- One call of a thread, or its work between two calls. -/
inductive Action where
  /-- `main` takes the next choice. -/
  | choose
  /-- It writes so many bytes. -/
  | write (n : ℕ)
  /-- It counts the request. -/
  | count
  /-- It takes the choice 3. -/
  | leave
  /-- The child reads so many bytes. -/
  | read (n : ℕ)
  /-- It makes an answer. -/
  | serve
  /-- It writes so many bytes. -/
  | answer (n : ℕ)
  /-- The receiving thread reads so many bytes. -/
  | receive (n : ℕ)
  /-- It compares the id with the counter. -/
  | compare
  /-- It prints. -/
  | print
deriving DecidableEq

variable {up down : ℕ}

/-- The two processes at the start of a session in which these choices are made, and
then a 3 or none. -/
def start (operations : List Operation) (closes : Bool) : Network up down where
  sender := ⟨operations, closes, none, [], ⟨0, 0⟩⟩
  requests := .empty
  child := ⟨[], [], 0, false⟩
  answers := .empty
  receiver := ⟨[], false, []⟩
  exited := none

/-- The check of an id that was read. -/
def compare (s : Network up down) : Option (Network up down) :=
  if s.receiver.passed = false ∧ 8 ≤ s.receiver.got.length then
    if Accepts s.sender.counters (Header.ofBytes (s.receiver.got.take 8)) then
      some { s with receiver := { s.receiver with passed := true } }
    else if (Header.ofBytes (s.receiver.got.take 8)).code = rootAnswerCode ∨
        (Header.ofBytes (s.receiver.got.take 8)).code = dateAnserCode then
      some { s with exited := some "Wrong request id!" }
    else some { s with exited := some "Wrong answer code!" }
  else none

/-- What `main` says behind the menu loop. -/
def bye : String := "\nBYE!\n"

/-- A call of one of the client's threads. -/
def stepClient (s : Network up down) : Action → Option (Network up down)
  | .choose => s.sender.choose.map fun sender => { s with sender := sender }
  | .write n => (s.requests.put n s.sender.left).map fun requests =>
      { s with
        requests := requests
        sender := { s.sender with left := s.sender.left.drop n } }
  | .count => s.sender.count.map fun sender => { s with sender := sender }
  | .leave => if s.sender.Leaves then some { s with exited := some bye } else none
  | .receive n =>
      if s.receiver.got.length < 8 ∨ s.receiver.passed = true then
        (s.answers.get n (Receiver.missing s.receiver.got)).map fun answers =>
          { s with
            answers := answers
            receiver := { s.receiver with got := s.receiver.got ++ s.answers.inside.take n } }
      else none
  | .compare => s.compare
  | .print => s.receiver.print.map fun receiver => { s with receiver := receiver }
  | _ => none

/-- A call of the child. -/
def stepChild (env : ServerEnvironment) (s : Network up down) : Action → Option (Network up down)
  | .read n =>
      if s.child.left = [] then
        (s.requests.get n (Child.missing s.child.got)).map fun requests =>
          { s with
            requests := requests
            child := { s.child with got := s.child.got ++ s.requests.inside.take n } }
      else none
  | .serve => (s.child.serve env).map fun child => { s with child := child }
  | .answer n => (s.answers.put n s.child.left).map fun answers =>
      { s with
        answers := answers
        child := { s.child with left := s.child.left.drop n } }
  | _ => none

/-- A process that has exited makes no calls. -/
def step (env : ServerEnvironment) (s : Network up down) (a : Action) :
    Option (Network up down) :=
  match a with
  | .read _ | .serve | .answer _ => if s.child.exited then none else s.stepChild env a
  | _ => if s.exited.isSome then none else s.stepClient a

/-- The counters that the ids are compared with on a schedule, one pair for each
comparison. -/
def compared (env : ServerEnvironment) : Network up down → List Action → List Counters
  | _, [] => []
  | s, a :: as =>
      match s.step env a with
      | none => []
      | some s' => (if a = .compare then [s.sender.counters] else []) ++ compared env s' as

/-- The counters of a pass of the receiving thread, by the comparisons so far. -/
def passCounters (log : List Counters) (i : ℕ) : Counters := log[i]?.getD ⟨0, 0⟩

theorem passCounters_append {log : List Counters} {i : ℕ} (counters : Counters)
    (hi : i < log.length) : passCounters (log ++ [counters]) i = passCounters log i := by
  rw [passCounters, List.getElem?_append_left hi, passCounters]

theorem passCounters_concat (log : List Counters) (counters : Counters) :
    passCounters (log ++ [counters]) log.length = counters := by
  rw [passCounters, List.getElem?_concat_length, Option.getD_some]

/-- All that a step can do. -/
inductive Next (env : ServerEnvironment) (s : Network up down) :
    Action → Network up down → Prop where
  | choose {sender : Sender} (hrunning : s.exited = none)
      (hchoose : s.sender.choose = some sender) : Next env s .choose { s with sender := sender }
  | write {n : ℕ} {requests : Pipe up} (hrunning : s.exited = none)
      (hput : s.requests.put n s.sender.left = some requests) :
      Next env s (.write n) { s with
        requests := requests
        sender := { s.sender with left := s.sender.left.drop n } }
  | count {sender : Sender} (hrunning : s.exited = none) (hcount : s.sender.count = some sender) :
      Next env s .count { s with sender := sender }
  | leave (hrunning : s.exited = none) (hleaves : s.sender.Leaves) :
      Next env s .leave { s with exited := some bye }
  | read {n : ℕ} {requests : Pipe up}
      (hget : s.requests.get n (Child.missing s.child.got) = some requests) :
      Next env s (.read n) { s with
        requests := requests
        child := { s.child with got := s.child.got ++ s.requests.inside.take n } }
  | serve {child : Child} (hserve : s.child.serve env = some child) :
      Next env s .serve { s with child := child }
  | answer {n : ℕ} {answers : Pipe down} (hput : s.answers.put n s.child.left = some answers) :
      Next env s (.answer n) { s with
        answers := answers
        child := { s.child with left := s.child.left.drop n } }
  | receive {n : ℕ} {answers : Pipe down} (hrunning : s.exited = none)
      (hwait : s.receiver.got.length < 8 ∨ s.receiver.passed = true)
      (hget : s.answers.get n (Receiver.missing s.receiver.got) = some answers) :
      Next env s (.receive n) { s with
        answers := answers
        receiver := { s.receiver with got := s.receiver.got ++ s.answers.inside.take n } }
  | pass (hrunning : s.exited = none) (hunchecked : s.receiver.passed = false)
      (hlen : 8 ≤ s.receiver.got.length)
      (hid : Accepts s.sender.counters (Header.ofBytes (s.receiver.got.take 8))) :
      Next env s .compare { s with receiver := { s.receiver with passed := true } }
  | exit {message : String} (hrunning : s.exited = none) (hunchecked : s.receiver.passed = false)
      (hlen : 8 ≤ s.receiver.got.length)
      (hid : ¬ Accepts s.sender.counters (Header.ofBytes (s.receiver.got.take 8)))
      (hmessage : message = "Wrong request id!" ∨
        ((Header.ofBytes (s.receiver.got.take 8)).code ≠ rootAnswerCode ∧
          (Header.ofBytes (s.receiver.got.take 8)).code ≠ dateAnserCode)) :
      Next env s .compare { s with exited := some message }
  | print {receiver : Receiver} (hrunning : s.exited = none)
      (hprint : s.receiver.print = some receiver) :
      Next env s .print { s with receiver := receiver }

section Inversion

variable {env : ServerEnvironment} {s s' : Network up down} {a : Action}

theorem Next.of_compare (hrunning : s.exited = none) (h : s.compare = some s') :
    Next env s .compare s' := by
  rw [Network.compare] at h
  split at h
  next hwait =>
    split at h
    next hid =>
      cases h
      exact .pass hrunning hwait.1 hwait.2 hid
    next hid =>
      split at h
      next =>
        cases h
        exact .exit hrunning hwait.1 hwait.2 hid (.inl rfl)
      next hcode =>
        cases h
        exact .exit hrunning hwait.1 hwait.2 hid (.inr (not_or.mp hcode))
  next => cases h

theorem Next.of_stepClient (hrunning : s.exited = none) (h : s.stepClient a = some s') :
    Next env s a s' := by
  cases a with
  | choose =>
      obtain ⟨sender, hchoose, rfl⟩ := Option.map_eq_some_iff.mp h
      exact .choose hrunning hchoose
  | write n =>
      obtain ⟨requests, hput, rfl⟩ := Option.map_eq_some_iff.mp h
      exact .write hrunning hput
  | count =>
      obtain ⟨sender, hcount, rfl⟩ := Option.map_eq_some_iff.mp h
      exact .count hrunning hcount
  | leave =>
      rw [stepClient] at h
      split at h
      next hleaves =>
        cases h
        exact .leave hrunning hleaves
      next => cases h
  | receive n =>
      rw [stepClient] at h
      split at h
      next hwait =>
        obtain ⟨answers, hget, rfl⟩ := Option.map_eq_some_iff.mp h
        exact .receive hrunning hwait hget
      next => cases h
  | compare => exact .of_compare hrunning h
  | print =>
      obtain ⟨receiver, hprint, rfl⟩ := Option.map_eq_some_iff.mp h
      exact .print hrunning hprint
  | _ => cases h

theorem Next.of_stepChild (h : s.stepChild env a = some s') : Next env s a s' := by
  cases a with
  | read n =>
      rw [stepChild] at h
      split at h
      next =>
        obtain ⟨requests, hget, rfl⟩ := Option.map_eq_some_iff.mp h
        exact .read hget
      next => cases h
  | serve =>
      obtain ⟨child, hserve, rfl⟩ := Option.map_eq_some_iff.mp h
      exact .serve hserve
  | answer n =>
      obtain ⟨answers, hput, rfl⟩ := Option.map_eq_some_iff.mp h
      exact .answer hput
  | _ => cases h

theorem Next.of_step (h : s.step env a = some s') : Next env s a s' := by
  have hchild (hstep : (if s.child.exited then none else s.stepChild env a) = some s') :
      Next env s a s' := by
    split at hstep
    next => cases hstep
    next => exact .of_stepChild hstep
  have hclient (hstep : (if s.exited.isSome then none else s.stepClient a) = some s') :
      Next env s a s' := by
    split at hstep
    next => cases hstep
    next hrunning => exact .of_stepClient (by simpa using hrunning) hstep
  cases a with
  | read n => exact hchild h
  | serve => exact hchild h
  | answer n => exact hchild h
  | _ => exact hclient h

end Inversion

end Network

/-! ## What the reads ask for -/

section Headers

variable {got more body : List UInt8} {h : Header}

/-- The first eight bytes of a message are its header. -/
theorem header_of_append (heq : got ++ more = h.encode ++ body) (hlen : 8 ≤ got.length) :
    Header.ofBytes (got.take 8) = h := by
  have htake := congrArg (List.take 8) heq
  rw [List.take_append_of_le_length hlen, List.take_left' h.encode_length] at htake
  rw [htake, Header.ofBytes_encode]

/-- Behind them comes the rest. -/
theorem body_of_append (heq : got ++ more = h.encode ++ body) (hlen : 8 ≤ got.length) :
    got.drop 8 ++ more = body := by
  have hdrop := congrArg (List.drop 8) heq
  rwa [List.drop_append_of_le_length hlen, List.drop_left' h.encode_length] at hdrop

theorem length_of_append (heq : got ++ more = h.encode ++ body) :
    got.length + more.length = 8 + body.length := by
  have hlen := congrArg List.length heq
  rwa [List.length_append, List.length_append, h.encode_length] at hlen

end Headers

theorem dateRequest_ne_root : dateRequestCode ≠ rootRequestCode := by decide

theorem Request.encode_eq (r : Request) :
    Request.grammar.encode r = r.header.encode ++ r.body := rfl

theorem Answer.encode_eq (a : Answer) : Answer.grammar.encode a = a.header.encode ++ a.body := rfl

/-- What the child still has to read of a request. -/
theorem Child.missing_eq {r : Request} {got more : List UInt8}
    (h : got ++ more = Request.grammar.encode r) :
    Child.missing got = if got.length < 8 then 8 - got.length else more.length := by
  rw [Request.encode_eq] at h
  have hlen := length_of_append h
  rw [Child.missing]
  split
  next => rfl
  next hlong =>
    rw [header_of_append h (by omega)]
    obtain ⟨id, operation⟩ := r
    cases operation with
    | root operand =>
        have hbody : (Request.body ⟨id, .root operand⟩).length = 8 := storeU64_length ..
        rw [Request.header, if_pos rfl]
        omega
    | date =>
        have hbody : (Request.body ⟨id, .date⟩).length = 0 := rfl
        rw [Request.header, if_neg dateRequest_ne_root]
        omega

/-- The child reads no byte behind a request. -/
theorem Child.reader : Request.grammar.Reader Child.missing where
  le r got more h := by
    rw [Child.missing_eq h]
    have hlen := length_of_append (Request.encode_eq r ▸ h)
    split <;> omega
  done r got more h hdone := by
    rw [Child.missing_eq h] at hdone
    split at hdone
    next => omega
    next => exact List.length_eq_zero_iff.mp hdone

theorem Child.operation_encode (r : Request) :
    Child.operation (Request.grammar.encode r) = some r.operation := by
  have h : Request.grammar.encode r ++ [] = r.header.encode ++ r.body := List.append_nil _
  have hlen : 8 ≤ (Request.grammar.encode r).length := by
    rw [Request.encode_eq, List.length_append, Header.encode_length]
    omega
  have hbody := body_of_append h hlen
  rw [List.append_nil] at hbody
  rw [Child.operation, header_of_append h hlen, hbody]
  obtain ⟨id, operation⟩ := r
  cases operation with
  | root operand => rw [Request.header, Request.body, if_pos rfl, loadU64_storeU64]
  | date => rw [Request.header, if_neg dateRequest_ne_root, if_pos rfl]

/-- What the receiving thread still has to read of an answer. -/
theorem Receiver.missing_eq {a : Answer} {got more : List UInt8}
    (h : got ++ more = Answer.grammar.encode a) :
    Receiver.missing got ≤ more.length ∧ (Receiver.missing got = 0 → more = []) := by
  rw [Answer.encode_eq] at h
  have hlen := length_of_append h
  rw [Receiver.missing]
  split
  next hshort =>
    refine ⟨by omega, fun hdone => ?_⟩
    omega
  next hlong =>
    rw [header_of_append h (by omega)]
    have hrest := body_of_append h (by omega)
    obtain ⟨id, content⟩ := a
    cases content with
    | root result =>
        have hbody : (Answer.body ⟨id, .root result⟩).length = 8 := storeU64_length ..
        rw [Answer.header, if_pos rfl]
        refine ⟨by omega, fun hdone => List.length_eq_zero_iff.mp (by omega)⟩
    | date t =>
        have hbody : (Answer.body ⟨id, .date t⟩).length = 4 + t.bytes.length := by
          rw [Answer.body, show text.encode t =
            storeU32 .big (UInt32.ofNat t.bytes.length) ++ t.bytes from rfl]
          simp
        rw [Answer.header, if_neg date_ne_root]
        split
        next hshort =>
          refine ⟨by omega, fun hdone => ?_⟩
          omega
        next hword =>
          have hlength : (loadU32 .big ((got.drop 8).take 4)).toNat = t.bytes.length := by
            have htake := congrArg (List.take 4) hrest
            rw [List.take_append_of_le_length (by rw [List.length_drop]; omega), Answer.body,
              show text.encode t = storeU32 .big (UInt32.ofNat t.bytes.length) ++ t.bytes from rfl,
              List.take_left' (storeU32_length ..)] at htake
            rw [htake, loadU32_storeU32, UInt32.toNat_ofNat_of_lt' t.length_lt]
          rw [hlength]
          refine ⟨by omega, fun hdone => List.length_eq_zero_iff.mp (by omega)⟩

/-- The receiving thread reads no byte behind an answer. -/
theorem Receiver.reader : Answer.grammar.Reader Receiver.missing where
  le _ _ _ h := (Receiver.missing_eq h).1
  done _ _ _ h := (Receiver.missing_eq h).2

theorem Receiver.report_encode (a : Answer) :
    Receiver.report (Answer.grammar.encode a) = printed a.content := by
  have h : Answer.grammar.encode a ++ [] = a.header.encode ++ a.body := List.append_nil _
  have hlen : 8 ≤ (Answer.grammar.encode a).length := by
    rw [Answer.encode_eq, List.length_append, Header.encode_length]
    omega
  have hbody := body_of_append h hlen
  rw [List.append_nil] at hbody
  rw [Receiver.report, header_of_append h hlen, hbody,
    show (12 : ℕ) = 8 + 4 from rfl, ← List.drop_drop, hbody]
  obtain ⟨id, content⟩ := a
  cases content with
  | root result => rw [Answer.header, Answer.body, if_pos rfl, loadU64_storeU64, printed]
  | date t =>
      rw [Answer.header, Answer.body, if_neg date_ne_root, printed,
        show text.encode t = storeU32 .big (UInt32.ofNat t.bytes.length) ++ t.bytes from rfl,
        List.drop_left' (storeU32_length ..)]

end Rso.Socket
