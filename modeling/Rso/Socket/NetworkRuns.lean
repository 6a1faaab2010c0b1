import Mathlib.Logic.Function.Basic
import Rso.Lib.Transitions
import Rso.Socket.Network

/-!
# What holds in every state of a session

The three threads and the pipes are taken apart: `Sender.Sent`, `Child.Served`
and `Receiver.Received` say where each thread stands, in terms of its own state
and of what it has read and written.  A call of one thread touches only its own
part.  Together they are `Network.Consistent`, which every step keeps.
-/

namespace Rso.Socket

open Client Server

/-! ## Sequences of requests -/

theorem Server.ServerEnvironment.answers_append (env : ServerEnvironment) :
    ∀ (rs more : List Request) (draws : ℕ),
      env.answers draws (rs ++ more) =
        env.answers draws rs ++ env.answers (draws + 4 * rs.length) more := by
  intro rs more draws
  induction rs generalizing draws with
  | nil => rfl
  | cons r rs ih =>
      have hdraws : draws + 4 + 4 * rs.length = draws + 4 * (r :: rs).length := by
        rw [List.length_cons]
        omega
      rw [List.cons_append, answers, ih, hdraws]
      rfl

@[simp] theorem Server.ServerEnvironment.answers_length (env : ServerEnvironment)
    (rs : List Request) (draws : ℕ) : (env.answers draws rs).length = rs.length :=
  (answers_right env rs draws).length_eq.symm

/-! ## The thread of `main` -/

/-- The operations of `counted` are done; the bytes of their requests, and of the
present one, are written or left to write. -/
structure Sender.Sent (operations : List Operation) (closes : Bool) (counted : List Operation)
    (written : List UInt8) (s : Sender) : Prop where
  closes_eq : s.closes = closes
  all : operations = counted ++ s.busy.toList ++ s.todo
  counters : s.counters = Counters.after ⟨0, 0⟩ counted
  idle : s.busy = none → s.left = []
  written_eq : written ++ s.left =
    Request.grammar.stream (Counters.requests ⟨0, 0⟩ (counted ++ s.busy.toList))

namespace Sender

variable {operations counted : List Operation} {closes : Bool} {written : List UInt8}
  {s s' : Sender}

theorem Sent.start (operations : List Operation) (closes : Bool) :
    Sent operations closes [] [] ⟨operations, closes, none, [], ⟨0, 0⟩⟩ :=
  ⟨rfl, rfl, rfl, fun _ => rfl, rfl⟩

theorem choose_eq_some (h : s.choose = some s') : ∃ operation todo, s.busy = none ∧
    s.todo = operation :: todo ∧ s' = ⟨todo, s.closes, some operation,
      Request.grammar.encode (s.counters.request operation), s.counters⟩ := by
  rw [choose] at h
  split at h
  next operation todo hbusy htodo =>
    cases h
    exact ⟨operation, todo, hbusy, htodo, rfl⟩
  next => cases h

theorem count_eq_some (h : s.count = some s') : ∃ operation, s.busy = some operation ∧
    s.left = [] ∧ s' = ⟨s.todo, s.closes, none, s.left, s.counters.next operation⟩ := by
  rw [count] at h
  split at h
  next operation hbusy hleft =>
    cases h
    exact ⟨operation, hbusy, hleft, rfl⟩
  next => cases h

theorem Sent.choose (h : Sent operations closes counted written s) (hstep : s.choose = some s') :
    Sent operations closes counted written s' := by
  obtain ⟨operation, todo, hbusy, htodo, rfl⟩ := choose_eq_some hstep
  have hall := h.all
  have hwritten := h.written_eq
  rw [hbusy, htodo] at hall
  rw [hbusy, h.idle hbusy, List.append_nil] at hwritten
  refine ⟨h.closes_eq, ?_, h.counters, ?_, ?_⟩
  · rw [hall]
    simp
  · intro hnone
    cases hnone
  · rw [hwritten]
    simp [Counters.requests_append, h.counters, Counters.requests]

theorem Sent.write (h : Sent operations closes counted written s) (n : ℕ) :
    Sent operations closes counted (written ++ s.left.take n) { s with left := s.left.drop n } := by
  refine ⟨h.closes_eq, h.all, h.counters, fun hbusy => ?_, ?_⟩
  · show s.left.drop n = []
    rw [h.idle hbusy, List.drop_nil]
  · rw [List.append_assoc]
    show written ++ (s.left.take n ++ s.left.drop n) = _
    rw [List.take_append_drop, h.written_eq]

theorem Sent.count (h : Sent operations closes counted written s) (hstep : s.count = some s') :
    ∃ operation, s.busy = some operation ∧
      Sent operations closes (counted ++ [operation]) written s' := by
  obtain ⟨operation, hbusy, hleft, rfl⟩ := count_eq_some hstep
  have hall := h.all
  have hwritten := h.written_eq
  rw [hbusy] at hall hwritten
  refine ⟨operation, hbusy, h.closes_eq, ?_, ?_, fun _ => hleft, ?_⟩
  · rw [hall]
    simp
  · rw [h.counters, Counters.after_append]
    rfl
  · rw [hwritten]
    simp

/-- What is written is the start of the stream of all requests. -/
theorem Sent.stream (h : Sent operations closes counted written s) :
    ∃ future, written ++ (s.left ++ future) =
      Request.grammar.stream (Counters.requests ⟨0, 0⟩ operations) := by
  refine ⟨Request.grammar.stream
    ((Counters.after ⟨0, 0⟩ (counted ++ s.busy.toList)).requests s.todo), ?_⟩
  rw [← List.append_assoc, h.written_eq, ← Grammar.stream_append, ← Counters.requests_append,
    ← h.all]

end Sender

/-! ## The child -/

/-- The requests of `first` are answered; the bytes of the answers are written or
left to write. -/
structure Child.Served (env : ServerEnvironment) (requests first later : List Request)
    (read written : List UInt8) (s : Child) : Prop where
  taken : Request.grammar.Taken requests read first later s.got
  sent : written ++ s.left = Answer.grammar.stream (env.answers 0 first)
  draws : s.draws = 4 * first.length
  running : s.exited = false

namespace Child

variable {env : ServerEnvironment} {requests first later : List Request}
  {bytes written future : List UInt8} {s s' : Child}

theorem missing_nil : missing [] = 8 := rfl

theorem Served.start (env : ServerEnvironment) (requests : List Request) :
    Served env requests [] requests [] [] ⟨[], [], 0, false⟩ :=
  ⟨.start .., rfl, rfl, rfl⟩

theorem Served.read (h : Served env requests first later bytes written s)
    (hstream : bytes ++ future = Request.grammar.stream requests) {n : ℕ} (hpos : 0 < n)
    (hn : n ≤ missing s.got) (hfuture : n ≤ future.length) :
    Served env requests first later (bytes ++ future.take n) written
      { s with got := s.got ++ future.take n } :=
  ⟨h.taken.step reader hstream hn hfuture hpos, h.sent, h.draws, h.running⟩

/-- The child never takes the exit `Wrong request`. -/
theorem Served.serve (h : Served env requests first later bytes written s)
    (hstep : s.serve env = some s') :
    ∃ r rest, later = r :: rest ∧ Served env requests (first ++ [r]) rest bytes written s' := by
  rw [Child.serve] at hstep
  split at hstep
  next hdone =>
    have hgot : s.got ≠ [] := by
      intro hnil
      rw [hnil, missing_nil] at hdone
      exact absurd hdone.2 (by decide)
    obtain ⟨r, rest, hlater, hframe⟩ := h.taken.whole reader hgot hdone.2
    have htaken := h.taken
    rw [hframe, hlater] at htaken
    have hsent := h.sent
    rw [hdone.1, List.append_nil] at hsent
    rw [hframe, operation_encode] at hstep
    cases hstep
    refine ⟨r, rest, hlater, htaken.next, ?_, ?_, h.running⟩
    · rw [hsent, env.answers_append, Grammar.stream_append, h.draws, Nat.zero_add]
      simp [ServerEnvironment.answers]
    · rw [List.length_append, List.length_singleton, Nat.mul_add, ← h.draws]
  next => cases hstep

theorem Served.write (h : Served env requests first later bytes written s) (n : ℕ) :
    Served env requests first later bytes (written ++ s.left.take n)
      { s with left := s.left.drop n } := by
  refine ⟨h.taken, ?_, h.draws, h.running⟩
  rw [List.append_assoc]
  show written ++ (s.left.take n ++ s.left.drop n) = _
  rw [List.take_append_drop, h.sent]

/-- What is written is the start of the stream of all answers. -/
theorem Served.stream (h : Served env requests first later bytes written s) :
    ∃ future, written ++ (s.left ++ future) = Answer.grammar.stream (env.answers 0 requests) := by
  refine ⟨Answer.grammar.stream (env.answers (0 + 4 * first.length) later), ?_⟩
  rw [← List.append_assoc, h.sent, ← Grammar.stream_append, ← env.answers_append, ← h.taken.all]

end Child

/-! ## The receiving thread -/

/-- The answers of `first` are printed; their ids passed the check with the
counters of `log`. -/
structure Receiver.Received (answers first later : List Answer) (log : ℕ → Counters)
    (read : List UInt8) (s : Receiver) : Prop where
  taken : Answer.grammar.Taken answers read first later s.got
  reports : s.reports = first.map fun a => printed a.content
  ids : IdsAccepted log 0 first
  unchecked : s.passed = false → s.got.length ≤ 8
  checked : s.passed = true →
    8 ≤ s.got.length ∧ Accepts (log first.length) (Header.ofBytes (s.got.take 8))

namespace Receiver

variable {answers first later : List Answer} {log : ℕ → Counters} {bytes future : List UInt8}
  {s s' : Receiver}

theorem Received.start (answers : List Answer) (log : ℕ → Counters) :
    Received answers [] answers log [] ⟨[], false, []⟩ where
  taken := .start ..
  reports := rfl
  ids := fun j a ha => by cases ha
  unchecked := fun _ => Nat.zero_le _
  checked := fun h => by cases h

/-- A header that is read is that of an answer. -/
theorem Received.header (h : Received answers first later log bytes s) (hlen : 8 ≤ s.got.length) :
    ∃ a rest, later = a :: rest ∧ Header.ofBytes (s.got.take 8) = a.header := by
  have hwithin := h.taken.within
  cases later with
  | nil =>
      have hnil : s.got = [] := hwithin
      rw [hnil] at hlen
      cases hlen
  | cons a rest =>
      obtain ⟨more, hmore⟩ := hwithin
      exact ⟨a, rest, rfl, header_of_append (hmore.trans (Answer.encode_eq a)) hlen⟩

theorem Received.receive (h : Received answers first later log bytes s)
    (hstream : bytes ++ future = Answer.grammar.stream answers) {n : ℕ} (hpos : 0 < n)
    (hn : n ≤ missing s.got) (hfuture : n ≤ future.length)
    (hwait : s.got.length < 8 ∨ s.passed = true) :
    Received answers first later log (bytes ++ future.take n)
      { s with got := s.got ++ future.take n } := by
  have hlen : (s.got ++ future.take n).length = s.got.length + n := by
    rw [List.length_append, List.length_take_of_le hfuture]
  refine ⟨h.taken.step reader hstream hn hfuture hpos, h.reports, h.ids, fun hpassed => ?_,
    fun hpassed => ?_⟩
  · rcases hwait with hshort | hyes
    · rw [missing, if_pos hshort] at hn
      show (s.got ++ future.take n).length ≤ 8
      omega
    · exact absurd (hpassed.symm.trans hyes) (by decide)
  · obtain ⟨hlong, hid⟩ := h.checked hpassed
    refine ⟨by show 8 ≤ (s.got ++ future.take n).length; omega, ?_⟩
    show Accepts _ (Header.ofBytes ((s.got ++ future.take n).take 8))
    rwa [List.take_append_of_le_length hlong]

/-- Only the counters that ids were compared with matter. -/
theorem Received.relog (h : Received answers first later log bytes s) {log' : ℕ → Counters}
    (hlog : ∀ i < first.length + s.passed.toNat, log' i = log i) :
    Received answers first later log' bytes s where
  taken := h.taken
  reports := h.reports
  ids := by
    intro j a ha
    have hlt := (List.getElem?_eq_some_iff.mp ha).1
    rw [Nat.zero_add, hlog j (by omega)]
    have hid := h.ids j a ha
    rwa [Nat.zero_add] at hid
  unchecked := h.unchecked
  checked := by
    intro hpassed
    rw [hlog first.length (by rw [hpassed]; exact Nat.lt_succ_self _)]
    exact h.checked hpassed

/-- The check of an id. -/
theorem Received.pass (h : Received answers first later log bytes s)
    (hunchecked : s.passed = false) (hlen : 8 ≤ s.got.length) {log' : ℕ → Counters}
    (hbefore : ∀ i < first.length, log' i = log i)
    (hid : Accepts (log' first.length) (Header.ofBytes (s.got.take 8))) :
    Received answers first later log' bytes { s with passed := true } := by
  have hsame : Received answers first later log' bytes s :=
    h.relog fun i hi => hbefore i (by rwa [hunchecked] at hi)
  exact ⟨hsame.taken, hsame.reports, hsame.ids, fun hpassed => (by cases hpassed),
    fun _ => ⟨hlen, hid⟩⟩

theorem passed_print (h : s.print = some s') : s.passed = true ∧ s'.passed = false := by
  rw [Receiver.print] at h
  split at h
  next hdone =>
    cases h
    exact ⟨hdone.1, rfl⟩
  next => cases h

theorem Received.print (h : Received answers first later log bytes s)
    (hstep : s.print = some s') :
    ∃ a rest, later = a :: rest ∧ Received answers (first ++ [a]) rest log bytes s' := by
  rw [Receiver.print] at hstep
  split at hstep
  next hdone =>
    cases hstep
    obtain ⟨hlen, hid⟩ := h.checked hdone.1
    have hgot : s.got ≠ [] := List.ne_nil_of_length_pos (by omega)
    obtain ⟨a, rest, hlater, hframe⟩ := h.taken.whole reader hgot hdone.2
    have htaken := h.taken
    rw [hframe, hlater] at htaken
    have hbytes : s.got ++ [] = a.header.encode ++ a.body := by
      rw [List.append_nil, hframe, Answer.encode_eq]
    have hheader := header_of_append hbytes hlen
    refine ⟨a, rest, hlater, htaken.next, ?_, ?_, fun _ => Nat.zero_le _, fun hpassed => ?_⟩
    · rw [h.reports, hframe, report_encode, List.map_append]
      rfl
    · intro j b hb
      rcases Nat.lt_or_ge j first.length with hlt | hge
      · rw [List.getElem?_append_left hlt] at hb
        exact h.ids j b hb
      · rw [List.getElem?_append_right hge, List.getElem?_singleton] at hb
        split at hb
        next hlast =>
          cases hb
          rw [Nat.zero_add, show j = first.length by omega, ← hheader]
          exact hid
        next => cases hb
    · cases hpassed
  next => cases hstep

end Receiver

/-! ## The system -/

namespace Network

variable {up down : ℕ} {env : ServerEnvironment} {operations : List Operation}
  {closes : Bool} {s s' : Network up down}

/-- The requests of the session. -/
abbrev asked (operations : List Operation) : List Request := Counters.requests ⟨0, 0⟩ operations

/-- The answers of the session. -/
abbrev replies (env : ServerEnvironment) (operations : List Operation) : List Answer :=
  env.answers 0 (asked operations)

/-- What each thread has done: how far `main` has counted, the child answered and
the receiving thread printed, and the counters that the latter compared with. -/
structure History where
  counted : List Operation
  served : List Request
  printed : List Answer
  log : List Counters

/-- A comparison is noted with the counters of the moment.  It is that of the next pass,
and the answer has been made. -/
structure History.Notes (x : History) (a : Action) (counters : Counters) (x' : History) :
    Prop where
  log : x'.log = x.log ++ if a = .compare then [counters] else []
  compared : a = .compare → x.log.length = x.printed.length ∧ x.printed.length < x.served.length

/-- How the client stands after so many passes of the receiving thread: it runs, or it
has exited after the last comparison, or after the choice 3. -/
inductive Standing (log : List Counters) (passes : ℕ) (sender : Sender) (receiver : Receiver) :
    Option String → Prop where
  | running (hlog : log.length = passes + receiver.passed.toNat) :
      Standing log passes sender receiver none
  | wrong (hunchecked : receiver.passed = false) (hlen : 8 ≤ receiver.got.length)
      (hlog : log.length = passes + 1)
      (hid : ¬ Accepts (passCounters log passes) (Header.ofBytes (receiver.got.take 8))) :
      Standing log passes sender receiver (some "Wrong request id!")
  | left (hlog : log.length = passes + receiver.passed.toNat) (hleaves : sender.Leaves) :
      Standing log passes sender receiver (some bye)

section Standing

variable {log : List Counters} {passes : ℕ} {sender : Sender} {receiver : Receiver}
  {exited : Option String}

theorem Standing.leaves (h : Standing log passes sender receiver exited)
    (hleft : exited = some bye) : sender.Leaves := by
  cases h with
  | running _ => cases hleft
  | wrong _ _ _ _ => exact absurd hleft (by decide)
  | left _ hleaves => exact hleaves

/-- But for a comparison that ended the client, each belongs to a pass. -/
theorem Standing.log_length (h : Standing log passes sender receiver exited)
    (hnot : exited ≠ some "Wrong request id!") :
    log.length = passes + receiver.passed.toNat := by
  cases h with
  | running hlog => exact hlog
  | wrong _ _ _ _ => exact absurd rfl hnot
  | left hlog _ => exact hlog

/-- The comparison that ended the client. -/
theorem Standing.not_accepts (h : Standing log passes sender receiver exited)
    (hwrong : exited = some "Wrong request id!") :
    receiver.passed = false ∧ 8 ≤ receiver.got.length ∧ log.length = passes + 1 ∧
      ¬ Accepts (passCounters log passes) (Header.ofBytes (receiver.got.take 8)) := by
  cases h with
  | running _ => cases hwrong
  | wrong hunchecked hlen hlog hid => exact ⟨hunchecked, hlen, hlog, hid⟩
  | left _ _ => exact absurd hwrong (by decide)

/-- The client runs, or has left by one of two exits. -/
theorem Standing.cases_exited (h : Standing log passes sender receiver exited) :
    exited = none ∨ exited = some "Wrong request id!" ∨ exited = some bye := by
  cases h with
  | running _ => exact .inl rfl
  | wrong _ _ _ _ => exact .inr (.inl rfl)
  | left _ _ => exact .inr (.inr rfl)

end Standing

/-- The state after this history. -/
structure At (env : ServerEnvironment) (operations : List Operation) (closes : Bool)
    (x : History) (s : Network up down) : Prop where
  sent : s.sender.Sent operations closes x.counted s.requests.written
  served : ∃ later, s.child.Served env (asked operations) x.served later s.requests.read
    s.answers.written
  received : ∃ later, s.receiver.Received (replies env operations) x.printed later
    (passCounters x.log) s.answers.read
  standing : Standing x.log x.printed.length s.sender s.receiver s.exited

theorem At.start (env : ServerEnvironment) (operations : List Operation) (closes : Bool) :
    At env operations closes ⟨[], [], [], []⟩ (start operations closes : Network up down) :=
  ⟨.start .., ⟨_, .start ..⟩, ⟨_, .start ..⟩, .running rfl⟩

section Step

variable {x x' : History} {counters : Counters} {a : Action}

theorem History.Notes.same (hlog : x'.log = x.log) (ha : a ≠ .compare) :
    x.Notes a counters x' :=
  ⟨by rw [if_neg ha, List.append_nil, hlog], fun h => absurd h ha⟩

theorem At.requests_stream (h : At env operations closes x s) :
    ∃ future, s.requests.read ++ (s.requests.inside ++ future) =
      Request.grammar.stream (asked operations) := by
  obtain ⟨future, hstream⟩ := h.sent.stream
  exact ⟨s.sender.left ++ future, by rw [← List.append_assoc, Pipe.read_append_inside, hstream]⟩

theorem At.answers_stream (h : At env operations closes x s) :
    ∃ future, s.answers.read ++ (s.answers.inside ++ future) =
      Answer.grammar.stream (replies env operations) := by
  obtain ⟨later, hserved⟩ := h.served
  obtain ⟨future, hstream⟩ := hserved.stream
  exact ⟨s.child.left ++ future, by rw [← List.append_assoc, Pipe.read_append_inside, hstream]⟩

/-- The child has answered no more requests than were chosen. -/
theorem At.served_le (h : At env operations closes x s) :
    x.served <+: asked (x.counted ++ s.sender.busy.toList) := by
  obtain ⟨later, hserved⟩ := h.served
  have hstream : Request.grammar.stream (asked (x.counted ++ s.sender.busy.toList)) =
      Request.grammar.stream x.served ++
        (s.child.got ++ s.requests.inside ++ s.sender.left) := by
    rw [← h.sent.written_eq, ← Pipe.read_append_inside, hserved.taken.read_eq]
    simp only [List.append_assoc]
  exact Grammar.prefix_of_stream hstream

/-- The receiving thread has read of no more answers than were made. -/
theorem At.printed_lt (h : At env operations closes x s) (hgot : s.receiver.got ≠ []) :
    x.printed.length < x.served.length := by
  obtain ⟨later, hserved⟩ := h.served
  obtain ⟨later', hreceived⟩ := h.received
  have hstream : Answer.grammar.stream (env.answers 0 x.served) =
      Answer.grammar.stream x.printed ++
        (s.receiver.got ++ s.answers.inside ++ s.child.left) := by
    rw [← hserved.sent, ← Pipe.read_append_inside, hreceived.taken.read_eq]
    simp only [List.append_assoc]
  obtain ⟨more, hmore⟩ := Grammar.prefix_of_stream hstream
  rw [← hmore, Grammar.stream_append] at hstream
  have hrest := List.append_cancel_left hstream
  have hsome : more ≠ [] := by
    intro hnil
    rw [hnil, Grammar.stream_nil, List.append_assoc] at hrest
    exact hgot (List.append_eq_nil_iff.mp hrest.symm).1
  have hpos := List.length_pos_iff.mpr hsome
  have hlen := congrArg List.length hmore
  rw [List.length_append, ServerEnvironment.answers_length] at hlen
  omega

/-- The note of a comparison. -/
def History.note (x : History) (counters : Counters) : History :=
  { x with log := x.log ++ [counters] }

/-- The comparison is that of the next pass. -/
theorem At.compare (h : At env operations closes x s) (hrunning : s.exited = none)
    (hunchecked : s.receiver.passed = false) (hlen : 8 ≤ s.receiver.got.length) :
    x.log.length = x.printed.length ∧
      x.Notes .compare s.sender.counters (x.note s.sender.counters) := by
  have hlog := h.standing.log_length (by rw [hrunning]; simp)
  rw [hunchecked, Bool.toNat_false, Nat.add_zero] at hlog
  have hgot : s.receiver.got ≠ [] := List.ne_nil_of_length_pos (by omega)
  exact ⟨hlog, by rw [if_pos rfl, History.note], fun _ => ⟨hlog, h.printed_lt hgot⟩⟩

/-- A header that is read has the code of an answer. -/
theorem At.code (h : At env operations closes x s) (hlen : 8 ≤ s.receiver.got.length) :
    (Header.ofBytes (s.receiver.got.take 8)).code = rootAnswerCode ∨
      (Header.ofBytes (s.receiver.got.take 8)).code = dateAnserCode := by
  obtain ⟨later, hreceived⟩ := h.received
  obtain ⟨a, -, -, hheader⟩ := hreceived.header hlen
  rw [hheader]
  obtain ⟨id, content⟩ := a
  cases content with
  | root result => exact .inl rfl
  | date t => exact .inr rfl

/-- Every step keeps the threads where the streams allow them to be. -/
theorem At.step (h : At env operations closes x s) (hstep : s.step env a = some s') :
    ∃ x', At env operations closes x' s' ∧ x.Notes a s.sender.counters x' := by
  obtain ⟨later, hserved⟩ := h.served
  obtain ⟨later', hreceived⟩ := h.received
  have hrun (hrunning : s.exited = none) :
      x.log.length = x.printed.length + s.receiver.passed.toNat :=
    h.standing.log_length (by rw [hrunning]; simp)
  have hstands {log : List Counters} {passes : ℕ} {sender : Sender} {receiver : Receiver}
      (hrunning : s.exited = none) (hlog : log.length = passes + receiver.passed.toNat) :
      Standing log passes sender receiver s.exited := by
    rw [hrunning]
    exact .running hlog
  cases Next.of_step hstep with
  | choose hrunning hchoose =>
      exact ⟨x, ⟨h.sent.choose hchoose, h.served, h.received, hstands hrunning (hrun hrunning)⟩,
        .same rfl (by simp)⟩
  | @write n _ hrunning hput =>
      obtain ⟨-, -, hwritten, -⟩ := Pipe.put_eq_some hput
      have hnext := h.sent.write n
      rw [← hwritten] at hnext
      rw [← Pipe.put_read hput] at hserved
      exact ⟨x, ⟨hnext, ⟨later, hserved⟩, h.received, hstands hrunning (hrun hrunning)⟩,
        .same rfl (by simp)⟩
  | count hrunning hcount =>
      obtain ⟨operation, -, hnext⟩ := h.sent.count hcount
      exact ⟨{ x with counted := x.counted ++ [operation] },
        ⟨hnext, h.served, h.received, hstands hrunning (hrun hrunning)⟩, .same rfl (by simp)⟩
  | leave hrunning hleaves =>
      exact ⟨x, ⟨h.sent, h.served, h.received, .left (hrun hrunning) hleaves⟩,
        .same rfl (by simp)⟩
  | read hget =>
      obtain ⟨hpos, hn, hinside, hwritten, -⟩ := Pipe.get_eq_some hget
      obtain ⟨future, hstream⟩ := h.requests_stream
      have hnext := hserved.read hstream hpos hn (by rw [List.length_append]; omega)
      rw [List.take_append_of_le_length hinside, ← Pipe.get_read hget] at hnext
      exact ⟨x, ⟨hwritten ▸ h.sent, ⟨later, hnext⟩, h.received, h.standing⟩,
        .same rfl (by simp)⟩
  | serve hserve =>
      obtain ⟨r, rest, -, hnext⟩ := hserved.serve hserve
      exact ⟨{ x with served := x.served ++ [r] },
        ⟨h.sent, ⟨rest, hnext⟩, h.received, h.standing⟩, .same rfl (by simp)⟩
  | @answer n _ hput =>
      obtain ⟨-, -, hwritten, -⟩ := Pipe.put_eq_some hput
      have hnext := hserved.write n
      rw [← hwritten] at hnext
      rw [← Pipe.put_read hput] at hreceived
      exact ⟨x, ⟨h.sent, ⟨later, hnext⟩, ⟨later', hreceived⟩, h.standing⟩, .same rfl (by simp)⟩
  | receive hrunning hwait hget =>
      obtain ⟨hpos, hn, hinside, hwritten, -⟩ := Pipe.get_eq_some hget
      obtain ⟨future, hstream⟩ := h.answers_stream
      have hnext := hreceived.receive hstream hpos hn (by rw [List.length_append]; omega) hwait
      rw [List.take_append_of_le_length hinside, ← Pipe.get_read hget] at hnext
      exact ⟨x, ⟨h.sent, hwritten ▸ h.served, ⟨later', hnext⟩, hstands hrunning (hrun hrunning)⟩,
        .same rfl (by simp)⟩
  | pass hrunning hunchecked hlen hid =>
      obtain ⟨hlog, hnotes⟩ := h.compare hrunning hunchecked hlen
      have hnow := passCounters_concat x.log s.sender.counters
      rw [hlog] at hnow
      have hnext := hreceived.pass hunchecked hlen
        (fun i hi => passCounters_append s.sender.counters (hlog ▸ hi)) (by rw [hnow]; exact hid)
      refine ⟨x.note s.sender.counters, ⟨h.sent, h.served, ⟨later', hnext⟩,
        hstands hrunning ?_⟩, hnotes⟩
      rw [History.note, List.length_append, List.length_singleton, hlog]
      rfl
  | exit hrunning hunchecked hlen hid hmessage =>
      obtain ⟨hlog, hnotes⟩ := h.compare hrunning hunchecked hlen
      have hnow := passCounters_concat x.log s.sender.counters
      rw [hlog] at hnow
      have hsame : s.receiver.Received (replies env operations) x.printed later'
          (passCounters (x.log ++ [s.sender.counters])) s.answers.read :=
        hreceived.relog fun i hi => passCounters_append s.sender.counters
          (by rwa [hunchecked, Bool.toNat_false, Nat.add_zero, ← hlog] at hi)
      rcases hmessage with rfl | ⟨hroot, hdate⟩
      · refine ⟨x.note s.sender.counters, ⟨h.sent, h.served, ⟨later', hsame⟩,
          .wrong hunchecked hlen ?_ ?_⟩, hnotes⟩
        · rw [History.note, List.length_append, List.length_singleton, hlog]
        · rw [History.note, hnow]
          exact hid
      · rcases h.code hlen with hcode | hcode
        · exact absurd hcode hroot
        · exact absurd hcode hdate
  | print hrunning hprint =>
      obtain ⟨a, rest, -, hnext⟩ := hreceived.print hprint
      obtain ⟨hpassed, hunchecked⟩ := Receiver.passed_print hprint
      refine ⟨{ x with printed := x.printed ++ [a] },
        ⟨h.sent, h.served, ⟨rest, hnext⟩, hstands hrunning ?_⟩, .same rfl (by simp)⟩
      rw [hrun hrunning, hpassed, hunchecked, List.length_append]
      rfl

end Step

/-- The state of some history. -/
def Consistent (env : ServerEnvironment) (operations : List Operation) (closes : Bool)
    (s : Network up down) : Prop := ∃ x, At env operations closes x s

theorem Consistent.start (env : ServerEnvironment) (operations : List Operation)
    (closes : Bool) :
    Consistent env operations closes (start operations closes : Network up down) :=
  ⟨_, .start env operations closes⟩

theorem Consistent.step (h : Consistent env operations closes s) {a : Action}
    (hstep : s.step env a = some s') : Consistent env operations closes s' := by
  obtain ⟨x, hx⟩ := h
  obtain ⟨x', hx', -⟩ := hx.step hstep
  exact ⟨x', hx'⟩

theorem compared_cons {a : Action} (hstep : s.step env a = some s') (as : List Action) :
    compared env s (a :: as) =
      (if a = .compare then [s.sender.counters] else []) ++ compared env s' as := by
  rw [compared, hstep]

/-- The history of a schedule notes its comparisons. -/
theorem At.run :
    ∀ {schedule : List Action} {x : History} {s : Network up down},
      At env operations closes x s → Transitions.run (Network.step env) s schedule = some s' →
      ∃ x', At env operations closes x' s' ∧ x'.log = x.log ++ compared env s schedule := by
  intro schedule
  induction schedule with
  | nil =>
      intro x s h hrun
      cases hrun
      exact ⟨x, h, (List.append_nil _).symm⟩
  | cons a schedule ih =>
      intro x s h hrun
      obtain ⟨t, hstep, hrest⟩ := Transitions.run_cons.mp hrun
      obtain ⟨x₁, h₁, hnotes⟩ := h.step hstep
      obtain ⟨x₂, h₂, hlog⟩ := ih h₁ hrest
      refine ⟨x₂, h₂, ?_⟩
      rw [hlog, hnotes.log, compared_cons hstep, List.append_assoc]

/-- After every schedule. -/
theorem at_run {schedule : List Action}
    (hrun : Transitions.run (Network.step env) (start operations closes) schedule = some s) :
    ∃ x, At env operations closes x s ∧
      x.log = compared env (Network.start operations closes : Network up down) schedule := by
  obtain ⟨x, h, hlog⟩ := (At.start env operations closes).run hrun
  exact ⟨x, h, hlog⟩

/-! ## Idle threads -/

/-- Only `main` can go on, by a choice or by counting a request. -/
def Idle (env : ServerEnvironment) (s : Network up down) : Prop :=
  ∀ a, a ≠ .choose → a ≠ .count → a ≠ .leave → s.step env a = none

section Idle

variable {x : History} (hup : 0 < up) (hdown : 0 < down)

/-- The receiving thread waits only for bytes. -/
theorem At.receiver_waits (h : At env operations closes x s) (hexited : s.exited = none)
    (hidle : s.Idle env) : Receiver.missing s.receiver.got ≠ 0 ∧ s.answers.inside = [] := by
  obtain ⟨later, hreceived⟩ := h.received
  have hwait : s.receiver.got.length < 8 ∨ s.receiver.passed = true := by
    by_contra hnot
    rw [not_or, Nat.not_lt, Bool.not_eq_true] at hnot
    have hcompare : s.compare = none := by
      simpa [Network.step, Network.stepClient, hexited] using
        hidle .compare (by simp) (by simp) (by simp)
    rw [Network.compare, if_pos ⟨hnot.2, hnot.1⟩] at hcompare
    split at hcompare
    next => cases hcompare
    next => split at hcompare <;> cases hcompare
  have hmissing : Receiver.missing s.receiver.got ≠ 0 := by
    rcases hwait with hshort | hpassed
    · rw [Receiver.missing, if_pos hshort]
      omega
    · intro hdone
      have hprint : s.receiver.print = none := by
        simpa [Network.step, Network.stepClient, hexited] using
          hidle .print (by simp) (by simp) (by simp)
      rw [Receiver.print, if_pos ⟨hpassed, hdone⟩] at hprint
      cases hprint
  refine ⟨hmissing, ?_⟩
  by_contra hsome
  obtain ⟨answers, hget⟩ := Pipe.exists_get hsome (Nat.pos_of_ne_zero hmissing)
  have hreceive := hidle (.receive 1) (by simp) (by simp) (by simp)
  simp [Network.step, Network.stepClient, hexited, hwait, hget] at hreceive

include hdown in
/-- With the receiving thread waiting the child waits only for bytes. -/
theorem At.child_waits (h : At env operations closes x s) (hidle : s.Idle env)
    (hroom : s.answers.inside = []) :
    s.child.left = [] ∧ Child.missing s.child.got ≠ 0 ∧ s.requests.inside = [] := by
  obtain ⟨later, hserved⟩ := h.served
  have hleft : s.child.left = [] := by
    by_contra hsome
    obtain ⟨answers, hput⟩ := Pipe.exists_put hdown hroom hsome
    have hanswer := hidle (.answer 1) (by simp) (by simp) (by simp)
    simp [Network.step, Network.stepChild, hserved.running, hput] at hanswer
  have hmissing : Child.missing s.child.got ≠ 0 := by
    intro hdone
    have hserve : s.child.serve env = none := by
      simpa [Network.step, Network.stepChild, hserved.running] using
        hidle .serve (by simp) (by simp) (by simp)
    rw [Child.serve, if_pos ⟨hleft, hdone⟩] at hserve
    split at hserve <;> cases hserve
  refine ⟨hleft, hmissing, ?_⟩
  by_contra hsome
  obtain ⟨requests, hget⟩ := Pipe.exists_get hsome (Nat.pos_of_ne_zero hmissing)
  have hread := hidle (.read 1) (by simp) (by simp) (by simp)
  simp [Network.step, Network.stepChild, hserved.running, hleft, hget] at hread

include hup in
/-- With the child waiting `main` has written its request. -/
theorem sender_waits (hexited : s.exited = none) (hidle : s.Idle env)
    (hroom : s.requests.inside = []) : s.sender.left = [] := by
  by_contra hsome
  obtain ⟨requests, hput⟩ := Pipe.exists_put hup hroom hsome
  have hwrite := hidle (.write 1) (by simp) (by simp) (by simp)
  simp [Network.step, Network.stepClient, hexited, hput] at hwrite

include hup hdown in
/-- When only `main` can go on, every request that was chosen has been answered and
printed. -/
theorem At.idle (h : At env operations closes x s) (hexited : s.exited = none)
    (hidle : s.Idle env) :
    s.sender.left = [] ∧ x.printed = replies env (x.counted ++ s.sender.busy.toList) := by
  obtain ⟨hreceiver, hanswers⟩ := h.receiver_waits hexited hidle
  obtain ⟨hchild, hmissing, hrequests⟩ := h.child_waits hdown hidle hanswers
  have hsender := sender_waits hup hexited hidle hrequests
  obtain ⟨later, hserved⟩ := h.served
  obtain ⟨later', hreceived⟩ := h.received
  have hwritten := h.sent.written_eq
  rw [hsender, List.append_nil, ← Pipe.read_append_inside, hrequests, List.append_nil] at hwritten
  obtain ⟨hfirst, -⟩ := hserved.taken.eq_first Child.reader hmissing hwritten
  have hsent := hserved.sent
  rw [hchild, List.append_nil, ← Pipe.read_append_inside, hanswers, List.append_nil] at hsent
  obtain ⟨hprinted, -⟩ := hreceived.taken.eq_first Receiver.reader hreceiver hsent
  exact ⟨hsender, by rw [hprinted, hfirst]⟩

end Idle

end Network

end Rso.Socket
