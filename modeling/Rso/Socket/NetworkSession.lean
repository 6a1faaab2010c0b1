import Rso.Socket.NetworkRuns

/-!
# Sessions of client and server

Whatever the order of the calls and however they cut the bytes, each thread of a
session is at a point of the run of its code on the bytes that it has read
(`run_refines`), and what is printed are the answers to the first choices
(`run_right`).  A session comes to an end, and it ends with all answers printed
unless an id was wrong (`run_completes`): no thread waits for ever for room in a
pipe, since the receiving thread reads while `main` writes.
-/

namespace Rso.Socket

open Client Server

/-! ## Each thread runs its code -/

/-- Performing operations leads to the counters after them. -/
theorem Client.performRequests_after (env : Environment) (hfuel : 16 < env.fuel) :
    ∀ (operations : List Operation) (counters : Counters) (s : Conn), s.closed = false →
      ∃ s', performRequests env.host operations counters s =
          .ok (counters.after operations) s' ∧ s'.closed = false ∧
        s'.sent = s.sent ++ Request.grammar.stream (counters.requests operations) := by
  intro operations
  induction operations with
  | nil =>
      intro counters s hopen
      exact ⟨s, rfl, hopen, (List.append_nil _).symm⟩
  | cons operation operations ih =>
      intro counters s hopen
      obtain ⟨writes, hperform⟩ := performRequest_full env hfuel hopen operation counters
      obtain ⟨s', hrest, hopen', hsent⟩ := ih (counters.next operation)
        { s with
          sent := s.sent ++ Request.grammar.encode (counters.request operation)
          writes := writes
          draws := s.draws + 1 } hopen
      refine ⟨s', ?_, hopen', ?_⟩
      · rw [performRequests, Proc.bind_ok hperform, hrest]
        rfl
      · rw [hsent, Counters.requests, Grammar.stream_cons, List.append_assoc]

theorem Server.answers_withFuel (env : ServerEnvironment) (fuel : ℕ) (rs : List Request)
    (draws : ℕ) : (env.withFuel fuel).answers draws rs = env.answers draws rs :=
  answers_chunked env env.readCut env.writeCut fuel rs draws

/-- The child after the passes over these requests. -/
theorem Child.Served.runs {env : ServerEnvironment} {requests first later : List Request}
    {bytes written : List UInt8} {s : Child}
    (h : s.Served env requests first later bytes written) {fuel : ℕ} (hfuel : 71 < fuel) :
    ∃ c, childLoop (env.withFuel fuel).host first.length (.start bytes none) =
        ⟨first.map fun r => ⟨r.operation, 32⟩, .running, c⟩ ∧
      c.pending = s.got ∧ c.sent = written ++ s.left := by
  obtain ⟨c, hc, hrun⟩ := (Serving.start (env.withFuel fuel) s.got first).run hfuel
  have hloop := hrun 0
  rw [Nat.add_zero, ← h.taken.read_eq] at hloop
  refine ⟨c, ?_, hc.pending, ?_⟩
  · rw [hloop, Proc.forever, Proc.Trace.after, List.append_nil]
  · have hsent := hc.sent
    rw [ServerEnvironment.answers, Grammar.stream_nil, List.append_nil] at hsent
    rw [hsent, answers_withFuel, h.sent]

/-- The receiving thread after the passes over these answers. -/
theorem Receiver.Received.runs {answers first later : List Answer} {log : ℕ → Counters}
    {bytes : List UInt8} {s : Receiver} (h : s.Received answers first later log bytes)
    (env : Environment) (ending : Option {e : Errno // e ≠ eintr})
    (hfuel : bytes.length < env.fuel) :
    ∃ e, e.closed = false ∧ e.pending = s.got ∧ e.pending.length < env.fuel ∧ ∀ passes,
      incommingRequestHandler env.host (fun i => (log i).running)
          (s.reports.length + passes) (.start bytes ending) =
        (Proc.forever (fun i => receiveAnswer env.host (log i).running) passes s.reports.length
          e).after s.reports := by
  have hreceiving : Receiving env log s.got 0 first
      (.start (Answer.grammar.stream first ++ s.got) ending) :=
    .start ending (by rw [← h.taken.read_eq]; exact hfuel) h.ids
  obtain ⟨e, he, hrun⟩ := hreceiving.run
  rw [← h.taken.read_eq, ← h.reports] at hrun
  have hlength : first.length = s.reports.length := by rw [h.reports, List.length_map]
  rw [hlength] at hrun
  exact ⟨e, he.isOpen, he.pending, he.fuel, hrun⟩

namespace Network

variable {up down : ℕ} {env : ServerEnvironment} {operations : List Operation} {closes : Bool}
  {s s' : Network up down} {schedule : List Action}

/-- `main` stands where its code stands: some choices are performed, the bytes of the
present one are written or left to write, and it has left only behind all of them. -/
structure MainRuns (client : Environment) (operations : List Operation) (closes : Bool)
    (s : Network up down) : Prop where
  performs : ∃ counted c c', operations = counted ++ s.sender.busy.toList ++ s.sender.todo ∧
    performRequests client.host counted ⟨0, 0⟩ (.start [] none) = .ok s.sender.counters c ∧
    performRequests client.host s.sender.busy.toList s.sender.counters c =
      .ok (s.sender.counters.after s.sender.busy.toList) c' ∧
    c'.sent = s.requests.written ++ s.sender.left
  left : s.exited = some bye → closes = true ∧ s.sender.busy = none ∧ s.sender.todo = []

/-- The child stands where its code stands on the bytes that it has read. -/
def ChildRuns (env : ServerEnvironment) (s : Network up down) : Prop :=
  ∃ (passes : ℕ) (served : List Served) (d : Conn),
    childLoop env.host passes (.start s.requests.read none) = ⟨served, .running, d⟩ ∧
    d.pending = s.child.got ∧ d.sent = s.answers.written ++ s.child.left

/-- The receiving thread stands where its code stands on the bytes that it has read, with
the counters of these comparisons. -/
structure ReceiverRuns (client : Environment) (ending : Option {e : Errno // e ≠ eintr})
    (log : List Counters) (s : Network up down) : Prop where
  /-- Its passes have printed the reports, and `got` is what was read since. -/
  passes : ∃ e, incommingRequestHandler client.host (fun i => (passCounters log i).running)
      s.receiver.reports.length (.start s.answers.read ending) =
    ⟨s.receiver.reports, .running, e⟩ ∧ e.pending = s.receiver.got
  /-- Before a check of the present pass there was one for each report. -/
  unchecked : s.receiver.passed = false → s.exited ≠ some "Wrong request id!" →
    log.length = s.receiver.reports.length ∧ s.receiver.got.length ≤ 8
  /-- The present pass is behind its check, which the code lets pass. -/
  checked : s.receiver.passed = true → log.length = s.receiver.reports.length + 1 ∧
    8 ≤ s.receiver.got.length ∧
    Accepts (passCounters log s.receiver.reports.length)
      (Header.ofBytes (s.receiver.got.take 8))
  /-- The code has taken the exit in the present pass. -/
  exited : s.exited = some "Wrong request id!" →
    log.length = s.receiver.reports.length + 1 ∧ ∃ e,
      incommingRequestHandler client.host (fun i => (passCounters log i).running)
          (s.receiver.reports.length + 1) (.start s.answers.read ending) =
        ⟨s.receiver.reports, .exit 1 "Wrong request id!", e⟩

theorem At.mainRuns {x : History} (h : At env operations closes x s) {client : Environment}
    (hfuel : 16 < client.fuel) : MainRuns client operations closes s := by
  refine ⟨?_, fun hleft => ?_⟩
  · obtain ⟨c, hcounted, hopen, hsent⟩ := performRequests_after client hfuel
      x.counted ⟨0, 0⟩ (.start [] none) rfl
    obtain ⟨c', hpresent, -, hsent'⟩ := performRequests_after client hfuel
      s.sender.busy.toList s.sender.counters c hopen
    rw [← h.sent.counters] at hcounted
    refine ⟨x.counted, c, c', h.sent.all, hcounted, hpresent, ?_⟩
    rw [hsent', hsent, h.sent.written_eq, Counters.requests_append, Grammar.stream_append,
      h.sent.counters]
    rfl
  · obtain ⟨hbusy, htodo, hcloses⟩ := h.standing.leaves hleft
    exact ⟨h.sent.closes_eq ▸ hcloses, hbusy, htodo⟩

theorem At.receiverRuns {x : History} (h : At env operations closes x s) {client : Environment}
    (hfuel : s.answers.read.length < client.fuel)
    (ending : Option {e : Errno // e ≠ eintr}) : ReceiverRuns client ending x.log s := by
  obtain ⟨later, hreceived⟩ := h.received
  obtain ⟨e, hopen, hpending, hlong, hruns⟩ := hreceived.runs client ending hfuel
  have hlength : x.printed.length = s.receiver.reports.length := by
    rw [hreceived.reports, List.length_map]
  have hstanding := h.standing
  rw [hlength] at hstanding
  refine ⟨⟨e, ?_, hpending⟩, fun hunchecked hnot => ?_, fun hpassed => ?_, fun hwrong => ?_⟩
  · have hloop := hruns 0
    rw [Nat.add_zero] at hloop
    rw [hloop, Proc.forever, Proc.Trace.after, List.append_nil]
  · have hlog := hstanding.log_length hnot
    rw [hunchecked] at hlog
    exact ⟨hlog, hreceived.unchecked hunchecked⟩
  · have hnot : s.exited ≠ some "Wrong request id!" := by
      intro hwrong
      have hunchecked := (hstanding.not_accepts hwrong).1
      exact absurd (hpassed.symm.trans hunchecked) (by decide)
    have hlog := hstanding.log_length hnot
    rw [hpassed] at hlog
    rw [← hlength]
    exact ⟨hlength ▸ hlog, hreceived.checked hpassed⟩
  · obtain ⟨hunchecked, hlen, hlog, hid⟩ := hstanding.not_accepts hwrong
    have hheader : (Header.ofBytes s.receiver.got).encode = s.receiver.got :=
      Header.encode_ofBytes (Nat.le_antisymm (hreceived.unchecked hunchecked) hlen)
    have htake : s.receiver.got.take 8 = s.receiver.got :=
      List.take_of_length_le (hreceived.unchecked hunchecked)
    have hcode := h.code hlen
    rw [htake] at hid hcode
    refine ⟨hlog, ?_⟩
    obtain ⟨reads, hpass⟩ := receiveAnswer_open client hopen hlong
      (passCounters x.log s.receiver.reports.length)
    rw [hpending, ← hheader, ← List.append_nil (Header.encode _), leftHeader_encode,
      proceedAnswer_wrongId client.host hid hcode] at hpass
    have hloop := hruns 1
    rw [Proc.forever_error hpass, Proc.Trace.after, List.append_nil] at hloop
    exact ⟨_, hloop⟩

/-- At every point of every schedule the three threads stand where their code stands
on the same bytes: `main` has performed the choices up to the present one, the
child and the receiving thread have made some passes and have read `got` since.  The
counters of each pass of the receiving thread are those of its comparison.  The client
runs, or has ended as one of its threads ends it. -/
theorem run_refines (client : Environment) (ending : Option {e : Errno // e ≠ eintr})
    (hrun : Transitions.run (step env) (start operations closes) schedule = some s) :
    (s.exited = none ∨ s.exited = some "Wrong request id!" ∨ s.exited = some bye) ∧
    ∃ enough, ∀ fuel, enough ≤ fuel →
      MainRuns (client.withFuel fuel) operations closes s ∧
      ChildRuns (env.withFuel fuel) s ∧
      ReceiverRuns (client.withFuel fuel) ending
        (compared env (start operations closes : Network up down) schedule) s := by
  obtain ⟨x, hx, hlog⟩ := at_run hrun
  obtain ⟨later, hserved⟩ := hx.served
  refine ⟨hx.standing.cases_exited, 72 + s.answers.read.length, fun fuel hfuel => ⟨hx.mainRuns ?_, ?_, ?_⟩⟩
  · show 16 < fuel
    omega
  · have hlong : 71 < fuel := by omega
    obtain ⟨d, hchild, hpending, hanswered⟩ := hserved.runs hlong
    exact ⟨_, _, d, hchild, hpending, hanswered⟩
  · rw [← hlog]
    refine hx.receiverRuns ?_ ending
    show s.answers.read.length < fuel
    omega

/-- `main` leaves while the answer to its one request is being read: the id has been
compared, and with the counter before the increment. -/
theorem run_refines_leave :
    ∃ (s : Network 8 13) (enough : ℕ), s.exited = some bye ∧ ∀ fuel, enough ≤ fuel →
      MainRuns (Environment.bytewise.withFuel fuel) [.date] true s ∧
      ChildRuns (ServerEnvironment.bytewise.withFuel fuel) s ∧
      ReceiverRuns (Environment.bytewise.withFuel fuel) none [⟨0, 0⟩] s := by
  obtain ⟨s, hrun, hexited⟩ : ∃ s : Network 8 13,
      Transitions.run (step .bytewise) (start [.date] true)
        [.choose, .write 8, .read 8, .serve, .answer 13, .receive 8, .compare, .count, .leave] =
          some s ∧ s.exited = some bye := ⟨_, rfl, rfl⟩
  obtain ⟨-, enough, h⟩ := run_refines .bytewise none hrun
  exact ⟨s, enough, hexited, h⟩

/-! ## What is printed -/

/-- The dates of the answers can be printed as strings. -/
theorem replies_nulFree (env : ServerEnvironment) :
    ∀ (rs : List Request) (draws : ℕ), ∀ a ∈ env.answers draws rs, NulFree a.content := by
  intro rs draws
  induction rs generalizing draws with
  | nil =>
      intro a ha
      cases ha
  | cons r rs ih =>
      intro a ha
      rcases List.mem_cons.mp ha with rfl | ha
      · obtain ⟨id, operation⟩ := r
        cases operation with
        | root operand => trivial
        | date => exact (env.text (draws + 1 + 1)).noNul
      · exact ih (draws + 4) a ha

/-- The report is the root of the operand, or a date as the server's clock gave it. -/
def Reports (env : ServerEnvironment) : Operation → Report → Prop
  | .root operand, report => report = .root (env.sqrt operand)
  | .date, report => ∃ i, report = .date (env.text i).bytes

theorem reports_replies (env : ServerEnvironment) :
    ∀ (operations : List Operation) (counters : Counters) (draws : ℕ),
      List.Forall₂ (Reports env) operations
        ((env.answers draws (counters.requests operations)).map fun a => reported a.content) := by
  intro operations
  induction operations with
  | nil =>
      intro counters draws
      exact .nil
  | cons operation operations ih =>
      intro counters draws
      refine .cons ?_ (ih (counters.next operation) (draws + 4))
      cases operation with
      | root operand => exact rfl
      | date => exact ⟨_, rfl⟩

theorem At.reports_eq {x : History} (h : At env operations closes x s) :
    s.receiver.reports = x.printed.map fun a => reported a.content := by
  obtain ⟨later, hreceived⟩ := h.received
  rw [hreceived.reports]
  refine List.map_congr_left fun a ha => (printed_eq_reported_iff a.content).mpr ?_
  refine replies_nulFree env (asked operations) 0 a ?_
  rw [show env.answers 0 (asked operations) = x.printed ++ later from hreceived.taken.all]
  exact List.mem_append_left _ ha

theorem At.printed_first {x : History} (h : At env operations closes x s) :
    x.printed <+: replies env operations := by
  obtain ⟨later, hreceived⟩ := h.received
  exact ⟨later, hreceived.taken.all.symm⟩

theorem At.exits {x : History} (h : At env operations closes x s) :
    s.exited = none ∨ s.exited = some "Wrong request id!" ∨
      s.exited = some bye ∧ closes = true ∧ s.sender.busy = none ∧ s.sender.todo = [] := by
  rcases h.standing.cases_exited with hrunning | hwrong | hleft
  · exact .inl hrunning
  · exact .inr (.inl hwrong)
  · obtain ⟨hbusy, htodo, hcloses⟩ := h.standing.leaves hleft
    exact .inr (.inr ⟨hleft, h.sent.closes_eq ▸ hcloses, hbusy, htodo⟩)

/-- At every point of every schedule, what is printed are the answers to the first
choices, in order.  The child never takes a request for a wrong one, nor the client
an answer.  The exits that are left are that of the ids, and that of a 3 which comes
behind all choices. -/
theorem run_right
    (hrun : Transitions.run (step env) (start operations closes) schedule = some s) :
    (∃ answered, answered <+: operations ∧
      List.Forall₂ (Reports env) answered s.receiver.reports) ∧
    s.child.exited = false ∧
    (s.exited = none ∨ s.exited = some "Wrong request id!" ∨
      s.exited = some bye ∧ closes = true ∧ s.sender.busy = none ∧ s.sender.todo = []) := by
  obtain ⟨x, hx, -⟩ := at_run hrun
  obtain ⟨later, hserved⟩ := hx.served
  refine ⟨⟨operations.take x.printed.length, List.take_prefix .., ?_⟩, hserved.running, hx.exits⟩
  have hall := List.forall₂_take x.printed.length (reports_replies env operations ⟨0, 0⟩ 0)
  rwa [← List.map_take, ← List.prefix_iff_eq_take.mp hx.printed_first, ← hx.reports_eq] at hall

/-- A date is asked for and printed, while the increment of the counter is still to
come. -/
theorem run_right_date :
    ∃ s : Network 8 13, Transitions.run (step .bytewise) (start [.date] false)
        [.choose, .write 8, .read 8, .serve, .answer 13, .receive 8, .compare, .receive 4,
          .receive 1, .print] = some s ∧
      s.receiver.reports = [.date [0x31]] ∧
      (∃ answered, answered <+: [.date] ∧
        List.Forall₂ (Reports .bytewise) answered s.receiver.reports) ∧
      s.exited = none := by
  obtain ⟨s, hrun, hreports, hexited⟩ : ∃ s : Network 8 13,
      Transitions.run (step .bytewise) (start [.date] false)
        [.choose, .write 8, .read 8, .serve, .answer 13, .receive 8, .compare, .receive 4,
          .receive 1, .print] = some s ∧
        s.receiver.reports = [.date [0x31]] ∧ s.exited = none := ⟨_, rfl, rfl, rfl⟩
  exact ⟨s, hrun, hreports, (run_right hrun).1, hexited⟩

/-! ## The end of a session -/

/-- How far the threads are. -/
def rank (operations : List Operation) (s : Network up down) : ℕ :=
  2 * operations.length - (2 * s.sender.todo.length + s.sender.busy.toList.length) +
    s.requests.written.length + s.requests.taken + s.child.draws + s.answers.written.length +
    s.answers.taken + (2 * s.receiver.reports.length + s.receiver.passed.toNat) +
    s.exited.isSome.toNat

/-- The number of steps of the longest schedule, at most: every byte is written and
read, and for each choice there are eight more steps. -/
def longest (env : ServerEnvironment) (operations : List Operation) : ℕ :=
  2 * (Request.grammar.stream (asked operations)).length +
    2 * (Answer.grammar.stream (replies env operations)).length + 8 * operations.length + 2

theorem At.todo_length {x : History} (h : At env operations closes x s) :
    x.counted.length + s.sender.busy.toList.length + s.sender.todo.length =
      operations.length := by
  have hlen := congrArg List.length h.sent.all
  rw [List.length_append, List.length_append] at hlen
  exact hlen.symm

theorem rank_le (h : Consistent env operations closes s) :
    rank operations s ≤ longest env operations := by
  obtain ⟨x, hx⟩ := h
  obtain ⟨later, hserved⟩ := hx.served
  obtain ⟨later', hreceived⟩ := hx.received
  obtain ⟨future, hrequests⟩ := hx.sent.stream
  obtain ⟨future', hanswers⟩ := hserved.stream
  have hq := congrArg List.length hrequests
  have ha := congrArg List.length hanswers
  have hn := congrArg List.length hserved.taken.all
  have hp := congrArg List.length hreceived.taken.all
  have hr := congrArg List.length hreceived.reports
  simp only [asked, replies, List.length_append, List.length_map, Counters.requests_length,
    ServerEnvironment.answers_length] at hq ha hn hp hr
  have hd := hserved.draws
  have ht := s.requests.taken_le
  have ht' := s.answers.taken_le
  have hb := s.receiver.passed.toNat_le
  have he := s.exited.isSome.toNat_le
  simp only [rank, longest, asked, replies]
  omega

theorem rank_lt {a : Action} (h : Consistent env operations closes s)
    (hstep : s.step env a = some s') : rank operations s < rank operations s' := by
  obtain ⟨x, hx⟩ := h
  have htodo := hx.todo_length
  obtain ⟨later, hserved⟩ := hx.served
  cases Next.of_step hstep with
  | choose _ hchoose =>
      obtain ⟨operation, todo, hbusy, htodo', rfl⟩ := Sender.choose_eq_some hchoose
      rw [hbusy, htodo'] at htodo
      simp only [Option.toList_none, List.length_nil, List.length_cons] at htodo
      simp only [rank, hbusy, htodo', Option.toList_none, Option.toList_some, List.length_nil,
        List.length_cons]
      omega
  | write _ hput =>
      obtain ⟨hpos, hn, hwritten, htaken⟩ := Pipe.put_eq_some hput
      simp only [rank, hwritten, htaken, List.length_append, List.length_take_of_le hn]
      omega
  | count _ hcount =>
      obtain ⟨operation, hbusy, -, rfl⟩ := Sender.count_eq_some hcount
      rw [hbusy] at htodo
      simp only [Option.toList_some, List.length_cons, List.length_nil] at htodo
      simp only [rank, hbusy, Option.toList_none, Option.toList_some, List.length_nil,
        List.length_cons]
      omega
  | read hget =>
      obtain ⟨hpos, -, -, hwritten, htaken⟩ := Pipe.get_eq_some hget
      simp only [rank, hwritten, htaken]
      omega
  | serve hserve =>
      obtain ⟨r, rest, -, hnext⟩ := hserved.serve hserve
      have hdraws := hserved.draws
      have hdraws' := hnext.draws
      rw [List.length_append, List.length_singleton] at hdraws'
      simp only [rank]
      omega
  | answer hput =>
      obtain ⟨hpos, hn, hwritten, htaken⟩ := Pipe.put_eq_some hput
      simp only [rank, hwritten, htaken, List.length_append, List.length_take_of_le hn]
      omega
  | receive _ _ hget =>
      obtain ⟨hpos, -, -, hwritten, htaken⟩ := Pipe.get_eq_some hget
      simp only [rank, hwritten, htaken]
      omega
  | pass _ hunchecked => simp [rank, hunchecked]
  | exit hrunning => simp [rank, hrunning]
  | leave hrunning => simp [rank, hrunning]
  | print _ hprint =>
      rw [Receiver.print] at hprint
      split at hprint
      next hdone =>
        cases hprint
        simp only [rank, hdone.1, List.length_append, List.length_singleton, Bool.toNat_true,
          Bool.toNat_false]
        omega
      next => cases hprint

/-- No schedule goes on for ever, and where nothing can be done any more the client has
exited, for an id or with a 3, or everything is printed and `main` waits for another
choice. -/
theorem run_completes (hup : 0 < up) (hdown : 0 < down)
    (hrun : Transitions.run (step env) (start operations closes : Network up down) schedule =
      some s) :
    schedule.length ≤ longest env operations ∧
    (Transitions.Stuck (step env) s →
      s.exited = some "Wrong request id!" ∨ s.exited = some bye ∧ closes = true ∨
        s.exited = none ∧ closes = false ∧ s.sender.todo = [] ∧
          List.Forall₂ (Reports env) operations s.receiver.reports) ∧
    ∃ more s', Transitions.run (step env) s more = some s' ∧
      Transitions.Stuck (step env) s' := by
  have hkeep (s : Network up down) (a : Action) (s' : Network up down)
      (h : Consistent env operations closes s) (hstep : s.step env a = some s') :
      Consistent env operations closes s' := h.step hstep
  have hrank (s : Network up down) (a : Action) (s' : Network up down)
      (h : Consistent env operations closes s) (hstep : s.step env a = some s') :
      rank operations s < rank operations s' := rank_lt h hstep
  obtain ⟨x, hx, -⟩ := at_run hrun
  refine ⟨Transitions.length_le_of_progress hkeep hrank (fun _ => rank_le) (.start ..) hrun,
    fun hstuck => ?_, Transitions.exists_stuck hkeep hrank (fun _ => rank_le) ⟨x, hx⟩⟩
  rcases hx.exits with hexited | hwrong | ⟨hleft, hcloses, -, -⟩
  rotate_left
  · exact .inl hwrong
  · exact .inr (.inl ⟨hleft, hcloses⟩)
  obtain ⟨hleft, hprinted⟩ := hx.idle hup hdown hexited fun a _ _ _ => hstuck a
  have hbusy : s.sender.busy = none := by
    by_contra hsome
    obtain ⟨operation, hbusy⟩ := Option.ne_none_iff_exists'.mp hsome
    have hcount := hstuck .count
    simp [step, stepClient, hexited, Sender.count, hbusy, hleft] at hcount
  have htodo : s.sender.todo = [] := by
    by_contra hsome
    obtain ⟨operation, todo, htodo⟩ := List.exists_cons_of_ne_nil hsome
    have hchoose := hstuck .choose
    simp [step, stepClient, hexited, Sender.choose, hbusy, htodo] at hchoose
  have hcloses : closes = false := by
    rw [← hx.sent.closes_eq]
    by_contra hthree
    have hleave := hstuck .leave
    simp [step, stepClient, hexited, Sender.Leaves, hbusy, htodo, hthree] at hleave
  have hall := hx.sent.all
  rw [hbusy, htodo] at hall
  simp only [Option.toList_none, List.append_nil] at hall
  rw [hbusy, Option.toList_none, List.append_nil, ← hall] at hprinted
  refine .inr (.inr ⟨hexited, hcloses, htodo, ?_⟩)
  rw [hx.reports_eq, hprinted]
  exact reports_replies env operations ⟨0, 0⟩ 0

/-- A session with pipes of one byte, at the point where the first byte is written. -/
theorem run_completes_first_byte :
    ∃ (s : Network 1 1) (more : List Action) (s' : Network 1 1),
      Transitions.run (step .bytewise) (start [.date] false) [.choose, .write 1] = some s ∧
      Transitions.run (step .bytewise) s more = some s' ∧
      Transitions.Stuck (step .bytewise) s' := by
  obtain ⟨s, hrun⟩ : ∃ s : Network 1 1,
      Transitions.run (step .bytewise) (start [.date] false) [.choose, .write 1] = some s :=
    ⟨_, rfl⟩
  obtain ⟨-, -, more, s', hmore, hstuck⟩ := run_completes Nat.one_pos Nat.one_pos hrun
  exact ⟨s, more, s', hrun, hmore, hstuck⟩

end Network

end Rso.Socket
