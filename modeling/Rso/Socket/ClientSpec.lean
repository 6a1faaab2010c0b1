import Rso.Socket.Client

/-!
# What the client does on a connection

Sending: each request goes out as one frame with the counter of its kind as id.

Receiving: a pass over a whole answer with an accepted id reports it.  At the end
of the stream `read_wrapper` only returns 0 or -1, which no caller looks at, and
the pass goes on with what the header object holds then (`leftHeader`).
-/

namespace Rso.Socket.Client

open Proc

/-! ## The wrappers -/

section Wrappers

variable {σ : Type} (host : Host σ)

theorem readPass_receives :
    Receives host (readPass host) fun t => (t.mem, t.total.toUInt32.toInt32) where
  finish t s h := by
    rw [readPass, if_neg (by rw [h]; decide)]
    rfl
  store t s bs s' hleft hread hpos hlt := by
    have hcount : ssize ((Except.ok bs : Except Errno _).map List.length) =
        ssize (.ok bs.length) := rfl
    rw [readPass, if_pos hleft, bind_ok (call_eq hread)]
    simp only [hcount]
    rw [if_neg (ssize_pos hpos hlt), ssize_toUInt64]
    rfl

theorem writePass_sends :
    Sends host (writePass host) fun t => t.total.toUInt32.toInt32 where
  finish t s h := by
    rw [writePass, if_neg (by rw [h]; decide)]
    rfl
  pass t s n s' hleft hwrite hpos hlt := by
    rw [writePass, if_pos hleft, bind_ok (call_eq hwrite)]
    rw [if_neg (ssize_pos hpos hlt), ssize_toUInt64]
    rfl

variable {t : Transfer} {s s' : σ}

/-- At end of file the wrapper returns. -/
theorem readPass_endOfFile (hleft : 0 < t.left)
    (hread : host.read t.pointer t.left s = (.ok [], s')) :
    readPass host t s = .ok (.inr (t.mem, 0)) (host.close s').2 := by
  rw [readPass, if_pos hleft, bind_ok (call_eq hread)]
  rfl

/-- After a fatal error, too. -/
theorem readPass_error {e : Errno} (hleft : 0 < t.left) (he : e ≠ eintr)
    (hread : host.read t.pointer t.left s = (.error e, s')) :
    readPass host t s = .ok (.inr (t.mem, -1)) (host.close s').2 := by
  rw [readPass, if_pos hleft, bind_ok (call_eq hread)]
  have hcount : ssize ((Except.error e : Except Errno (List UInt8)).map List.length) = -1 := rfl
  simp only [hcount]
  rw [if_pos (by decide), if_neg (by decide), if_pos (by decide), errno, if_neg he]
  rfl

end Wrappers

section Connection

variable (env : Environment) (size : UInt64) (mem : Mem) {s : Conn}

theorem readWrapper_full (hfuel : size.toNat < env.fuel) (hsize : size.toNat < 2 ^ 63)
    (hopen : s.closed = false) {e rest : List UInt8} (hpending : s.pending = e ++ rest)
    (he : e.length = size.toNat) :
    ∃ count reads, readWrapper env.host mem size s =
      .ok (mem.write 0 e, count) { s with pending := rest, reads := reads } := by
  obtain ⟨reads, hrun⟩ :=
    (readPass_receives env.host).full mem hsize hfuel hopen hpending he
  exact ⟨_, reads, hrun⟩

/-- The end comes before the object is full: what there is is stored, and the
wrapper returns all the same. -/
theorem readWrapper_short (hsize : size.toNat < 2 ^ 63) (hopen : s.closed = false)
    (hshort : s.pending.length < size.toNat) (hfuel : s.pending.length < env.fuel) :
    ∃ count reads, readWrapper env.host mem size s =
      .ok (mem.write 0 s.pending, count)
        { s with pending := [], reads := reads, closed := true } := by
  obtain ⟨reads, left, hrun⟩ :=
    (readPass_receives env.host).short mem hsize hopen hshort hfuel
  have hend (pointer left : UInt64) : env.host.read pointer left
      { s with pending := [], reads := reads } =
        (Conn.ended s.ending, { s with pending := [], reads := reads }) :=
    Conn.read_ended env left hopen rfl
  have hpos := Transfer.left_done_pos (mem.write 0 s.pending) hshort
  rw [readWrapper, Environment.host_fuel, hrun]
  cases hending : s.ending with
  | none =>
      rw [hending] at hend
      exact ⟨0, reads, loop_result (readPass_endOfFile env.host hpos (hend _ _))⟩
  | some e =>
      rw [hending] at hend
      exact ⟨-1, reads, loop_result (readPass_error env.host hpos e.property (hend _ _))⟩

theorem readWrapper_closed (hfuel : 0 < env.fuel) (hsize : 0 < size) (hclosed : s.closed = true) :
    readWrapper env.host mem size s = .ok (mem, -1) { s with closed := true } := by
  obtain ⟨fuel, hfuel⟩ : ∃ fuel, env.fuel = fuel + 1 := ⟨env.fuel - 1, by omega⟩
  have hread (pointer left : UInt64) : env.host.read pointer left s = (.error ebadf, s) :=
    Conn.read_closed env left hclosed
  rw [readWrapper, Environment.host_fuel, hfuel]
  exact loop_result (readPass_error env.host (t := .start size mem) hsize (by decide) (hread _ _))

/-- An open connection: as much as there is is stored. -/
theorem readWrapper_open (hsize : size.toNat < 2 ^ 63) (hopen : s.closed = false)
    (hfuel : s.pending.length < env.fuel) :
    ∃ count reads, readWrapper env.host mem size s =
      .ok (mem.write 0 (s.pending.take size.toNat), count)
        { s with
          pending := s.pending.drop size.toNat
          reads := reads
          closed := decide (s.pending.length < size.toNat) } := by
  rcases Nat.lt_or_ge s.pending.length size.toNat with hshort | hlong
  · obtain ⟨count, reads, hread⟩ := readWrapper_short env size mem hsize hopen hshort hfuel
    refine ⟨count, reads, ?_⟩
    rw [hread, List.take_of_length_le (Nat.le_of_lt hshort),
      List.drop_of_length_le (Nat.le_of_lt hshort), decide_eq_true hshort]
  · obtain ⟨count, reads, hread⟩ := readWrapper_full env size mem (by omega) hsize
      hopen (List.take_append_drop size.toNat s.pending).symm (List.length_take_of_le hlong)
    refine ⟨count, reads, ?_⟩
    rw [hread, decide_eq_false (Nat.not_lt_of_ge hlong), ← hopen]

/-- Whatever the state of the connection, the wrapper returns. -/
theorem readWrapper_returns (hsize : size.toNat < 2 ^ 63) (hfuel : s.pending.length < env.fuel) :
    ∃ out s', readWrapper env.host mem size s = .ok out s' ∧
      s'.pending.length ≤ s.pending.length := by
  cases hclosed : s.closed with
  | false =>
      obtain ⟨count, reads, hread⟩ := readWrapper_open env size mem hsize hclosed hfuel
      refine ⟨_, _, hread, ?_⟩
      rw [List.length_drop]
      omega
  | true =>
      rcases Nat.eq_zero_or_pos size.toNat with hzero | hpos
      · obtain ⟨fuel, hsome⟩ : ∃ fuel, env.fuel = fuel + 1 := ⟨env.fuel - 1, by omega⟩
        have hnone : (Transfer.start size mem).left = 0 := UInt64.toNat_inj.mp hzero
        have hread : readWrapper env.host mem size s = .ok (mem, 0) s := by
          rw [readWrapper, Environment.host_fuel, hsome]
          exact loop_result ((readPass_receives env.host).finish _ _ hnone)
        exact ⟨_, _, hread, Nat.le_refl _⟩
      · have hsize : 0 < size := UInt64.lt_iff_toNat_lt.mpr hpos
        refine ⟨_, _, readWrapper_closed env size mem (by omega) hsize hclosed, ?_⟩
        exact Nat.le_refl _

theorem writeWrapper_full (hfuel : size.toNat < env.fuel) (hsize : size.toNat < 2 ^ 63)
    (hopen : s.closed = false) :
    ∃ count writes, writeWrapper env.host mem size s =
      .ok count { s with sent := s.sent ++ mem.read 0 size.toNat, writes := writes } := by
  obtain ⟨writes, hrun⟩ := (writePass_sends env.host).full mem hsize hfuel hopen
  exact ⟨_, writes, hrun⟩

end Connection

/-! ## Requests -/

/-- The request that is sent when the counters have these values. -/
def Counters.request (counters : Counters) : Operation → Request
  | .root operand => ⟨counters.rootRequestCounter.toUInt32, .root operand⟩
  | .date => ⟨counters.dateRequestCounter.toUInt32, .date⟩

def Counters.next (counters : Counters) : Operation → Counters
  | .root _ => { counters with rootRequestCounter := counters.rootRequestCounter + 1 }
  | .date => { counters with dateRequestCounter := counters.dateRequestCounter + 1 }

/-- The requests for one operation after the other. -/
def Counters.requests : Counters → List Operation → List Request
  | _, [] => []
  | counters, operation :: operations =>
      counters.request operation :: (counters.next operation).requests operations

theorem Counters.requests_operation :
    ∀ (counters : Counters) (operations : List Operation),
      (counters.requests operations).map (·.operation) = operations := by
  intro counters operations
  induction operations generalizing counters with
  | nil => rfl
  | cons operation operations ih =>
      rw [requests, List.map_cons, ih]
      cases operation <;> rfl

@[simp] theorem Counters.requests_length (counters : Counters) (operations : List Operation) :
    (counters.requests operations).length = operations.length := by
  rw [← List.length_map (f := (·.operation)), requests_operation]

/-- The counters after these operations. -/
def Counters.after (counters : Counters) (operations : List Operation) : Counters :=
  operations.foldl next counters

theorem Counters.after_append (counters : Counters) (operations more : List Operation) :
    counters.after (operations ++ more) = (counters.after operations).after more :=
  List.foldl_append ..

theorem Counters.requests_append :
    ∀ (counters : Counters) (operations more : List Operation),
      counters.requests (operations ++ more) =
        counters.requests operations ++ (counters.after operations).requests more := by
  intro counters operations more
  induction operations generalizing counters with
  | nil => rfl
  | cons operation operations ih => exact congrArg (_ :: ·) (ih (counters.next operation))

section Sending

variable (env : Environment) {s : Conn}

theorem performSquareRootRequest_full (hfuel : 16 < env.fuel) (hopen : s.closed = false)
    (operand : UInt64) (counters : Counters) :
    ∃ writes, performSquareRootRequest env.host operand counters s =
      .ok (counters.next (.root operand))
        { s with
          sent := s.sent ++ Request.grammar.encode (counters.request (.root operand))
          writes := writes
          draws := s.draws + 1 } := by
  have hcoded : (((env.stack s.draws).write 0
      (storeU32 env.order (htonl env.order rootRequestCode))).write 4
        (storeU32 env.order (htonl env.order counters.rootRequestCounter.toUInt32))).write (4 + 4)
          (storeU64 env.order (htobe64 env.order operand)) =
      (env.stack s.draws).write 0 (Request.grammar.encode (counters.request (.root operand))) := by
    rw [Mem.write_write _ (by simp) (by simp), Mem.write_write _ (by simp) (by simp),
      storeU32_htonl, storeU32_htonl, storeU64_htobe64]
    rfl
  have hsent : ((env.stack s.draws).write 0
      (Request.grammar.encode (counters.request (.root operand)))).read 0 16 =
        Request.grammar.encode (counters.request (.root operand)) :=
    Mem.read_write_self _ (Request.encode_root_length ..) (by decide)
  obtain ⟨count, writes, hwrite⟩ := writeWrapper_full env 16
    ((env.stack s.draws).write 0
      (Request.grammar.encode (counters.request (.root operand))))
    (s := { s with draws := s.draws + 1 }) hfuel (by decide) hopen
  refine ⟨writes, ?_⟩
  rw [performSquareRootRequest]
  dsimp only
  rw [bind_ok (env.object_eq s)]
  simp only [Environment.host_order, hcoded]
  rw [bind_ok hwrite, show (16 : UInt64).toNat = 16 from rfl, hsent]
  rfl

theorem performDateRequest_full (hfuel : 8 < env.fuel) (hopen : s.closed = false)
    (counters : Counters) :
    ∃ writes, performDateRequest env.host counters s =
      .ok (counters.next .date)
        { s with
          sent := s.sent ++ Request.grammar.encode (counters.request .date)
          writes := writes
          draws := s.draws + 1 } := by
  have hcoded : ((env.stack s.draws).write 0
      (storeU32 env.order (htonl env.order dateRequestCode))).write 4
        (storeU32 env.order (htonl env.order counters.dateRequestCounter.toUInt32)) =
      (env.stack s.draws).write 0 (Request.grammar.encode (counters.request .date)) := by
    rw [Mem.write_write _ (by simp) (by simp), storeU32_htonl, storeU32_htonl]
    rfl
  have hsent : ((env.stack s.draws).write 0
      (Request.grammar.encode (counters.request .date))).read 0 8 =
        Request.grammar.encode (counters.request .date) :=
    Mem.read_write_self _ (Request.encode_date_length ..) (by decide)
  obtain ⟨count, writes, hwrite⟩ := writeWrapper_full env 8
      ((env.stack s.draws).write 0 (Request.grammar.encode (counters.request .date)))
    (s := { s with draws := s.draws + 1 }) hfuel (by decide) hopen
  refine ⟨writes, ?_⟩
  rw [performDateRequest]
  dsimp only
  rw [bind_ok (env.object_eq s)]
  simp only [Environment.host_order, hcoded]
  rw [bind_ok hwrite, show (8 : UInt64).toNat = 8 from rfl, hsent]
  rfl

theorem performRequest_full (hfuel : 16 < env.fuel) (hopen : s.closed = false)
    (operation : Operation) (counters : Counters) :
    ∃ writes, performRequest env.host operation counters s =
      .ok (counters.next operation)
        { s with
          sent := s.sent ++ Request.grammar.encode (counters.request operation)
          writes := writes
          draws := s.draws + 1 } := by
  cases operation with
  | root operand => exact performSquareRootRequest_full env hfuel hopen operand counters
  | date => exact performDateRequest_full env (by omega) hopen counters

/-- What the client sends is a stream of requests. -/
theorem performRequests_full (hfuel : 16 < env.fuel) :
    ∀ (operations : List Operation) (counters : Counters) (s : Conn), s.closed = false →
      ∃ counters' s', performRequests env.host operations counters s = .ok counters' s' ∧
        s'.sent = s.sent ++ Request.grammar.stream (counters.requests operations) := by
  intro operations
  induction operations with
  | nil =>
      intro counters s _
      exact ⟨counters, s, rfl, (List.append_nil _).symm⟩
  | cons operation operations ih =>
      intro counters s hopen
      obtain ⟨writes, hperform⟩ := performRequest_full env hfuel hopen operation counters
      obtain ⟨counters', s', hrest, hsent⟩ := ih (counters.next operation)
        { s with
          sent := s.sent ++ Request.grammar.encode (counters.request operation)
          writes := writes
          draws := s.draws + 1 } hopen
      refine ⟨counters', s', ?_, ?_⟩
      · rw [performRequests, bind_ok hperform, hrest]
      · rw [hsent, Counters.requests, Grammar.stream_cons, List.append_assoc]

end Sending

/-! ## Answers -/

/-- What is printed for an answer. -/
def printed : Content → Report
  | .root result => .root result
  | .date t => .date (cString t.bytes)

/-- The counter check lets a header with this code and id pass. -/
def Accepts (counters : Counters) (h : Header) : Prop :=
  (h.code = rootAnswerCode ∧ ¬ counters.rootRequestCounter.toUInt32 < h.id) ∨
    (h.code = dateAnserCode ∧ ¬ counters.dateRequestCounter.toUInt32 < h.id)

instance (counters : Counters) (h : Header) : Decidable (Accepts counters h) :=
  inferInstanceAs (Decidable (_ ∨ _))

section Switch

variable {σ : Type} {host : Host σ} {counters : Counters} {h : Header}

theorem proceedAnswer_root (hroot : h.code = rootAnswerCode) (hid : Accepts counters h) :
    proceedAnswer host counters h = proceedRootAnswer host := by
  rcases hid with ⟨-, hpass⟩ | ⟨hdate, -⟩
  · rw [proceedAnswer, if_pos hroot, if_neg hpass]
  · rw [hroot] at hdate
    exact absurd hdate.symm date_ne_root

theorem proceedAnswer_date (hdate : h.code = dateAnserCode) (hid : Accepts counters h) :
    proceedAnswer host counters h = proceedDateAnswer host := by
  rcases hid with ⟨hroot, -⟩ | ⟨-, hpass⟩
  · rw [hdate] at hroot
    exact absurd hroot date_ne_root
  · rw [proceedAnswer, if_neg (by rw [hdate]; exact date_ne_root), if_pos hdate, if_neg hpass]

/-- Every other header ends the process. -/
theorem proceedAnswer_wrong (host : Host σ) (hid : ¬ Accepts counters h) (s : σ) :
    ∃ message, proceedAnswer host counters h s = .error (.exit 1 message) s := by
  rw [proceedAnswer]
  split
  next hroot =>
    split
    next => exact ⟨_, rfl⟩
    next hpass => exact absurd (.inl ⟨hroot, hpass⟩) hid
  next =>
    split
    next hdate =>
      split
      next => exact ⟨_, rfl⟩
      next hpass => exact absurd (.inr ⟨hdate, hpass⟩) hid
    next => exact ⟨_, rfl⟩

/-- The exit for an answer whose id does not pass. -/
theorem proceedAnswer_wrongId (host : Host σ) (hid : ¬ Accepts counters h)
    (hcode : h.code = rootAnswerCode ∨ h.code = dateAnserCode) (s : σ) :
    proceedAnswer host counters h s = .error (.exit 1 "Wrong request id!") s := by
  rw [proceedAnswer]
  split
  next hroot =>
    split
    next => rfl
    next hpass => exact absurd (.inl ⟨hroot, hpass⟩) hid
  next hroot =>
    have hdate := hcode.resolve_left hroot
    rw [if_pos hdate]
    split
    next => rfl
    next hpass => exact absurd (.inr ⟨hdate, hpass⟩) hid

end Switch

section Receiving

variable (env : Environment) {s : Conn}

theorem proceedRootAnswer_full (hfuel : 8 < env.fuel) (hopen : s.closed = false)
    {result : UInt64} {rest : List UInt8} (hpending : s.pending = storeU64 .big result ++ rest) :
    ∃ reads, proceedRootAnswer env.host s =
      .ok (.root result) { s with pending := rest, reads := reads, draws := s.draws + 2 } := by
  obtain ⟨count, reads, hread⟩ := readWrapper_full env 8
      ((env.stack s.draws).write 0 (List.replicate 8 0))
    (s := { s with draws := s.draws + 1 }) hfuel (by decide) hopen hpending (storeU64_length ..)
  have hstored (m : Mem) : (m.write 0 (storeU64 .big result)).read 0 8 = storeU64 .big result :=
    Mem.read_write_self m (storeU64_length ..) (by decide)
  have hhost : be64toh env.order (loadU64 env.order (storeU64 .big result)) = result := by
    rw [be64toh_loadU64 _ (storeU64_length ..), loadU64_storeU64]
  refine ⟨reads, ?_⟩
  rw [proceedRootAnswer, bind_ok (env.object_eq s)]
  dsimp only
  rw [bind_ok hread]
  dsimp only
  rw [bind_ok (env.object_eq _)]
  simp only [hstored, Environment.host_order, hhost]
  rfl

theorem proceedDateAnswer_full (t : Text) (hfuel : 4 < env.fuel) (htext : t.bytes.length < env.fuel)
    (hopen : s.closed = false) {rest : List UInt8} (hpending : s.pending = text.encode t ++ rest) :
    ∃ reads, proceedDateAnswer env.host s =
      .ok (.date (cString t.bytes))
        { s with pending := rest, reads := reads, draws := s.draws + 2 } := by
  have hlen : (UInt32.ofNat t.bytes.length).toNat = t.bytes.length :=
    UInt32.toNat_ofNat_of_lt' t.length_lt
  have hlt := t.length_lt
  rw [show text.encode t = storeU32 .big (UInt32.ofNat t.bytes.length) ++ t.bytes from rfl,
    List.append_assoc] at hpending
  obtain ⟨count, reads, hread⟩ := readWrapper_full env 4
      (env.stack s.draws) (s := { s with draws := s.draws + 1 }) hfuel (by decide) hopen
    hpending (storeU32_length ..)
  obtain ⟨count', reads', hread'⟩ := readWrapper_full env ((UInt32.ofNat t.bytes.length).toUInt64)
      (env.stack (s.draws + 1))
    (s := { s with pending := t.bytes ++ rest, reads, draws := s.draws + 2 })
    (by rw [UInt32.toNat_toUInt64, hlen]; exact htext) (by rw [UInt32.toNat_toUInt64, hlen]; omega)
    hopen rfl (by rw [UInt32.toNat_toUInt64, hlen])
  have hlength : ntohl env.order (loadU32 env.order
      (((env.stack s.draws).write 0 (storeU32 .big (UInt32.ofNat t.bytes.length))).read 0 4)) =
        UInt32.ofNat t.bytes.length := by
    rw [Mem.read_write_self _ (storeU32_length ..) (by decide),
      ntohl_loadU32 _ (storeU32_length ..), loadU32_storeU32]
  have hdate : (((env.stack (s.draws + 1)).write 0 t.bytes).write
      (UInt32.ofNat t.bytes.length).toUInt64 [0]).read 0
        ((UInt32.ofNat t.bytes.length).toNat + 1) = t.bytes ++ [0] := by
    rw [Mem.write_write _ (by rw [UInt32.toNat_toUInt64, hlen]) (by simp; omega), hlen]
    exact Mem.read_write_self _ (by simp) (by omega)
  refine ⟨reads', ?_⟩
  rw [proceedDateAnswer, bind_ok (env.object_eq s), bind_ok hread]
  simp only [Environment.host_order, hlength]
  rw [bind_ok (env.malloc_eq _ _)]
  dsimp only
  rw [bind_ok hread']
  simp only [hdate, cString_append_nul [] t.bytes]
  rfl

/-- Both handlers print something in every state of the connection. -/
theorem proceedAnswer_returns {counters : Counters} {h : Header} (hid : Accepts counters h)
    (hfuel : s.pending.length < env.fuel) :
    ∃ report s', proceedAnswer env.host counters h s = .ok report s' := by
  rcases hid with ⟨hroot, hpass⟩ | ⟨hdate, hpass⟩
  · obtain ⟨⟨requestCoded, count⟩, s₁, hread, -⟩ := readWrapper_returns env 8
      ((env.stack s.draws).write 0 (List.replicate 8 0))
      (s := { s with draws := s.draws + 1 }) (by decide) hfuel
    rw [proceedAnswer_root hroot (.inl ⟨hroot, hpass⟩), proceedRootAnswer,
      bind_ok (env.object_eq s)]
    dsimp only
    rw [bind_ok hread]
    dsimp only
    rw [bind_ok (env.object_eq _)]
    exact ⟨_, _, rfl⟩
  · obtain ⟨⟨dataLength, count⟩, s₁, hread, hle⟩ := readWrapper_returns env 4
      (env.stack s.draws) (s := { s with draws := s.draws + 1 }) (by decide) hfuel
    dsimp only at hle
    have hlength (length : UInt32) : length.toUInt64.toNat < 2 ^ 63 := by
      have hlt := length.toNat_lt
      rw [UInt32.toNat_toUInt64]
      omega
    obtain ⟨⟨date, count'⟩, s₂, hread', -⟩ := readWrapper_returns env
      (ntohl env.order (loadU32 env.order (dataLength.read 0 4))).toUInt64 (env.stack s₁.draws)
      (s := { s₁ with draws := s₁.draws + 1 })
      (hlength (ntohl env.order (loadU32 env.order (dataLength.read 0 4))))
      (Nat.lt_of_le_of_lt hle hfuel)
    rw [proceedAnswer_date hdate (.inr ⟨hdate, hpass⟩), proceedDateAnswer,
      bind_ok (env.object_eq s), bind_ok hread]
    simp only [Environment.host_order]
    rw [bind_ok (env.malloc_eq _ _)]
    dsimp only
    rw [bind_ok hread']
    exact ⟨_, _, rfl⟩

/-- What the header object of a pass holds when `pending` is all that is to come:
its first bytes, and unset bytes if there are too few. -/
def leftHeader (env : Environment) (draws : ℕ) (pending : List UInt8) : Header :=
  Header.ofBytes (((env.stack draws).write 0 (pending.take 8)).read 0 8)

theorem leftHeader_encode (draws : ℕ) (h : Header) (bs : List UInt8) :
    leftHeader env draws (h.encode ++ bs) = h := by
  rw [leftHeader, List.take_left' h.encode_length, Header.ofBytes_read_write]

/-- A pass goes on with what the header object holds, however much was read. -/
theorem receiveAnswer_open (hopen : s.closed = false) (hfuel : s.pending.length < env.fuel)
    (counters : Counters) :
    ∃ reads, receiveAnswer env.host ⟨1, counters⟩ s =
      proceedAnswer env.host counters (leftHeader env s.draws s.pending)
        { s with
          pending := s.pending.drop 8
          reads := reads
          closed := decide (s.pending.length < 8)
          draws := s.draws + 1 } := by
  obtain ⟨count, reads, hread⟩ := readWrapper_open env 8
      (env.stack s.draws) (s := { s with draws := s.draws + 1 }) (by decide) hopen hfuel
  have hcode := Header.code_ofBytes_read env.order
    ((env.stack s.draws).write 0 (s.pending.take 8))
  have hid := Header.id_ofBytes_read env.order
    ((env.stack s.draws).write 0 (s.pending.take 8))
  have hrun : (1 : Int32) ≠ 0 := by decide
  refine ⟨reads, ?_⟩
  rw [receiveAnswer, if_neg hrun, bind_ok (env.object_eq s), bind_ok hread]
  simp only [Environment.host_order]
  rw [show (8 : UInt64).toNat = 8 from rfl, ← hcode, ← hid]
  rfl

/-- A pass over a whole answer with an accepted id prints it. -/
theorem receiveAnswer_frame (hopen : s.closed = false) (hfuel : s.pending.length < env.fuel)
    {a : Answer} {rest : List UInt8} (hpending : s.pending = Answer.grammar.encode a ++ rest)
    {counters : Counters} (hid : Accepts counters a.header) :
    ∃ reads, receiveAnswer env.host ⟨1, counters⟩ s =
      .ok (printed a.content)
        { s with pending := rest, reads := reads, draws := s.draws + 3 } := by
  have hencode : s.pending = a.header.encode ++ (a.body ++ rest) := by
    rw [hpending, ← List.append_assoc]
    rfl
  obtain ⟨reads, hpass⟩ := receiveAnswer_open env hopen hfuel counters
  have hlen : s.pending.length = 8 + (a.body ++ rest).length := by
    rw [hencode, List.length_append, Header.encode_length]
  have hclosed : decide (s.pending.length < 8) = s.closed := by
    rw [hopen, decide_eq_false (by omega)]
  rw [hclosed, hencode, leftHeader_encode, List.drop_left' (Header.encode_length _)] at hpass
  obtain ⟨id, content⟩ := a
  cases content with
  | root result =>
      rw [proceedAnswer_root rfl hid] at hpass
      have hbody : (Answer.body ⟨id, .root result⟩).length = 8 := storeU64_length ..
      rw [List.length_append] at hlen
      obtain ⟨reads', hproceed⟩ := proceedRootAnswer_full env
        (s := { s with
          pending := Answer.body ⟨id, .root result⟩ ++ rest, reads, draws := s.draws + 1 })
        (by omega) hopen rfl
      exact ⟨reads', by rw [hpass, hproceed]; rfl⟩
  | date t =>
      rw [proceedAnswer_date rfl hid] at hpass
      have hbody : (Answer.body ⟨id, .date t⟩).length = 4 + t.bytes.length := by
        rw [Answer.body, show text.encode t =
          storeU32 .big (UInt32.ofNat t.bytes.length) ++ t.bytes from rfl]
        simp
      rw [List.length_append] at hlen
      obtain ⟨reads', hproceed⟩ := proceedDateAnswer_full env t
        (s := { s with
          pending := Answer.body ⟨id, .date t⟩ ++ rest, reads, draws := s.draws + 1 })
        (by omega) (by omega) hopen rfl
      exact ⟨reads', by rw [hpass, hproceed]; rfl⟩

end Receiving

end Rso.Socket.Client
