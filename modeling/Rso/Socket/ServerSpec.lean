import Rso.Socket.Server

/-!
# What the server child does on a connection

`ServerEnvironment` is all that the child has no say in.  In it the wrappers
move whole objects, and each handler reads the rest of its request and sends one
answer.  What an answer says depends on `sqrt` and on the date; its id is made
of bytes that lie behind the header in memory.
-/

namespace Rso.Socket.Server

open Proc

/-! ## The wrappers -/

section Wrappers

variable {σ : Type} (host : Host σ)

theorem readPass_receives :
    Receives host (readPass host) fun t => (t.mem, t.total.toUInt32.toInt32) where
  finish t s h := by
    rw [readPass, if_neg (by rw [h]; decide)]
    rfl
  store t s bs s' hleft hread hpos hlt := by
    have hcount : (ssize ((Except.ok bs : Except Errno _).map List.length)).toUInt64 =
        UInt64.ofNat bs.length := ssize_toUInt64 bs.length
    rw [readPass, if_pos hleft, bind_ok (call_eq hread)]
    simp only [hcount]
    rw [if_neg (size_pos hpos hlt)]
    rfl

theorem writePass_sends :
    Sends host (writePass host) fun t => t.total.toUInt32.toInt32 where
  finish t s h := by
    rw [writePass, if_neg (by rw [h]; decide)]
    rfl
  pass t s n s' hleft hwrite hpos hlt := by
    rw [writePass, if_pos hleft, bind_ok (call_eq hwrite)]
    simp only [ssize_toUInt64]
    rw [if_neg (size_pos hpos hlt)]
    rfl

/-- The pass that sees the end of file is the last one of the process. -/
theorem readPass_endOfFile {t : Transfer} {s s' : σ} (hleft : 0 < t.left)
    (hread : host.read t.pointer t.left s = (.ok [], s')) :
    readPass host t s = .error (.exit 1 "End of the file reached!") (host.close s').2 := by
  rw [readPass, if_pos hleft, bind_ok (call_eq hread)]
  rfl

end Wrappers

section Connection

variable (env : Environment) (size : UInt64) (mem : Mem) {s : Conn}

theorem readWrapper_full (hfuel : size.toNat < env.fuel) (hsize : size.toNat < 2 ^ 63)
    (hopen : s.closed = false) {e rest : List UInt8} (hpending : s.pending = e ++ rest)
    (he : e.length = size.toNat) :
    ∃ count reads, readWrapper env.host mem size s =
      .ok (mem.write 0 e, count) { s with pending := rest, reads := reads } := by
  obtain ⟨reads, hrun⟩ :=
    (readPass_receives env.host).full mem hsize hfuel hopen hpending he
  exact ⟨_, reads, hrun⟩

theorem readWrapper_short (hfuel : size.toNat < env.fuel) (hsize : size.toNat < 2 ^ 63)
    (hopen : s.closed = false) (hshort : s.pending.length < size.toNat)
    (hending : s.ending = none) :
    ∃ reads, readWrapper env.host mem size s =
      .error (.exit 1 "End of the file reached!")
        { s with pending := [], reads := reads, closed := true } := by
  have hfuel' : s.pending.length < env.fuel := Nat.lt_trans hshort hfuel
  obtain ⟨reads, left, hrun⟩ := (readPass_receives env.host).short mem hsize hopen hshort hfuel'
  have hend (pointer left : UInt64) :
      env.host.read pointer left { s with pending := [], reads := reads } =
        (.ok [], { s with pending := [], reads := reads }) := by
    rw [show (Except.ok [] : Except Errno (List UInt8)) = Conn.ended s.ending by rw [hending]; rfl]
    exact Conn.read_ended env left hopen rfl
  refine ⟨reads, ?_⟩
  rw [readWrapper, Environment.host_fuel, hrun,
    loop_halt (readPass_endOfFile env.host (Transfer.left_done_pos _ hshort) (hend _ _))]
  rfl

theorem writeWrapper_full (hfuel : size.toNat < env.fuel) (hsize : size.toNat < 2 ^ 63)
    (hopen : s.closed = false) :
    ∃ count writes, writeWrapper env.host mem size s =
      .ok count { s with sent := s.sent ++ mem.read 0 size.toNat, writes := writes } := by
  obtain ⟨writes, hrun⟩ := (writePass_sends env.host).full mem hsize hfuel hopen
  exact ⟨_, writes, hrun⟩

end Connection

/-! ## Coding the answers -/

/-- The date as an answer carries it. -/
def dateText (date : CString 59) : Text :=
  ⟨date.bytes, Nat.lt_of_le_of_lt date.length_le (by decide)⟩

section Coding

variable (o : ByteOrder) (m : Mem) (reqId : UInt32)

/-- The three pieces of a root answer, the id as it lies in memory. -/
theorem rootAnswer_coded (result : UInt64) :
    ((m.write 0 (storeU32 o (htonl o rootAnswerCode))).write 4 (storeU32 o reqId)).write 8
        (storeU64 .big result) =
      m.write 0 (Answer.grammar.encode ⟨ntohl o reqId, .root result⟩) := by
  rw [Mem.write_write m (by simp) (by simp), Mem.write_write m (by simp) (by simp),
    storeU32_htonl, ← storeU32_ntohl o reqId, Answer.encode_root]

/-- The four pieces of a date answer. -/
theorem dateAnswer_coded (date : CString 59) :
    (((m.write 0 (storeU32 o (htonl o dateAnserCode))).write 4 (storeU32 o reqId)).write 8
        (storeU32 o (htonl o (UInt32.ofNat date.bytes.length)))).write 12 date.bytes =
      m.write 0 (Answer.grammar.encode ⟨ntohl o reqId, .date (dateText date)⟩) := by
  have hlen := date.length_le
  rw [Mem.write_write m (by simp) (by simp), Mem.write_write m (by simp) (by simp),
    Mem.write_write m (by simp) (by simp; omega), storeU32_htonl, storeU32_htonl,
    ← storeU32_ntohl o reqId, Answer.encode_date, List.append_assoc _ _ date.bytes]
  rfl

/-- The object that `strftime` wrote to holds the date and its length. -/
theorem strlen_date (date : CString 59) :
    strlen (m.write 0 (date.bytes ++ [0])) 60 = date.bytes.length := by
  have hlen := date.length_le
  rw [strlen, Mem.read_write_past m (by simp; omega) (by decide), List.append_assoc,
    List.singleton_append, cString_append_nul, cString_eq_self_iff.mpr date.noNul]

theorem read_date (date : CString 59) :
    (m.write 0 (date.bytes ++ [0])).read 0 date.bytes.length = date.bytes := by
  have hlen := date.length_le
  rw [Mem.read_write m (by simp) (by simp; omega), UInt64.toNat_zero, List.drop_zero,
    List.take_left]

/-- The size of a date answer does not overflow. -/
theorem dateAnswer_size (date : CString 59) :
    (12 + UInt32.ofNat date.bytes.length).toUInt64.toNat = 12 + date.bytes.length := by
  have hlen := date.length_le
  have hword : (UInt32.ofNat date.bytes.length).toNat = date.bytes.length :=
    UInt32.toNat_ofNat_of_lt' (Nat.lt_of_le_of_lt hlen (by decide))
  rw [UInt32.toNat_toUInt64, UInt32.toNat_add, hword]
  exact Nat.mod_eq_of_lt (Nat.lt_of_le_of_lt (Nat.add_le_add_left hlen 12) (by decide))

end Coding

/-! ## The handlers -/

/-- What the child has no say in. -/
structure ServerEnvironment extends Environment where
  sqrt : UInt64 → UInt64
  text : ℕ → CString 59

/-- A host that moves one byte with each call, where `sqrt` does nothing and the
date has one character. -/
def ServerEnvironment.bytewise : ServerEnvironment where
  toEnvironment := .bytewise
  sqrt := id
  text _ := ⟨[0x31], by decide, by decide⟩

/-- The environment with more passes followed, or fewer. -/
def ServerEnvironment.withFuel (env : ServerEnvironment) (fuel : ℕ) : ServerEnvironment :=
  { env with fuel }

/-- The child's system on one connection. -/
abbrev ServerEnvironment.host (env : ServerEnvironment) : ServerHost Conn where
  toHost := env.toEnvironment.host
  sqrt := env.sqrt
  strftime s := (env.text s.draws, { s with draws := s.draws + 1 })

theorem ServerEnvironment.strftime_eq (env : ServerEnvironment) (s : Conn) :
    call env.host.strftime s = .ok (env.text s.draws) { s with draws := s.draws + 1 } := rfl

/-- What a handler answers, when it starts with this many objects drawn. -/
def ServerEnvironment.content (env : ServerEnvironment) (draws : ℕ) : Operation → Content
  | .root operand => .root (env.sqrt operand)
  | .date => .date (dateText (env.text (draws + 1)))

section Handlers

variable (env : ServerEnvironment) {s : Conn}

theorem rootSquareComputer_full (hfuel : 8 < env.fuel) (hopen : s.closed = false)
    {operand : UInt64} {rest : List UInt8} (hpending : s.pending = storeU64 .big operand ++ rest)
    (result : Mem) :
    ∃ reads, rootSquareComputer env.host result 8 s =
      .ok (result.write 0 (storeU64 .big (env.sqrt operand)), operand)
        { s with pending := rest, reads := reads, draws := s.draws + 1 } := by
  obtain ⟨count, reads, hread⟩ := readWrapper_full env.toEnvironment 8
      (env.stack s.draws) (s := { s with draws := s.draws + 1 }) hfuel (by decide) hopen
    hpending (storeU64_length ..)
  refine ⟨reads, ?_⟩
  rw [rootSquareComputer, bind_ok (env.object_eq s), bind_ok hread]
  have hnumber : ((env.stack s.draws).write 0 (storeU64 .big operand)).read 0 8 =
      storeU64 .big operand := Mem.read_write_self _ (storeU64_length ..) (by decide)
  have hhost : be64toh env.order (loadU64 env.order (storeU64 .big operand)) = operand := by
    rw [be64toh_loadU64 _ (storeU64_length ..), loadU64_storeU64]
  have hresult : (storeU64 env.order (htobe64 env.order (env.sqrt operand))).take 8 =
      storeU64 .big (env.sqrt operand) := by
    rw [storeU64_htobe64, List.take_of_length_le (Nat.le_of_eq (storeU64_length ..))]
  simp only [hnumber, Environment.host_order, hhost, hresult]
  rfl

/-- The handler reads the operand and answers with its root. -/
theorem squareRootHandler_full (hfuel : 16 < env.fuel) (hopen : s.closed = false)
    {operand : UInt64} {rest : List UInt8} (hpending : s.pending = storeU64 .big operand ++ rest)
    (reqId : UInt32) :
    ∃ reads writes, squareRootHandler env.host reqId s = .ok operand
      { s with
        pending := rest
        sent := s.sent ++
          Answer.grammar.encode ⟨ntohl env.order reqId, env.content s.draws (.root operand)⟩
        reads := reads
        writes := writes
        draws := s.draws + 3 } := by
  obtain ⟨reads, hcompute⟩ := rootSquareComputer_full env
    (s := { s with draws := s.draws + 1 }) (by omega) hopen hpending (env.stack s.draws)
  have hresult : ((env.stack s.draws).write 0 (storeU64 .big (env.sqrt operand))).read 0 8 =
      storeU64 .big (env.sqrt operand) := Mem.read_write_self _ (storeU64_length ..) (by decide)
  have hsent : ((env.stack (s.draws + 2)).write 0
      (Answer.grammar.encode ⟨ntohl env.order reqId, .root (env.sqrt operand)⟩)).read 0 16 =
        Answer.grammar.encode ⟨ntohl env.order reqId, .root (env.sqrt operand)⟩ :=
    Mem.read_write_self _ (Answer.encode_root_length ..) (by decide)
  obtain ⟨count, writes, hwrite⟩ := writeWrapper_full env.toEnvironment 16
      ((env.stack (s.draws + 2)).write 0
      (Answer.grammar.encode ⟨ntohl env.order reqId, .root (env.sqrt operand)⟩))
    (s := { s with pending := rest, reads := reads, draws := s.draws + 3 }) hfuel (by decide) hopen
  refine ⟨reads, writes, ?_⟩
  rw [squareRootHandler, bind_ok (env.object_eq s), bind_ok hcompute]
  dsimp only
  rw [bind_ok (env.object_eq _)]
  simp only [hresult, Environment.host_order, rootAnswer_coded]
  rw [bind_ok hwrite, show (16 : UInt64).toNat = 16 from rfl, hsent]
  rfl

/-- The handler answers with the date. -/
theorem dateHandler_full (hfuel : 71 < env.fuel) (hopen : s.closed = false) (reqId : UInt32) :
    ∃ writes, dateHandler env.host reqId s = .ok ()
      { s with
        sent := s.sent ++
          Answer.grammar.encode ⟨ntohl env.order reqId, env.content s.draws .date⟩
        writes := writes
        draws := s.draws + 3 } := by
  obtain ⟨date, hdate⟩ : ∃ date, env.text (s.draws + 1) = date := ⟨_, rfl⟩
  have hstrftime : call env.host.strftime { s with draws := s.draws + 1 } =
      .ok date { s with draws := s.draws + 2 } := by
    rw [env.strftime_eq, hdate]
  have hlen := date.length_le
  have hsize := dateAnswer_size date
  have hsent : ((env.stack (s.draws + 2)).write 0
      (Answer.grammar.encode ⟨ntohl env.order reqId, .date (dateText date)⟩)).read 0
        (12 + date.bytes.length) =
      Answer.grammar.encode ⟨ntohl env.order reqId, .date (dateText date)⟩ :=
    Mem.read_write_self _ (Answer.encode_date_length ..) (by omega)
  obtain ⟨count, writes, hwrite⟩ := writeWrapper_full env.toEnvironment
      ((12 + UInt32.ofNat date.bytes.length).toUInt64)
      ((env.stack (s.draws + 2)).write 0
      (Answer.grammar.encode ⟨ntohl env.order reqId, .date (dateText date)⟩))
    (s := { s with draws := s.draws + 3 }) (by omega) (by omega) hopen
  rw [hsize, hsent] at hwrite
  refine ⟨writes, ?_⟩
  rw [dateHandler, bind_ok (env.object_eq s), bind_ok hstrftime]
  simp only [strlen_date, read_date]
  rw [bind_ok (env.malloc_eq _ _)]
  simp only [Environment.host_order, dateAnswer_coded]
  rw [bind_ok hwrite, ServerEnvironment.content, hdate]
  rfl

/-- The operand does not arrive. -/
theorem squareRootHandler_short (hfuel : 8 < env.fuel) (hopen : s.closed = false)
    (hending : s.ending = none) (hshort : s.pending.length < 8) (reqId : UInt32) :
    ∃ s', squareRootHandler env.host reqId s =
        .error (.exit 1 "End of the file reached!") s' ∧ s'.sent = s.sent := by
  obtain ⟨reads, hread⟩ := readWrapper_short env.toEnvironment 8
      (env.stack (s.draws + 1)) (s := { s with draws := s.draws + 2 })
    hfuel (by decide) hopen hshort hending
  refine ⟨{ s with pending := [], reads, closed := true, draws := s.draws + 2 }, ?_, rfl⟩
  rw [squareRootHandler, bind_ok (env.object_eq s)]
  refine bind_error ?_
  rw [rootSquareComputer, bind_ok (env.object_eq _), bind_error hread]

end Handlers

/-! ## One pass -/

/-- The id in the answer of a pass: the bytes that the header object has 32 bytes
behind its start. -/
def ServerEnvironment.idBehind (env : ServerEnvironment) (draws : ℕ) : UInt32 :=
  loadU32 .big ((env.stack draws).read 32 4)

/-- The answer of a pass. -/
def ServerEnvironment.answer (env : ServerEnvironment) (draws : ℕ) (operation : Operation) :
    Answer :=
  ⟨env.idBehind draws, env.content (draws + 1) operation⟩

section Switch

variable {σ : Type} {host : ServerHost σ} {code reqId : UInt32} {s s' : σ}

theorem answerRequest_root {operand : UInt64}
    (h : squareRootHandler host reqId s = .ok operand s') :
    answerRequest host rootRequestCode reqId s = .ok (.root operand) s' := by
  rw [answerRequest, if_pos rfl, bind_ok h]
  rfl

theorem answerRequest_root_halt {e : Halt} (h : squareRootHandler host reqId s = .error e s') :
    answerRequest host rootRequestCode reqId s = .error e s' := by
  rw [answerRequest, if_pos rfl, bind_error h]

theorem answerRequest_date (h : dateHandler host reqId s = .ok () s') :
    answerRequest host dateRequestCode reqId s = .ok .date s' := by
  have hcode : dateRequestCode ≠ rootRequestCode := by decide
  rw [answerRequest, if_neg hcode, if_pos rfl, bind_ok h]
  rfl

theorem answerRequest_wrong (hroot : code ≠ rootRequestCode) (hdate : code ≠ dateRequestCode) :
    answerRequest host code reqId s = .error (.exit 1 "Wrong request\n") s := by
  rw [answerRequest, if_neg hroot, if_neg hdate, exit_eq]

end Switch

section Pass

variable (env : ServerEnvironment) {s : Conn}

/-- A pass that reads a whole header goes on with the code in it and an id that is
not in it. -/
theorem serveRequest_header (hfuel : 8 < env.fuel) (hopen : s.closed = false) {h : Header}
    {bs : List UInt8} (hpending : s.pending = h.encode ++ bs) :
    ∃ reqId reads, ntohl env.order reqId = env.idBehind s.draws ∧
      serveRequest env.host s =
        (do return ⟨← answerRequest env.host h.code reqId, 32⟩ : Proc Conn Served)
          { s with pending := bs, reads := reads, draws := s.draws + 1 } := by
  obtain ⟨count, reads, hread⟩ := readWrapper_full env.toEnvironment 8
      (env.stack s.draws) (s := { s with draws := s.draws + 1 }) hfuel (by decide) hopen
    hpending h.encode_length
  have hcode := Header.code_ofBytes_read env.order ((env.stack s.draws).write 0 h.encode)
  rw [Header.ofBytes_read_write] at hcode
  refine ⟨loadU32 env.order (((env.stack s.draws).write 0 h.encode).read (4 * 8) 4), reads, ?_, ?_⟩
  · rw [ntohl_loadU32 _ (Mem.read_length ..), Mem.read_write_beyond _ (a := 4 * 8)
      (by rw [Header.encode_length]; decide) (by decide)]
    rfl
  · rw [serveRequest, bind_ok (env.object_eq s), bind_ok hread]
    simp only [Environment.host_order, ← hcode]
    rfl

/-- A pass with a whole request to read answers it. -/
theorem serveRequest_frame (hfuel : 71 < env.fuel) (hopen : s.closed = false) {r : Request}
    {rest : List UInt8} (hpending : s.pending = Request.grammar.encode r ++ rest) :
    ∃ reads writes, serveRequest env.host s = .ok ⟨r.operation, 32⟩
      { s with
        pending := rest
        sent := s.sent ++ Answer.grammar.encode (env.answer s.draws r.operation)
        reads := reads
        writes := writes
        draws := s.draws + 4 } := by
  obtain ⟨id, operation⟩ := r
  cases operation with
  | root operand =>
      rw [Request.encode_root, List.append_assoc] at hpending
      obtain ⟨reqId, reads, hid, hpass⟩ := serveRequest_header env (by omega) hopen hpending
      obtain ⟨reads', writes, hhandler⟩ := squareRootHandler_full env
        (s := { s with pending := storeU64 .big operand ++ rest, reads, draws := s.draws + 1 })
        (by omega) hopen rfl reqId
      refine ⟨reads', writes, ?_⟩
      rw [hpass, bind_ok (answerRequest_root hhandler), hid]
      rfl
  | date =>
      rw [Request.encode_date, List.append_assoc, List.nil_append] at hpending
      obtain ⟨reqId, reads, hid, hpass⟩ := serveRequest_header env (by omega) hopen hpending
      obtain ⟨writes, hhandler⟩ := dateHandler_full env
        (s := { s with pending := rest, reads, draws := s.draws + 1 }) (by omega) hopen reqId
      refine ⟨reads, writes, ?_⟩
      rw [hpass, bind_ok (answerRequest_date hhandler), hid]
      rfl

/-- A pass without a whole request to read sends nothing and is the last. -/
theorem serveRequest_rest (hfuel : 8 < env.fuel) (hopen : s.closed = false)
    (hending : s.ending = none) (hrest : Request.grammar.decode s.pending = none) :
    ∃ message s', serveRequest env.host s = .error (.exit 1 message) s' ∧ s'.sent = s.sent := by
  rcases Nat.lt_or_ge s.pending.length 8 with hshort | hlong
  · obtain ⟨reads, hread⟩ := readWrapper_short env.toEnvironment 8
      (env.stack s.draws) (s := { s with draws := s.draws + 1 }) hfuel (by decide) hopen
      hshort hending
    refine ⟨"End of the file reached!",
      { s with pending := [], reads, closed := true, draws := s.draws + 1 }, ?_, rfl⟩
    rw [serveRequest, bind_ok (env.object_eq s), bind_error hread]
  · obtain ⟨h, bs, hpending⟩ := exists_header hlong
    obtain ⟨reqId, reads, -, hpass⟩ := serveRequest_header env hfuel hopen hpending
    rw [hpending, Request.grammar, withHeader_decode_append, Request.decodeBody] at hrest
    split at hrest
    next hroot =>
      rw [Option.map_eq_none_iff, Grammar.u64_decode_eq_none_iff] at hrest
      obtain ⟨s', hhandler, hsent⟩ := squareRootHandler_short env
        (s := { s with pending := bs, reads, draws := s.draws + 1 }) hfuel hopen hending hrest reqId
      exact ⟨_, s', by rw [hpass, hroot, bind_error (answerRequest_root_halt hhandler)], hsent⟩
    next hroot =>
      split at hrest
      next => cases hrest
      next hdate =>
        refine ⟨"Wrong request\n", { s with pending := bs, reads, draws := s.draws + 1 }, ?_, rfl⟩
        rw [hpass, bind_error (answerRequest_wrong hroot hdate)]

end Pass

end Rso.Socket.Server
