import Mathlib.Data.List.Induction
import Rso.Lib.Runs
import Rso.Socket.ClientSpec

/-!
# The two threads of the client

The thread of `main` writes a request with the counter of its kind as the id, and
increments the counter after that.  The receiving thread compares the id of each
answer with the counter of its kind.  So an answer can come in between, and the
comparison `counter < id` lets the id pass that equals the counter.

`Threads` has the counters, where `main` stands, and what is on its way.  Each
action is one atomic step of one of the parties, and the peer is free to send any
answer.  `write_count_performs` and `receive_receives` tie the steps to the code
of the two threads.

The counters are `int`s and compared as `uint32_t`s.  A counter is thus the
number of increments modulo `2 ^ 32`, which is what `Counted` says.
-/

namespace Rso.Socket

open Runs

/-- The two kinds of requests and answers. -/
inductive Kind where
  | root
  | date
deriving DecidableEq, Repr

def Operation.kind : Operation → Kind
  | .root _ => .root
  | .date => .date

def Request.kind (r : Request) : Kind := r.operation.kind

def Content.kind : Content → Kind
  | .root _ => .root
  | .date _ => .date

def Answer.kind (a : Answer) : Kind := a.content.kind

namespace Client

open Proc

/-- The counter of a kind, as the id of a request. -/
def Counters.value (counters : Counters) : Kind → UInt32
  | .root => counters.rootRequestCounter.toUInt32
  | .date => counters.dateRequestCounter.toUInt32

@[simp] theorem Counters.request_id (counters : Counters) (operation : Operation) :
    (counters.request operation).id = counters.value operation.kind := by
  cases operation <;> rfl

@[simp] theorem Counters.request_kind (counters : Counters) (operation : Operation) :
    (counters.request operation).kind = operation.kind := by
  cases operation <;> rfl

theorem Counters.next_value (counters : Counters) (operation : Operation) (k : Kind) :
    (counters.next operation).value k =
      if operation.kind = k then counters.value k + 1 else counters.value k := by
  cases operation <;> cases k <;> rfl

/-- The check of an answer's id is a comparison with the counter of its kind. -/
theorem accepts_iff (counters : Counters) (a : Answer) :
    Accepts counters a.header ↔ a.id ≤ counters.value a.kind := by
  obtain ⟨id, content⟩ := a
  rw [Accepts]
  cases content with
  | root result =>
      have hcode : (Answer.header ⟨id, .root result⟩).code ≠ dateAnserCode := date_ne_root.symm
      simp only [Answer.header] at hcode ⊢
      simp [hcode, Answer.kind, Content.kind, Counters.value]
  | date t =>
      have hcode : (Answer.header ⟨id, .date t⟩).code ≠ rootAnswerCode := date_ne_root
      simp only [Answer.header] at hcode ⊢
      simp [hcode, Answer.kind, Content.kind, Counters.value]

/-! ## The steps -/

/-- The client and the answers on their way to it. -/
structure Threads where
  counters : Counters
  /-- The operation whose request is written and not yet counted. -/
  uncounted : Option Operation
  /-- The requests written so far. -/
  written : List Request
  /-- What the peer sent and the receiving thread has not taken. -/
  inFlight : List Answer
  /-- The answers whose ids passed the check. -/
  accepted : List Answer
  /-- The process took the exit `Wrong request id!`. -/
  exited : Bool

/-- A step of one of the parties. -/
inductive Action where
  /-- `main` writes the request for a choice. -/
  | write (operation : Operation)
  /-- `main` increments the counter of the request. -/
  | count
  /-- The peer sends an answer. -/
  | send (a : Answer)
  /-- The receiving thread takes an answer and checks its id. -/
  | receive

/-- What the receiving thread did with an answer. -/
inductive Verdict where
  | accepted (a : Answer)
  | rejected (a : Answer)
deriving DecidableEq

namespace Threads

/-- The client at its start. -/
def init : Threads := ⟨⟨0, 0⟩, none, [], [], [], false⟩

/-- One atomic step.  A party whose turn it is not does nothing. -/
def step (s : Threads) : Action → Threads × Option Verdict
  | .write operation =>
      if s.exited then (s, none)
      else match s.uncounted with
        | some _ => (s, none)
        | none =>
            ({ s with
              written := s.written ++ [s.counters.request operation]
              uncounted := some operation }, none)
  | .count =>
      if s.exited then (s, none)
      else match s.uncounted with
        | none => (s, none)
        | some operation =>
            ({ s with counters := s.counters.next operation, uncounted := none }, none)
  | .send a => ({ s with inFlight := s.inFlight ++ [a] }, none)
  | .receive =>
      if s.exited then (s, none)
      else match s.inFlight with
        | [] => (s, none)
        | a :: later =>
            if Accepts s.counters a.header then
              ({ s with inFlight := later, accepted := s.accepted ++ [a] }, some (.accepted a))
            else ({ s with inFlight := later, exited := true }, some (.rejected a))

/-- The requests of a kind written so far. -/
def ofKind (s : Threads) (k : Kind) : List Request := s.written.filter fun r => r.kind = k

/-! ## The code of the threads -/

/-- The two steps of `main` are what it does for one choice from the menu. -/
theorem write_count_performs (env : Environment) (hfuel : 16 < env.fuel) {c : Conn}
    (hopen : c.closed = false) {s : Threads} (hrunning : s.exited = false)
    (hmenu : s.uncounted = none) (operation : Operation) :
    ∃ counters c' r, performRequest env.host operation s.counters c = .ok counters c' ∧
      c'.sent = c.sent ++ Request.grammar.encode r ∧
      run step s [.write operation, .count] =
        { s with counters := counters, written := s.written ++ [r] } := by
  obtain ⟨writes, hperform⟩ := performRequest_full env hfuel hopen operation s.counters
  refine ⟨_, _, s.counters.request operation, hperform, rfl, ?_⟩
  simp only [run_cons, run_nil, step, hrunning, hmenu, Bool.false_eq_true, if_false]

/-- The step of the receiving thread is what a pass of its loop does with a whole
answer. -/
theorem receive_receives (env : Environment) {c : Conn} (hopen : c.closed = false)
    (hfuel : c.pending.length < env.fuel) {s : Threads} (hrunning : s.exited = false)
    {a : Answer} {later : List Answer} (hflight : s.inFlight = a :: later) {rest : List UInt8}
    (hpending : c.pending = Answer.grammar.encode a ++ rest) :
    (∃ c', (step s .receive).2 = some (.accepted a) ∧
      receiveAnswer env.host ⟨1, s.counters⟩ c = .ok (printed a.content) c') ∨
    ∃ message c', (step s .receive).2 = some (.rejected a) ∧
      receiveAnswer env.host ⟨1, s.counters⟩ c = .error (.exit 1 message) c' := by
  by_cases hid : Accepts s.counters a.header
  · obtain ⟨reads, hpass⟩ := receiveAnswer_frame env hopen hfuel hpending hid
    refine Or.inl ⟨_, ?_, hpass⟩
    simp only [step, hrunning, hflight, Bool.false_eq_true, if_false, if_pos hid]
  · obtain ⟨reads, hpass⟩ := receiveAnswer_open env hopen hfuel s.counters
    have hencode : c.pending = a.header.encode ++ (a.body ++ rest) := by
      rw [hpending, ← List.append_assoc]
      rfl
    rw [hencode, leftHeader_encode] at hpass
    obtain ⟨message, hexit⟩ := proceedAnswer_wrong env.host hid
      { c with
        pending := (a.header.encode ++ (a.body ++ rest)).drop 8
        reads := reads
        closed := decide ((a.header.encode ++ (a.body ++ rest)).length < 8)
        draws := c.draws + 1 }
    refine Or.inr ⟨message, _, ?_, hpass.trans hexit⟩
    simp only [step, hrunning, hflight, Bool.false_eq_true, if_false, if_neg hid]

/-! ## Counters and ids -/

/-- The counters hold the numbers of increments, one less than the number of
requests while a request is not counted, and the ids of a kind count its
requests. -/
structure Counted (s : Threads) (counted : Kind → ℕ) : Prop where
  value : ∀ k, s.counters.value k = UInt32.ofNat (counted k)
  length : ∀ k, (s.ofKind k).length =
    counted k + if s.uncounted.map Operation.kind = some k then 1 else 0
  ids : ∀ k, (s.ofKind k).map Request.id = (List.range (s.ofKind k).length).map UInt32.ofNat

theorem init_counted : Counted init fun _ => 0 := by
  refine ⟨fun k => ?_, fun _ => rfl, fun _ => rfl⟩
  cases k <;> rfl

theorem ofKind_write (s : Threads) (operation : Operation) (k : Kind) :
    (s.written ++ [s.counters.request operation]).filter (fun r => r.kind = k) =
      s.ofKind k ++ if operation.kind = k then [s.counters.request operation] else [] := by
  rw [List.filter_append, List.filter_singleton, Counters.request_kind, ofKind]
  by_cases hk : operation.kind = k <;> simp [hk]

/-- The request of a kind that is written next has the number of those before it
as its id. -/
theorem Counted.write {s : Threads} {counted : Kind → ℕ} (h : Counted s counted)
    (hmenu : s.uncounted = none) (operation : Operation) :
    Counted { s with
      written := s.written ++ [s.counters.request operation]
      uncounted := some operation } counted := by
  have hlength (k : Kind) : (s.ofKind k).length = counted k := by
    rw [h.length, hmenu]
    rfl
  refine ⟨h.value, fun k => ?_, fun k => ?_⟩
  · rw [ofKind, ofKind_write, List.length_append, hlength]
    by_cases hk : operation.kind = k <;> simp [hk]
  · rw [ofKind, ofKind_write]
    rcases eq_or_ne operation.kind k with hk | hk
    · rw [if_pos hk, List.map_append, h.ids, List.length_append, List.length_singleton,
        List.range_succ, List.map_append, List.map_singleton, List.map_singleton,
        Counters.request_id, hk, h.value, hlength]
    · rw [if_neg hk, List.append_nil, h.ids]

theorem Counted.count {s : Threads} {counted : Kind → ℕ} (h : Counted s counted)
    {operation : Operation} (hmenu : s.uncounted = some operation) :
    Counted { s with counters := s.counters.next operation, uncounted := none }
      fun k => counted k + if operation.kind = k then 1 else 0 := by
  refine ⟨fun k => ?_, fun k => ?_, h.ids⟩
  · rw [Counters.next_value, h.value]
    rcases eq_or_ne operation.kind k with hk | hk
    · rw [if_pos hk, if_pos hk, UInt32.ofNat_add]
      rfl
    · rw [if_neg hk, if_neg hk, Nat.add_zero]
  · have hlength := h.length k
    rw [hmenu, Option.map_some] at hlength
    simp only [Option.some.injEq] at hlength
    rw [Option.map_none]
    exact hlength

theorem Counted.step {s : Threads} {counted : Kind → ℕ} (h : Counted s counted) (a : Action) :
    ∃ counted', Counted (s.step a).1 counted' := by
  cases a with
  | write operation =>
      refine ⟨counted, ?_⟩
      rw [Threads.step]
      split
      next => exact h
      next =>
        cases hmenu : s.uncounted with
        | some o => exact h
        | none => exact h.write hmenu operation
  | count =>
      rw [Threads.step]
      split
      next => exact ⟨counted, h⟩
      next =>
        cases hmenu : s.uncounted with
        | none => exact ⟨counted, h⟩
        | some operation => exact ⟨_, h.count hmenu⟩
  | send a => exact ⟨counted, h.value, h.length, h.ids⟩
  | receive =>
      refine ⟨counted, ?_⟩
      rw [Threads.step]
      split
      next => exact h
      next =>
        cases s.inFlight with
        | nil => exact h
        | cons a later =>
            dsimp only
            split
            next => exact ⟨h.value, h.length, h.ids⟩
            next => exact ⟨h.value, h.length, h.ids⟩

theorem counted_run (actions : List Action) :
    ∃ counted, Counted (run step init actions) counted := by
  refine run_invariant (I := fun s => ∃ counted, Counted s counted) actions ?_ ⟨_, init_counted⟩
  intro s a _ ⟨counted, h⟩
  exact h.step a

/-- The ids of the requests of a kind. -/
theorem Counted.mem_ids {s : Threads} {counted : Kind → ℕ} (h : Counted s counted) {k : Kind}
    {id : UInt32} : (∃ r ∈ s.written, r.kind = k ∧ r.id = id) ↔
      ∃ j < (s.ofKind k).length, UInt32.ofNat j = id := by
  have hids : id ∈ (s.ofKind k).map Request.id ↔
      id ∈ (List.range (s.ofKind k).length).map UInt32.ofNat := by rw [h.ids]
  simpa [ofKind, and_assoc] using hids

/-! ## No answer is rejected that answers a request -/

/-- The peer only sends answers to requests that were written, with their own
ids. -/
def Honest (s : Threads) : Action → Prop
  | .send a => ∃ r ∈ s.written, r.kind = a.kind ∧ r.id = a.id
  | _ => True

/-- The client runs, and each answer on its way answers a request. -/
structure Answered (s : Threads) : Prop where
  running : s.exited = false
  answers : ∀ a ∈ s.inFlight, ∃ r ∈ s.written, r.kind = a.kind ∧ r.id = a.id

/-- With at most `2 ^ 31 - 1` requests of a kind, the id of each of them passes the
check at any time. -/
theorem Counted.accepts {s : Threads} {counted : Kind → ℕ} (h : Counted s counted) {a : Answer}
    (hbound : (s.ofKind a.kind).length ≤ 2 ^ 31 - 1)
    (ha : ∃ r ∈ s.written, r.kind = a.kind ∧ r.id = a.id) : Accepts s.counters a.header := by
  obtain ⟨j, hj, hid⟩ := h.mem_ids.mp ha
  have hlength := h.length a.kind
  have hle : j ≤ counted a.kind := by
    split at hlength <;> omega
  have hcounted : counted a.kind ≤ 2 ^ 31 - 1 := by
    rw [hlength] at hbound
    omega
  have hjlt : j < UInt32.size := by
    rw [UInt32.size]
    omega
  have hclt : counted a.kind < UInt32.size := by
    rw [UInt32.size]
    omega
  rw [accepts_iff, h.value, ← hid, UInt32.le_iff_toNat_le, UInt32.toNat_ofNat_of_lt' hjlt,
    UInt32.toNat_ofNat_of_lt' hclt]
  exact hle

/-- A step only adds requests. -/
theorem written_step (s : Threads) (a : Action) :
    ∃ more, (s.step a).1.written = s.written ++ more := by
  cases a with
  | write operation =>
      rw [step]
      split
      next => exact ⟨[], (List.append_nil _).symm⟩
      next =>
        cases s.uncounted with
        | some o => exact ⟨[], (List.append_nil _).symm⟩
        | none => exact ⟨_, rfl⟩
  | count =>
      refine ⟨[], ?_⟩
      rw [step, List.append_nil]
      split
      next => rfl
      next => cases s.uncounted <;> rfl
  | send a => exact ⟨[], (List.append_nil _).symm⟩
  | receive =>
      refine ⟨[], ?_⟩
      rw [step, List.append_nil]
      split
      next => rfl
      next =>
        cases s.inFlight with
        | nil => rfl
        | cons a later =>
            dsimp only
            split <;> rfl

theorem Answered.step {s : Threads} {counted : Kind → ℕ} (h : Answered s)
    (hcounted : Counted s counted) (hbound : ∀ k, (s.ofKind k).length ≤ 2 ^ 31 - 1) {a : Action}
    (ha : s.Honest a) : Answered (s.step a).1 := by
  have hmore : ∀ b ∈ s.inFlight, ∃ r ∈ (s.step a).1.written, r.kind = b.kind ∧ r.id = b.id := by
    intro b hb
    obtain ⟨more, hwritten⟩ := written_step s a
    obtain ⟨r, hr, heq⟩ := h.answers b hb
    exact ⟨r, by rw [hwritten]; exact List.mem_append_left _ hr, heq⟩
  cases a with
  | write operation =>
      rw [Threads.step, h.running, if_neg Bool.false_ne_true] at hmore ⊢
      cases hmenu : s.uncounted with
      | some o => exact h
      | none =>
          rw [hmenu] at hmore
          exact ⟨rfl, hmore⟩
  | count =>
      rw [Threads.step, h.running, if_neg Bool.false_ne_true]
      cases s.uncounted with
      | none => exact h
      | some o => exact ⟨rfl, h.answers⟩
  | send a =>
      refine ⟨h.running, fun b hb => ?_⟩
      rcases List.mem_append.mp hb with hb | hb
      · exact h.answers b hb
      · rw [List.mem_singleton.mp hb]
        exact ha
  | receive =>
      rw [Threads.step, h.running, if_neg Bool.false_ne_true]
      cases hflight : s.inFlight with
      | nil => exact h
      | cons a later =>
          have hanswer := h.answers a (by rw [hflight]; exact List.mem_cons_self ..)
          have hpass := hcounted.accepts (hbound a.kind) hanswer
          dsimp only
          rw [if_pos hpass]
          refine ⟨rfl, fun b hb => h.answers b ?_⟩
          rw [hflight]
          exact List.mem_cons_of_mem _ hb

/-- No run with an honest peer and at most `2 ^ 31 - 1` requests of each kind ends
with a rejected answer, however the steps of the parties are interleaved. -/
theorem not_exited_of_honest (actions : List Action) (hpeer : Along step Honest init actions)
    (hbound : ∀ k, ((run step init actions).ofKind k).length ≤ 2 ^ 31 - 1) :
    (run step init actions).exited = false := by
  suffices Answered (run step init actions) from this.running
  induction actions using List.reverseRecOn with
  | nil => exact ⟨rfl, fun a ha => absurd ha List.not_mem_nil⟩
  | append_singleton actions a ih =>
      rw [along_append] at hpeer
      rw [run_append] at hbound ⊢
      obtain ⟨more, hwritten⟩ := written_step (run step init actions) a
      have hbefore (k : Kind) : ((run step init actions).ofKind k).length ≤ 2 ^ 31 - 1 := by
        refine Nat.le_trans ?_ (hbound k)
        rw [run_cons, run_nil, ofKind, ofKind, hwritten, List.filter_append, List.length_append]
        exact Nat.le_add_right ..
      obtain ⟨counted, hcounted⟩ := counted_run actions
      exact (ih hpeer.1 hbefore).step hcounted hbefore hpeer.2.1

/-- The answers to a root and to a date request, the first of them before its
counter is incremented. -/
theorem not_exited_overtaking :
    (run step init [.write (.root 0), .send ⟨0, .root 0⟩, .receive, .count, .write .date, .count,
      .send ⟨0, .date ⟨[], by decide⟩⟩, .receive]).exited = false := by
  refine not_exited_of_honest _ ?_ fun k => ?_
  · exact ⟨trivial, ⟨⟨0, .root 0⟩, List.mem_singleton_self _, rfl, rfl⟩, trivial, trivial, trivial,
      trivial, ⟨⟨0, .date⟩, List.mem_cons_of_mem _ (List.mem_singleton_self _), rfl, rfl⟩, trivial,
      trivial⟩
  · cases k with
    | root => decide
    | date => decide

/-! ## What an accepted answer answers -/

/-- The id of the answer is that of a request of its kind, and no answer with it
was accepted before. -/
def Requested (s : Threads) (a : Answer) : Prop :=
  (∃ r ∈ s.written, r.kind = a.kind ∧ r.id = a.id) ∧
    ∀ b ∈ s.accepted, ¬ (b.kind = a.kind ∧ b.id = a.id)

/-- The id of the answer is that of a request of its kind, or the one that equals
the counter. -/
def WrittenOrNext (s : Threads) (a : Answer) : Prop :=
  (∃ r ∈ s.written, r.kind = a.kind ∧ r.id = a.id) ∨ a.id = s.counters.value a.kind

/-- A counter is at most the number of requests of its kind. -/
theorem Counted.writtenOrNext {s : Threads} {counted : Kind → ℕ} (h : Counted s counted)
    {a : Answer} (ha : Accepts s.counters a.header) : s.WrittenOrNext a := by
  rw [accepts_iff, h.value, UInt32.le_iff_toNat_le, UInt32.toNat_ofNat'] at ha
  have hmod : counted a.kind % 2 ^ 32 ≤ counted a.kind := Nat.mod_le ..
  rcases Nat.lt_or_ge a.id.toNat (counted a.kind) with hlt | hge
  · refine Or.inl (h.mem_ids.mpr ⟨a.id.toNat, ?_, UInt32.ofNat_toNat⟩)
    rw [h.length]
    exact Nat.lt_add_right _ hlt
  · refine Or.inr ?_
    have heq : a.id.toNat = counted a.kind := by omega
    rw [h.value, ← heq, UInt32.ofNat_toNat]

/-- Up to `2 ^ 31 - 1` requests of a kind the check keeps none of these out. -/
theorem Counted.accepts_writtenOrNext {s : Threads} {counted : Kind → ℕ} (h : Counted s counted)
    {a : Answer} (hbound : (s.ofKind a.kind).length ≤ 2 ^ 31 - 1) (ha : s.WrittenOrNext a) :
    Accepts s.counters a.header := by
  rcases ha with hwritten | hnext
  · exact h.accepts hbound hwritten
  · rw [accepts_iff, hnext]
    exact UInt32.le_refl _

/-- At any point of a run, whatever the peer sends: the client accepts an answer
only if its id is that of a request of its kind or equals the counter, and takes
the exit at any other answer.  Up to `2 ^ 31 - 1` requests of a kind it accepts all
of these, whatever it has accepted before. -/
theorem receive_writtenOrNext (actions : List Action) :
    (∀ a, (step (run step init actions) .receive).2 = some (.accepted a) →
      (run step init actions).WrittenOrNext a) ∧
    (∀ a later, (run step init actions).exited = false →
      (run step init actions).inFlight = a :: later →
      ¬ (run step init actions).WrittenOrNext a →
        (step (run step init actions) .receive).2 = some (.rejected a) ∧
          (step (run step init actions) .receive).1.exited = true) ∧
    ∀ a later, (run step init actions).exited = false →
      (run step init actions).inFlight = a :: later →
      ((run step init actions).ofKind a.kind).length ≤ 2 ^ 31 - 1 →
      (run step init actions).WrittenOrNext a →
        (step (run step init actions) .receive).2 = some (.accepted a) := by
  obtain ⟨counted, h⟩ := counted_run actions
  generalize run step init actions = s at h
  refine ⟨?_, ?_, ?_⟩
  · intro a haccepted
    rw [step] at haccepted
    split at haccepted
    next => cases haccepted
    next =>
      cases hflight : s.inFlight with
      | nil =>
          rw [hflight] at haccepted
          cases haccepted
      | cons b later =>
          rw [hflight] at haccepted
          dsimp only at haccepted
          split at haccepted
          next hpass =>
            cases haccepted
            exact h.writtenOrNext hpass
          next => cases haccepted
  · intro a later hrunning hflight hnot
    have hfail : ¬ Accepts s.counters a.header := fun hpass => hnot (h.writtenOrNext hpass)
    rw [step, hrunning, if_neg Bool.false_ne_true, hflight]
    dsimp only
    rw [if_neg hfail]
    exact ⟨rfl, rfl⟩
  · intro a later hrunning hflight hbound hnext
    have hpass := h.accepts_writtenOrNext hbound hnext
    rw [step, hrunning, if_neg Bool.false_ne_true, hflight]
    dsimp only
    rw [if_pos hpass]

/-- An answer before any request is accepted, and so is a second answer to one
request. -/
theorem not_requested_of_accepted :
    (∃ s a, s = run step init [.send ⟨0, .root 0⟩] ∧
      (step s .receive).2 = some (.accepted a) ∧ ¬ s.Requested a) ∧
    ∃ s a, s = run step init [.write (.root 0), .count, .send ⟨0, .root 0⟩, .receive,
        .send ⟨0, .root 0⟩] ∧
      (step s .receive).2 = some (.accepted a) ∧ ¬ s.Requested a := by
  refine ⟨⟨_, ⟨0, .root 0⟩, rfl, by decide, ?_⟩, ⟨_, ⟨0, .root 0⟩, rfl, by decide, ?_⟩⟩
  · rintro ⟨⟨r, hr, -⟩, -⟩
    cases hr
  · rintro ⟨-, hnew⟩
    exact hnew ⟨0, .root 0⟩ (List.mem_singleton_self _) ⟨rfl, rfl⟩

end Threads

end Client

end Rso.Socket
