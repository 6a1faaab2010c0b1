import Rso.Socket.ClientSpec

/-!
# A session of the client's receiving thread

The bytes that the server sends are a sequence of answers and a rest in which no
answer begins.  Pass by pass the client prints the answers.  Then the stream
ends, but the callers of `read_wrapper` do not look at what it returns: the next
pass goes on with the header object as it is.  If it happens to hold a code and
an id that pass the checks, something is printed that was never received.
-/

namespace Rso.Socket.Client

open Proc

/-- The globals of a pass while the menu has not ended the session. -/
def Counters.running (counters : Counters) : Shared := ⟨1, counters⟩

/-- The ids of the answers pass the check, each in its own pass from `i` on. -/
def IdsAccepted (counters : ℕ → Counters) (i : ℕ) (as : List Answer) : Prop :=
  ∀ j a, as[j]? = some a → Accepts (counters (i + j)) a.header

theorem IdsAccepted.head {counters : ℕ → Counters} {i : ℕ} {a : Answer} {as : List Answer}
    (h : IdsAccepted counters i (a :: as)) : Accepts (counters i) a.header :=
  h 0 a rfl

theorem IdsAccepted.tail {counters : ℕ → Counters} {i : ℕ} {a : Answer} {as : List Answer}
    (h : IdsAccepted counters i (a :: as)) : IdsAccepted counters (i + 1) as := by
  intro j b hb
  rw [Nat.add_assoc, Nat.add_comm 1 j]
  exact h (j + 1) b hb

/-- The state before pass `i`, which is the one for the first of the answers. -/
structure Receiving (env : Environment) (counters : ℕ → Counters) (rest : List UInt8) (i : ℕ)
    (as : List Answer) (s : Conn) : Prop where
  isOpen : s.closed = false
  pending : s.pending = Answer.grammar.stream as ++ rest
  fuel : s.pending.length < env.fuel
  draws : s.draws = 3 * i
  ids : IdsAccepted counters i as

section Session

variable {env : Environment} {counters : ℕ → Counters} {rest : List UInt8}

theorem Receiving.step {i : ℕ} {a : Answer} {as : List Answer} {s : Conn}
    (h : Receiving env counters rest i (a :: as) s) :
    ∃ s', receiveAnswer env.host (counters i).running s = .ok (printed a.content) s' ∧
      Receiving env counters rest (i + 1) as s' := by
  have hpending : s.pending =
      Answer.grammar.encode a ++ (Answer.grammar.stream as ++ rest) := by
    rw [h.pending, Grammar.stream_cons, List.append_assoc]
  obtain ⟨reads, hpass⟩ := receiveAnswer_frame env h.isOpen h.fuel hpending h.ids.head
  refine ⟨_, hpass, h.isOpen, rfl, ?_, ?_, h.ids.tail⟩
  · have hfuel := h.fuel
    rw [hpending, List.length_append] at hfuel
    exact Nat.lt_of_le_of_lt (Nat.le_add_left ..) hfuel
  · rw [h.draws]
    rfl

/-- The passes over the answers of a stream. -/
theorem Receiving.run {as : List Answer} {s : Conn} (h : Receiving env counters rest 0 as s) :
    ∃ s', Receiving env counters rest as.length [] s' ∧ ∀ passes,
      incommingRequestHandler env.host (fun i => (counters i).running) (as.length + passes) s =
        (forever (fun i => receiveAnswer env.host (counters i).running) passes as.length s').after
          (as.map fun a => printed a.content) := by
  have hrun := forever_items (I := Receiving env counters rest) (fun _ _ _ _ hs => hs.step) as h
  rwa [Nat.zero_add] at hrun

theorem Receiving.start {as : List Answer} (ending : Option {e : Errno // e ≠ eintr})
    (hfuel : (Answer.grammar.stream as ++ rest).length < env.fuel)
    (hids : IdsAccepted counters 0 as) :
    Receiving env counters rest 0 as (.start (Answer.grammar.stream as ++ rest) ending) :=
  ⟨rfl, rfl, hfuel, rfl, hids⟩

/-- The pass after the last whole answer goes on with the header object. -/
theorem Receiving.last {i : ℕ} {s : Conn} (h : Receiving env counters rest i [] s) :
    ∃ s', s'.pending.length < env.fuel ∧ receiveAnswer env.host (counters i).running s =
      proceedAnswer env.host (counters i) (leftHeader env (3 * i) rest) s' := by
  have hpending : s.pending = rest := h.pending
  obtain ⟨reads, hpass⟩ := receiveAnswer_open env h.isOpen h.fuel (counters i)
  rw [← h.draws, ← hpending]
  refine ⟨_, ?_, hpass⟩
  have hfuel := h.fuel
  rw [List.length_drop]
  omega

end Session

/-! ## What is reported -/

/-- An answer as it should be reported. -/
def reported : Content → Report
  | .root result => .root result
  | .date t => .date t.bytes

/-- The date of an answer, if it has one, can be printed as a string. -/
def NulFree : Content → Prop
  | .root _ => True
  | .date t => 0 ∉ t.bytes

theorem printed_eq_reported_iff (c : Content) : printed c = reported c ↔ NulFree c := by
  cases c with
  | root result => exact ⟨fun _ => trivial, fun _ => rfl⟩
  | date t =>
      rw [printed, reported, Report.date.injEq, cString_eq_self_iff]
      rfl

section Reports

variable {env : Environment} {counters : ℕ → Counters} {as : List Answer} {rest : List UInt8}
  (ending : Option {e : Errno // e ≠ eintr})

/-- As long as there are whole answers, these are printed. -/
theorem reports_take (hfuel : (Answer.grammar.stream as ++ rest).length < env.fuel)
    (hids : IdsAccepted counters 0 as) {passes : ℕ} (hpasses : passes ≤ as.length) :
    (incommingRequestHandler env.host (fun i => (counters i).running) passes
      (.start (Answer.grammar.stream as ++ rest) ending)).reports =
        (as.map fun a => printed a.content).take passes := by
  have hcut : Answer.grammar.stream as ++ rest = Answer.grammar.stream (as.take passes) ++
      (Answer.grammar.stream (as.drop passes) ++ rest) := by
    rw [← List.append_assoc, ← Grammar.stream_append, List.take_append_drop]
  have hids' : IdsAccepted counters 0 (as.take passes) := by
    intro j a ha
    rw [List.getElem?_take] at ha
    split at ha
    next => exact hids j a ha
    next => cases ha
  rw [hcut] at hfuel ⊢
  obtain ⟨s, -, hrun⟩ := (Receiving.start ending hfuel hids').run
  have hloop := hrun 0
  rw [Nat.add_zero, List.length_take_of_le hpasses] at hloop
  rw [hloop, forever, Trace.after, List.append_nil, List.map_take]

/-- Beyond them, something is printed exactly when the checks let the header object
pass. -/
theorem reports_beyond (hfuel : (Answer.grammar.stream as ++ rest).length < env.fuel)
    (hids : IdsAccepted counters 0 as) :
    (¬ Accepts (counters as.length) (leftHeader env (3 * as.length) rest) ∧
      ∀ passes, (incommingRequestHandler env.host (fun i => (counters i).running)
        (as.length + (passes + 1)) (.start (Answer.grammar.stream as ++ rest) ending)).reports =
          as.map fun a => printed a.content) ∨
    (Accepts (counters as.length) (leftHeader env (3 * as.length) rest) ∧
      ∃ report, (incommingRequestHandler env.host (fun i => (counters i).running)
        (as.length + 1) (.start (Answer.grammar.stream as ++ rest) ending)).reports =
          (as.map fun a => printed a.content) ++ [report]) := by
  obtain ⟨s, hs, hrun⟩ := (Receiving.start ending hfuel hids).run
  obtain ⟨s', hfuel', hpass⟩ := hs.last
  by_cases hid : Accepts (counters as.length) (leftHeader env (3 * as.length) rest)
  · obtain ⟨report, s'', hreport⟩ := proceedAnswer_returns env hid hfuel'
    rw [hreport] at hpass
    refine .inr ⟨hid, report, ?_⟩
    rw [hrun, forever_ok hpass]
    rfl
  · obtain ⟨message, hwrong⟩ := proceedAnswer_wrong env.host hid s'
    rw [hwrong] at hpass
    refine .inl ⟨hid, ?_⟩
    intro passes
    rw [hrun, forever_error hpass, Trace.after, List.append_nil]

end Reports

/-- At every moment of the session on a stream the client has printed the whole
answers in it, as far as it has come, and nothing else. -/
def ReportsReceived (env : Environment) (counters : ℕ → Counters) (stream : List UInt8)
    (ending : Option {e : Errno // e ≠ eintr}) : Prop :=
  ∃ enough, ∀ fuel, enough ≤ fuel → ∀ passes,
    (incommingRequestHandler (env.withFuel fuel).host (fun i => (counters i).running) passes
      (.start stream ending)).reports =
        ((Answer.grammar.frames stream).1.map fun a => reported a.content).take passes

section Received

variable {env : Environment} {counters : ℕ → Counters} {stream : List UInt8}
  {ending : Option {e : Errno // e ≠ eintr}}

/-- If only what was received is reported, the header object after the last whole
answer did not pass the checks, and every date was a string. -/
theorem ReportsReceived.conditions (h : ReportsReceived env counters stream ending)
    (hids : IdsAccepted counters 0 (Answer.grammar.frames stream).1) :
    (∀ a ∈ (Answer.grammar.frames stream).1, NulFree a.content) ∧
      ¬ Accepts (counters (Answer.grammar.frames stream).1.length)
        (leftHeader env (3 * (Answer.grammar.frames stream).1.length)
          (Answer.grammar.frames stream).2) := by
  obtain ⟨enough, h⟩ := h
  obtain ⟨hcut, -⟩ := Answer.grammar.frames_spec stream
  generalize (Answer.grammar.frames stream).1 = as at *
  generalize (Answer.grammar.frames stream).2 = rest at *
  subst hcut
  have hfuel : (Answer.grammar.stream as ++ rest).length <
      (env.withFuel (max enough ((Answer.grammar.stream as ++ rest).length + 1))).fuel :=
    Nat.lt_of_lt_of_le (Nat.lt_succ_self _) (Nat.le_max_right ..)
  have hlast := h _ (Nat.le_max_left enough ((Answer.grammar.stream as ++ rest).length + 1))
    (as.length + 1)
  rw [List.take_of_length_le (by rw [List.length_map]; omega)] at hlast
  rcases reports_beyond ending hfuel hids with ⟨hid, hall⟩ | ⟨-, report, hmore⟩
  · refine ⟨?_, hid⟩
    intro a ha
    rw [hall 0, List.map_inj_left] at hlast
    exact (printed_eq_reported_iff a.content).mp (hlast a ha)
  · rw [hmore] at hlast
    have hlen := congrArg List.length hlast
    simp at hlen

/-- The client reports exactly what it received when every date is a string and
what the header object holds after the last whole answer does not pass the
checks. -/
theorem reportsReceived_iff
    (hids : IdsAccepted counters 0 (Answer.grammar.frames stream).1) :
    ReportsReceived env counters stream ending ↔
      (∀ a ∈ (Answer.grammar.frames stream).1, NulFree a.content) ∧
        ¬ Accepts (counters (Answer.grammar.frames stream).1.length)
          (leftHeader env (3 * (Answer.grammar.frames stream).1.length)
            (Answer.grammar.frames stream).2) := by
  constructor
  · intro h
    exact h.conditions hids
  · rintro ⟨hnul, hid⟩
    refine ⟨stream.length + 1, ?_⟩
    intro fuel hfuel passes
    obtain ⟨hcut, -⟩ := Answer.grammar.frames_spec stream
    generalize (Answer.grammar.frames stream).1 = as at *
    generalize (Answer.grammar.frames stream).2 = rest at *
    subst hcut
    have hmap : as.map (fun a => reported a.content) = as.map fun a => printed a.content :=
      List.map_congr_left fun a ha => ((printed_eq_reported_iff a.content).mpr (hnul a ha)).symm
    have hfuel' : (Answer.grammar.stream as ++ rest).length < (env.withFuel fuel).fuel := hfuel
    rw [hmap]
    rcases Nat.lt_or_ge as.length passes with hlt | hle
    · obtain ⟨more, rfl⟩ : ∃ more, passes = as.length + (more + 1) :=
        ⟨passes - as.length - 1, by omega⟩
      rw [List.take_of_length_le (by rw [List.length_map]; omega)]
      rcases reports_beyond ending hfuel' hids with ⟨-, hall⟩ | ⟨hid', -⟩
      · exact hall more
      · exact absurd hid' hid
    · exact reports_take ending hfuel' hids hle

end Received

/-- A result is reported, and then the end of the stream ends the process.  Here the unset
memory is zero.  A header object that lies where that of the pass before lay still holds its
header, and then the answer is reported again. -/
theorem reportsReceived_root_answer :
    ReportsReceived .bytewise (fun _ => ⟨1, 1⟩)
      (Answer.grammar.encode ⟨0, .root 0x3FF0000000000000⟩) none := by
  have hframes : Answer.grammar.frames (Answer.grammar.encode ⟨0, .root 0x3FF0000000000000⟩) =
      ([⟨0, .root 0x3FF0000000000000⟩], []) := Grammar.frames_eq_iff.mpr ⟨rfl, rfl⟩
  have hids : IdsAccepted (fun _ => ⟨1, 1⟩) 0 [⟨0, .root 0x3FF0000000000000⟩] := by
    intro j a ha
    obtain ⟨rfl, rfl⟩ : j = 0 ∧ a = ⟨0, .root 0x3FF0000000000000⟩ := by
      simpa [List.getElem?_singleton, eq_comm] using ha
    decide
  refine (reportsReceived_iff (by rw [hframes]; exact hids)).mpr ⟨?_, ?_⟩
  · rw [hframes]
    intro a ha
    rw [List.mem_singleton.mp ha]
    trivial
  · rw [hframes]
    decide

/-- A root answer that is cut after four of its operand bytes is printed all the
same, the missing bytes as zero. -/
theorem reports_cut_root_answer :
    ¬ ReportsReceived .bytewise (fun _ => ⟨1, 1⟩)
      [0x01, 0x00, 0x00, 0x01, 0x00, 0x00, 0x00, 0x00, 0x3F, 0xF0, 0x00, 0x00] none := by
  have hframes : Answer.grammar.frames
      [0x01, 0x00, 0x00, 0x01, 0x00, 0x00, 0x00, 0x00, 0x3F, 0xF0, 0x00, 0x00] =
        ([], [0x01, 0x00, 0x00, 0x01, 0x00, 0x00, 0x00, 0x00, 0x3F, 0xF0, 0x00, 0x00]) :=
    Grammar.frames_eq_iff.mpr ⟨rfl, by decide⟩
  have hids : IdsAccepted (fun _ => ⟨1, 1⟩) 0 [] := by
    intro j a ha
    cases ha
  intro h
  have hleft := (h.conditions (by rw [hframes]; exact hids)).2
  rw [hframes] at hleft
  exact hleft (by decide)

end Rso.Socket.Client
