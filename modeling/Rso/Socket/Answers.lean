import Rso.Socket.ClientSession
import Rso.Socket.ServerSpec

/-!
# From the server's handlers to the client's reports

The handlers send one frame for each request, the client reads the frames and
prints what they say.  Whatever the byte orders of the two hosts and however the
bytes are cut, the client prints the results and dates that the handlers sent,
in order, and nothing is left over.

The handlers get the id as an argument here, as bytes in the server's own order.
The client reads it in network order.
-/

namespace Rso.Socket

open Proc Client Server

namespace Server

/-- One handler after the other, each with the id it is called with. -/
def handleRequests {σ : Type} (host : ServerHost σ) : List (UInt32 × Operation) → Proc σ Unit
  | [] => pure ()
  | (reqId, .root _) :: jobs => do
      let _ ← squareRootHandler host reqId
      handleRequests host jobs
  | (reqId, .date) :: jobs => do
      dateHandler host reqId
      handleRequests host jobs

/-- What the handlers read: the operands. -/
def operands : List (UInt32 × Operation) → List UInt8
  | [] => []
  | (_, .root operand) :: jobs => storeU64 .big operand ++ operands jobs
  | (_, .date) :: jobs => operands jobs

/-- What the handlers answer. -/
def ServerEnvironment.handled (env : ServerEnvironment) :
    ℕ → List (UInt32 × Operation) → List Answer
  | _, [] => []
  | draws, (reqId, operation) :: jobs =>
      ⟨ntohl env.order reqId, env.content draws operation⟩ :: env.handled (draws + 3) jobs

theorem handled_length (env : ServerEnvironment) :
    ∀ (jobs : List (UInt32 × Operation)) (draws : ℕ),
      (env.handled draws jobs).length = jobs.length := by
  intro jobs draws
  induction jobs generalizing draws with
  | nil => rfl
  | cons job jobs ih => exact congrArg (· + 1) (ih (draws + 3))

theorem handled_withFuel (env : ServerEnvironment) (fuel : ℕ) :
    ∀ (jobs : List (UInt32 × Operation)) (draws : ℕ),
      (env.withFuel fuel).handled draws jobs = env.handled draws jobs := by
  intro jobs draws
  induction jobs generalizing draws with
  | nil => rfl
  | cons job jobs ih =>
      obtain ⟨reqId, operation⟩ := job
      cases operation with
      | root operand => exact congrArg (_ :: ·) (ih (draws + 3))
      | date => exact congrArg (_ :: ·) (ih (draws + 3))

/-- The dates that `strftime` gives have no NUL bytes. -/
theorem handled_nulFree (env : ServerEnvironment) :
    ∀ (jobs : List (UInt32 × Operation)) (draws : ℕ),
      ∀ a ∈ env.handled draws jobs, NulFree a.content := by
  intro jobs draws
  induction jobs generalizing draws with
  | nil =>
      intro a ha
      cases ha
  | cons job jobs ih =>
      intro a ha
      obtain ⟨reqId, operation⟩ := job
      rcases List.mem_cons.mp ha with rfl | ha
      · cases operation with
        | root operand => trivial
        | date => exact (env.text (draws + 1)).noNul
      · exact ih (draws + 3) a ha

/-- The handlers send the answers as a stream of frames. -/
theorem handleRequests_full (env : ServerEnvironment) (hfuel : 71 < env.fuel) :
    ∀ (jobs : List (UInt32 × Operation)) (s : Conn), s.closed = false →
      s.pending = operands jobs →
      ∃ s', handleRequests env.host jobs s = .ok () s' ∧
        s'.sent = s.sent ++ Answer.grammar.stream (env.handled s.draws jobs) := by
  intro jobs
  induction jobs with
  | nil =>
      intro s _ _
      exact ⟨s, rfl, (List.append_nil _).symm⟩
  | cons job jobs ih =>
      intro s hopen hpending
      obtain ⟨reqId, operation⟩ := job
      cases operation with
      | root operand =>
          obtain ⟨reads, writes, hhandler⟩ :=
            squareRootHandler_full env (by omega) hopen hpending reqId
          obtain ⟨s', hrest, hsent⟩ := ih
            { s with
              pending := operands jobs
              sent := s.sent ++ Answer.grammar.encode
                ⟨ntohl env.order reqId, env.content s.draws (.root operand)⟩
              reads := reads
              writes := writes
              draws := s.draws + 3 } hopen rfl
          refine ⟨s', ?_, ?_⟩
          · rw [handleRequests, bind_ok hhandler, hrest]
          · rw [hsent, List.append_assoc]
            rfl
      | date =>
          obtain ⟨writes, hhandler⟩ := dateHandler_full env hfuel hopen reqId
          obtain ⟨s', hrest, hsent⟩ := ih
            { s with
              sent := s.sent ++
                Answer.grammar.encode ⟨ntohl env.order reqId, env.content s.draws .date⟩
              writes := writes
              draws := s.draws + 3 } hopen hpending
          refine ⟨s', ?_, ?_⟩
          · rw [handleRequests, bind_ok hhandler, hrest]
          · rw [hsent, List.append_assoc]
            rfl

end Server

/-- The client reports the results and dates that the handlers sent, and has then
read all bytes. -/
theorem answers_decoded (server : ServerEnvironment) (client : Environment)
    (jobs : List (UInt32 × Operation)) (counters : ℕ → Counters)
    (ending : Option {e : Errno // e ≠ eintr})
    (hids : IdsAccepted counters 0 (server.handled 0 jobs)) :
    ∃ enough, ∀ fuel, enough ≤ fuel → ∃ c s,
      handleRequests (server.withFuel fuel).host jobs (.start (operands jobs) none) = .ok () c ∧
      incommingRequestHandler (client.withFuel fuel).host (fun i => (counters i).running)
          jobs.length (.start c.sent ending) =
        ⟨(server.handled 0 jobs).map fun a => reported a.content, .running, s⟩ ∧
      s.pending = [] := by
  refine ⟨72 + (Answer.grammar.stream (server.handled 0 jobs)).length, ?_⟩
  intro fuel hfuel
  obtain ⟨c, hhandle, hsent⟩ := handleRequests_full (server.withFuel fuel)
    (by show 71 < fuel; omega) jobs (.start (operands jobs) none) rfl rfl
  rw [handled_withFuel] at hsent
  have hsent' : c.sent = Answer.grammar.stream (server.handled 0 jobs) ++ [] := by
    rw [List.append_nil]
    exact hsent
  have hreceiving : Receiving (client.withFuel fuel) counters [] 0 (server.handled 0 jobs)
      (.start (Answer.grammar.stream (server.handled 0 jobs) ++ []) ending) :=
    .start ending (by rw [List.append_nil]; show _ < fuel; omega) hids
  obtain ⟨s, hs, hrun⟩ := hreceiving.run
  have hprinted : (server.handled 0 jobs).map (fun a => printed a.content) =
      (server.handled 0 jobs).map fun a => reported a.content :=
    List.map_congr_left fun a ha =>
      (printed_eq_reported_iff a.content).mpr (handled_nulFree server jobs 0 a ha)
  refine ⟨c, s, hhandle, ?_, hs.pending⟩
  have hloop := hrun 0
  rw [Nat.add_zero, handled_length, hprinted] at hloop
  rw [hsent', hloop, forever, Trace.after, List.append_nil]

/-- A root of one and a date, with ids that are zero. -/
theorem answers_decoded_root_date :
    ∃ enough, ∀ fuel, enough ≤ fuel → ∃ c s,
      handleRequests (ServerEnvironment.bytewise.withFuel fuel).host
          [(0, .root 0x3FF0000000000000), (0, .date)]
          (.start (operands [(0, .root 0x3FF0000000000000), (0, .date)]) none) = .ok () c ∧
      incommingRequestHandler (Environment.bytewise.withFuel fuel).host
          (fun _ => Counters.running ⟨1, 1⟩) 2 (.start c.sent none) =
        ⟨[.root 0x3FF0000000000000, .date [0x31]], .running, s⟩ ∧
      s.pending = [] := by
  refine answers_decoded .bytewise .bytewise [(0, .root 0x3FF0000000000000), (0, .date)]
    (fun _ => ⟨1, 1⟩) none ?_
  intro j a ha
  match j with
  | 0 => cases ha; decide
  | 1 => cases ha; decide
  | j + 2 => cases ha

end Rso.Socket
