import Rso.Socket.ServerSpec

/-!
# A session of the server child

The bytes that a peer sends are a sequence of requests and a rest in which no
request begins.  Pass by pass the child answers the requests; the rest makes it
exit.  How `read` and `write` cut the bytes shows in none of this.
-/

namespace Rso.Socket.Server

open Proc

/-- The answers to a sequence of requests. -/
def ServerEnvironment.answers (env : ServerEnvironment) : ℕ → List Request → List Answer
  | _, [] => []
  | draws, r :: rs => env.answer draws r.operation :: env.answers (draws + 4) rs

/-- The answer has the kind of the request, and the root of its operand. -/
def Answers (sqrt : UInt64 → UInt64) (r : Request) (a : Answer) : Prop :=
  match r.operation with
  | .root operand => a.content = .root (sqrt operand)
  | .date => ∃ t, a.content = .date t

theorem answers_right (env : ServerEnvironment) :
    ∀ (rs : List Request) (draws : ℕ),
      List.Forall₂ (Answers env.sqrt) rs (env.answers draws rs) := by
  intro rs draws
  induction rs generalizing draws with
  | nil => exact .nil
  | cons r rs ih =>
      refine .cons ?_ (ih (draws + 4))
      obtain ⟨id, operation⟩ := r
      cases operation with
      | root operand => exact rfl
      | date => exact ⟨_, rfl⟩

/-- The state before the pass for the first of the requests, when `total` is what
the child has sent in the end. -/
structure Serving (env : ServerEnvironment) (rest : List UInt8) (total : List UInt8)
    (rs : List Request) (s : Conn) : Prop where
  isOpen : s.closed = false
  ending : s.ending = none
  pending : s.pending = Request.grammar.stream rs ++ rest
  sent : s.sent ++ Answer.grammar.stream (env.answers s.draws rs) = total

section Session

variable {env : ServerEnvironment} {rest total : List UInt8}

theorem Serving.step (hfuel : 71 < env.fuel) {r : Request} {rs : List Request} {s : Conn}
    (h : Serving env rest total (r :: rs) s) :
    ∃ s', serveRequest env.host s = .ok ⟨r.operation, 32⟩ s' ∧ Serving env rest total rs s' := by
  have hpending : s.pending =
      Request.grammar.encode r ++ (Request.grammar.stream rs ++ rest) := by
    rw [h.pending, Grammar.stream_cons, List.append_assoc]
  obtain ⟨reads, writes, hpass⟩ := serveRequest_frame env hfuel h.isOpen hpending
  refine ⟨_, hpass, h.isOpen, h.ending, rfl, ?_⟩
  rw [List.append_assoc, ← h.sent]
  rfl

/-- The passes over the requests of a stream. -/
theorem Serving.run (hfuel : 71 < env.fuel) {rs : List Request} {s : Conn}
    (h : Serving env rest total rs s) :
    ∃ s', Serving env rest total [] s' ∧ ∀ passes,
      childLoop env.host (rs.length + passes) s =
        (forever (fun _ => serveRequest env.host) passes (0 + rs.length) s').after
          (rs.map fun r => ⟨r.operation, 32⟩) :=
  forever_items (I := fun _ => Serving env rest total)
    (fun _ _ _ _ hs => hs.step hfuel) rs h

/-- The start of a session. -/
theorem Serving.start (env : ServerEnvironment) (rest : List UInt8) (rs : List Request) :
    Serving env rest (Answer.grammar.stream (env.answers 0 rs)) rs
      (.start (Request.grammar.stream rs ++ rest) none) :=
  ⟨rfl, rfl, rfl, rfl⟩

end Session

/-- The environment with other numbers of bytes moved by each call. -/
def ServerEnvironment.chunked (env : ServerEnvironment) (readCut writeCut : ℕ → ℕ) (fuel : ℕ) :
    ServerEnvironment :=
  { env with readCut, writeCut, fuel }

theorem answers_chunked (env : ServerEnvironment) (readCut writeCut : ℕ → ℕ) (fuel : ℕ) :
    ∀ (rs : List Request) (draws : ℕ),
      (env.chunked readCut writeCut fuel).answers draws rs = env.answers draws rs := by
  intro rs draws
  induction rs generalizing draws with
  | nil => rfl
  | cons r rs ih => exact congrArg (_ :: ·) (ih (draws + 4))

/-- The session on a stream: the child answers its requests and exits. -/
theorem childLoop_session (env : ServerEnvironment) (hfuel : 71 < env.fuel)
    {rs : List Request} {rest : List UInt8} (hrest : Request.grammar.decode rest = none)
    {passes : ℕ} (hpasses : rs.length < passes) :
    ∃ message s', childLoop env.host passes (.start (Request.grammar.stream rs ++ rest) none) =
        ⟨rs.map fun r => ⟨r.operation, 32⟩, .exit 1 message, s'⟩ ∧
      s'.sent = Answer.grammar.stream (env.answers 0 rs) := by
  obtain ⟨s, hs, hrun⟩ := (Serving.start env rest rs).run hfuel
  obtain ⟨more, rfl⟩ : ∃ more, passes = rs.length + (more + 1) :=
    ⟨passes - rs.length - 1, by omega⟩
  have hpending : s.pending = rest := hs.pending
  obtain ⟨message, s', hlast, hsent⟩ := serveRequest_rest env (s := s) (by omega)
    hs.isOpen hs.ending (by rw [hpending, hrest])
  refine ⟨message, s', ?_, ?_⟩
  · rw [hrun, forever_error hlast, Trace.after, List.append_nil]
  · rw [hsent, ← hs.sent]
    exact (List.append_nil _).symm

/-- A stream has a longest prefix of requests.  There are answers to them, and the
child sends exactly these and exits, however the bytes are cut. -/
theorem session_right (env : ServerEnvironment) (stream : List UInt8) :
    ∃ requests rest answers, stream = Request.grammar.stream requests ++ rest ∧
      (∀ requests' rest', stream = Request.grammar.stream requests' ++ rest' →
        requests' <+: requests) ∧
      List.Forall₂ (Answers env.sqrt) requests answers ∧
      ∀ readCut writeCut fuel passes, 71 < fuel → requests.length < passes →
        ∃ message s', childLoop (env.chunked readCut writeCut fuel).host passes
            (.start stream none) =
          ⟨requests.map fun r => ⟨r.operation, 32⟩, .exit 1 message, s'⟩ ∧
          s'.sent = Answer.grammar.stream answers := by
  obtain ⟨hcut, hrest⟩ := Request.grammar.frames_spec stream
  refine ⟨(Request.grammar.frames stream).1, (Request.grammar.frames stream).2,
    env.answers 0 (Request.grammar.frames stream).1, hcut, fun _ _ h => Grammar.prefix_frames h,
    answers_right env _ 0, ?_⟩
  intro readCut writeCut fuel passes hfuel hpasses
  obtain ⟨message, s', hsession, hsent⟩ := childLoop_session
    (env.chunked readCut writeCut fuel) hfuel hrest hpasses
  rw [← hcut] at hsession
  exact ⟨message, s', hsession, by rw [hsent, answers_chunked]⟩

-- A date request, and two bytes of the next header.
example : (childLoop (ServerEnvironment.bytewise.withFuel 72).host 2
    (.start [0, 0, 0, 2, 0, 0, 0, 7, 0, 0] none)).state.sent =
      [0, 1, 0, 2, 0, 0, 0, 0, 0, 0, 0, 1, 0x31] := by decide +kernel

end Rso.Socket.Server
