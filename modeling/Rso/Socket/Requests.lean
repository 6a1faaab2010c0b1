import Rso.Socket.ClientSpec
import Rso.Socket.ServerSession

/-!
# From the client's requests to the server child

The client sends one frame for each operation, the child reads the frames and
does the operations.  Whatever the byte orders of the two hosts and however the
bytes are cut, the child does what the client asked for, in order, and nothing
is left over.

The ids do not come through.  The child copies the id not from the header it
read but from 32 bytes behind the start of that object, which is only eight
bytes long.
-/

namespace Rso.Socket

open Proc Client Server

/-- The passes of the child over what the client sends. -/
theorem serve_requests (client : Environment) (server : ServerEnvironment) {fuel : ℕ}
    (hfuel : 71 < fuel) (counters : Counters) (operations : List Operation) :
    ∃ counters' c s,
      performRequests (client.withFuel fuel).host operations counters (.start [] none) =
        .ok counters' c ∧
      c.sent = Request.grammar.stream (counters.requests operations) ∧
      childLoop (server.withFuel fuel).host operations.length (.start c.sent none) =
        ⟨operations.map fun operation => ⟨operation, 32⟩, .running, s⟩ ∧
      s.pending = [] := by
  obtain ⟨counters', c, hperform, hsent⟩ := performRequests_full (client.withFuel fuel)
    (by show 16 < fuel; omega) operations counters (.start [] none) rfl
  have hsent' : c.sent = Request.grammar.stream (counters.requests operations) := hsent
  obtain ⟨s, hs, hrun⟩ := (Serving.start (server.withFuel fuel) []
    (counters.requests operations)).run hfuel
  have hlen : (counters.requests operations).length = operations.length := by
    rw [← List.length_map (f := (·.operation)), Counters.requests_operation]
  have hreports : ((counters.requests operations).map fun r => (⟨r.operation, 32⟩ : Served)) =
      operations.map fun operation => ⟨operation, 32⟩ := by
    have hmap := congrArg (List.map fun operation => (⟨operation, 32⟩ : Served))
      (Counters.requests_operation counters operations)
    rwa [List.map_map] at hmap
  refine ⟨counters', c, s, hperform, hsent', ?_, hs.pending⟩
  have hloop := hrun 0
  rw [Nat.add_zero, hlen, List.append_nil, ← hsent', hreports] at hloop
  rw [hloop, forever, Trace.after, List.append_nil]

/-- The child decodes the kinds and operands that the client encoded, and has then
read all bytes. -/
theorem requests_decoded (client : Environment) (server : ServerEnvironment) (counters : Counters)
    (operations : List Operation) :
    ∃ enough, ∀ fuel, enough ≤ fuel → ∃ counters' c served s,
      performRequests (client.withFuel fuel).host operations counters (.start [] none) =
        .ok counters' c ∧
      childLoop (server.withFuel fuel).host operations.length (.start c.sent none) =
        ⟨served, .running, s⟩ ∧
      served.map (·.operation) = operations ∧ s.pending = [] := by
  refine ⟨72, ?_⟩
  intro fuel hfuel
  obtain ⟨counters', c, s, hperform, -, hloop, hpending⟩ :=
    serve_requests client server hfuel counters operations
  refine ⟨counters', c, _, s, hperform, hloop, ?_, hpending⟩
  rw [List.map_map]
  exact List.map_id operations

/-! ## The ids -/

/-- In the session for these operations the id of each request is taken from the
eight bytes of its header and comes back in its answer. -/
def IdsEchoed (client : Environment) (server : ServerEnvironment) (operations : List Operation) :
    Prop :=
  ∃ enough, ∀ fuel, enough ≤ fuel → ∃ counters' c served s,
    performRequests (client.withFuel fuel).host operations ⟨0, 0⟩ (.start [] none) =
      .ok counters' c ∧
    childLoop (server.withFuel fuel).host operations.length (.start c.sent none) =
      ⟨served, .running, s⟩ ∧
    (∀ x ∈ served, x.reqIdAt.toNat + 4 ≤ 8) ∧
    (Answer.grammar.frames s.sent).1.map (·.id) = (Request.grammar.frames c.sent).1.map (·.id)

/-- The first request already makes the child read outside of the header. -/
theorem not_idsEchoed_cons (client : Environment) (server : ServerEnvironment)
    (operation : Operation) (operations : List Operation) :
    ¬ IdsEchoed client server (operation :: operations) := by
  rintro ⟨enough, h⟩
  obtain ⟨counters', c, served, s, hperform, hloop, hinside, -⟩ :=
    h (max enough 72) (Nat.le_max_left ..)
  have hfuel : 71 < max enough 72 := Nat.le_max_right ..
  obtain ⟨counters'', c', s', hperform', -, hloop', -⟩ :=
    serve_requests client server hfuel ⟨0, 0⟩ (operation :: operations)
  rw [hperform] at hperform'
  cases hperform'
  rw [hloop] at hloop'
  cases hloop'
  have hbeyond : ¬ (32 : UInt64).toNat + 4 ≤ 8 := by decide
  exact hbeyond (hinside _ (List.mem_cons_self ..))

/-- A single date request. -/
theorem not_idsEchoed_date : ¬ IdsEchoed .bytewise .bytewise [.date] :=
  not_idsEchoed_cons _ _ _ _

/-- The ids are echoed only in a session without requests. -/
theorem idsEchoed_iff (client : Environment) (server : ServerEnvironment)
    (operations : List Operation) :
    IdsEchoed client server operations ↔ operations = [] := by
  constructor
  · intro h
    cases operations with
    | nil => rfl
    | cons operation operations => exact absurd h (not_idsEchoed_cons _ _ _ _)
  · rintro rfl
    exact ⟨0, fun fuel _ => ⟨_, _, _, _, rfl, rfl, fun _ hx => (List.not_mem_nil hx).elim, rfl⟩⟩

end Rso.Socket
