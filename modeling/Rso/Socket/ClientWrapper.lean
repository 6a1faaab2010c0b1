import Rso.Lib.Replay
import Rso.Socket.ClientSpec

/-!
# The client's `read_wrapper` on any descriptor

The client keeps the result of `read` in a `ssize_t` and tells its cases apart: it
goes on after an interruption, and closes the socket and returns at end of file
and at any other error.  What arrived is then in the buffer, from its start on,
whatever mix of partial reads it came in.

The number of bytes is a `size_t` that is returned as an `int`, while the peer
chooses the length of a date among all 32-bit numbers.  From 2^31 on the result
of a full read is negative, and for one length it is the -1 of an error.
-/

namespace Rso.Socket.Client

open Proc

/-- The wrapper ends.  The bytes that its calls received stand in the buffer from
its start on, once each and in order, and no call reached past `size`.  The result
is `size` exactly when all bytes are there, 0 for fewer only behind an end of
file, and -1 only behind a fatal error. -/
def Exact (size : UInt64) (buffer : Mem)
    (wrapper : ℕ → EStateM.Result Halt (List Access) (Mem × Int32)) : Prop :=
  ∃ enough, ∀ fuel, enough ≤ fuel → ∃ result received log,
    wrapper fuel = .ok (buffer.write 0 received, result) log ∧
    log.flatMap Access.bytes = received ∧
    log.flatMap Access.offsets = (List.range received.length).map UInt64.ofNat ∧
    (∀ a ∈ log, a.Inside size) ∧ received.length ≤ size.toNat ∧
    (result.toInt = size.toNat ↔ received.length = size.toNat) ∧
    (result = 0 → received.length < size.toNat →
      log.getLast?.map Access.result = some (.ok [])) ∧
    (result = -1 → ∃ e, e ≠ eintr ∧ log.getLast?.map Access.result = some (.error e))

/-- The errors after which the wrapper goes on. -/
def interrupted (e : Errno) : Prop := e = eintr

/-- A `read` that was interrupted changes nothing. -/
theorem readPass_interrupted {σ : Type} {host : Host σ} {t : Transfer} {s s' : σ}
    (hleft : 0 < t.left) (hread : host.read t.pointer t.left s = (.error eintr, s')) :
    readPass host t s = .ok (.inl t) s' := by
  rw [readPass, if_pos hleft, bind_ok (call_eq hread)]
  rfl

section Wrapper

variable {results : Results} {size : UInt64} (buffer : Mem)

theorem readPass_moves (results : Results) (size : UInt64) :
    Moves interrupted results.readCounts size (fun d => buffer.write 0 d)
      (readPass (results.host 0)) := by
  refine (readPass_receives (results.host 0)).moves buffer fun d log e hlt he hretried => ?_
  cases hretried
  exact readPass_interrupted (Transfer.left_done_pos _ hlt)
    (results.read_failed 0 (Nat.le_of_lt hlt) he)

/-- The loop comes to the end of its transfer with what arrived in the buffer. -/
theorem exists_run {ending : Ending}
    (hends : Ends interrupted results.readCounts 0 size.toNat ending) :
    ∃ calls d log, Moved interrupted size d log ∧
      Stands interrupted results.readCounts size d.length log.length ending ∧
      ∀ fuel, readWrapper (results.host (calls + fuel)) buffer size [] =
        loop (readPass (results.host 0)) fuel (.done size (buffer.write 0 d) d.length) log := by
  obtain ⟨calls, d, log, hmoved, hstands, hrun⟩ := (readPass_moves buffer results size).run hends
    [] [] rfl (Nat.zero_add _) (moved_nil interrupted size)
  rw [Mem.write_nil, List.length_nil, Transfer.done_zero] at hrun
  exact ⟨calls, d, log, hmoved, hstands, hrun⟩

/-- All bytes arrive. -/
theorem readWrapper_ends_full (hends : Ends interrupted results.readCounts 0 size.toNat .full) :
    ∃ calls d log, Moved interrupted size d log ∧ d.length = size.toNat ∧
      ∀ fuel, calls < fuel → readWrapper (results.host fuel) buffer size [] =
        .ok (buffer.write 0 d, size.toUInt32.toInt32) log := by
  obtain ⟨calls, d, log, hmoved, hstands, hrun⟩ := exists_run buffer hends
  have hlength : d.length = size.toNat := hstands
  have hnone : (Transfer.done size (buffer.write 0 d) d.length).left = 0 := by
    rw [hlength, Transfer.left_done_self]
  refine ⟨calls, d, log, hmoved, hlength, fun fuel hfuel => ?_⟩
  obtain ⟨more, rfl⟩ : ∃ more, fuel = calls + (more + 1) := ⟨fuel - calls - 1, by omega⟩
  rw [hrun, loop_result ((readPass_receives (results.host 0)).finish _ log hnone)]
  show _ = EStateM.Result.ok (buffer.write 0 d, size.toUInt32.toInt32) log
  rw [Transfer.done, hlength, UInt64.ofNat_toNat]

/-- The end of file or a fatal error comes before that. -/
theorem readWrapper_ends_short {ending : Ending}
    (hends : Ends interrupted results.readCounts 0 size.toNat ending) (hshort : ending ≠ .full) :
    ∃ calls d log r result, Moved interrupted size d log ∧ d.length < size.toNat ∧
      (r = .ok [] ∧ result = 0 ∨ ∃ e, e ≠ eintr ∧ r = .error e ∧ result = -1) ∧
      ∀ fuel, calls < fuel → readWrapper (results.host fuel) buffer size [] =
        .ok (buffer.write 0 d, result) (log ++ [nextAccess size d.length r]) := by
  obtain ⟨calls, d, log, hmoved, hstands, hrun⟩ := exists_run buffer hends
  have hlt : d.length < size.toNat := by
    cases ending with
    | full => exact absurd rfl hshort
    | cut => exact hstands.1
    | failed e => exact hstands.1
  have hpos := Transfer.left_done_pos (buffer.write 0 d) hlt
  obtain ⟨r, result, hcases, hpass⟩ : ∃ r result,
      (r = .ok [] ∧ result = 0 ∨ ∃ e, e ≠ eintr ∧ r = .error e ∧ result = -1) ∧
      readPass (results.host 0) (.done size (buffer.write 0 d) d.length) log =
        .ok (.inr (buffer.write 0 d, result)) (log ++ [nextAccess size d.length r]) := by
    cases ending with
    | full => exact absurd rfl hshort
    | cut =>
        exact ⟨.ok [], 0, Or.inl ⟨rfl, rfl⟩, readPass_endOfFile (results.host 0) hpos
          (results.read_cut 0 (Nat.le_of_lt hlt) hstands.2)⟩
    | failed e =>
        obtain ⟨-, he, hfatal⟩ := hstands
        exact ⟨.error e, -1, Or.inr ⟨e, hfatal, rfl, rfl⟩, readPass_error (results.host 0) hpos
          hfatal (results.read_failed 0 (Nat.le_of_lt hlt) he)⟩
  refine ⟨calls, d, log, r, result, hmoved, hlt, hcases, fun fuel hfuel => ?_⟩
  obtain ⟨more, rfl⟩ : ∃ more, fuel = calls + (more + 1) := ⟨fuel - calls - 1, by omega⟩
  rw [hrun, loop_result hpass]

theorem exact_of_full (hends : Ends interrupted results.readCounts 0 size.toNat .full)
    (hsize : size.toNat < 2 ^ 31) :
    Exact size buffer fun fuel => readWrapper (results.host fuel) buffer size [] := by
  obtain ⟨calls, d, log, hmoved, hlength, hrun⟩ := readWrapper_ends_full buffer hends
  have hresult := (toInt_toInt32_iff size).mpr hsize
  refine ⟨calls + 1, fun fuel hfuel => ⟨_, d, log, hrun fuel hfuel, hmoved.bytes,
    hmoved.offsets, hmoved.inside, Nat.le_of_eq hlength, ?_, ?_, ?_⟩⟩
  · exact iff_of_true hresult hlength
  · exact fun _ hlt => absurd hlength (Nat.ne_of_lt hlt)
  · intro herror
    rw [herror] at hresult
    exact absurd hresult (by rw [show (-1 : Int32).toInt = -1 from rfl]; omega)

theorem exact_of_short {ending : Ending}
    (hends : Ends interrupted results.readCounts 0 size.toNat ending) (hshort : ending ≠ .full) :
    Exact size buffer fun fuel => readWrapper (results.host fuel) buffer size [] := by
  obtain ⟨calls, d, log, r, result, hmoved, hlt, hcases, hrun⟩ :=
    readWrapper_ends_short buffer hends hshort
  have hnone : (nextAccess size d.length r).bytes = [] := by
    rcases hcases with ⟨rfl, -⟩ | ⟨e, -, rfl, -⟩
    · rfl
    · rfl
  have hlast : (log ++ [nextAccess size d.length r]).getLast?.map Access.result = some r := by
    rw [List.getLast?_append]
    rfl
  refine ⟨calls + 1, fun fuel hfuel => ⟨result, d, _, hrun fuel hfuel, ?_, ?_, ?_,
    Nat.le_of_lt hlt, ?_, ?_, ?_⟩⟩
  · rw [List.flatMap_append, hmoved.bytes, List.flatMap_singleton, hnone, List.append_nil]
  · rw [List.flatMap_append, hmoved.offsets, List.flatMap_singleton, Access.offsets, hnone]
    exact List.append_nil _
  · rw [List.forall_mem_append, List.forall_mem_singleton]
    exact ⟨hmoved.inside, nextAccess_inside (Nat.le_of_lt hlt) r⟩
  · refine iff_of_false (fun hresult => ?_) (Nat.ne_of_lt hlt)
    rcases hcases with ⟨-, rfl⟩ | ⟨e, -, -, rfl⟩
    · rw [Int32.toInt_zero] at hresult
      omega
    · rw [show (-1 : Int32).toInt = -1 from rfl] at hresult
      omega
  · intro hresult _
    rcases hcases with ⟨rfl, -⟩ | ⟨e, -, -, rfl⟩
    · exact hlast
    · exact absurd hresult (by decide)
  · intro hresult
    rcases hcases with ⟨-, rfl⟩ | ⟨e, he, rfl, -⟩
    · exact absurd hresult (by decide)
    · exact ⟨e, he, hlast⟩

/-- From 2^31 on the result of a full read is not the size. -/
theorem not_exact_of_full (hends : Ends interrupted results.readCounts 0 size.toNat .full)
    (hsize : ¬ size.toNat < 2 ^ 31) :
    ¬ Exact size buffer fun fuel => readWrapper (results.host fuel) buffer size [] := by
  rintro ⟨enough, h⟩
  obtain ⟨calls, d, log, hmoved, hlength, hrun⟩ := readWrapper_ends_full buffer hends
  obtain ⟨result, received, log', hend, hbytes, -, -, -, hresult, -⟩ :=
    h (enough + calls + 1) (by omega)
  dsimp only at hend
  rw [hrun _ (by omega)] at hend
  injection hend with hout hlog
  rw [← hlog, hmoved.bytes] at hbytes
  rw [← hbytes, ← (Prod.mk.inj hout).2] at hresult
  exact hsize ((toInt_toInt32_iff size).mp (hresult.mpr hlength))

/-- The wrapper is exact when the size fits an `int` or the bytes do not all arrive. -/
theorem readWrapper_exact_iff (results : Results) (size : UInt64)
    (hfinite : ∃ bound, ∀ k, bound ≤ k → results.read k ≠ .error eintr) :
    Exact size buffer (fun fuel => readWrapper (results.host fuel) buffer size []) ↔
      size.toNat < 2 ^ 31 ∨ ¬ Ends interrupted results.readCounts 0 size.toNat .full := by
  constructor
  · intro hexact
    by_contra hlarge
    rw [not_or, not_not] at hlarge
    exact not_exact_of_full buffer hlarge.2 hlarge.1 hexact
  · intro h
    obtain ⟨bound, hbound⟩ := hfinite
    have hsome : ∃ ending, Ends interrupted results.readCounts 0 size.toNat ending := by
      refine Ends.exists_of_finite bound (fun k e hk he hretried => ?_) 0 size.toNat
      cases hretried
      exact hbound k hk (Results.readCounts_error he)
    obtain ⟨ending, hends⟩ := hsome
    by_cases hfull : ending = .full
    · subst hfull
      rcases h with hsize | hnot
      · exact exact_of_full buffer hends hsize
      · exact absurd hends hnot
    · exact exact_of_short buffer hends hfull

/-- A root result that arrives in two pieces, with an interruption in between. -/
theorem readWrapper_exact_pieces :
    Exact 8 .zeros fun fuel => readWrapper
      ((⟨fun k => if k = 1 then .error eintr else .ok (List.replicate 5 7), fun _ => .ok 0⟩ :
        Results).host fuel) .zeros 8 [] := by
  refine (readWrapper_exact_iff .zeros _ 8 ⟨2, fun k hk hresult => ?_⟩).mpr (Or.inl (by decide))
  dsimp only at hresult
  rw [if_neg (by omega)] at hresult
  cases hresult

/-- A descriptor on which each call finds `n` bytes. -/
def plenty (n : ℕ) : Results := ⟨fun _ => .ok (List.replicate n 0), fun _ => .ok n⟩

theorem ends_plenty {n : ℕ} (hpos : 0 < n) (hmax : n ≤ ssizeMax) :
    Ends interrupted (plenty n).readCounts 0 n .full := by
  have hcount : (plenty n).readCounts 0 = .ok n :=
    congrArg Except.ok (List.length_replicate (n := n) (a := (0 : UInt8)))
  have hall : n - granted n n = 0 := by
    rw [granted]
    omega
  refine .moved hpos hcount hpos ?_
  rw [hall]
  exact .full

/-- A date of 2^31 bytes that arrives in one piece. -/
theorem not_exact_large_date :
    ¬ Exact 0x80000000 .zeros fun fuel =>
      readWrapper ((plenty 0x80000000).host fuel) .zeros 0x80000000 [] :=
  not_exact_of_full .zeros (ends_plenty (by decide) (by decide)) (by decide)

end Wrapper

end Rso.Socket.Client
