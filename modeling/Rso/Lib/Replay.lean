import Rso.Lib.Transfer

/-!
# Descriptors with given results

A transfer loop is at the mercy of its descriptor.  Here the results of the calls
are given beforehand, as infinite sequences, and the host plays them back: it cuts
each count to what is asked for, and keeps a record of every call with the place
and the length it was given (`Access`).  A statement for all sequences is one for
every mix of partial transfers, interruptions, ends of file and errors.

`Ends` says how a transfer of some size ends by the results alone: with all
bytes moved, or at a result that is 0, or at an error that is not retried.
`Moves` is what the passes of a loop do while bytes move, and `Moves.run` follows
the loop to the point where its transfer ends.
-/

namespace Rso

open Proc

/-! ## Accesses -/

/-- A call of `read` or `write`: what it was given, and the bytes it moved. -/
structure Access where
  pointer : UInt64
  length : UInt64
  result : Except Errno (List UInt8)

namespace Access

/-- The place that was given lies in the first `size` bytes. -/
def Inside (size : UInt64) (a : Access) : Prop := a.pointer.toNat + a.length.toNat ≤ size.toNat

/-- The result is 0 or -1. -/
def Failed (a : Access) : Prop := a.result = .ok [] ∨ ∃ e, a.result = .error e

/-- The bytes that were moved. -/
def bytes (a : Access) : List UInt8 :=
  match a.result with
  | .ok bs => bs
  | .error _ => []

/-- The offsets in the buffer of the bytes that were moved. -/
def offsets (a : Access) : List UInt64 :=
  (List.range a.bytes.length).map fun i => a.pointer + UInt64.ofNat i

end Access

/-! ## The host -/

/-- The largest count that a `ssize_t` holds. -/
def ssizeMax : ℕ := 2 ^ 63 - 1

/-- A count, cut to what was asked for. -/
def granted (asked count : ℕ) : ℕ := min count (min asked ssizeMax)

/-- A `size_t` that is returned as an `int` keeps its value if an `int` holds it. -/
theorem toInt_toInt32_iff (size : UInt64) :
    size.toUInt32.toInt32.toInt = size.toNat ↔ size.toNat < 2 ^ 31 := by
  have hbits : size.toUInt32.toInt32.toInt = ((size.toNat % 2 ^ 32 : ℕ) : ℤ).bmod (2 ^ 32) := by
    rw [← UInt64.toNat_toUInt32, ← UInt32.toNat_toBitVec, ← BitVec.toInt_eq_toNat_bmod]
    rfl
  have hlt := size.toNat_lt
  rw [hbits, Int.bmod_def]
  omega

/-- Memory that holds zeros. -/
def Mem.zeros : Mem := fun _ => 0

/-- The results of the calls on a descriptor, in order. -/
structure Results where
  read : ℕ → Except Errno (List UInt8)
  write : ℕ → Except Errno ℕ

namespace Results

/-- The counts that the `read` calls return. -/
def readCounts (results : Results) (call : ℕ) : Except Errno ℕ :=
  (results.read call).map List.length

/-- A host that has this one descriptor, and no memory to give. -/
def host (results : Results) (fuel : ℕ) : Host (List Access) where
  order := .little
  fuel := fuel
  read pointer length log :=
    let result := (results.read log.length).map fun bs =>
      bs.take (granted length.toNat bs.length)
    (result, log ++ [⟨pointer, length, result⟩])
  write pointer length mem log :=
    let result := (results.write log.length).map (granted length.toNat)
    (result, log ++ [⟨pointer, length, result.map (mem.read pointer)⟩])
  close log := ((), log)
  object log := (.zeros, log)
  malloc _ log := (none, log)
  strerror _ := ""

end Results

/-! ## How a transfer ends -/

/-- The end of a transfer. -/
inductive Ending where
  /-- All bytes are moved. -/
  | full
  /-- A call returns 0. -/
  | cut
  /-- A call fails with an error that is not retried. -/
  | failed (e : Errno)
deriving DecidableEq, Repr

/-- A transfer with `left` bytes to go at call number `k` ends so, by the results of
the calls. -/
inductive Ends (retried : Errno → Prop) (counts : ℕ → Except Errno ℕ) :
    (k left : ℕ) → Ending → Prop where
  | full : Ends retried counts k 0 .full
  | cut : 0 < left → counts k = .ok 0 → Ends retried counts k left .cut
  | failed : 0 < left → counts k = .error e → ¬ retried e → Ends retried counts k left (.failed e)
  | moved : 0 < left → counts k = .ok count → 0 < count →
      Ends retried counts (k + 1) (left - granted left count) ending →
      Ends retried counts k left ending
  | retry : 0 < left → counts k = .error e → retried e →
      Ends retried counts (k + 1) left ending → Ends retried counts k left ending

theorem granted_pos {asked count : ℕ} (hasked : 0 < asked) (hcount : 0 < count) :
    0 < granted asked count := by
  rw [granted, ssizeMax]
  omega

theorem granted_le (asked count : ℕ) : granted asked count ≤ asked := by
  rw [granted]
  omega

theorem granted_lt (asked count : ℕ) : granted asked count < 2 ^ 63 := by
  rw [granted, ssizeMax]
  omega

section Endings

variable {retried : Errno → Prop} {counts : ℕ → Except Errno ℕ}

/-- With finitely many retried errors a transfer ends: a call takes away a byte that was
left, or one of the calls that may be retried. -/
theorem Ends.exists_of_finite (bound : ℕ)
    (h : ∀ k e, bound ≤ k → counts k = .error e → ¬ retried e) (k left : ℕ) :
    ∃ ending, Ends retried counts k left ending := by
  induction hn : (bound - k) + left using Nat.strong_induction_on generalizing k left with
  | _ n ih =>
      rcases Nat.eq_zero_or_pos left with rfl | hleft
      · exact ⟨_, .full⟩
      · cases hcount : counts k with
        | error e =>
            by_cases hretried : retried e
            · have hk : k < bound := by
                by_contra hge
                exact h k e (by omega) hcount hretried
              obtain ⟨ending, hrest⟩ := ih _ (by omega) (k + 1) left rfl
              exact ⟨ending, .retry hleft hcount hretried hrest⟩
            · exact ⟨_, .failed hleft hcount hretried⟩
        | ok count =>
            rcases Nat.eq_zero_or_pos count with rfl | hpos
            · exact ⟨_, .cut hleft hcount⟩
            · have hgranted := granted_pos hleft hpos
              have hle := granted_le left count
              obtain ⟨ending, hrest⟩ := ih _ (by omega) (k + 1) (left - granted left count) rfl
              exact ⟨ending, .moved hleft hcount hpos hrest⟩

end Endings

/-! ## Loops that move bytes -/

/-- After these calls the bytes `d` are moved, in order and once each, by calls that
stay inside. -/
structure Moved (retried : Errno → Prop) (size : UInt64) (d : List UInt8) (log : List Access) :
    Prop where
  inside : ∀ a ∈ log, a.Inside size
  offsets : log.flatMap Access.offsets = (List.range d.length).map UInt64.ofNat
  bytes : log.flatMap Access.bytes = d
  results : ∀ a ∈ log, a.Failed → ∃ e, a.result = .error e ∧ retried e

/-- The call that a loop makes with `n` of `size` bytes moved. -/
def nextAccess (size : UInt64) (n : ℕ) (result : Except Errno (List UInt8)) : Access :=
  ⟨UInt64.ofNat n, size - UInt64.ofNat n, result⟩

/-- The passes of a loop while bytes move: the memory is `stored d` with `d` moved. -/
structure Moves (retried : Errno → Prop) (counts : ℕ → Except Errno ℕ) (size : UInt64)
    (stored : List UInt8 → Mem) (body : Transfer → Proc (List Access) (Transfer ⊕ β)) : Prop where
  moved : ∀ d log count, d.length < size.toNat → counts log.length = .ok count → 0 < count →
    ∃ bs, bs.length = granted (size.toNat - d.length) count ∧
      body (.done size (stored d) d.length) log =
        .ok (.inl (.done size (stored (d ++ bs)) (d ++ bs).length))
          (log ++ [nextAccess size d.length (.ok bs)])
  retry : ∀ d log e, d.length < size.toNat → counts log.length = .error e → retried e →
    body (.done size (stored d) d.length) log =
      .ok (.inl (.done size (stored d) d.length)) (log ++ [nextAccess size d.length (.error e)])

/-- Where a transfer stands that ends so. -/
def Stands (retried : Errno → Prop) (counts : ℕ → Except Errno ℕ) (size : UInt64) (n k : ℕ) :
    Ending → Prop
  | .full => n = size.toNat
  | .cut => n < size.toNat ∧ counts k = .ok 0
  | .failed e => n < size.toNat ∧ counts k = .error e ∧ ¬ retried e

section Loops

variable {β : Type} {retried : Errno → Prop} {counts : ℕ → Except Errno ℕ} {size : UInt64}
  {stored : List UInt8 → Mem} {body : Transfer → Proc (List Access) (Transfer ⊕ β)}
  {d bs : List UInt8} {log : List Access}

theorem moved_nil (retried : Errno → Prop) (size : UInt64) : Moved retried size [] [] :=
  ⟨nofun, rfl, rfl, nofun⟩

/-- A call of the loop stays inside. -/
theorem nextAccess_inside {n : ℕ} (h : n ≤ size.toNat) (result : Except Errno (List UInt8)) :
    (nextAccess size n result).Inside size := by
  have hpointer : (UInt64.ofNat n).toNat = n := Transfer.pointer_done (fun _ => 0) h
  have hleft : (size - UInt64.ofNat n).toNat = size.toNat - n := Transfer.left_done (fun _ => 0) h
  show (UInt64.ofNat n).toNat + (size - UInt64.ofNat n).toNat ≤ size.toNat
  omega

theorem Moved.append (h : Moved retried size d log) (hlt : d.length < size.toNat) (hbs : bs ≠ []) :
    Moved retried size (d ++ bs) (log ++ [nextAccess size d.length (.ok bs)]) where
  inside := by
    rw [List.forall_mem_append, List.forall_mem_singleton]
    exact ⟨h.inside, nextAccess_inside (Nat.le_of_lt hlt) _⟩
  offsets := by
    rw [List.flatMap_append, h.offsets, List.flatMap_singleton, List.length_append, List.range_add,
      List.map_append, List.map_map]
    congr 1
    exact List.map_congr_left fun i _ => (UInt64.ofNat_add ..).symm
  bytes := by
    rw [List.flatMap_append, h.bytes, List.flatMap_singleton]
    rfl
  results := by
    rw [List.forall_mem_append, List.forall_mem_singleton]
    refine ⟨h.results, ?_⟩
    rintro (hnil | ⟨e, he⟩)
    · cases hnil
      exact absurd rfl hbs
    · cases he

theorem Moved.append_error {e : Errno} (h : Moved retried size d log)
    (hlt : d.length < size.toNat) (he : retried e) :
    Moved retried size d (log ++ [nextAccess size d.length (.error e)]) where
  inside := by
    rw [List.forall_mem_append, List.forall_mem_singleton]
    exact ⟨h.inside, nextAccess_inside (Nat.le_of_lt hlt) _⟩
  offsets := by
    rw [List.flatMap_append, h.offsets, List.flatMap_singleton]
    exact List.append_nil _
  bytes := by
    rw [List.flatMap_append, h.bytes, List.flatMap_singleton]
    exact List.append_nil _
  results := by
    rw [List.forall_mem_append, List.forall_mem_singleton]
    exact ⟨h.results, fun _ => ⟨e, rfl, he⟩⟩

/-- The loop comes to the point where its transfer ends. -/
theorem Moves.run (h : Moves retried counts size stored body) {k left : ℕ} {ending : Ending}
    (hends : Ends retried counts k left ending) :
    ∀ (d : List UInt8) (log : List Access), log.length = k → d.length + left = size.toNat →
      Moved retried size d log →
      ∃ calls d' log', Moved retried size d' log' ∧
        Stands retried counts size d'.length log'.length ending ∧
        ∀ fuel, loop body (calls + fuel) (.done size (stored d) d.length) log =
          loop body fuel (.done size (stored d') d'.length) log' := by
  induction hends with
  | full =>
      intro d log _ hleft hmoved
      refine ⟨0, d, log, hmoved, hleft, fun fuel => ?_⟩
      rw [Nat.zero_add]
  | cut hpos hcount =>
      intro d log hk hleft hmoved
      refine ⟨0, d, log, hmoved, ⟨by omega, by rw [hk, hcount]⟩, fun fuel => ?_⟩
      rw [Nat.zero_add]
  | failed hpos he hnot =>
      intro d log hk hleft hmoved
      refine ⟨0, d, log, hmoved, ⟨by omega, by rw [hk, he], hnot⟩, fun fuel => ?_⟩
      rw [Nat.zero_add]
  | @moved left k count ending hpos hcount hcountpos _ ih =>
      intro d log hk hleft hmoved
      have hlt : d.length < size.toNat := by omega
      obtain ⟨bs, hbs, hpass⟩ := h.moved d log count hlt (by rw [hk, hcount]) hcountpos
      have hsize : size.toNat - d.length = left := by omega
      have hgranted := granted_pos hpos hcountpos
      have hle := granted_le left count
      rw [hsize] at hbs
      have hne : bs ≠ [] := List.length_pos_iff.mp (by omega)
      obtain ⟨calls, d', log', hmoved', hstands, hrun⟩ := ih (d ++ bs) _
        (by rw [List.length_append, hk, List.length_singleton])
        (by rw [List.length_append]; omega) (hmoved.append hlt hne)
      refine ⟨calls + 1, d', log', hmoved', hstands, fun fuel => ?_⟩
      rw [Nat.add_right_comm, loop_next hpass, hrun]
  | retry hpos he hretried _ ih =>
      intro d log hk hleft hmoved
      have hlt : d.length < size.toNat := by omega
      have hpass := h.retry d log _ hlt (by rw [hk, he]) hretried
      obtain ⟨calls, d', log', hmoved', hstands, hrun⟩ := ih d _
        (by rw [List.length_append, hk, List.length_singleton]) hleft
        (hmoved.append_error hlt hretried)
      refine ⟨calls + 1, d', log', hmoved', hstands, fun fuel => ?_⟩
      rw [Nat.add_right_comm, loop_next hpass, hrun]

end Loops

/-! ## Loops over a descriptor -/

section Descriptors

variable {β : Type} {retried : Errno → Prop} {results : Results} {fuel : ℕ} {size : UInt64}
  {body : Transfer → Proc (List Access) (Transfer ⊕ β)} {result : Transfer → β}

theorem Results.readCounts_ok {k count : ℕ} (h : results.readCounts k = .ok count) :
    ∃ bs, results.read k = .ok bs ∧ bs.length = count := by
  rw [readCounts] at h
  cases hread : results.read k with
  | error e =>
      rw [hread] at h
      cases h
  | ok bs =>
      rw [hread] at h
      exact ⟨bs, rfl, Except.ok.inj h⟩

theorem Results.readCounts_error {k : ℕ} {e : Errno} (h : results.readCounts k = .error e) :
    results.read k = .error e := by
  rw [readCounts] at h
  cases hread : results.read k with
  | error e' =>
      rw [hread] at h
      exact congrArg Except.error (Except.error.inj h)
  | ok bs =>
      rw [hread] at h
      cases h

/-- What a `read` gives with `n` bytes moved. -/
theorem Results.read_eq (results : Results) (fuel : ℕ) {n : ℕ} (h : n ≤ size.toNat)
    (log : List Access) :
    (results.host fuel).read (UInt64.ofNat n) (size - UInt64.ofNat n) log =
      let r := (results.read log.length).map fun bs =>
        bs.take (granted (size.toNat - n) bs.length)
      (r, log ++ [nextAccess size n r]) := by
  have hleft : (size - UInt64.ofNat n).toNat = size.toNat - n := Transfer.left_done (fun _ => 0) h
  simp only [host, hleft, nextAccess]

/-- What a `write` gives with `n` bytes moved. -/
theorem Results.write_eq (results : Results) (fuel : ℕ) {n : ℕ} (h : n ≤ size.toNat) (mem : Mem)
    (log : List Access) :
    (results.host fuel).write (UInt64.ofNat n) (size - UInt64.ofNat n) mem log =
      let r := (results.write log.length).map (granted (size.toNat - n))
      (r, log ++ [nextAccess size n (r.map (mem.read (UInt64.ofNat n)))]) := by
  have hleft : (size - UInt64.ofNat n).toNat = size.toNat - n := Transfer.left_done (fun _ => 0) h
  simp only [host, hleft, nextAccess]

theorem Results.read_cut (fuel : ℕ) {n : ℕ} (h : n ≤ size.toNat) {log : List Access}
    (hzero : results.readCounts log.length = .ok 0) :
    (results.host fuel).read (UInt64.ofNat n) (size - UInt64.ofNat n) log =
      (.ok [], log ++ [nextAccess size n (.ok [])]) := by
  obtain ⟨bs, hread, hlength⟩ := readCounts_ok hzero
  have hcall := read_eq results fuel h log
  simp only [hread, List.length_eq_zero_iff.mp hlength, Except.map, List.take_nil] at hcall
  exact hcall

theorem Results.read_failed (fuel : ℕ) {n : ℕ} (h : n ≤ size.toNat) {log : List Access}
    {e : Errno} (he : results.readCounts log.length = .error e) :
    (results.host fuel).read (UInt64.ofNat n) (size - UInt64.ofNat n) log =
      (.error e, log ++ [nextAccess size n (.error e)]) := by
  have hcall := read_eq results fuel h log
  simp only [readCounts_error he, Except.map] at hcall
  exact hcall

theorem Results.write_cut (fuel : ℕ) {n : ℕ} (h : n ≤ size.toNat) (mem : Mem)
    {log : List Access} (hzero : results.write log.length = .ok 0) :
    (results.host fuel).write (UInt64.ofNat n) (size - UInt64.ofNat n) mem log =
      (.ok 0, log ++ [nextAccess size n (.ok [])]) := by
  have hcall := write_eq results fuel h mem log
  have hnone : granted (size.toNat - n) 0 = 0 := Nat.zero_min _
  simp only [hzero, Except.map, hnone, Mem.read_zero] at hcall
  exact hcall

theorem Results.write_failed (fuel : ℕ) {n : ℕ} (h : n ≤ size.toNat) (mem : Mem)
    {log : List Access} {e : Errno} (he : results.write log.length = .error e) :
    (results.host fuel).write (UInt64.ofNat n) (size - UInt64.ofNat n) mem log =
      (.error e, log ++ [nextAccess size n (.error e)]) := by
  have hcall := write_eq results fuel h mem log
  simp only [he, Except.map] at hcall
  exact hcall

/-- A loop that receives, and retries some errors, moves bytes. -/
theorem Receives.moves (h : Receives (results.host fuel) body result) (buffer : Mem)
    (hretry : ∀ d log e, d.length < size.toNat → results.readCounts log.length = .error e →
      retried e → body (.done size (buffer.write 0 d) d.length) log =
        .ok (.inl (.done size (buffer.write 0 d) d.length))
          (log ++ [nextAccess size d.length (.error e)])) :
    Moves retried results.readCounts size (fun d => buffer.write 0 d) body where
  moved d log count hlt hcount hpos := by
    obtain ⟨bs, hread, rfl⟩ := Results.readCounts_ok hcount
    have hgranted := granted_pos (by omega : 0 < size.toNat - d.length) hpos
    have hle := granted_le (size.toNat - d.length) bs.length
    have hlength : (bs.take (granted (size.toNat - d.length) bs.length)).length =
        granted (size.toNat - d.length) bs.length := by
      rw [List.length_take, granted]
      omega
    have hcall := Results.read_eq results fuel (Nat.le_of_lt hlt) log
    simp only [hread, Except.map] at hcall
    have hpass := h.store (.done size (buffer.write 0 d) d.length) log _ _
      (Transfer.left_done_pos _ hlt) hcall (by omega) (by rw [hlength]; exact granted_lt ..)
    rw [Transfer.store_done (by omega)] at hpass
    exact ⟨_, hlength, hpass⟩
  retry := hretry

/-- A loop that sends, and retries some errors, moves bytes. -/
theorem Sends.moves (h : Sends (results.host fuel) body result) (buffer : Mem)
    (hretry : ∀ (d : List UInt8) log e, d.length < size.toNat →
      results.write log.length = .error e → retried e →
      body (.done size buffer d.length) log =
        .ok (.inl (.done size buffer d.length)) (log ++ [nextAccess size d.length (.error e)])) :
    Moves retried results.write size (fun _ => buffer) body where
  moved d log count hlt hcount hpos := by
    have hgranted := granted_pos (by omega : 0 < size.toNat - d.length) hpos
    have hcall := Results.write_eq results fuel (Nat.le_of_lt hlt) buffer log
    simp only [hcount, Except.map] at hcall
    have hpass := h.pass (.done size buffer d.length) log _ _
      (Transfer.left_done_pos _ hlt) hcall hgranted (granted_lt ..)
    refine ⟨buffer.read (UInt64.ofNat d.length) (granted (size.toNat - d.length) count),
      Mem.read_length .., ?_⟩
    rw [Transfer.advance_done] at hpass
    rw [List.length_append, Mem.read_length, hpass]
  retry := hretry

end Descriptors

end Rso
