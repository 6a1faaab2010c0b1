import Rso.Lib.Replay
import Rso.Socket.ServerSpec

/-!
# The server's wrappers on any descriptor

`read_wrapper` and `write_wrapper` keep the result of the call in a `size_t`.  A
result of -1 is then the largest count there is: the test for an error is never
true, and the loop moves one byte back and asks for one more (`ServerLoop.failed`).
An end of file is noticed, and the process exits.

The wrappers return their `size_t` as an `int`.  So they do what they are for
exactly when the call that comes first, of one that returns 0 or -1 and the one
that moves the last byte, returns 0, or moves the last byte of a buffer whose
size an `int` holds.
-/

namespace Rso.Socket.Server

open Proc

/-- The wrapper exits the process at the first result that is 0 or -1, or returns
the size with each byte of the buffer moved once, in order.  All calls stay inside
the buffer, and the loop comes to its end. -/
def Survives {β : Type} (count : β → Int32) (size : UInt64)
    (wrapper : ℕ → EStateM.Result Halt (List Access) β) : Prop :=
  ∃ enough, ∀ fuel, enough ≤ fuel →
    (∃ message before last, wrapper fuel = .error (.exit 1 message) (before ++ [last]) ∧
      (∀ a ∈ before, ¬ a.Failed) ∧ last.Failed ∧ ∀ a ∈ before ++ [last], a.Inside size) ∨
    ∃ out log, wrapper fuel = .ok out log ∧ (count out).toInt = size.toNat ∧
      (∀ a ∈ log, ¬ a.Failed) ∧
      log.flatMap Access.offsets = (List.range size.toNat).map UInt64.ofNat ∧
      ∀ a ∈ log, a.Inside size

/-- No error is retried. -/
def never (_ : Errno) : Prop := False

/-- A pass only adds to the calls, and one that halts has made a call. -/
def Appends {α β : Type} (body : α → Proc (List Access) β) : Prop :=
  ∀ t log, (∃ out more, body t log = .ok out (log ++ more)) ∨
    ∃ e before last, body t log = .error e (log ++ before ++ [last])

/-- The passes of a wrapper of the server, for the results of its calls. -/
structure ServerLoop {β : Type} (counts : ℕ → Except Errno ℕ) (size : UInt64)
    (stored : List UInt8 → Mem) (count : β → Int32)
    (body : Transfer → Proc (List Access) (Transfer ⊕ β)) : Prop where
  moves : Moves never counts size stored body
  appends : Appends body
  finish : ∀ d log, d.length = size.toNat → ∃ out,
    body (.done size (stored d) d.length) log = .ok (.inr out) log ∧
      count out = size.toUInt32.toInt32
  cut : ∀ d log, d.length < size.toNat → counts log.length = .ok 0 → ∃ message,
    body (.done size (stored d) d.length) log =
      .error (.exit 1 message) (log ++ [nextAccess size d.length (.ok [])])
  failed : ∀ d log e, d.length < size.toNat → counts log.length = .error e → ∃ t,
    body (.done size (stored d) d.length) log =
      .ok (.inl t) (log ++ [nextAccess size d.length (.error e)])

section Loops

variable {β : Type} {counts : ℕ → Except Errno ℕ} {size : UInt64} {stored : List UInt8 → Mem}
  {count : β → Int32} {body : Transfer → Proc (List Access) (Transfer ⊕ β)}

theorem not_failed_of_moved {d : List UInt8} {log : List Access} (h : Moved never size d log) :
    ∀ a ∈ log, ¬ a.Failed := by
  intro a ha hfailed
  obtain ⟨e, -, hretried⟩ := h.results a ha hfailed
  exact hretried

/-- What the passes do, the loop does. -/
theorem loop_appends (h : Appends body) :
    ∀ (fuel : ℕ) (t : Transfer) (log : List Access),
      (∃ log', loop body fuel t log = .error .running log') ∨
      (∃ out more, loop body fuel t log = .ok out (log ++ more)) ∨
      ∃ e before last, loop body fuel t log = .error e (log ++ before ++ [last]) := by
  intro fuel
  induction fuel with
  | zero =>
      intro t log
      exact Or.inl ⟨log, rfl⟩
  | succ fuel ih =>
      intro t log
      rcases h t log with ⟨out, more, hpass⟩ | ⟨e, before, last, hpass⟩
      · cases out with
        | inr out => exact Or.inr (Or.inl ⟨out, more, loop_result hpass⟩)
        | inl next =>
            rw [loop_next hpass]
            rcases ih next (log ++ more) with hrunning | ⟨out, more', hout⟩ | ⟨e, before, last, he⟩
            · exact Or.inl hrunning
            · exact Or.inr (Or.inl ⟨out, more ++ more', by rw [hout, List.append_assoc]⟩)
            · refine Or.inr (Or.inr ⟨e, more ++ before, last, ?_⟩)
              rw [he, List.append_assoc log]
      · exact Or.inr (Or.inr ⟨e, before, last, loop_halt hpass⟩)

/-- A loop that goes on behind a call that failed does not survive it. -/
theorem not_survives_of_goes_on (happends : Appends body) {t t' : Transfer} (calls : ℕ)
    {log : List Access} {a : Access} (ha : a.Failed)
    (hrun : ∀ fuel, loop body (calls + fuel) t [] = loop body fuel t' (log ++ [a])) :
    ¬ Survives count size fun fuel => loop body fuel t [] := by
  rintro ⟨enough, h⟩
  have hlog : a ∈ log ++ [a] := List.mem_append_right _ (List.mem_singleton_self a)
  have hend := h (calls + enough) (Nat.le_add_left ..)
  dsimp only at hend
  rw [hrun] at hend
  rcases loop_appends happends enough t' (log ++ [a]) with
    ⟨log', hrunning⟩ | ⟨out, more, hout⟩ | ⟨e, before, last, he⟩
  · rw [hrunning] at hend
    rcases hend with ⟨message, before, last, hexit, -⟩ | ⟨out, log, hout, -⟩
    · cases hexit
    · cases hout
  · rw [hout] at hend
    rcases hend with ⟨message, before, last, hexit, -⟩ | ⟨out, log', hout', -, hnone, -⟩
    · cases hexit
    · cases hout'
      exact hnone a (List.mem_append_left _ hlog) ha
  · rw [he] at hend
    rcases hend with ⟨message, before', last', hexit, hnone, -⟩ | ⟨out, log', hout, -⟩
    · injection hexit with _ hcalls
      have hbefore := (List.append_inj' hcalls rfl).1
      exact hnone a (hbefore ▸ List.mem_append_left _ hlog) ha
    · cases hout

/-- With all bytes moved the loop returns the size, as far as an `int` holds it. -/
theorem ServerLoop.full (h : ServerLoop counts size stored count body)
    (hends : Ends never counts 0 size.toNat .full) :
    ∃ calls out d log, Moved never size d log ∧ d.length = size.toNat ∧
      count out = size.toUInt32.toInt32 ∧ ∀ fuel, calls < fuel →
        loop body fuel (.start size (stored [])) [] = .ok out log := by
  obtain ⟨calls, d, log, hmoved, hstands, hrun⟩ := h.moves.run hends [] [] rfl
    (Nat.zero_add _) (moved_nil never size)
  rw [List.length_nil, Transfer.done_zero] at hrun
  obtain ⟨out, hpass, hcount⟩ := h.finish d log hstands
  refine ⟨calls, out, d, log, hmoved, hstands, hcount, fun fuel hfuel => ?_⟩
  obtain ⟨more, rfl⟩ : ∃ more, fuel = calls + (more + 1) := ⟨fuel - calls - 1, by omega⟩
  rw [hrun, loop_result hpass]

theorem ServerLoop.survives_of_full (h : ServerLoop counts size stored count body)
    (hends : Ends never counts 0 size.toNat .full) (hsize : size.toNat < 2 ^ 31) :
    Survives count size fun fuel => loop body fuel (.start size (stored [])) [] := by
  obtain ⟨calls, out, d, log, hmoved, hlength, hcount, hrun⟩ := h.full hends
  refine ⟨calls + 1, fun fuel hfuel => Or.inr ⟨out, log, hrun fuel hfuel, ?_, ?_⟩⟩
  · rw [hcount]
    exact (toInt_toInt32_iff size).mpr hsize
  · exact ⟨not_failed_of_moved hmoved, hlength ▸ hmoved.offsets, hmoved.inside⟩

theorem ServerLoop.survives_of_cut (h : ServerLoop counts size stored count body)
    (hends : Ends never counts 0 size.toNat .cut) :
    Survives count size fun fuel => loop body fuel (.start size (stored [])) [] := by
  obtain ⟨calls, d, log, hmoved, ⟨hlt, hzero⟩, hrun⟩ := h.moves.run hends [] [] rfl
    (Nat.zero_add _) (moved_nil never size)
  rw [List.length_nil, Transfer.done_zero] at hrun
  obtain ⟨message, hpass⟩ := h.cut d log hlt hzero
  refine ⟨calls + 1, fun fuel hfuel => Or.inl ⟨message, log,
    nextAccess size d.length (.ok []), ?_, not_failed_of_moved hmoved, ?_, ?_⟩⟩
  · obtain ⟨more, rfl⟩ : ∃ more, fuel = calls + (more + 1) := ⟨fuel - calls - 1, by omega⟩
    dsimp only
    rw [hrun, loop_halt hpass]
  · exact Or.inl rfl
  · rw [List.forall_mem_append, List.forall_mem_singleton]
    exact ⟨hmoved.inside, nextAccess_inside (Nat.le_of_lt hlt) _⟩

theorem ServerLoop.not_survives_of_failed (h : ServerLoop counts size stored count body)
    {e : Errno} (hends : Ends never counts 0 size.toNat (.failed e)) :
    ¬ Survives count size fun fuel => loop body fuel (.start size (stored [])) [] := by
  obtain ⟨calls, d, log, -, ⟨hlt, he, -⟩, hrun⟩ := h.moves.run hends [] [] rfl
    (Nat.zero_add _) (moved_nil never size)
  rw [List.length_nil, Transfer.done_zero] at hrun
  obtain ⟨t, hpass⟩ := h.failed d log e hlt he
  have hfailed : (nextAccess size d.length (.error e)).Failed := Or.inr ⟨e, rfl⟩
  have hgoes : ∀ fuel, loop body (calls + 1 + fuel) (.start size (stored [])) [] =
      loop body fuel t (log ++ [nextAccess size d.length (.error e)]) := fun fuel => by
    rw [Nat.add_assoc, Nat.add_comm 1, hrun, loop_next hpass]
  exact not_survives_of_goes_on h.appends (calls + 1) hfailed hgoes

/-- Survival depends on how the transfer ends, by the results alone. -/
theorem ServerLoop.survives_iff (h : ServerLoop counts size stored count body) :
    Survives count size (fun fuel => loop body fuel (.start size (stored [])) []) ↔
      Ends never counts 0 size.toNat .cut ∨
        Ends never counts 0 size.toNat .full ∧ size.toNat < 2 ^ 31 := by
  constructor
  · intro hsurvives
    have hsome : ∃ ending, Ends never counts 0 size.toNat ending :=
      Ends.exists_of_finite 0 (fun _ _ _ _ => id) 0 size.toNat
    obtain ⟨ending, hends⟩ := hsome
    cases ending with
    | cut => exact Or.inl hends
    | failed e => exact absurd hsurvives (h.not_survives_of_failed hends)
    | full =>
        refine Or.inr ⟨hends, (toInt_toInt32_iff size).mp ?_⟩
        obtain ⟨enough, hsurvives⟩ := hsurvives
        obtain ⟨calls, out, d, log, -, -, hcount, hrun⟩ := h.full hends
        have hend := hsurvives (enough + calls + 1) (by omega)
        dsimp only at hend
        rw [hrun _ (by omega)] at hend
        rcases hend with ⟨message, before, last, hexit, -⟩ | ⟨out', log', hout, hsize, -⟩
        · cases hexit
        · cases hout
          rw [← hcount, hsize]
  · rintro (hcut | ⟨hfull, hsize⟩)
    · exact h.survives_of_cut hcut
    · exact h.survives_of_full hfull hsize

end Loops

/-! ## The two wrappers -/

section Passes

variable {σ : Type} {host : Host σ} {t : Transfer} {s s' : σ}

/-- A `read` that fails counts as 2^64 - 1 bytes. -/
theorem readPass_failed {e : Errno} (hleft : 0 < t.left)
    (hread : host.read t.pointer t.left s = (.error e, s')) :
    readPass host t s = .ok (.inl (t.advance (-1))) s' := by
  rw [readPass, if_pos hleft, bind_ok (call_eq hread)]
  rfl

/-- So does a `write`. -/
theorem writePass_failed {e : Errno} (hleft : 0 < t.left)
    (hwrite : host.write t.pointer t.left t.mem s = (.error e, s')) :
    writePass host t s = .ok (.inl (t.advance (-1))) s' := by
  rw [writePass, if_pos hleft, bind_ok (call_eq hwrite)]
  rfl

theorem writePass_zero (hleft : 0 < t.left)
    (hwrite : host.write t.pointer t.left t.mem s = (.ok 0, s')) :
    writePass host t s = .error (.exit 1 "End of the file reached!") (host.close s').2 := by
  rw [writePass, if_pos hleft, bind_ok (call_eq hwrite)]
  rfl

end Passes

section Wrappers

variable (results : Results) (size : UInt64) (buffer : Mem)

/-- Whatever a call gives, the pass has added that call and nothing else. -/
theorem readPass_appends : Appends (readPass (results.host 0)) := by
  intro t log
  by_cases hleft : 0 < t.left
  · obtain ⟨r, hread⟩ : ∃ r, (results.host 0).read t.pointer t.left log =
        (r, log ++ [⟨t.pointer, t.left, r⟩]) := ⟨_, rfl⟩
    rw [readPass, if_pos hleft, bind_ok (call_eq hread)]
    split
    · split
      · exact Or.inr ⟨_, [], _, by rw [List.append_nil]; rfl⟩
      · split
        · exact Or.inr ⟨_, [], _, by rw [List.append_nil]; rfl⟩
        · exact Or.inl ⟨_, _, rfl⟩
    · exact Or.inl ⟨_, _, rfl⟩
  · refine Or.inl ⟨.inr (t.mem, t.total.toUInt32.toInt32), [], ?_⟩
    rw [readPass, if_neg hleft, List.append_nil]
    rfl

theorem writePass_appends : Appends (writePass (results.host 0)) := by
  intro t log
  by_cases hleft : 0 < t.left
  · obtain ⟨r, a, hwrite⟩ : ∃ r a, (results.host 0).write t.pointer t.left t.mem log =
        (r, log ++ [a]) := ⟨_, _, rfl⟩
    rw [writePass, if_pos hleft, bind_ok (call_eq hwrite)]
    split
    · split
      · exact Or.inr ⟨_, [], _, by rw [List.append_nil]; rfl⟩
      · split
        · exact Or.inr ⟨_, [], _, by rw [List.append_nil]; rfl⟩
        · exact Or.inl ⟨_, _, rfl⟩
    · exact Or.inl ⟨_, _, rfl⟩
  · refine Or.inl ⟨.inr t.total.toUInt32.toInt32, [], ?_⟩
    rw [writePass, if_neg hleft, List.append_nil]
    rfl

theorem readPass_loop :
    ServerLoop results.readCounts size (fun d => buffer.write 0 d) Prod.snd
      (readPass (results.host 0)) where
  moves := (readPass_receives (results.host 0)).moves buffer fun _ _ _ _ _ => False.elim
  appends := readPass_appends results
  finish d log hfull := by
    have hnone : (Transfer.done size (buffer.write 0 d) d.length).left = 0 := by
      rw [hfull, Transfer.left_done_self]
    refine ⟨_, (readPass_receives (results.host 0)).finish _ log hnone, ?_⟩
    show (UInt64.ofNat d.length).toUInt32.toInt32 = size.toUInt32.toInt32
    rw [hfull, UInt64.ofNat_toNat]
  cut d log hlt hzero := ⟨_, readPass_endOfFile (results.host 0)
    (Transfer.left_done_pos _ hlt) (results.read_cut 0 (Nat.le_of_lt hlt) hzero)⟩
  failed d log e hlt he := ⟨_, readPass_failed (Transfer.left_done_pos _ hlt)
    (results.read_failed 0 (Nat.le_of_lt hlt) he)⟩

theorem writePass_loop :
    ServerLoop results.write size (fun _ => buffer) id (writePass (results.host 0)) where
  moves := (writePass_sends (results.host 0)).moves buffer fun _ _ _ _ _ => False.elim
  appends := writePass_appends results
  finish d log hfull := by
    have hnone : (Transfer.done size buffer d.length).left = 0 := by
      rw [hfull, Transfer.left_done_self]
    refine ⟨_, (writePass_sends (results.host 0)).finish _ log hnone, ?_⟩
    show (UInt64.ofNat d.length).toUInt32.toInt32 = size.toUInt32.toInt32
    rw [hfull, UInt64.ofNat_toNat]
  cut d log hlt hzero := ⟨_, writePass_zero (Transfer.left_done_pos _ hlt)
    (results.write_cut 0 (Nat.le_of_lt hlt) buffer hzero)⟩
  failed d log e hlt he := ⟨_, writePass_failed (Transfer.left_done_pos _ hlt)
    (results.write_failed 0 (Nat.le_of_lt hlt) buffer he)⟩

/-- The wrappers survive exactly when their transfer is cut by a result of 0, or
moves all bytes of a size that an `int` holds. -/
theorem wrappers_survive_iff :
    (Survives Prod.snd size (fun fuel => readWrapper (results.host fuel) buffer size []) ↔
      Ends never results.readCounts 0 size.toNat .cut ∨
        Ends never results.readCounts 0 size.toNat .full ∧ size.toNat < 2 ^ 31) ∧
    (Survives id size (fun fuel => writeWrapper (results.host fuel) buffer size []) ↔
      Ends never results.write 0 size.toNat .cut ∨
        Ends never results.write 0 size.toNat .full ∧ size.toNat < 2 ^ 31) := by
  constructor
  · have hread := (readPass_loop results size buffer).survives_iff
    rw [Mem.write_nil] at hread
    exact hread
  · exact (writePass_loop results size buffer).survives_iff

/-- A descriptor of which every call fails, as -1 after a failed `accept`. -/
def badDescriptor : Results := ⟨fun _ => .error ebadf, fun _ => .error ebadf⟩

/-- The first `read` of the child fails, and the child does not exit. -/
theorem not_survives_badDescriptor :
    ¬ Survives Prod.snd 8 fun fuel => readWrapper (badDescriptor.host fuel) .zeros 8 [] := by
  have hends : Ends never badDescriptor.readCounts 0 (8 : UInt64).toNat (.failed ebadf) :=
    .failed (by decide) rfl id
  have hread := (readPass_loop badDescriptor 8 .zeros).not_survives_of_failed hends
  rw [Mem.write_nil] at hread
  exact hread

end Wrappers

end Rso.Socket.Server
