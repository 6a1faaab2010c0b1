import Rso.Lib.Host

/-!
# Transfer loops

`read` and `write` may move fewer bytes than they are asked for, so programs
call them in a loop that advances a pointer.  `Transfer` is what such a loop
keeps.  Its body is the program's own; `Receives` and `Sends` say what a body
must do, for the counts that a working connection returns, and the two rules
follow.

* `Receives.deliver`: the loop comes to the point where all that can be read is
  in the object, from its start on.
* `Sends.deliver`: the loop comes to the point where the object is written.

The rules do not fix how many calls it took, and that is all in which chunkings
differ.
-/

namespace Rso

open Proc

/-- The variables of a transfer loop, and the memory around the object. -/
structure Transfer where
  total : UInt64
  left : UInt64
  pointer : UInt64
  mem : Mem

namespace Transfer

/-- Nothing moved yet. -/
def start (size : UInt64) (mem : Mem) : Transfer := ⟨0, size, 0, mem⟩

def advance (t : Transfer) (count : UInt64) : Transfer :=
  { t with total := t.total + count, left := t.left - count, pointer := t.pointer + count }

/-- Bytes put to where the pointer stands. -/
def store (t : Transfer) (bs : List UInt8) : Transfer :=
  { t.advance (UInt64.ofNat bs.length) with mem := t.mem.write t.pointer bs }

/-- `n` of `size` bytes are done. -/
def done (size : UInt64) (mem : Mem) (n : ℕ) : Transfer :=
  ⟨UInt64.ofNat n, size - UInt64.ofNat n, UInt64.ofNat n, mem⟩

theorem done_zero (size : UInt64) (mem : Mem) : done size mem 0 = start size mem := by
  show Transfer.mk 0 (size - 0) 0 mem = _
  rw [UInt64.sub_zero, start]

variable {size : UInt64} {mem : Mem} {n k : ℕ}

theorem advance_done : (done size mem n).advance (UInt64.ofNat k) = done size mem (n + k) := by
  have hleft : size - UInt64.ofNat n - UInt64.ofNat k =
      size - (UInt64.ofNat n + UInt64.ofNat k) := by grind
  rw [advance, done, done, UInt64.ofNat_add, hleft]

theorem pointer_done (mem : Mem) (h : n ≤ size.toNat) : (done size mem n).pointer.toNat = n := by
  have hlt := size.toNat_lt
  exact UInt64.toNat_ofNat_of_lt' (Nat.lt_of_le_of_lt h hlt)

theorem left_done (mem : Mem) (h : n ≤ size.toNat) :
    (done size mem n).left.toNat = size.toNat - n := by
  have hn : (UInt64.ofNat n).toNat = n := pointer_done mem h
  rw [done, UInt64.toNat_sub_of_le _ _ (by rwa [UInt64.le_iff_toNat_le, hn]), hn]

theorem left_done_pos (mem : Mem) (h : n < size.toNat) : 0 < (done size mem n).left := by
  rw [UInt64.lt_iff_toNat_lt, left_done mem (Nat.le_of_lt h), UInt64.toNat_zero]
  omega

theorem left_done_self : (done size mem size.toNat).left = 0 := by
  rw [done, UInt64.ofNat_toNat, UInt64.sub_self]

/-- What was stored before and what is stored now are adjacent. -/
theorem store_done {d bs : List UInt8} (h : d.length + bs.length ≤ size.toNat) :
    (done size (mem.write 0 d) d.length).store bs =
      done size (mem.write 0 (d ++ bs)) (d ++ bs).length := by
  have hlt := size.toNat_lt
  have hstored : (mem.write 0 d).write (done size (mem.write 0 d) d.length).pointer bs =
      mem.write 0 (d ++ bs) :=
    mem.write_write (pointer_done _ (by omega)) (by omega)
  rw [store, advance_done, List.length_append, ← hstored]
  rfl

end Transfer

variable {σ β : Type} {host : Host σ} {body : Transfer → Proc σ (Transfer ⊕ β)}
  {result : Transfer → β}

/-- The body ends with nothing left, and stores what a `read` gives. -/
structure Receives (host : Host σ) (body : Transfer → Proc σ (Transfer ⊕ β))
    (result : Transfer → β) : Prop where
  finish : ∀ t s, t.left = 0 → body t s = .ok (.inr (result t)) s
  store : ∀ t s bs s', 0 < t.left → host.read t.pointer t.left s = (.ok bs, s') →
    0 < bs.length → bs.length < 2 ^ 63 →
    body t s = .ok (.inl (t.store bs)) s'

/-- The body ends with nothing left, and goes on behind what a `write` took. -/
structure Sends (host : Host σ) (body : Transfer → Proc σ (Transfer ⊕ β))
    (result : Transfer → β) : Prop where
  finish : ∀ t s, t.left = 0 → body t s = .ok (.inr (result t)) s
  pass : ∀ t s n s', 0 < t.left → host.write t.pointer t.left t.mem s = (.ok n, s') →
    0 < n → n < 2 ^ 63 → body t s = .ok (.inl (t.advance (UInt64.ofNat n))) s'

/-! ## Reading -/

section Reading

variable {env : Environment} {body : Transfer → Proc Conn (Transfer ⊕ β)}

/-- With `d` stored and `e` the rest that the loop can read, it comes to where it
has stored both. -/
theorem Receives.deliver (h : Receives env.host body result) {size : UInt64} (mem : Mem)
    (hsize : size.toNat < 2 ^ 63) {rest : List UInt8} :
    ∀ (fuel : ℕ) (d e : List UInt8) (s : Conn), s.closed = false → s.pending = e ++ rest →
      d.length + e.length ≤ size.toNat → (d.length + e.length = size.toNat ∨ rest = []) →
      e.length ≤ fuel →
      ∃ reads, reads ≤ e.length ∧
        loop body fuel (.done size (mem.write 0 d) d.length) s =
          loop body (fuel - reads) (.done size (mem.write 0 (d ++ e)) (d ++ e).length)
            { s with pending := rest, reads := s.reads + reads }
  | fuel, d, [], s, _, hpending, _, _, _ => by
      refine ⟨0, Nat.le_refl _, ?_⟩
      rw [List.nil_append] at hpending
      rw [List.append_nil, ← hpending]
      rfl
  | 0, d, b :: e, _, _, _, _, _, hfuel => absurd hfuel (Nat.not_succ_le_zero _)
  | fuel + 1, d, b :: e, s, hopen, hpending, hle, hrest, hfuel => by
      have hlt : d.length < size.toNat := by
        rw [List.length_cons] at hle
        omega
      have hleft := Transfer.left_done (mem.write 0 d) (Nat.le_of_lt hlt)
      obtain ⟨bs, later, he, hbs, hread⟩ := Conn.read_some env hopen hpending
        (List.cons_ne_nil b e) (by rw [hleft]; omega)
        (hrest.imp_left fun heq => by rw [hleft]; omega)
      have hlen : bs.length + later.length = (b :: e).length := by rw [he, List.length_append]
      have hpos := List.length_pos_iff.mpr hbs
      rw [loop_next (h.store _ s bs _ (Transfer.left_done_pos _ hlt) hread hpos (by omega))]
      obtain ⟨reads, hreads, hrun⟩ := h.deliver mem hsize fuel (d ++ bs) later
        { s with pending := later ++ rest, reads := s.reads + 1 } hopen rfl
        (by rw [List.length_append]; omega)
        (hrest.imp_left fun heq => by rw [List.length_append]; omega) (by omega)
      refine ⟨reads + 1, by omega, ?_⟩
      rw [Transfer.store_done (by omega), hrun, List.append_assoc, ← he, Nat.add_sub_add_right]
      rw [Nat.add_assoc, Nat.add_comm 1 reads]

/-- All of the object is there to be read. -/
theorem Receives.full (h : Receives env.host body result) {size : UInt64} (mem : Mem)
    (hsize : size.toNat < 2 ^ 63) {fuel : ℕ} (hfuel : size.toNat < fuel) {s : Conn}
    (hopen : s.closed = false) {e rest : List UInt8} (hpending : s.pending = e ++ rest)
    (he : e.length = size.toNat) :
    ∃ reads, loop body fuel (.start size mem) s =
      .ok (result (.done size (mem.write 0 e) size.toNat))
        { s with pending := rest, reads := reads } := by
  obtain ⟨reads, hreads, hrun⟩ := h.deliver mem hsize fuel [] e s hopen hpending
    (by rw [List.length_nil]; omega) (.inl (by rw [List.length_nil]; omega)) (by omega)
  obtain ⟨left, hleft⟩ : ∃ left, fuel - reads = left + 1 := ⟨fuel - reads - 1, by omega⟩
  refine ⟨s.reads + reads, ?_⟩
  rw [Mem.write_nil, List.length_nil, Transfer.done_zero] at hrun
  rw [hrun, List.nil_append, he, hleft, loop_result (h.finish _ _ Transfer.left_done_self)]

/-- The end comes before the object is read. -/
theorem Receives.short (h : Receives env.host body result) {size : UInt64} (mem : Mem)
    (hsize : size.toNat < 2 ^ 63) {fuel : ℕ} {s : Conn} (hopen : s.closed = false)
    (hshort : s.pending.length < size.toNat) (hfuel : s.pending.length < fuel) :
    ∃ reads left, loop body fuel (.start size mem) s =
      loop body (left + 1) (.done size (mem.write 0 s.pending) s.pending.length)
        { s with pending := [], reads := reads } := by
  obtain ⟨reads, hreads, hrun⟩ := h.deliver mem hsize fuel [] s.pending s hopen
    (List.append_nil _).symm (by rw [List.length_nil]; omega) (.inr rfl) (by omega)
  refine ⟨s.reads + reads, fuel - reads - 1, ?_⟩
  rw [Mem.write_nil, List.length_nil, Transfer.done_zero] at hrun
  rw [hrun, List.nil_append, show fuel - reads - 1 + 1 = fuel - reads by omega]

end Reading

/-! ## Writing -/

section Writing

variable {env : Environment} {body : Transfer → Proc Conn (Transfer ⊕ β)}

/-- With `n` bytes written, the loop comes to where it has written all. -/
theorem Sends.deliver (h : Sends env.host body result) {size : UInt64} (mem : Mem)
    (hsize : size.toNat < 2 ^ 63) :
    ∀ (fuel n : ℕ) (s : Conn), s.closed = false → n ≤ size.toNat → size.toNat - n ≤ fuel →
      ∃ writes, writes ≤ size.toNat - n ∧
        loop body fuel (.done size mem n) s =
          loop body (fuel - writes) (.done size mem size.toNat)
            { s with
              sent := s.sent ++ mem.read (UInt64.ofNat n) (size.toNat - n)
              writes := s.writes + writes }
  | fuel, n, s, hopen, hn, hfuel => by
      rcases Nat.eq_or_lt_of_le hn with heq | hlt
      · refine ⟨0, Nat.zero_le _, ?_⟩
        rw [heq, Nat.sub_self, Mem.read_zero, List.append_nil]
        rfl
      · obtain ⟨fuel, rfl⟩ : ∃ f, fuel = f + 1 := ⟨fuel - 1, by omega⟩
        have hleft := Transfer.left_done mem (Nat.le_of_lt hlt)
        have hpos := Transfer.left_done_pos mem hlt
        obtain ⟨count, hcount, hle, hwrite⟩ := Conn.write_some env
          (Transfer.done size mem n).pointer mem hopen (by rw [hleft]; omega)
        rw [loop_next (h.pass _ s count _ hpos hwrite hcount (by omega)), Transfer.advance_done]
        obtain ⟨writes, hwrites, hrun⟩ := h.deliver mem hsize fuel (n + count)
          { s with
            sent := s.sent ++ mem.read (Transfer.done size mem n).pointer count
            writes := s.writes + 1 } hopen (by omega) (by omega)
        refine ⟨writes + 1, by omega, ?_⟩
        have hread : mem.read (UInt64.ofNat n) count ++
            mem.read (UInt64.ofNat (n + count)) (size.toNat - (n + count)) =
              mem.read (UInt64.ofNat n) (size.toNat - n) := by
          rw [Mem.read_append]
          congr 1
          omega
        rw [hrun, Nat.add_sub_add_right]
        rw [List.append_assoc, show (Transfer.done size mem n).pointer = UInt64.ofNat n from rfl,
          hread, Nat.add_assoc, Nat.add_comm 1 writes]

/-- A connection that takes bytes takes all of the object. -/
theorem Sends.full (h : Sends env.host body result) {size : UInt64} (mem : Mem)
    (hsize : size.toNat < 2 ^ 63) {fuel : ℕ} (hfuel : size.toNat < fuel) {s : Conn}
    (hopen : s.closed = false) :
    ∃ writes, loop body fuel (.start size mem) s =
      .ok (result (.done size mem size.toNat))
        { s with sent := s.sent ++ mem.read 0 size.toNat, writes := writes } := by
  obtain ⟨writes, hwrites, hrun⟩ := h.deliver mem hsize fuel 0 s hopen
    (Nat.zero_le _) (by omega)
  obtain ⟨left, hleft⟩ : ∃ left, fuel - writes = left + 1 := ⟨fuel - writes - 1, by omega⟩
  refine ⟨s.writes + writes, ?_⟩
  rw [Transfer.done_zero] at hrun
  rw [hrun, hleft, loop_result (h.finish _ _ Transfer.left_done_self)]
  rfl

end Writing

end Rso
