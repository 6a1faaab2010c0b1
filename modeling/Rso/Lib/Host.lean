import Mathlib.Data.List.TakeWhile
import Rso.Lib.Bytes
import Rso.Lib.Memory
import Rso.Lib.Process

/-!
# Hosts and connections

What a program sees of the system it runs on: the byte order, system calls on a
stream socket, new objects with unset bytes.  `Host` has the calls as functions
on a state, so a program is one definition for every behaviour of the system.

`Conn` is the state of one connection, and `Environment` all that the program
has no say in: how many bytes a call moves, what an unset object holds.  The
choices are infinite sequences, and the connection counts how many of each kind
are used up.  A statement for all environments is thus one for every chunking
and all unset memory.
-/

namespace Rso

/-! ## System calls -/

abbrev Errno : Type := ℕ

/-- The call was interrupted before it moved a byte. -/
def eintr : Errno := 4

/-- The descriptor is not open. -/
def ebadf : Errno := 9

/-- A system and the calls a program makes to it. -/
structure Host (σ : Type) where
  order : ByteOrder
  /-- How many passes of a loop a run follows. -/
  fuel : ℕ
  /-- `read`, given the place for the bytes and their largest number. -/
  read : UInt64 → UInt64 → σ → Except Errno (List UInt8) × σ
  /-- `write`, given the place of the bytes, their number and the memory. -/
  write : UInt64 → UInt64 → Mem → σ → Except Errno ℕ × σ
  close : σ → Unit × σ
  /-- A new object, its bytes unset. -/
  object : σ → Mem × σ
  malloc : UInt64 → σ → Option Mem × σ
  strerror : Errno → String

/-- The count that a call returns, as a `ssize_t`. -/
def ssize : Except Errno ℕ → Int64
  | .error _ => -1
  | .ok n => Int64.ofNat n

@[simp] theorem ssize_toUInt64 (n : ℕ) : (ssize (.ok n)).toUInt64 = UInt64.ofNat n :=
  Int64.toUInt64_ofNat'

/-- As a `ssize_t` the count of moved bytes is positive. -/
theorem ssize_pos {n : ℕ} (hpos : 0 < n) (hlt : n < 2 ^ 63) : ¬ ssize (.ok n) ≤ 0 := by
  intro hle
  have hle' : Int64.ofNat n ≤ Int64.ofNat 0 := hle
  rw [Int64.ofNat_le_iff_le hlt (by decide)] at hle'
  omega

/-- As a `size_t` it is, too. -/
theorem size_pos {n : ℕ} (hpos : 0 < n) (hlt : n < 2 ^ 63) : ¬ UInt64.ofNat n ≤ 0 := by
  intro hle
  rw [UInt64.le_iff_toNat_le, UInt64.toNat_ofNat_of_lt' (by rw [UInt64.size]; omega)] at hle
  exact absurd hle (by rw [UInt64.toNat_zero]; omega)

/-- `errno` after a call; one that succeeds does not set it. -/
def errno {α : Type} : Except Errno α → Errno
  | .error e => e
  | .ok _ => 0

/-- Memory after a `read` to the given place. -/
def Mem.received (m : Mem) (a : UInt64) : Except Errno (List UInt8) → Mem
  | .error _ => m
  | .ok bs => m.write a bs

/-! ## Strings of C -/

/-- The bytes of an object before its first NUL byte. -/
def cString (bs : List UInt8) : List UInt8 := bs.takeWhile (· ≠ 0)

/-- A text of at most `n` bytes, none of them NUL. -/
structure CString (n : ℕ) where
  bytes : List UInt8
  noNul : 0 ∉ bytes
  length_le : bytes.length ≤ n

/-- What follows a NUL byte is not part of the string. -/
theorem cString_append_nul (after : List UInt8) :
    ∀ bs : List UInt8, cString (bs ++ 0 :: after) = cString bs := by
  intro bs
  induction bs with
  | nil =>
      rw [List.nil_append, cString, List.takeWhile_cons_of_neg (by simp)]
      rfl
  | cons b bs ih =>
      rw [cString] at ih ⊢
      rw [List.cons_append, List.takeWhile_cons, ih, cString, cString, List.takeWhile_cons]

theorem cString_eq_self_iff {bs : List UInt8} : cString bs = bs ↔ 0 ∉ bs := by
  rw [cString, List.takeWhile_eq_self_iff]
  constructor
  · intro h hzero
    simpa using h 0 hzero
  · intro h b hb
    simpa using fun hzero : b = 0 => h (hzero ▸ hb)

/-! ## One connection -/

/-- The state of a connection, seen from one end. -/
structure Conn where
  /-- What the peer sent and the program has not read. -/
  pending : List UInt8
  /-- The error after these bytes, or end of file. -/
  ending : Option {e : Errno // e ≠ eintr}
  /-- What the program has written. -/
  sent : List UInt8
  closed : Bool
  /-- How many calls have moved bytes. -/
  reads : ℕ
  writes : ℕ
  /-- How many unset objects the program has had. -/
  draws : ℕ

/-- A new connection to a peer that sends these bytes before the end. -/
def Conn.start (pending : List UInt8) (ending : Option {e : Errno // e ≠ eintr}) : Conn :=
  ⟨pending, ending, [], false, 0, 0, 0⟩

/-- What a program has no say in. -/
structure Environment where
  order : ByteOrder
  fuel : ℕ
  /-- One less than the most bytes that a `read` moves, for each call. -/
  readCut : ℕ → ℕ
  writeCut : ℕ → ℕ
  /-- What unset objects hold. -/
  stack : ℕ → Mem
  strerror : Errno → String

/-- A little-endian host whose calls move one byte each and whose unset bytes are
zero. -/
def Environment.bytewise : Environment where
  order := .little
  fuel := 0
  readCut _ := 0
  writeCut _ := 0
  stack _ _ := 0
  strerror _ := ""

/-- The environment with more passes followed, or fewer. -/
def Environment.withFuel (env : Environment) (fuel : ℕ) : Environment := { env with fuel }

namespace Conn

/-- What a `read` gives when nothing more is to come. -/
def ended : Option {e : Errno // e ≠ eintr} → Except Errno (List UInt8)
  | none => .ok []
  | some e => .error e

def read (env : Environment) (length : UInt64) (s : Conn) : Except Errno (List UInt8) × Conn :=
  if s.closed then (.error ebadf, s)
  else if s.pending = [] then (ended s.ending, s)
  else
    let count := min (env.readCut s.reads + 1) length.toNat
    (.ok (s.pending.take count), { s with pending := s.pending.drop count, reads := s.reads + 1 })

def write (env : Environment) (pointer length : UInt64) (mem : Mem) (s : Conn) :
    Except Errno ℕ × Conn :=
  if s.closed then (.error ebadf, s)
  else
    let count := min (env.writeCut s.writes + 1) length.toNat
    (.ok count, { s with sent := s.sent ++ mem.read pointer count, writes := s.writes + 1 })

def object (env : Environment) (s : Conn) : Mem × Conn :=
  (env.stack s.draws, { s with draws := s.draws + 1 })

/-- A `read` takes some of the bytes that are there and asked for. -/
theorem read_some (env : Environment) {length : UInt64} {s : Conn} {e rest : List UInt8}
    (hopen : s.closed = false) (hpending : s.pending = e ++ rest) (he : e ≠ [])
    (hlen : 0 < length.toNat) (hrest : e.length = length.toNat ∨ rest = []) :
    ∃ bs later, e = bs ++ later ∧ bs ≠ [] ∧ read env length s =
      (.ok bs, { s with pending := later ++ rest, reads := s.reads + 1 }) := by
  have hsome : s.pending ≠ [] := by
    rw [hpending]
    exact List.append_ne_nil_of_left_ne_nil he rest
  have hread : read env length s =
      (.ok (s.pending.take (min (env.readCut s.reads + 1) length.toNat)),
        { s with
          pending := s.pending.drop (min (env.readCut s.reads + 1) length.toNat)
          reads := s.reads + 1 }) := by
    rw [read, hopen, if_neg Bool.false_ne_true, if_neg hsome]
  have hcount : 0 < min (env.readCut s.reads + 1) length.toNat := by omega
  have hle : min (env.readCut s.reads + 1) length.toNat ≤ length.toNat := Nat.min_le_right ..
  generalize min (env.readCut s.reads + 1) length.toNat = count at hread hcount hle
  have hcut : count ≤ e.length ∨ rest = [] := by
    rcases hrest with heq | hnil
    · exact .inl (heq ▸ hle)
    · exact .inr hnil
  refine ⟨e.take count, e.drop count, (List.take_append_drop ..).symm, ?_, ?_⟩
  · intro hnil
    rcases List.take_eq_nil_iff.mp hnil with hzero | hnone
    · omega
    · exact he hnone
  · rw [hread, hpending]
    rcases hcut with hin | hnil
    · rw [List.take_append_of_le_length hin, List.drop_append_of_le_length hin]
    · rw [hnil, List.append_nil, List.append_nil]

theorem read_ended (env : Environment) (length : UInt64) {s : Conn} (hopen : s.closed = false)
    (hpending : s.pending = []) : read env length s = (ended s.ending, s) := by
  rw [read, hopen, if_neg Bool.false_ne_true, if_pos hpending]

theorem read_closed (env : Environment) (length : UInt64) {s : Conn} (hclosed : s.closed = true) :
    read env length s = (.error ebadf, s) := by
  rw [read, hclosed, if_pos rfl]

/-- A `write` takes some of the bytes. -/
theorem write_some (env : Environment) (pointer : UInt64) {length : UInt64} (mem : Mem)
    {s : Conn} (hopen : s.closed = false) (hlen : 0 < length.toNat) :
    ∃ count, 0 < count ∧ count ≤ length.toNat ∧ write env pointer length mem s =
      (.ok count,
        { s with sent := s.sent ++ mem.read pointer count, writes := s.writes + 1 }) := by
  refine ⟨min (env.writeCut s.writes + 1) length.toNat, by omega, Nat.min_le_right .., ?_⟩
  rw [write, hopen, if_neg Bool.false_ne_true]

end Conn

/-- The system with one connection and memory that does not run out: what a program does
after a failed `malloc` is never done on it. -/
def Environment.host (env : Environment) : Host Conn where
  order := env.order
  fuel := env.fuel
  read _ := Conn.read env
  write := Conn.write env
  close s := ((), { s with closed := true })
  object := Conn.object env
  malloc _ s := ((some (Conn.object env s).1), (Conn.object env s).2)
  strerror := env.strerror

@[simp] theorem Environment.host_order (env : Environment) : env.host.order = env.order := rfl

@[simp] theorem Environment.host_fuel (env : Environment) : env.host.fuel = env.fuel := rfl

theorem Environment.object_eq (env : Environment) (s : Conn) :
    Proc.call env.host.object s = .ok (env.stack s.draws) { s with draws := s.draws + 1 } := rfl

theorem Environment.malloc_eq (env : Environment) (size : UInt64) (s : Conn) :
    Proc.call (env.host.malloc size) s =
      .ok (some (env.stack s.draws)) { s with draws := s.draws + 1 } := rfl

end Rso
