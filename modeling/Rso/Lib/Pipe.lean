import Rso.Lib.Framing

/-!
# Pipes

One direction of a connection has room for so many bytes.  A `write` that finds
room for some of its bytes takes these; a `read` that finds some bytes gives
these; in between each of them blocks.  `Pipe` keeps all that was ever written,
and how many bytes of it have been read, so what a party has seen of a stream is
a part of the state.

A reader takes a frame off the pipe in several reads, and asks for no more bytes
than the frame has.  `Reader` is what that means for the numbers it asks for, and
`Taken` is where in a stream of frames it stands.
-/

namespace Rso

/-- One direction of a connection. -/
structure Pipe (capacity : ℕ) where
  /-- All bytes that were ever written. -/
  written : List UInt8
  /-- How many of them have been read. -/
  taken : ℕ
  taken_le : taken ≤ written.length
  bounded : written.length ≤ taken + capacity
deriving DecidableEq

namespace Pipe

variable {capacity : ℕ}

def empty : Pipe capacity := ⟨[], 0, Nat.le_refl _, Nat.zero_le _⟩

/-- The bytes that have been read. -/
def read (p : Pipe capacity) : List UInt8 := p.written.take p.taken

/-- The bytes on their way. -/
def inside (p : Pipe capacity) : List UInt8 := p.written.drop p.taken

@[simp] theorem read_append_inside (p : Pipe capacity) : p.read ++ p.inside = p.written :=
  List.take_append_drop ..

theorem inside_length (p : Pipe capacity) : p.inside.length = p.written.length - p.taken :=
  List.length_drop ..

/-- A `write` that takes the first `n` of the bytes. -/
def put (p : Pipe capacity) (n : ℕ) (bs : List UInt8) : Option (Pipe capacity) :=
  if h : 0 < n ∧ n ≤ bs.length ∧ p.written.length + n ≤ p.taken + capacity then
    some {
      written := p.written ++ bs.take n
      taken := p.taken
      taken_le := by
        have := p.taken_le
        rw [List.length_append]
        omega
      bounded := by
        rw [List.length_append, List.length_take_of_le h.2.1]
        exact h.2.2 }
  else none

/-- A `read` that gives `n` of the `most` bytes it is asked for. -/
def get (p : Pipe capacity) (n most : ℕ) : Option (Pipe capacity) :=
  if h : 0 < n ∧ n ≤ most ∧ p.taken + n ≤ p.written.length then
    some {
      written := p.written
      taken := p.taken + n
      taken_le := h.2.2
      bounded := by
        have := p.bounded
        omega }
  else none

section Calls

variable {p q : Pipe capacity} {n most : ℕ} {bs : List UInt8}

theorem put_eq_some (h : p.put n bs = some q) :
    0 < n ∧ n ≤ bs.length ∧ q.written = p.written ++ bs.take n ∧ q.taken = p.taken := by
  rw [put] at h
  split at h
  next hn =>
    cases h
    exact ⟨hn.1, hn.2.1, rfl, rfl⟩
  next => cases h

theorem get_eq_some (h : p.get n most = some q) :
    0 < n ∧ n ≤ most ∧ n ≤ p.inside.length ∧ q.written = p.written ∧ q.taken = p.taken + n := by
  rw [get] at h
  split at h
  next hn =>
    cases h
    refine ⟨hn.1, hn.2.1, ?_, rfl, rfl⟩
    rw [inside_length]
    omega
  next => cases h

/-- What was read does not change when more is written. -/
theorem put_read (h : p.put n bs = some q) : q.read = p.read := by
  obtain ⟨-, -, hwritten, htaken⟩ := put_eq_some h
  rw [read, hwritten, htaken, List.take_append_of_le_length p.taken_le]
  rfl

theorem get_read (h : p.get n most = some q) : q.read = p.read ++ p.inside.take n := by
  obtain ⟨-, -, -, hwritten, htaken⟩ := get_eq_some h
  rw [read, hwritten, htaken, List.take_add]
  rfl

/-- A pipe with room takes a byte. -/
theorem exists_put (hcapacity : 0 < capacity) (hempty : p.inside = []) (hbs : bs ≠ []) :
    ∃ q, p.put 1 bs = some q := by
  have hlen := List.length_pos_iff.mpr hbs
  have hnone := List.length_eq_zero_iff.mpr hempty
  rw [inside_length] at hnone
  rw [put, dif_pos ⟨Nat.one_pos, hlen, by omega⟩]
  exact ⟨_, rfl⟩

/-- A pipe with bytes gives a byte. -/
theorem exists_get (hsome : p.inside ≠ []) (hmost : 0 < most) : ∃ q, p.get 1 most = some q := by
  have hlen := List.length_pos_iff.mpr hsome
  rw [inside_length] at hlen
  rw [get, dif_pos ⟨Nat.one_pos, hmost, by omega⟩]
  exact ⟨_, rfl⟩

end Calls

end Pipe

/-! ## Readers of frames -/

namespace Grammar

variable {α : Type}

/-- With `got` of a frame, this many bytes are asked for.  There are so many in the
frame, and none are asked for only at its end. -/
structure Reader (g : Grammar α) (missing : List UInt8 → ℕ) : Prop where
  le : ∀ a got more, got ++ more = g.encode a → missing got ≤ more.length
  done : ∀ a got more, got ++ more = g.encode a → missing got = 0 → more = []

/-- The bytes of the next frame that have been read. -/
def Within (g : Grammar α) (got : List UInt8) : List α → Prop
  | [] => got = []
  | a :: _ => ∃ more, got ++ more = g.encode a

/-- Of the frames `as` the first have been read, and `got` of the next. -/
structure Taken (g : Grammar α) (as : List α) (read : List UInt8) (first later : List α)
    (got : List UInt8) : Prop where
  all : as = first ++ later
  read_eq : read = g.stream first ++ got
  within : g.Within got later

variable {g : Grammar α} {as first later : List α} {read got future : List UInt8}

/-- A stream that begins with frames is one of these and further frames. -/
theorem prefix_of_stream {as bs : List α} {rest : List UInt8}
    (h : g.stream bs = g.stream as ++ rest) : as <+: bs := by
  have hframes : g.frames (g.stream bs) = (bs, []) :=
    frames_eq_iff.mpr ⟨(List.append_nil _).symm, decode_nil⟩
  have hprefix := prefix_frames h
  rwa [hframes] at hprefix

theorem within_nil (as : List α) : g.Within [] as := by
  cases as with
  | nil => exact rfl
  | cons a as => exact ⟨g.encode a, rfl⟩

theorem Taken.start (g : Grammar α) (as : List α) : g.Taken as [] [] as [] :=
  ⟨rfl, rfl, within_nil as⟩

/-- What is still to be read of the stream. -/
theorem Taken.later_eq (h : g.Taken as read first later got)
    (hstream : read ++ future = g.stream as) : got ++ future = g.stream later := by
  rw [h.read_eq, h.all, stream_append, List.append_assoc] at hstream
  exact List.append_cancel_left hstream

/-- A reader that is not at the end of a frame stays in it. -/
theorem Taken.step {missing : List UInt8 → ℕ} (hreader : g.Reader missing)
    (h : g.Taken as read first later got) (hstream : read ++ future = g.stream as) {n : ℕ}
    (hn : n ≤ missing got) (hfuture : n ≤ future.length) (hpos : 0 < n) :
    g.Taken as (read ++ future.take n) first later (got ++ future.take n) := by
  have hlater := h.later_eq hstream
  refine ⟨h.all, by rw [h.read_eq, List.append_assoc], ?_⟩
  obtain ⟨hall, hread, hwithin⟩ := h
  cases later with
  | nil =>
      have hnil : future = [] := by
        rw [stream_nil, List.append_eq_nil_iff] at hlater
        exact hlater.2
      rw [hnil, List.length_nil] at hfuture
      omega
  | cons a rest =>
      obtain ⟨more, hmore⟩ := hwithin
      have hle := hreader.le a got more hmore
      rw [stream_cons, ← hmore, List.append_assoc] at hlater
      have hcut : future.take n = more.take n := by
        rw [List.append_cancel_left hlater, List.take_append_of_le_length (by omega)]
      exact ⟨more.drop n, by rw [hcut, List.append_assoc, List.take_append_drop, hmore]⟩

/-- A reader at the end of a frame has read it. -/
theorem Taken.whole {missing : List UInt8 → ℕ} (hreader : g.Reader missing)
    (h : g.Taken as read first later got) (hgot : got ≠ []) (hdone : missing got = 0) :
    ∃ a rest, later = a :: rest ∧ got = g.encode a := by
  have hwithin := h.within
  cases later with
  | nil => exact absurd hwithin hgot
  | cons a rest =>
      obtain ⟨more, hmore⟩ := hwithin
      have hnil := hreader.done a got more hmore hdone
      rw [hnil, List.append_nil] at hmore
      exact ⟨a, rest, rfl, hmore⟩

/-- It goes on with the next frame. -/
theorem Taken.next {a : α} {rest : List α} (h : g.Taken as read first (a :: rest) (g.encode a)) :
    g.Taken as read (first ++ [a]) rest [] := by
  refine ⟨by rw [h.all, List.append_assoc]; rfl, ?_, within_nil rest⟩
  rw [h.read_eq, stream_append, stream_cons, stream_nil, List.append_nil, List.append_nil]

/-- In the middle of a frame no frame begins. -/
theorem Taken.decode_eq_none {missing : List UInt8 → ℕ} (hreader : g.Reader missing)
    (h : g.Taken as read first later got) (hmissing : missing got ≠ 0) : g.decode got = none := by
  have hwithin := h.within
  cases later with
  | nil =>
      have hnil : got = [] := hwithin
      rw [hnil, decode_nil]
  | cons a rest =>
      obtain ⟨more, hmore⟩ := hwithin
      have hle := hreader.le a got more hmore
      rcases hdecode : g.decode got with _ | ⟨b, tail⟩
      · rfl
      · have hgot := (g.decode_eq_some_iff _ _ _).mp hdecode
        have hwhole : g.decode (g.encode a) = some (b, tail ++ more) := by
          rw [← hmore, hgot, List.append_assoc, decode_encode]
        have hself := decode_encode (g := g) a []
        rw [List.append_nil, hwhole] at hself
        have hnil : tail ++ more = [] := congrArg Prod.snd (Option.some.inj hself)
        rw [(List.append_eq_nil_iff.mp hnil).2] at hle
        exact absurd (Nat.le_zero.mp hle) hmissing

/-- A reader that has read these frames and asks for more stands behind them. -/
theorem Taken.eq_first {missing : List UInt8 → ℕ} (hreader : g.Reader missing)
    (h : g.Taken as read first later got) (hmissing : missing got ≠ 0) {bs : List α}
    (hread : read = g.stream bs) : first = bs ∧ got = [] := by
  have hfirst : g.frames read = (first, got) :=
    frames_eq_iff.mpr ⟨h.read_eq, h.decode_eq_none hreader hmissing⟩
  have hbs : g.frames read = (bs, []) :=
    frames_eq_iff.mpr ⟨by rw [hread, List.append_nil], decode_nil⟩
  rw [hfirst] at hbs
  exact ⟨congrArg Prod.fst hbs, congrArg Prod.snd hbs⟩

end Grammar

end Rso
