import Mathlib.Data.Nat.Notation
import Rso.Lib.Bytes

/-!
# Frames in a byte stream

A grammar says what one frame is.  Its law has both directions: what is decoded
is what was encoded, and nothing else decodes.  A stream has no marks between
its frames, so where the frames lie follows from the grammar alone:
`frames_eq_iff` says that the frames of a stream and the bytes after them are
the one way to cut it into frames and a rest that starts no frame.
-/

namespace Rso

/-- A format for messages that can be told off the front of a stream. -/
structure Grammar (α : Type) where
  encode : α → List UInt8
  decode : List UInt8 → Option (α × List UInt8)
  encode_ne_nil : ∀ a, encode a ≠ []
  decode_eq_some_iff : ∀ bs a rest, decode bs = some (a, rest) ↔ bs = encode a ++ rest

namespace Grammar

variable {α : Type} (g : Grammar α)

/-- The bytes of a sequence of frames. -/
def stream (as : List α) : List UInt8 := as.flatMap g.encode

@[simp] theorem stream_nil : g.stream [] = [] := rfl

@[simp] theorem stream_cons (a : α) (as : List α) :
    g.stream (a :: as) = g.encode a ++ g.stream as := rfl

@[simp] theorem stream_append (as more : List α) :
    g.stream (as ++ more) = g.stream as ++ g.stream more := List.flatMap_append

/-- The first frames of a stream and the bytes after them. -/
def parse : ℕ → List UInt8 → List α × List UInt8
  | 0, bs => ([], bs)
  | fuel + 1, bs =>
      match g.decode bs with
      | none => ([], bs)
      | some (a, rest) => (a :: (parse fuel rest).1, (parse fuel rest).2)

/-- All frames of a stream and the bytes after them. -/
def frames (bs : List UInt8) : List α × List UInt8 := g.parse bs.length bs

variable {g}

theorem decode_encode (a : α) (rest : List UInt8) :
    g.decode (g.encode a ++ rest) = some (a, rest) :=
  (g.decode_eq_some_iff _ _ _).mpr rfl

theorem encode_length_pos (a : α) : 0 < (g.encode a).length :=
  List.length_pos_iff.mpr (g.encode_ne_nil a)

theorem decode_nil : g.decode [] = none := by
  rcases h : g.decode [] with _ | ⟨a, rest⟩
  · rfl
  · have hnil := (g.decode_eq_some_iff _ _ _).mp h
    exact absurd (List.append_eq_nil_iff.mp hnil.symm).1 (g.encode_ne_nil a)

theorem parse_spec : ∀ (fuel : ℕ) (bs : List UInt8), bs.length ≤ fuel →
    bs = g.stream (g.parse fuel bs).1 ++ (g.parse fuel bs).2 ∧
      g.decode (g.parse fuel bs).2 = none := by
  intro fuel
  induction fuel with
  | zero =>
      intro bs h
      rw [List.eq_nil_of_length_eq_zero (Nat.le_zero.mp h)]
      exact ⟨rfl, decode_nil⟩
  | succ fuel ih =>
      intro bs h
      rw [parse]
      split
      next hnone => exact ⟨rfl, hnone⟩
      next a rest hsome =>
        have hbs := (g.decode_eq_some_iff _ _ _).mp hsome
        have hpos := encode_length_pos (g := g) a
        rw [hbs, List.length_append] at h
        obtain ⟨hcut, hend⟩ := ih rest (by omega)
        refine ⟨?_, hend⟩
        rw [hbs, stream_cons, List.append_assoc, ← hcut]

theorem parse_stream {rest : List UInt8} (h : g.decode rest = none) :
    ∀ (as : List α) (fuel : ℕ), (g.stream as ++ rest).length ≤ fuel →
      g.parse fuel (g.stream as ++ rest) = (as, rest) := by
  intro as
  induction as with
  | nil =>
      intro fuel _
      cases fuel with
      | zero => rfl
      | succ fuel => rw [stream_nil, List.nil_append, parse, h]
  | cons a as ih =>
      intro fuel hfuel
      have hpos := encode_length_pos (g := g) a
      rw [stream_cons, List.append_assoc] at hfuel ⊢
      rw [List.length_append] at hfuel
      cases fuel with
      | zero => omega
      | succ fuel =>
          rw [parse, decode_encode]
          simp only [ih fuel (by omega)]

/-- There is one way to cut a stream into frames and a rest that starts none. -/
theorem frames_eq_iff {bs rest : List UInt8} {as : List α} :
    g.frames bs = (as, rest) ↔ bs = g.stream as ++ rest ∧ g.decode rest = none := by
  constructor
  · intro h
    have hspec := g.parse_spec bs.length bs (Nat.le_refl _)
    rw [frames] at h
    rwa [h] at hspec
  · rintro ⟨rfl, h⟩
    exact parse_stream h as _ (Nat.le_refl _)

theorem frames_spec (bs : List UInt8) :
    bs = g.stream (g.frames bs).1 ++ (g.frames bs).2 ∧ g.decode (g.frames bs).2 = none :=
  frames_eq_iff.mp rfl

/-- The frames of a stream are its longest sequence of frames. -/
theorem prefix_frames {bs rest : List UInt8} {as : List α} (h : bs = g.stream as ++ rest) :
    as <+: (g.frames bs).1 := by
  obtain ⟨hcut, hend⟩ := frames_spec (g := g) rest
  have hbs : g.frames bs = (as ++ (g.frames rest).1, (g.frames rest).2) := by
    rw [frames_eq_iff, stream_append, List.append_assoc, ← hcut]
    exact ⟨h, hend⟩
  rw [hbs]
  exact List.prefix_append ..

/-! ## Words and counted bytes -/

/-- The first `n` bytes and those after them, if there are so many. -/
def split (n : ℕ) (bs : List UInt8) : Option (List UInt8 × List UInt8) :=
  if n ≤ bs.length then some (bs.take n, bs.drop n) else none

theorem split_eq_some_iff {n : ℕ} {bs e rest : List UInt8} :
    split n bs = some (e, rest) ↔ bs = e ++ rest ∧ e.length = n := by
  rw [split]
  constructor
  · intro h
    split at h
    next hn =>
      cases h
      exact ⟨(List.take_append_drop n bs).symm, List.length_take_of_le hn⟩
    next => cases h
  · rintro ⟨rfl, rfl⟩
    rw [if_pos (by rw [List.length_append]; omega), List.take_left, List.drop_left]

theorem split_append {e rest : List UInt8} {n : ℕ} (h : e.length = n) :
    split n (e ++ rest) = some (e, rest) :=
  split_eq_some_iff.mpr ⟨rfl, h⟩

theorem split_eq_none_iff {n : ℕ} {bs : List UInt8} : split n bs = none ↔ bs.length < n := by
  rw [split]
  split
  next h => simpa using h
  next h => simpa using h

/-- A word of four bytes in network order. -/
def u32 : Grammar UInt32 where
  encode := storeU32 .big
  decode bs := (split 4 bs).map fun p => (loadU32 .big p.1, p.2)
  encode_ne_nil w h := by
    have hlen := storeU32_length .big w
    rw [h] at hlen
    cases hlen
  decode_eq_some_iff bs w rest := by
    rw [Option.map_eq_some_iff]
    constructor
    · rintro ⟨⟨e, rest'⟩, hsplit, heq⟩
      obtain ⟨hbs, hlen⟩ := split_eq_some_iff.mp hsplit
      cases heq
      rw [storeU32_loadU32 .big hlen, hbs]
    · rintro rfl
      exact ⟨_, split_append (storeU32_length ..), by rw [loadU32_storeU32]⟩

/-- A word of eight bytes in network order. -/
def u64 : Grammar UInt64 where
  encode := storeU64 .big
  decode bs := (split 8 bs).map fun p => (loadU64 .big p.1, p.2)
  encode_ne_nil w h := by
    have hlen := storeU64_length .big w
    rw [h] at hlen
    cases hlen
  decode_eq_some_iff bs w rest := by
    rw [Option.map_eq_some_iff]
    constructor
    · rintro ⟨⟨e, rest'⟩, hsplit, heq⟩
      obtain ⟨hbs, hlen⟩ := split_eq_some_iff.mp hsplit
      cases heq
      rw [storeU64_loadU64 .big hlen, hbs]
    · rintro rfl
      exact ⟨_, split_append (storeU64_length ..), by rw [loadU64_storeU64]⟩

theorem u32_encode (w : UInt32) : u32.encode w = storeU32 .big w := rfl

theorem u64_encode (w : UInt64) : u64.encode w = storeU64 .big w := rfl

theorem u64_decode_eq_none_iff {bs : List UInt8} : u64.decode bs = none ↔ bs.length < 8 := by
  rw [u64, Option.map_eq_none_iff, split_eq_none_iff]

end Grammar

end Rso
