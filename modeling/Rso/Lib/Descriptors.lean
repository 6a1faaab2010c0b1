import Mathlib.Data.Nat.Notation

/-!
# Descriptor tables

What the descriptors of a process refer to.  A new one is the lowest that is free,
so two tables that refer to the same files give the same number (`lowest_congr`).
-/

namespace Rso

/-- The descriptors from 0 on; `none` stands for one that is free. -/
structure Descriptors (ρ : Type) where
  entries : List (Option ρ)
deriving DecidableEq, Repr

namespace Descriptors

variable {ρ : Type}

/-- What a descriptor refers to. -/
def file (t : Descriptors ρ) (fd : ℕ) : Option ρ := (t.entries[fd]?).join

/-- The lowest free entry. -/
def lowestIn : List (Option ρ) → ℕ
  | [] => 0
  | none :: _ => 0
  | some _ :: rest => lowestIn rest + 1

/-- The descriptor that the next call gives. -/
def lowest (t : Descriptors ρ) : ℕ := lowestIn t.entries

def insertIn (f : ρ) : List (Option ρ) → List (Option ρ)
  | [] => [some f]
  | none :: rest => some f :: rest
  | some g :: rest => some g :: insertIn f rest

/-- A new descriptor for `f`. -/
def insert (t : Descriptors ρ) (f : ρ) : Descriptors ρ := ⟨insertIn f t.entries⟩

def close (t : Descriptors ρ) (fd : ℕ) : Descriptors ρ := ⟨t.entries.set fd none⟩

theorem getElem?_insertIn (f : ρ) :
    ∀ (es : List (Option ρ)) (i : ℕ),
      ((insertIn f es)[i]?).join = if i = lowestIn es then some f else (es[i]?).join := by
  intro es
  induction es with
  | nil =>
      intro i
      cases i with
      | zero => rfl
      | succ i => rfl
  | cons e es ih =>
      intro i
      cases e with
      | none =>
          cases i with
          | zero => rfl
          | succ i => rfl
      | some g =>
          cases i with
          | zero => rfl
          | succ i =>
              rw [insertIn, List.getElem?_cons_succ, ih i, lowestIn, List.getElem?_cons_succ]
              simp only [Nat.add_right_cancel_iff]

theorem file_insert (t : Descriptors ρ) (f : ρ) (fd : ℕ) :
    (t.insert f).file fd = if fd = t.lowest then some f else t.file fd :=
  getElem?_insertIn f t.entries fd

theorem file_close (t : Descriptors ρ) (fd fd' : ℕ) :
    (t.close fd).file fd' = if fd' = fd then none else t.file fd' := by
  rw [close, file, file, List.getElem?_set]
  split
  next heq =>
    rw [if_pos heq.symm]
    split <;> rfl
  next hne => rw [if_neg (Ne.symm hne)]

theorem lowestIn_free :
    ∀ es : List (Option ρ), (es[lowestIn es]?).join = none ∧
      ∀ i < lowestIn es, (es[i]?).join ≠ none := by
  intro es
  induction es with
  | nil => exact ⟨rfl, fun i hi => by cases hi⟩
  | cons e es ih =>
      cases e with
      | none => exact ⟨rfl, fun i hi => by cases hi⟩
      | some g =>
          refine ⟨ih.1, fun i hi => ?_⟩
          cases i with
          | zero => exact Option.some_ne_none g
          | succ i => exact ih.2 i (Nat.lt_of_succ_lt_succ hi)

/-- The lowest free descriptor is free, and none below it is. -/
theorem lowest_free (t : Descriptors ρ) :
    t.file t.lowest = none ∧ ∀ fd < t.lowest, t.file fd ≠ none := lowestIn_free t.entries

/-- It depends on nothing but what the descriptors refer to. -/
theorem lowest_congr {t u : Descriptors ρ} (h : ∀ fd, t.file fd = u.file fd) :
    t.lowest = u.lowest := by
  rcases Nat.lt_trichotomy t.lowest u.lowest with hlt | heq | hgt
  · exact absurd (h t.lowest ▸ t.lowest_free.1) (u.lowest_free.2 _ hlt)
  · exact heq
  · exact absurd (h u.lowest ▸ u.lowest_free.1) (t.lowest_free.2 _ hgt)

end Descriptors

end Rso
