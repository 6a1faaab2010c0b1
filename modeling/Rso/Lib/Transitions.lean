import Mathlib.Data.Nat.Notation

/-!
# Schedules

Several parties take steps in any order.  `step s i` is the state after the
action `i`, or `none` when the action cannot be taken in `s`.  A schedule is a
list of actions, and `run` follows it as long as each of its actions can be taken.

Three rules: `run_invariant` for what every step preserves,
`length_le_of_progress` for a rank that every step raises and an invariant
bounds, and `exists_stuck`, which says that with such a rank every schedule can
be followed on until nothing can be done.
-/

namespace Rso.Transitions

variable {σ ι : Type}

/-- The state after a schedule. -/
def run (step : σ → ι → Option σ) : σ → List ι → Option σ
  | s, [] => some s
  | s, i :: is => (step s i).bind fun s' => run step s' is

/-- No action can be taken. -/
def Stuck (step : σ → ι → Option σ) (s : σ) : Prop := ∀ i, step s i = none

variable {step : σ → ι → Option σ}

theorem run_cons {s s' : σ} {i : ι} {is : List ι} :
    run step s (i :: is) = some s' ↔ ∃ t, step s i = some t ∧ run step t is = some s' :=
  Option.bind_eq_some_iff

/-- A schedule of a system that can do less. -/
theorem run_mono {step' : σ → ι → Option σ}
    (hstep : ∀ s i s', step' s i = some s' → step s i = some s') :
    ∀ {s s' : σ} {is : List ι}, run step' s is = some s' → run step s is = some s' := by
  intro s s' is
  induction is generalizing s with
  | nil =>
      intro hrun
      exact hrun
  | cons i is ih =>
      intro hrun
      obtain ⟨t, hi, hrest⟩ := run_cons.mp hrun
      exact run_cons.mpr ⟨t, hstep s i t hi, ih hrest⟩

/-- What every step preserves holds at the end of every schedule. -/
theorem run_invariant {I : σ → Prop} (hstep : ∀ s i s', I s → step s i = some s' → I s') :
    ∀ {s s' : σ} {is : List ι}, I s → run step s is = some s' → I s' := by
  intro s s' is
  induction is generalizing s with
  | nil =>
      intro h hrun
      cases hrun
      exact h
  | cons i is ih =>
      intro h hrun
      obtain ⟨t, hi, hrest⟩ := run_cons.mp hrun
      exact ih (hstep s i t h hi) hrest

section Progress

variable {I : σ → Prop} {rank : σ → ℕ} {bound : ℕ}

/-- Each step of a schedule raises the rank. -/
theorem rank_run (hstep : ∀ s i s', I s → step s i = some s' → I s')
    (hrank : ∀ s i s', I s → step s i = some s' → rank s < rank s') :
    ∀ {s s' : σ} {is : List ι}, I s → run step s is = some s' →
      rank s + is.length ≤ rank s' := by
  intro s s' is
  induction is generalizing s with
  | nil =>
      intro _ hrun
      cases hrun
      exact Nat.le_refl _
  | cons i is ih =>
      intro h hrun
      obtain ⟨t, hi, hrest⟩ := run_cons.mp hrun
      have hlt := hrank s i t h hi
      have hle := ih (hstep s i t h hi) hrest
      rw [List.length_cons]
      omega

/-- A schedule has no more steps than the rank can rise. -/
theorem length_le_of_progress (hstep : ∀ s i s', I s → step s i = some s' → I s')
    (hrank : ∀ s i s', I s → step s i = some s' → rank s < rank s')
    (hbound : ∀ s, I s → rank s ≤ bound) {s s' : σ} {is : List ι} (h : I s)
    (hrun : run step s is = some s') : is.length ≤ bound := by
  have hle := rank_run hstep hrank h hrun
  have hend := hbound s' (run_invariant hstep h hrun)
  omega

/-- From every state of the invariant some schedule leads to one where nothing can
be done, by induction on how far the rank can still rise. -/
theorem exists_stuck (hstep : ∀ s i s', I s → step s i = some s' → I s')
    (hrank : ∀ s i s', I s → step s i = some s' → rank s < rank s')
    (hbound : ∀ s, I s → rank s ≤ bound) {s : σ} (h : I s) :
    ∃ is s', run step s is = some s' ∧ Stuck step s' := by
  generalize hleft : bound - rank s = left
  induction left using Nat.strongRecOn generalizing s with
  | ind left ih =>
      by_cases hstuck : Stuck step s
      · exact ⟨[], s, rfl, hstuck⟩
      · obtain ⟨i, hi⟩ := Classical.not_forall.mp hstuck
        obtain ⟨t, ht⟩ := Option.ne_none_iff_exists'.mp hi
        have hinv := hstep s i t h ht
        have hlt := hrank s i t h ht
        have hle := hbound t hinv
        obtain ⟨is, s', hrun, hend⟩ := ih (bound - rank t) (by omega) hinv rfl
        exact ⟨i :: is, s', run_cons.mpr ⟨t, ht, hrun⟩, hend⟩

end Progress

end Rso.Transitions
