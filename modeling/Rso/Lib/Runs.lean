import Mathlib.Data.List.Basic

/-!
# Runs of a deterministic machine

A machine is a function `step` from a state and a call to the next state and an
answer.  A run makes a list of calls one after the other.

Three rules carry what one step preserves to a whole run: `run_invariant` for a
predicate of the state, `along_invariant` for one that is preserved under a
condition, and `run_simulates` for a relation between two machines that make the
same calls.  `Along step P s is` says that each call of `is` meets `P` in the
state in which it is made, and the last two rules ask only for the steps that do.
`exists_first_failure` is the other side: a run that is not `Along` has a first
call that misses `P`.
-/

namespace Rso.Runs

variable {σ τ ι ο ο' : Type}

/-! ## Runs and their answers -/

/-- The state after a list of calls. -/
def run (step : σ → ι → σ × ο) (s : σ) : List ι → σ
  | [] => s
  | i :: is => run step (step s i).1 is

/-- The answers to a list of calls, in order. -/
def answers (step : σ → ι → σ × ο) (s : σ) : List ι → List ο
  | [] => []
  | i :: is => (step s i).2 :: answers step (step s i).1 is

@[simp] theorem run_nil (step : σ → ι → σ × ο) (s : σ) : run step s [] = s := rfl

@[simp] theorem run_cons (step : σ → ι → σ × ο) (s : σ) (i : ι) (is : List ι) :
    run step s (i :: is) = run step (step s i).1 is := rfl

@[simp] theorem answers_nil (step : σ → ι → σ × ο) (s : σ) : answers step s [] = [] := rfl

@[simp] theorem answers_cons (step : σ → ι → σ × ο) (s : σ) (i : ι) (is : List ι) :
    answers step s (i :: is) = (step s i).2 :: answers step (step s i).1 is := rfl

theorem run_append (step : σ → ι → σ × ο) :
    ∀ (s : σ) (is js : List ι), run step s (is ++ js) = run step (run step s is) js := by
  intro s is js
  induction is generalizing s with
  | nil => rfl
  | cons i is ih => exact ih (step s i).1

theorem answers_append (step : σ → ι → σ × ο) :
    ∀ (s : σ) (is js : List ι),
      answers step s (is ++ js) = answers step s is ++ answers step (run step s is) js := by
  intro s is js
  induction is generalizing s with
  | nil => rfl
  | cons i is ih =>
      rw [List.cons_append, answers_cons, answers_cons, run_cons, List.cons_append, ih]

@[simp] theorem answers_length (step : σ → ι → σ × ο) :
    ∀ (s : σ) (is : List ι), (answers step s is).length = is.length
  | _, [] => rfl
  | s, i :: is => congrArg (· + 1) (answers_length step (step s i).1 is)

/-! ## Conditions on the calls of a run -/

/-- Each call meets `P` in the state in which it is made. -/
def Along (step : σ → ι → σ × ο) (P : σ → ι → Prop) (s : σ) : List ι → Prop
  | [] => True
  | i :: is => P s i ∧ Along step P (step s i).1 is

instance decidableAlong (step : σ → ι → σ × ο) (P : σ → ι → Prop) [∀ s i, Decidable (P s i)] :
    ∀ (s : σ) (is : List ι), Decidable (Along step P s is)
  | _, [] => inferInstanceAs (Decidable True)
  | s, i :: is =>
      have := decidableAlong step P (step s i).1 is
      inferInstanceAs (Decidable (P s i ∧ Along step P (step s i).1 is))

theorem along_append (step : σ → ι → σ × ο) (P : σ → ι → Prop) :
    ∀ (s : σ) (is js : List ι),
      Along step P s (is ++ js) ↔ Along step P s is ∧ Along step P (run step s is) js := by
  intro s is js
  induction is generalizing s with
  | nil => simp [Along]
  | cons i is ih => rw [List.cons_append, Along, Along, run_cons, ih, and_assoc]

/-- A run that is not `Along` has a first call that misses the condition. -/
theorem exists_first_failure (step : σ → ι → σ × ο) (P : σ → ι → Prop) :
    ∀ (s : σ) (is : List ι), ¬ Along step P s is →
      ∃ before i after, is = before ++ i :: after ∧ Along step P s before ∧
        ¬ P (run step s before) i := by
  intro s is
  induction is generalizing s with
  | nil =>
      intro h
      exact absurd trivial h
  | cons i is ih =>
      intro h
      by_cases hi : P s i
      · have hrest : ¬ Along step P (step s i).1 is := fun hr => h ⟨hi, hr⟩
        obtain ⟨before, j, after, he, hb, hj⟩ := ih (step s i).1 hrest
        exact ⟨i :: before, j, after, by rw [he]; rfl, ⟨hi, hb⟩, hj⟩
      · exact ⟨[], i, is, rfl, trivial, hi⟩

/-! ## What a step preserves, a run preserves -/

/-- A predicate that the calls of the list preserve holds after the run. -/
theorem run_invariant {step : σ → ι → σ × ο} {I : σ → Prop} :
    ∀ (is : List ι) {s : σ}, (∀ s, ∀ i ∈ is, I s → I (step s i).1) → I s → I (run step s is) := by
  intro is
  induction is with
  | nil =>
      intro _ _ h
      exact h
  | cons i is ih =>
      intro s hstep h
      refine ih ?_ (hstep s i (List.mem_cons_self ..) h)
      intro s j hj
      exact hstep s j (List.mem_cons_of_mem _ hj)

/-- What the calls that meet `P` preserve and answer, in a run whose calls all
meet `P`. -/
theorem along_invariant {step : σ → ι → σ × ο} {P : σ → ι → Prop} {I : σ → Prop} {A : ο → Prop}
    (hstep : ∀ s i, I s → P s i → I (step s i).1 ∧ A (step s i).2) :
    ∀ (is : List ι) {s : σ}, I s → Along step P s is →
      I (run step s is) ∧ ∀ a ∈ answers step s is, A a := by
  intro is
  induction is with
  | nil =>
      intro _ h _
      exact ⟨h, fun _ ha => by cases ha⟩
  | cons i is ih =>
      intro s h hP
      obtain ⟨hnext, ha⟩ := hstep s i h hP.1
      obtain ⟨hend, has⟩ := ih hnext hP.2
      exact ⟨hend, List.forall_mem_cons.mpr ⟨ha, has⟩⟩

/-- The machine of `step` simulates that of `step'`: a relation that every step
meeting `P` preserves still holds after a run whose calls all meet `P`. -/
theorem run_simulates {step : σ → ι → σ × ο} {step' : τ → ι → τ × ο'} {R : σ → τ → Prop}
    {P : τ → ι → Prop} (hstep : ∀ s t i, R s t → P t i → R (step s i).1 (step' t i).1) :
    ∀ (is : List ι) {s : σ} {t : τ}, R s t → Along step' P t is →
      R (run step s is) (run step' t is) := by
  intro is
  induction is with
  | nil =>
      intro _ _ h _
      exact h
  | cons i is ih =>
      intro s t h hP
      exact ih (hstep s t i h hP.1) hP.2

end Rso.Runs
