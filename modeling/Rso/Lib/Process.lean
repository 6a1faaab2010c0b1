import Mathlib.Data.Nat.Notation

/-!
# Processes

A process runs on a state of its environment and returns a value or halts.  It
halts when it calls `exit`, when its outermost loop ends (`Halt.finished`), or
when a loop of it has used up the passes that a run follows (`Halt.running`):
such a process is still in the loop.  A halted process keeps the state it halted
in, since what it did before stays done.

Two loops occur.  `loop` is a loop inside a function, whose passes hand a value
on and which ends with a result.  `forever` is a loop whose passes each report
something and which ends only with the process.
-/

namespace Rso

/-- Why a process does not go on. -/
inductive Halt where
  | exit (status : Nat) (message : String)
  | finished
  | running
deriving DecidableEq, Repr

abbrev Proc (σ α : Type) : Type := EStateM Halt σ α

namespace Proc

variable {σ α β : Type}

/-- A call to the environment. -/
def call (f : σ → α × σ) : Proc σ α := fun s => .ok (f s).1 (f s).2

/-- The end of the process, with the message it leaves. -/
def exit (status : Nat) (message : String) : Proc σ α := throw (.exit status message)

theorem call_eq {f : σ → α × σ} {s s' : σ} {a : α} (h : f s = (a, s')) :
    call f s = .ok a s' := by
  rw [call, h]

theorem exit_eq (status : Nat) (message : String) (s : σ) :
    exit status message s = .error (α := α) (.exit status message) s := rfl

theorem bind_ok {x : Proc σ α} {f : α → Proc σ β} {s s' : σ} {a : α} (h : x s = .ok a s') :
    (x >>= f) s = f a s' := by
  show EStateM.bind x f s = _
  rw [EStateM.bind, h]

theorem bind_error {x : Proc σ α} {f : α → Proc σ β} {s s' : σ} {e : Halt}
    (h : x s = .error e s') : (x >>= f) s = .error e s' := by
  show EStateM.bind x f s = _
  rw [EStateM.bind, h]

/-! ## A loop with a result -/

/-- Passes until one gives a result, as far as the run follows them. -/
def loop (body : α → Proc σ (α ⊕ β)) : ℕ → α → Proc σ β
  | 0, _ => throw .running
  | fuel + 1, a => do
      match ← body a with
      | .inl next => loop body fuel next
      | .inr result => pure result

section Loop

variable {body : α → Proc σ (α ⊕ β)} {fuel : ℕ} {a : α} {s s' : σ}

theorem loop_next {next : α} (h : body a s = .ok (.inl next) s') :
    loop body (fuel + 1) a s = loop body fuel next s' := by
  rw [loop, bind_ok h]

theorem loop_result {result : β} (h : body a s = .ok (.inr result) s') :
    loop body (fuel + 1) a s = .ok result s' := by
  rw [loop, bind_ok h]
  rfl

theorem loop_halt {e : Halt} (h : body a s = .error e s') :
    loop body (fuel + 1) a s = .error e s' := by
  rw [loop, bind_error h]

end Loop

/-! ## A loop without end -/

/-- What the passes of a loop reported, and how it came to a halt. -/
structure Trace (σ α : Type) where
  reports : List α
  halt : Halt
  state : σ
deriving DecidableEq, Repr

/-- The trace that follows what was reported before. -/
def Trace.after (reports : List α) (t : Trace σ α) : Trace σ α :=
  { t with reports := reports ++ t.reports }

theorem Trace.after_cons (a : α) (reports : List α) (t : Trace σ α) :
    (t.after reports).after [a] = t.after (a :: reports) := rfl

/-- The first passes of a loop; each is told its number. -/
def forever (body : ℕ → Proc σ α) : ℕ → ℕ → σ → Trace σ α
  | 0, _, s => ⟨[], .running, s⟩
  | passes + 1, i, s =>
      match body i s with
      | .ok a s' => (forever body passes (i + 1) s').after [a]
      | .error e s' => ⟨[], e, s'⟩

section Forever

variable {γ : Type} {body : ℕ → Proc σ α}

theorem forever_ok {passes i : ℕ} {s s' : σ} {a : α} (h : body i s = .ok a s') :
    forever body (passes + 1) i s = (forever body passes (i + 1) s').after [a] := by
  rw [forever, h]

theorem forever_error {passes i : ℕ} {s s' : σ} {e : Halt} (h : body i s = .error e s') :
    forever body (passes + 1) i s = ⟨[], e, s'⟩ := by
  rw [forever, h]

/-- A loop that takes one item in each pass, as long as there are items: it
reports them in order and comes to a state with none left. -/
theorem forever_items {I : ℕ → List γ → σ → Prop} {f : γ → α}
    (step : ∀ i x xs s, I i (x :: xs) s → ∃ s', body i s = .ok (f x) s' ∧ I (i + 1) xs s') :
    ∀ (xs : List γ) {i : ℕ} {s : σ}, I i xs s → ∃ s', I (i + xs.length) [] s' ∧
      ∀ passes, forever body (xs.length + passes) i s =
        (forever body passes (i + xs.length) s').after (xs.map f) := by
  intro xs
  induction xs with
  | nil =>
      intro i s h
      refine ⟨s, h, fun passes => ?_⟩
      rw [List.length_nil, Nat.zero_add]
      rfl
  | cons x xs ih =>
      intro i s h
      obtain ⟨s₁, hbody, h₁⟩ := step i x xs s h
      obtain ⟨s₂, h₂, hrun⟩ := ih h₁
      have hi : i + (x :: xs).length = i + 1 + xs.length := by
        rw [List.length_cons]
        omega
      refine ⟨s₂, hi ▸ h₂, fun passes => ?_⟩
      have hpasses : (x :: xs).length + passes = xs.length + passes + 1 := by
        rw [List.length_cons]
        omega
      rw [hpasses, forever_ok hbody, hrun passes, hi, Trace.after_cons, List.map_cons]

end Forever

end Proc

end Rso
