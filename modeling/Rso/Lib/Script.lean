import Mathlib.Data.List.Basic

/-!
# Programs that call out

A `Script` is a program as its surroundings see it: it makes a call, goes on
with the answer, and ends with a value or an exception.  A call `c` is answered
by a `res c` or by an exception, and either goes to the continuation, so a
script can handle what its calls raise.

A script has two readings.  `run` makes its calls one after the other on a
machine that answers them, with nobody else in between.  `Wp` is for calls whose
answers other parties have a part in.  It keeps a ghost state, of which a
relation says how a call may change it and what may be answered, and it asks
that every call is allowed where it is made and that the end meets a
postcondition.  `run_wp` says that what holds among other parties holds alone.

`interp` makes each call by a script of other calls, and `run_interp` compares
the two runs.
-/

namespace Rso

/-- A program that makes calls `c : ι`, answered by `res c` or an exception. -/
inductive Script {ι : Type} (res : ι → Type) (ε α : Type) where
  | pure (a : α)
  | throw (e : ε)
  | call (c : ι) (k : Except ε (res c) → Script res ε α)

namespace Script

variable {ι : Type} {res : ι → Type} {ε α β σ κ : Type}

/-- Go on with the value of a script. -/
def bind : Script res ε α → (α → Script res ε β) → Script res ε β
  | .pure a, f => f a
  | .throw e, _ => .throw e
  | .call c k, f => .call c fun r => (k r).bind f

/-- Go on with the exception of a script. -/
def tryCatch : Script res ε α → (ε → Script res ε α) → Script res ε α
  | .pure a, _ => .pure a
  | .throw e, h => h e
  | .call c k, h => .call c fun r => (k r).tryCatch h

instance : Monad (Script res ε) where
  pure := .pure
  bind := .bind

instance : MonadExceptOf ε (Script res ε) where
  throw := .throw
  tryCatch := .tryCatch

/-- The script that ends with a result. -/
def ofExcept : Except ε α → Script res ε α
  | .ok a => .pure a
  | .error e => .throw e

/-- One call: its value is the script's, and so is its exception. -/
def invoke (c : ι) : Script res ε (res c) := .call c ofExcept

/-! ## Running alone -/

/-- How a script ended, the calls it made, and the machine it left. -/
structure Outcome (ι ε α σ : Type) where
  result : Except ε α
  calls : List ι
  state : σ

/-- The outcome of a script that made some calls before. -/
def Outcome.after (before : List ι) (o : Outcome ι ε α σ) : Outcome ι ε α σ :=
  { o with calls := before ++ o.calls }

/-- All calls of a script, one after the other. -/
def run (handle : (c : ι) → σ → Except ε (res c) × σ) :
    Script res ε α → σ → Outcome ι ε α σ
  | .pure a, s => ⟨.ok a, [], s⟩
  | .throw e, s => ⟨.error e, [], s⟩
  | .call c k, s => (run handle (k (handle c s).1) (handle c s).2).after [c]

variable {handle : (c : ι) → σ → Except ε (res c) × σ}

@[simp] theorem Outcome.after_result (before : List ι) (o : Outcome ι ε α σ) :
    (o.after before).result = o.result := rfl

@[simp] theorem Outcome.after_state (before : List ι) (o : Outcome ι ε α σ) :
    (o.after before).state = o.state := rfl

@[simp] theorem Outcome.after_calls (before : List ι) (o : Outcome ι ε α σ) :
    (o.after before).calls = before ++ o.calls := rfl

theorem Outcome.after_after (before later : List ι) (o : Outcome ι ε α σ) :
    (o.after later).after before = o.after (before ++ later) := by
  rw [Outcome.after, Outcome.after, Outcome.after, List.append_assoc]

@[simp] theorem run_pure (a : α) (s : σ) :
    run handle (Pure.pure a : Script res ε α) s = ⟨.ok a, [], s⟩ := rfl

/-- A script whose first part ends with a value runs on from there. -/
theorem run_bind_ok {p : Script res ε α} {f : α → Script res ε β} {s : σ} {a : α}
    (h : (run handle p s).result = .ok a) :
    run handle (p >>= f) s =
      (run handle (f a) (run handle p s).state).after (run handle p s).calls := by
  induction p generalizing s with
  | pure b =>
      cases h
      rfl
  | throw e => cases h
  | call c k ih =>
      have hrest := ih (handle c s).1 h
      rw [run, Outcome.after_state, Outcome.after_calls, ← Outcome.after_after, ← hrest]
      rfl

/-- A script whose first part ends with an exception ends with it. -/
theorem run_bind_error {p : Script res ε α} {f : α → Script res ε β} {s : σ} {e : ε}
    (h : (run handle p s).result = .error e) :
    run handle (p >>= f) s = ⟨.error e, (run handle p s).calls, (run handle p s).state⟩ := by
  induction p generalizing s with
  | pure b => cases h
  | throw e =>
      cases h
      rfl
  | call c k ih =>
      have hrest := ih (handle c s).1 h
      have hcall : run handle (Script.call c k >>= f) s =
          (run handle (k (handle c s).1 >>= f) (handle c s).2).after [c] := rfl
      rw [hcall, hrest]
      rfl

/-- A handler has no part in a script that ends with a value. -/
theorem run_tryCatch_ok {p : Script res ε α} {h : ε → Script res ε α} {s : σ} {a : α}
    (hp : (run handle p s).result = .ok a) :
    run handle (MonadExcept.tryCatch p h) s = run handle p s := by
  induction p generalizing s with
  | pure b => rfl
  | throw e => cases hp
  | call c k ih => exact congrArg (Outcome.after [c]) (ih (handle c s).1 hp)

/-- A handler takes over where the script raised. -/
theorem run_tryCatch_error {p : Script res ε α} {h : ε → Script res ε α} {s : σ} {e : ε}
    (hp : (run handle p s).result = .error e) :
    run handle (MonadExcept.tryCatch p h) s =
      (run handle (h e) (run handle p s).state).after (run handle p s).calls := by
  induction p generalizing s with
  | pure b => cases hp
  | throw e =>
      cases hp
      rfl
  | call c k ih =>
      have hrest := ih (handle c s).1 hp
      rw [run, Outcome.after_state, Outcome.after_calls, ← Outcome.after_after, ← hrest]
      rfl

theorem run_invoke (c : ι) (s : σ) :
    run handle (invoke c : Script res ε (res c)) s = ⟨(handle c s).1, [c], (handle c s).2⟩ := by
  rw [invoke, run]
  cases (handle c s).1 with
  | ok a => rfl
  | error e => rfl

/-- What every call keeps, a run keeps. -/
theorem run_preserves {I : σ → Prop} (hcall : ∀ c s, I s → I (handle c s).2)
    (p : Script res ε α) {s : σ} (h : I s) : I (run handle p s).state := by
  induction p generalizing s with
  | pure a => exact h
  | throw e => exact h
  | call c k ih => exact ih (handle c s).1 (hcall c s h)

/-- The calls of the first part are the first calls. -/
theorem run_bind_calls (p : Script res ε α) (f : α → Script res ε β) (s : σ) :
    ∃ more, (run handle (p >>= f) s).calls = (run handle p s).calls ++ more := by
  cases h : (run handle p s).result with
  | ok a => exact ⟨_, congrArg Outcome.calls (run_bind_ok h)⟩
  | error e =>
      refine ⟨[], ?_⟩
      rw [run_bind_error h, List.append_nil]

/-- The calls of a script come before those of its handler. -/
theorem run_tryCatch_calls (p : Script res ε α) (h : ε → Script res ε α) (s : σ) :
    ∃ more, (run handle (MonadExcept.tryCatch p h) s).calls = (run handle p s).calls ++ more := by
  cases hp : (run handle p s).result with
  | ok a =>
      refine ⟨[], ?_⟩
      rw [run_tryCatch_ok hp, List.append_nil]
  | error e => exact ⟨_, congrArg Outcome.calls (run_tryCatch_error hp)⟩

/-! ## Calls made of calls -/

section Interp

variable {ι' : Type} {res' : ι' → Type}

/-- Go on with the value or the exception of a script. -/
def resume : Script res ε α → (Except ε α → Script res ε β) → Script res ε β
  | .pure a, k => k (.ok a)
  | .throw e, k => k (.error e)
  | .call c k', k => .call c fun r => (k' r).resume k

/-- Each call is made by a script of other calls. -/
def interp (made : (c : ι) → Script res' ε (res c)) : Script res ε α → Script res' ε α
  | .pure a => .pure a
  | .throw e => .throw e
  | .call c k => (made c).resume fun r => interp made (k r)

theorem resume_bind (p : Script res ε α) (k : Except ε α → Script res ε β)
    (f : β → Script res ε κ) : p.resume k >>= f = p.resume fun r => k r >>= f := by
  induction p with
  | pure a => rfl
  | throw e => rfl
  | call c k' ih => exact congrArg (Script.call c) (funext ih)

theorem interp_bind (made : (c : ι) → Script res' ε (res c)) (p : Script res ε α)
    (f : α → Script res ε β) :
    interp made (p >>= f) = interp made p >>= fun a => interp made (f a) := by
  induction p with
  | pure a => rfl
  | throw e => rfl
  | call c k ih =>
      refine (congrArg (resume (made c)) (funext ih)).trans ?_
      exact (resume_bind (made c) _ _).symm

theorem run_resume (p : Script res ε α) (k : Except ε α → Script res ε β) (s : σ) :
    run handle (p.resume k) s =
      (run handle (k (run handle p s).result) (run handle p s).state).after
        (run handle p s).calls := by
  induction p generalizing s with
  | pure a => rfl
  | throw e => rfl
  | call c k' ih =>
      rw [resume, run, ih, Outcome.after_after]
      rfl

/-- When each call is made by one other call, the calls are those in its place. -/
theorem run_interp {handle' : (c : ι') → σ → Except ε (res' c) × σ}
    {made : (c : ι) → Script res' ε (res c)} {place : ι → ι'}
    (h : ∀ c s, run handle' (made c) s = ⟨(handle c s).1, [place c], (handle c s).2⟩)
    (p : Script res ε α) (s : σ) :
    run handle' (interp made p) s =
      ⟨(run handle p s).result, (run handle p s).calls.map place, (run handle p s).state⟩ := by
  induction p generalizing s with
  | pure a => rfl
  | throw e => rfl
  | call c k ih =>
      rw [interp, run_resume, h, ih]
      rfl

end Interp

/-! ## Among other parties -/

/-- Every call of the script is allowed by `pre` in the ghost state in which it
is made, and the script ends in `post`.  `answers g c r g'` says that the call
`c`, made in `g`, may be answered by `r` and leave `g'`. -/
def Wp (pre : κ → ι → Prop) (answers : κ → (c : ι) → Except ε (res c) → κ → Prop)
    (post : κ → Except ε α → Prop) : Script res ε α → κ → Prop
  | .pure a, g => post g (.ok a)
  | .throw e, g => post g (.error e)
  | .call c k, g => pre g c ∧ ∀ r g', answers g c r g' → (k r).Wp pre answers post g'

section Rules

variable {pre : κ → ι → Prop} {answers : κ → (c : ι) → Except ε (res c) → κ → Prop}

theorem wp_mono {p : Script res ε α} {post post' : κ → Except ε α → Prop} {g : κ}
    (h : p.Wp pre answers post g) (hpost : ∀ g r, post g r → post' g r) :
    p.Wp pre answers post' g := by
  induction p generalizing g with
  | pure a => exact hpost _ _ h
  | throw e => exact hpost _ _ h
  | call c k ih => exact ⟨h.1, fun r g' ha => ih r (h.2 r g' ha)⟩

/-- The rule of sequence. -/
theorem wp_bind {p : Script res ε α} {f : α → Script res ε β} {post : κ → Except ε β → Prop}
    {middle : κ → Except ε α → Prop} {g : κ} (h : p.Wp pre answers middle g)
    (hvalue : ∀ g a, middle g (.ok a) → (f a).Wp pre answers post g)
    (hraise : ∀ g e, middle g (.error e) → post g (.error e)) :
    (p >>= f).Wp pre answers post g := by
  induction p generalizing g with
  | pure a => exact hvalue _ _ h
  | throw e => exact hraise _ _ h
  | call c k ih => exact ⟨h.1, fun r g' ha => ih r (h.2 r g' ha)⟩

/-- The rule of a handler. -/
theorem wp_tryCatch {p : Script res ε α} {h : ε → Script res ε α} {post : κ → Except ε α → Prop}
    {middle : κ → Except ε α → Prop} {g : κ} (hp : p.Wp pre answers middle g)
    (hvalue : ∀ g a, middle g (.ok a) → post g (.ok a))
    (hraise : ∀ g e, middle g (.error e) → (h e).Wp pre answers post g) :
    (MonadExcept.tryCatch p h).Wp pre answers post g := by
  induction p generalizing g with
  | pure a => exact hvalue _ _ hp
  | throw e => exact hraise _ _ hp
  | call c k ih => exact ⟨hp.1, fun r g' ha => ih r (hp.2 r g' ha)⟩

/-- The rule of one call. -/
theorem wp_invoke {c : ι} {post : κ → Except ε (res c) → Prop} {g : κ} (hpre : pre g c)
    (hpost : ∀ r g', answers g c r g' → post g' r) :
    (invoke c : Script res ε (res c)).Wp pre answers post g := by
  refine ⟨hpre, fun r g' ha => ?_⟩
  cases r with
  | ok a => exact hpost _ _ ha
  | error e => exact hpost _ _ ha

/-- The rule of frames: what every answer keeps, the script keeps. -/
theorem wp_frame {R : κ → κ → Prop} (hrefl : ∀ g, R g g)
    (htrans : ∀ {g g' g''}, R g g' → R g' g'' → R g g'')
    (hanswers : ∀ g c r g', answers g c r g' → R g g') {p : Script res ε α}
    {post : κ → Except ε α → Prop} {g : κ} (h : p.Wp pre answers post g) :
    p.Wp pre answers (fun g' r => R g g' ∧ post g' r) g := by
  induction p generalizing g with
  | pure a => exact ⟨hrefl g, h⟩
  | throw e => exact ⟨hrefl g, h⟩
  | call c k ih =>
      refine ⟨h.1, fun r g' ha => ?_⟩
      refine wp_mono (ih r (h.2 r g' ha)) fun g'' r' hend => ⟨?_, hend.2⟩
      exact htrans (hanswers g c r g' ha) hend.1

/-- What other parties do to the ghost state does not harm a call that is still
to be made, if they leave it allowed and add no answer. -/
theorem Wp.rely {c : ι} {k : Except ε (res c) → Script res ε α} {post : κ → Except ε α → Prop}
    {g g' : κ} (h : (Script.call c k).Wp pre answers post g) (hpre : pre g c → pre g' c)
    (hanswers : ∀ r g'', answers g' c r g'' → answers g c r g'') :
    (Script.call c k).Wp pre answers post g' :=
  ⟨hpre h.1, fun r g'' ha => h.2 r g'' (hanswers r g'' ha)⟩

/-- A script run alone on a machine that answers within `answers` ends in its
postcondition.  `R` relates the machine to the ghost state. -/
theorem run_wp {handle : (c : ι) → σ → Except ε (res c) × σ} {R : σ → κ → Prop}
    {p : Script res ε α} {post : κ → Except ε α → Prop} {s : σ} {g : κ}
    (hp : p.Wp pre answers post g) (h : R s g)
    (hanswers : ∀ c s g, R s g → pre g c →
      ∃ g', answers g c (handle c s).1 g' ∧ R (handle c s).2 g') :
    ∃ g', post g' (run handle p s).result ∧ R (run handle p s).state g' := by
  induction p generalizing s g with
  | pure a => exact ⟨g, hp, h⟩
  | throw e => exact ⟨g, hp, h⟩
  | call c k ih =>
      obtain ⟨g', ha, hnext⟩ := hanswers c s g h hp.1
      exact ih (handle c s).1 (hp.2 _ g' ha) hnext

end Rules

end Script

end Rso
