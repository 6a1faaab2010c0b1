import Rso.Lib.Script

/-!
# Scripts at a terminal

A script whose calls are of two kinds: some go out, and the others are answered by a
machine on the spot, a terminal with somebody at it.  `Plays` says which script of outer
calls is left when the inner ones are answered.  It has a rule for each way of putting
scripts together, so it can be shown part by part (`Plays.bind`, `Plays.tryCatch`), and
`Plays.run` says that both scripts run alike.
-/

namespace Rso.Script

variable {ι κ : Type} {res : ι → Type} {inner : κ → Type} {ε α β γ δ σ τ : Type}

theorem map_id (p : Script res ε α) : id <$> p = p := by
  induction p with
  | pure a => rfl
  | throw e => rfl
  | call c k ih => exact congrArg (Script.call c) (funext ih)

theorem bind_bind (p : Script res ε α) (f : α → Script res ε β) (g : β → Script res ε γ) :
    p >>= f >>= g = p >>= fun a => f a >>= g := by
  induction p with
  | pure a => rfl
  | throw e => rfl
  | call c k ih => exact congrArg (Script.call c) (funext ih)

instance : LawfulMonad (Script res ε) :=
  LawfulMonad.mk' _ map_id (fun _ _ => rfl) bind_bind

/-- A script with both kinds of calls. -/
abbrev Both (res : ι → Type) (inner : κ → Type) (ε α : Type) : Type :=
  Script (Sum.elim res inner) ε α

/-- An outer call. -/
def outward (c : ι) : Both res inner ε (res c) := invoke (Sum.inl c : ι ⊕ κ)

/-- An inner call. -/
def inward (l : κ) : Both res inner ε (inner l) := invoke (Sum.inr l : ι ⊕ κ)

/-- The outer calls are handled as `handle` says, the inner ones by the machine. -/
def both (handle : (c : ι) → σ → Except ε (res c) × σ) (answer : (l : κ) → τ → inner l × τ) :
    (c : ι ⊕ κ) → σ × τ → Except ε (Sum.elim res inner c) × (σ × τ)
  | .inl c, (s, t) =>
      let (r, s) := handle c s
      (r, (s, t))
  | .inr l, (s, t) =>
      let (a, t) := answer l t
      (.ok a, (s, t))

/-- The outer calls among all. -/
def outerCalls (calls : List (ι ⊕ κ)) : List ι := calls.filterMap Sum.getLeft?

section Rules

variable (answer : (l : κ) → τ → inner l × τ)

/-- The script, from this state of the machine on, makes the calls of the second one and
ends as it does.  `returns` holds of the two values and the machine at the end, `raises`
of an exception that is not handled. -/
inductive Plays (returns : α → β → τ → Prop) (raises : ε → τ → Prop) :
    Both res inner ε α → τ → Script res ε β → Prop where
  | pure {a : α} {b : β} {t : τ} : returns a b t → Plays returns raises (.pure a) t (.pure b)
  | throw {e : ε} {t : τ} : raises e t → Plays returns raises (.throw e) t (.throw e)
  | outward {c : ι} {k : Except ε (res c) → Both res inner ε α}
      {k' : Except ε (res c) → Script res ε β} {t : τ} :
      (∀ r, Plays returns raises (k r) t (k' r)) →
        Plays returns raises (.call (.inl c) k) t (.call c k')
  | inward {l : κ} {k : Except ε (inner l) → Both res inner ε α} {q : Script res ε β} {t : τ} :
      Plays returns raises (k (.ok (answer l t).1)) (answer l t).2 q →
        Plays returns raises (.call (.inr l) k) t q

variable {answer}
variable {returns : α → β → τ → Prop} {raises : ε → τ → Prop}

/-- The rule of sequence. -/
theorem Plays.bind {p : Both res inner ε α} {q : Script res ε β} {t : τ}
    {f : α → Both res inner ε γ} {g : β → Script res ε δ} {returns' : γ → δ → τ → Prop}
    (h : Plays answer returns raises p t q)
    (hrest : ∀ a b t, returns a b t → Plays answer returns' raises (f a) t (g b)) :
    Plays answer returns' raises (p >>= f) t (q >>= g) := by
  induction h with
  | pure hr => exact hrest _ _ _ hr
  | throw he => exact .throw he
  | outward _ ih => exact .outward ih
  | inward _ ih => exact .inward ih

/-- The rule of a handler. -/
theorem Plays.tryCatch {p : Both res inner ε α} {q : Script res ε β} {t : τ}
    {handler : ε → Both res inner ε α} {handler' : ε → Script res ε β} {raises' : ε → τ → Prop}
    (h : Plays answer returns raises p t q)
    (hhandler : ∀ e t, raises e t → Plays answer returns raises' (handler e) t (handler' e)) :
    Plays answer returns raises' (MonadExcept.tryCatch p handler) t
      (MonadExcept.tryCatch q handler') := by
  induction h with
  | pure hr => exact .pure hr
  | throw he => exact hhandler _ _ he
  | outward _ ih => exact .outward ih
  | inward _ ih => exact .inward ih

/-- An outer call. -/
theorem Plays.of_outward {c : ι} {t : τ} {returns : res c → res c → τ → Prop}
    (hreturns : ∀ a, returns a a t) (hraises : ∀ e, raises e t) :
    Plays answer returns raises (Script.outward c : Both res inner ε (res c)) t (invoke c) := by
  refine .outward fun r => ?_
  cases r with
  | ok a => exact .pure (hreturns a)
  | error e => exact .throw (hraises e)

theorem Plays.mono {p : Both res inner ε α} {q : Script res ε β} {t : τ}
    {returns' : α → β → τ → Prop} {raises' : ε → τ → Prop} (h : Plays answer returns raises p t q)
    (hreturns : ∀ a b t, returns a b t → returns' a b t)
    (hraises : ∀ e t, raises e t → raises' e t) : Plays answer returns' raises' p t q := by
  induction h with
  | pure hr => exact .pure (hreturns _ _ _ hr)
  | throw he => exact .throw (hraises _ _ he)
  | outward _ ih => exact .outward ih
  | inward _ ih => exact .inward ih

/-- The two scripts run alike: the same outer calls, the same state outside, and the same
end. -/
theorem Plays.run {p : Both res inner ε α} {q : Script res ε β} {t : τ}
    (h : Plays answer returns raises p t q) (handle : (c : ι) → σ → Except ε (res c) × σ) (s : σ) :
    outerCalls (Script.run (both handle answer) p (s, t)).calls = (Script.run handle q s).calls ∧
      (Script.run (both handle answer) p (s, t)).state.1 = (Script.run handle q s).state ∧
      ((∃ a b, (Script.run (both handle answer) p (s, t)).result = .ok a ∧
          (Script.run handle q s).result = .ok b ∧
          returns a b (Script.run (both handle answer) p (s, t)).state.2) ∨
        ∃ e, (Script.run (both handle answer) p (s, t)).result = .error e ∧
          (Script.run handle q s).result = .error e ∧
          raises e (Script.run (both handle answer) p (s, t)).state.2) := by
  induction h generalizing s with
  | pure hr => exact ⟨rfl, rfl, Or.inl ⟨_, _, rfl, rfl, hr⟩⟩
  | throw he => exact ⟨rfl, rfl, Or.inr ⟨_, rfl, rfl, he⟩⟩
  | @outward c k k' t _ ih =>
      obtain ⟨hcalls, hstate, hend⟩ := ih (handle c s).1 (handle c s).2
      exact ⟨congrArg (List.cons c) hcalls, hstate, hend⟩
  | inward _ ih => exact ih s

end Rules

end Rso.Script
