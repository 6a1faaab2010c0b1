import Rso.Lib.Script
import Rso.Chat.Interface

/-!
# The way to the server

`Client` and `Factory` come to the server by the same `try` block in their constructors.
Its handlers print, and the constructor goes on: what was assigned before an exception
stays assigned, and the other members are null.
-/

namespace Rso.Chat

/-- The members for Ice of a `Client` or a `Factory`. -/
structure Connection where
  iceCommunicator : Prx Unit
  server : Prx Unit
deriving DecidableEq

section Scripts

variable {ι : Type} {res : ι → Type} {α : Type}

/-- A call through a proxy or a handle. -/
def Prx.through (p : Prx Unit) (c : Script res Exception α) : Script res Exception α :=
  match p with
  | none => throw .nullHandleException
  | some () => c

/-- Handlers for `Ice::Exception` and `const char*`; those for user exceptions take
nothing else. -/
def handlingIce (otherwise : α) (body : Script res Exception α) : Script res Exception α :=
  tryCatch body fun e => if e.isIceOrText then return otherwise else throw e

/-- The `try` block.  `checkedCast` is whether the object is a chat server. -/
def Connection.connect (iceInitialize : Script res Exception Unit)
    (checkedCast : Script res Exception Bool) : Script res Exception Connection :=
  handlingIce ⟨none, none⟩ do
    iceInitialize
    handlingIce ⟨some (), none⟩ do
      let found ← checkedCast
      if found then return ⟨some (), some ()⟩ else throw (.text "Invalid proxy")

variable {σ : Type} {handle : (c : ι) → σ → Except Exception (res c) × σ}

theorem handlingIce_result (otherwise : α) (body : Script res Exception α) (s : σ) :
    (Script.run handle (handlingIce otherwise body) s).result =
      match (Script.run handle body s).result with
      | .ok a => .ok a
      | .error e => if e.isIceOrText then .ok otherwise else .error e := by
  rw [handlingIce]
  cases h : (Script.run handle body s).result with
  | ok a => rw [Script.run_tryCatch_ok h, h]
  | error e =>
      rw [Script.run_tryCatch_error h, Script.Outcome.after_result]
      dsimp only
      split
      next => rfl
      next => rfl

end Scripts

end Rso.Chat
