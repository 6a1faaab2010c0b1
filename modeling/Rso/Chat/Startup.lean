import Rso.Chat.Connection
import Rso.Chat.TypedSession

/-!
# A client from its start to its end

Before its menu the client connects to the server and makes its own object.  It goes on
when the server is not there.

`main_right` says what becomes of such a client: it makes no remote call, and it comes to
its end only if nothing that is typed needs the server.  A client that has its server runs
as its `session` does.
-/

namespace Rso.Chat

open Script (invoke interp)

/-- What a client calls: Ice, and the chat system. -/
inductive ClientCall (I : Type) where
  /-- `Ice::initialize`. -/
  | iceInitialize
  /-- `ChatServerPrx::checkedCast`: whether the object is a chat server. -/
  | checkedCast
  | createObjectAdapterWithEndpoints
  | addWithUUID
  | activate
  | destroy
  | remote (c : Remote I)

abbrev ClientCall.Result {I : Type} : ClientCall I → Type
  | .checkedCast => Bool
  | .remote c => c.Result
  | _ => Unit

/-- The call goes through the member `server`. -/
def Remote.toServer {I : Type} : Remote I → Bool
  | .newChatRoom _ | .getRooms | .getRoom _ => true
  | _ => false

namespace Startup

variable {I α : Type}

abbrev Life (I α : Type) : Type := Script (ClientCall.Result (I := I)) Exception α

def createUser (x : Connection) : Life I Unit := do
  x.iceCommunicator.through (invoke (ClientCall.createObjectAdapterWithEndpoints (I := I)))
  invoke (ClientCall.addWithUUID (I := I))
  invoke (ClientCall.activate (I := I))

/-- The constructor. -/
def construct : Life I Connection := do
  let x ← Connection.connect (invoke (ClientCall.iceInitialize (I := I)))
    (invoke (ClientCall.checkedCast (I := I)))
  createUser x
  return x

/-- A call of an action. -/
def remote (x : Connection) (c : Remote I) : Life I c.Result :=
  if c.toServer then x.server.through (invoke (ClientCall.remote c))
  else invoke (ClientCall.remote c)

/-- The rest of `~Client`. -/
def destroy (x : Connection) : Life I Unit :=
  match x.iceCommunicator with
  | none => return ()
  | some () => invoke (ClientCall.destroy (I := I))

/-- `main`, with what is typed, and with `own` the proxy of the client's object. -/
def main (username : String) (own : I) (todo : List Client.Action) : Life I Unit := do
  let x ← construct
  interp (remote x) (Console.session ⟨username, some own, []⟩ todo)
  destroy x

/-! ## Without a server -/

/-- A client that has joined no room cannot do it without the server. -/
def needsServer : Client.Action → Bool
  | .leaveRoom _ | .sendMessageToRoom _ _ => false
  | _ => true

/-- What comes of an action when `server` is null. -/
theorem interp_act {x : Connection} (hserver : x.server = none) {c : Client I}
    (hrooms : c.userRooms = []) (a : Client.Action) :
    interp (remote x) (c.act a) =
      if needsServer a then .throw .nullHandleException else .pure c := by
  obtain ⟨iceCommunicator, server⟩ := x
  obtain ⟨username, user, userRooms⟩ := c
  subst hserver hrooms
  cases a <;> rfl

/-- What comes of the whole session. -/
theorem interp_session {x : Connection} (hserver : x.server = none) {c : Client I}
    (hrooms : c.userRooms = []) (todo : List Client.Action) :
    interp (remote x) (Console.session c todo) =
      if todo.any needsServer then .throw .nullHandleException else .pure () := by
  induction todo with
  | nil =>
      obtain ⟨username, user, userRooms⟩ := c
      subst hrooms
      rfl
  | cons a todo ih =>
      rw [Console.session, Script.interp_bind, interp_act hserver hrooms, List.any_cons]
      cases needsServer a with
      | true => rfl
      | false => exact ih

/-! ## Runs -/

section Runs

open Script (Outcome)

variable {σ : Type} {handle : (c : ClientCall I) → σ → Except Exception c.Result × σ}

theorem connect_ok {s : σ} {x : Connection}
    (h : (Script.run handle (Connection.connect (invoke (ClientCall.iceInitialize (I := I)))
      (invoke (ClientCall.checkedCast (I := I)))) s).result = .ok x) :
    x = ⟨none, none⟩ ∨ x.iceCommunicator = some () ∧
      (x.server = some () ↔ (handle .checkedCast (handle .iceInitialize s).2).1 = .ok true) := by
  rw [Connection.connect, handlingIce_result] at h
  cases hinit : (handle .iceInitialize s).1 with
  | error e =>
      rw [Script.run_bind_error (e := e) (by rw [Script.run_invoke, hinit])] at h
      refine Or.inl ?_
      cases he : e.isIceOrText with
      | true =>
          simp only [he, if_true] at h
          cases h
          rfl
      | false =>
          simp only [he] at h
          cases h
  | ok u =>
      rw [Script.run_bind_ok (a := u) (by rw [Script.run_invoke, hinit]), Script.run_invoke,
        Outcome.after_result, handlingIce_result] at h
      dsimp only at h
      cases hcast : (handle .checkedCast (handle .iceInitialize s).2).1 with
      | error e =>
          rw [Script.run_bind_error (e := e) (by rw [Script.run_invoke, hcast])] at h
          dsimp only at h
          cases he : e.isIceOrText with
          | true =>
              rw [he] at h
              cases h
              exact Or.inr ⟨rfl, by simp⟩
          | false =>
              rw [he, if_neg Bool.false_ne_true] at h
              dsimp only at h
              rw [he] at h
              cases h
      | ok found =>
          rw [Script.run_bind_ok (a := found) (by rw [Script.run_invoke, hcast]),
            Outcome.after_result] at h
          cases found with
          | true =>
              cases h
              exact Or.inr ⟨rfl, by simp⟩
          | false =>
              cases h
              exact Or.inr ⟨rfl, by simp⟩

/-- A client that comes to its menu has a communicator.  It has a proxy of the server if
the checked cast gave one. -/
theorem construct_ok {s : σ} {x : Connection}
    (h : (Script.run handle (construct : Life I Connection) s).result = .ok x) :
    x.iceCommunicator = some () ∧
      (x.server = some () ↔ (handle .checkedCast (handle .iceInitialize s).2).1 = .ok true) := by
  rw [construct] at h
  cases hconnect : (Script.run handle (Connection.connect
      (invoke (ClientCall.iceInitialize (I := I))) (invoke (ClientCall.checkedCast (I := I))))
      s).result with
  | error e =>
      rw [Script.run_bind_error hconnect] at h
      cases h
  | ok y =>
      rw [Script.run_bind_ok hconnect, Outcome.after_result] at h
      cases huser : (Script.run handle (createUser y : Life I Unit) (Script.run handle
          (Connection.connect (invoke (ClientCall.iceInitialize (I := I)))
            (invoke (ClientCall.checkedCast (I := I)))) s).state).result with
      | error e =>
          rw [Script.run_bind_error huser] at h
          cases h
      | ok u =>
          rw [Script.run_bind_ok huser] at h
          cases h
          rcases connect_ok hconnect with rfl | hright
          · cases huser
          · exact hright

/-- `main` after a constructor that returned. -/
theorem run_main {s : σ} {x : Connection} (username : String) (own : I)
    (todo : List Client.Action)
    (h : (Script.run handle (construct : Life I Connection) s).result = .ok x) :
    Script.run handle (main username own todo) s =
      (Script.run handle
        (interp (remote x) (Console.session ⟨username, some own, []⟩ todo) >>= fun _ => destroy x)
        (Script.run handle construct s).state).after (Script.run handle construct s).calls :=
  Script.run_bind_ok h

theorem run_destroy {x : Connection} (h : x.iceCommunicator = some ()) (s : σ) :
    Script.run handle (destroy x : Life I Unit) s =
      ⟨(handle .destroy s).1, [.destroy], (handle .destroy s).2⟩ := by
  rw [destroy, h]
  exact Script.run_invoke _ s

theorem run_remote {x : Connection} (h : x.server = some ()) (c : Remote I) (s : σ) :
    Script.run handle (remote x c) s =
      ⟨(handle (.remote c) s).1, [.remote c], (handle (.remote c) s).2⟩ := by
  rw [remote, h, Prx.through, ite_self]
  exact Script.run_invoke (ClientCall.remote c) s

/-- The end of a client that had its whole session. -/
def ending (handle : (c : ClientCall I) → σ → Except Exception c.Result × σ) (s : σ) :
    Outcome (ClientCall I) Exception Unit σ :=
  ⟨(handle .destroy s).1, [.destroy], (handle .destroy s).2⟩

/-- A session without a server: no call, and an exception at the first action that needs
the server. -/
def offline (handle : (c : ClientCall I) → σ → Except Exception c.Result × σ)
    (todo : List Client.Action) (s : σ) : Outcome (ClientCall I) Exception Unit σ :=
  if todo.any needsServer then ⟨.error .nullHandleException, [], s⟩ else ending handle s

/-- A session with the server. -/
def online (handle : (c : ClientCall I) → σ → Except Exception c.Result × σ) (c : Client I)
    (todo : List Client.Action) (s : σ) : Outcome (ClientCall I) Exception Unit σ :=
  let o := Script.run (fun c => handle (.remote c)) (Console.session c todo) s
  match o.result with
  | .error e => ⟨.error e, o.calls.map ClientCall.remote, o.state⟩
  | .ok () => (ending handle o.state).after (o.calls.map ClientCall.remote)

/-- Ice answered that the server is there. -/
def foundServer (handle : (c : ClientCall I) → σ → Except Exception c.Result × σ) (s : σ) : Bool :=
  match (handle .checkedCast (handle .iceInitialize s).2).1 with
  | .ok found => found
  | .error _ => false

theorem run_offline {x : Connection} (hcommunicator : x.iceCommunicator = some ())
    (hserver : x.server = none) {c : Client I} (hrooms : c.userRooms = [])
    (todo : List Client.Action) (s : σ) :
    Script.run handle (interp (remote x) (Console.session c todo) >>= fun _ => destroy x) s =
      offline handle todo s := by
  rw [interp_session hserver hrooms, offline]
  cases todo.any needsServer with
  | true => rfl
  | false => exact run_destroy hcommunicator s

theorem run_online {x : Connection} (hcommunicator : x.iceCommunicator = some ())
    (hserver : x.server = some ()) (c : Client I) (todo : List Client.Action) (s : σ) :
    Script.run handle (interp (remote x) (Console.session c todo) >>= fun _ => destroy x) s =
      online handle c todo s := by
  have hsession : Script.run handle (interp (remote x) (Console.session c todo)) s = _ :=
    Script.run_interp (run_remote hserver) (Console.session c todo) s
  have hresult := congrArg Outcome.result hsession
  rw [online]
  dsimp only at hresult ⊢
  split
  next e he => rw [Script.run_bind_error (hresult.trans he), hsession]
  next he => rw [Script.run_bind_ok (hresult.trans he), hsession, run_destroy hcommunicator, ending]

/-- A client whose constructor raises makes no more calls.  If the server was not found the
client still comes to its menu, but it makes no call to the chat system: it is taken down
by the first action that needs the server, and without one it ends its communicator and
returns.  If the server was found it runs as its session does. -/
theorem main_right (handle : (c : ClientCall I) → σ → Except Exception c.Result × σ) (s : σ)
    (username : String) (own : I) (todo : List Client.Action) :
    let start := Script.run handle (construct : Life I Connection) s
    Script.run handle (main username own todo) s =
      match start.result with
      | .error e => ⟨.error e, start.calls, start.state⟩
      | .ok _ =>
          (if foundServer handle s then online handle ⟨username, some own, []⟩ todo start.state
            else offline handle todo start.state).after start.calls := by
  intro start
  cases h : start.result with
  | error e => exact Script.run_bind_error h
  | ok x =>
      obtain ⟨hcommunicator, hserver⟩ := construct_ok h
      refine (run_main username own todo h).trans (congrArg (Outcome.after _) ?_)
      have hfound : foundServer handle s = true ↔ x.server = some () := by
        rw [hserver, foundServer]
        cases (handle .checkedCast (handle .iceInitialize s).2).1 <;> simp
      split
      next hyes => exact run_online hcommunicator (hfound.mp hyes) _ todo _
      next hno =>
        have hnone : x.server = none := Option.eq_none_iff_forall_ne_some.mpr
          fun u hu => hno (hfound.mpr hu)
        exact run_offline hcommunicator hnone rfl todo _

end Runs

end Startup

end Rso.Chat
