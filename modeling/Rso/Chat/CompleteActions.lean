import Rso.Chat.Deployment

/-!
# Complete actions

An action that a client runs with nobody in between is a run of its script on the
world (`perform`), and so a choice and calls of the client in a row
(`perform_is_run`).

Most actions leave the members of every room alone (`Quiet`).  The other two are
`joinToRoom` and `leaveRoom`.  What they do follows from whether the room lists
the client.
-/

namespace Rso.Chat

open Runs

/-! ## An action on its own -/

namespace Deployment

variable {I : Type} [DecidableEq I]

/-- A client at its menu runs an action to its end, with nobody in between. -/
def perform (d : Deployment I) (i : I) (a : Client.Action) (ice : Creation) : Deployment I :=
  match d.activity i with
  | .menu =>
      let o := ((d.clients i).act a).run (World.handle ice) d.world
      { d with world := o.state }.settle i (Script.ofExcept o.result)
  | _ => d

/-- A client that goes on alone gets to the outcome of the program. -/
theorem run_proceeds (i : I) (ice : Creation) (p : Program I (Client I)) :
    ∀ d : Deployment I, ∃ n,
      run step (d.settle i p) (proceeds i (fun _ => ice) n) =
        { d with world := (p.run (World.handle ice) d.world).state }.settle i
          (Script.ofExcept (p.run (World.handle ice) d.world).result) := by
  induction p with
  | pure c => exact fun d => ⟨0, rfl⟩
  | throw e => exact fun d => ⟨0, rfl⟩
  | call c k ih =>
      intro d
      let r := World.handle ice c d.world
      obtain ⟨n, hn⟩ := ih r.1 { d with world := r.2 }
      refine ⟨n + 1, ?_⟩
      rw [proceeds_succ, run_cons, step, proceed_settle_call]
      exact hn

/-- A complete action is a choice and calls with no other move in between. -/
theorem perform_is_run (d : Deployment I) (i : I) (a : Client.Action) (ice : Creation) :
    ∃ n, run step d (.choose i a :: proceeds i (fun _ => ice) n) = d.perform i a ice := by
  cases hi : d.activity i with
  | menu =>
      obtain ⟨n, hn⟩ := run_proceeds i ice ((d.clients i).act a) d
      refine ⟨n, ?_⟩
      rw [run_cons]
      simp only [step, perform, hi]
      exact hn
  | _ =>
      refine ⟨0, ?_⟩
      simp only [proceeds_zero, run_cons, run_nil, step, perform, hi]

end Deployment

/-! ## Actions that leave the members alone -/

/-- A call that changes the members of a room. -/
def Remote.ChangesMembers {I : Type} : Remote I → Prop
  | .join _ _ _ | .leave _ _ => True
  | _ => False

/-- A program that leaves the members of every room alone.  If it returns, its
value meets `Q`. -/
def Quiet {I α : Type} (Q : α → Prop) (p : Program I α) : Prop :=
  p.Wp (fun (_ : Unit) c => ¬ c.ChangesMembers) (fun _ _ _ _ => True)
    (fun _ r => ∀ a, r = .ok a → Q a) ()

section Rules

variable {I α β : Type}

theorem quiet_pure {Q : α → Prop} {a : α} (h : Q a) : Quiet Q (pure a : Program I α) := by
  intro b hb
  cases hb
  exact h

theorem quiet_remote {c : Remote I} (hc : ¬ c.ChangesMembers) :
    Quiet (fun _ => True) (remote c) :=
  Script.wp_invoke hc fun _ _ _ _ _ => trivial

theorem Quiet.bind {Q : β → Prop} {p : Program I α} {f : α → Program I β}
    (h : Quiet (fun _ => True) p) (hf : ∀ a, Quiet Q (f a)) : Quiet Q (p >>= f) :=
  Script.wp_bind h (fun _ a _ => hf a) fun _ _ _ _ he => by cases he

theorem quiet_handling {Q : α → Prop} {handled : Exception → Prop} [DecidablePred handled]
    {body otherwise : Program I α} (h : Quiet Q body) (hother : Quiet Q otherwise) :
    Quiet Q (handling handled otherwise body) := by
  refine Script.wp_tryCatch h (fun _ _ ha => ha) fun _ e _ => ?_
  split
  next => exact hother
  next =>
    intro a ha
    cases ha

/-- A run of such a program, and what calls that leave the members alone keep. -/
theorem Quiet.run {Q : α → Prop} {p : Program I α} (h : Quiet Q p) (ice : Creation)
    {J : World I → Prop}
    (hcall : ∀ c w, ¬ c.ChangesMembers → J w → J (World.handle ice c w).2) {w : World I}
    (hw : J w) :
    (∀ a, (Script.run (World.handle ice) p w).result = .ok a → Q a) ∧
      J (Script.run (World.handle ice) p w).state := by
  obtain ⟨-, hresult, hstate⟩ := Script.run_wp (R := fun w (_ : Unit) => J w) h hw
    fun c w g hw hc => ⟨g, trivial, hcall c w hc hw⟩
  exact ⟨hresult, hstate⟩

end Rules

namespace Client

variable {I : Type} (c : Client I)

theorem getUsersInRoom_quiet (room_name typed : String) :
    Quiet (fun _ => True) (getUsersInRoom room_name typed : Program I (List String)) := by
  refine quiet_handling (Quiet.bind (quiet_remote id) fun room => ?_) (quiet_pure trivial)
  exact quiet_remote (c := .listUsers room) id

theorem sendMessageToRoom_quiet (targetRoom content : String) :
    Quiet (fun _ => True) (c.sendMessageToRoom targetRoom content) := by
  rw [sendMessageToRoom]
  split
  next =>
    refine quiet_handling (quiet_handling ?_ (quiet_pure trivial)) (quiet_pure trivial)
    exact Quiet.bind (quiet_remote id) fun chatRoom => quiet_remote id
  next => exact quiet_pure trivial

theorem sendPrivateMessageToUser_quiet (targetChannel typed targetUsername message : String) :
    Quiet (fun _ => True)
      (c.sendPrivateMessageToUser targetChannel typed targetUsername message) := by
  have hfirst : Quiet (fun _ => True)
      (handling (fun e => e = .noSuchRoom) (return none) do
        let usersAvailable ← getUsersInRoom targetChannel typed
        return some usersAvailable : Program I (Option (List String))) :=
    quiet_handling (Quiet.bind (getUsersInRoom_quiet _ _) fun _ => quiet_pure trivial)
      (quiet_pure trivial)
  refine Quiet.bind hfirst fun found => ?_
  cases found with
  | none => exact quiet_pure trivial
  | some usersAvailable =>
      simp only []
      split
      next =>
        refine quiet_handling ?_ (quiet_pure trivial)
        refine Quiet.bind (quiet_remote id) fun chatRoom => ?_
        exact Quiet.bind (quiet_remote (c := .getUser chatRoom targetUsername) id) fun userPrx =>
          quiet_remote id
      next => exact quiet_pure trivial

/-- An action that neither joins nor leaves a room. -/
def Action.IsQuiet : Action → Prop
  | .joinToRoom _ | .leaveRoom _ => False
  | _ => True

/-- Such an action leaves the client as it is. -/
theorem act_quiet {a : Action} (ha : a.IsQuiet) : Quiet (fun c' => c' = c) (c.act a) := by
  cases a with
  | createRoom roomName =>
      refine Quiet.bind (quiet_handling ?_ (quiet_pure trivial)) fun _ => quiet_pure rfl
      exact Quiet.bind (quiet_remote id) fun _ => quiet_pure trivial
  | printListAllRooms =>
      refine Quiet.bind ?_ fun _ => quiet_pure rfl
      exact Quiet.bind (quiet_remote id) fun _ => quiet_pure trivial
  | joinToRoom name => exact ha.elim
  | leaveRoom roomName => exact ha.elim
  | sendMessageToRoom targetRoom content =>
      exact Quiet.bind (c.sendMessageToRoom_quiet _ _) fun _ => quiet_pure rfl
  | printUsersInRoom typed =>
      refine Quiet.bind ?_ fun _ => quiet_pure rfl
      exact quiet_handling (getUsersInRoom_quiet _ _) (quiet_pure trivial)
  | sendPrivateMessageToUser targetChannel typed targetUsername message =>
      exact Quiet.bind (c.sendPrivateMessageToUser_quiet _ _ _ _) fun _ => quiet_pure rfl

/-! ## Joining and leaving -/

section Running

variable {c : Client I} {w : World I} {d : Directory Nat} {ice : Creation}

/-- A room that the server does not list is not joined. -/
theorem run_joinToRoom_unbound (ice : Creation) (hw : World.Wired w d) {name : String}
    (hn : d.lookup name = none) :
    ((c.joinToRoom name).run (World.handle ice) w).result = .ok c ∧
      ((c.joinToRoom name).run (World.handle ice) w).state = w := by
  rw [joinToRoom, run_handling_error (e := .noSuchRoom), run_getRoom_unbound hw hn]
  · simp
  · exact Or.inl rfl
  · rw [run_getRoom_unbound hw hn]

/-- A room that lists the nick already refuses it. -/
theorem run_joinToRoom_listed (ice : Creation) (hw : World.Wired w d) {name : String} {n : Nat}
    (hn : d.lookup name = some (some n)) (hlisted : c.username ∈ (w.rooms n).users) :
    ((c.joinToRoom name).run (World.handle ice) w).result = .ok c ∧
      ((c.joinToRoom name).run (World.handle ice) w).state = w := by
  have hjoin : (remote (.join (some n) c.username c.user)).run (World.handle ice) w =
      ⟨.error (.ice .unknownUserException), [.join (some n) c.username c.user], w⟩ := by
    rw [run_remote, World.handle_join_listed ice c.user hlisted]
  have hraise := congrArg Script.Outcome.result hjoin
  rw [joinToRoom, run_handling_error (e := .ice .unknownUserException), run_getRoom_bound hw hn,
    Script.run_bind_error hraise, hjoin]
  · simp
  · exact Or.inr (Or.inr (Or.inl rfl))
  · rw [run_getRoom_bound hw hn, Script.run_bind_error hraise]
    rfl

theorem run_joinToRoom_fresh (ice : Creation) (hw : World.Wired w d) {name : String} {n : Nat}
    (hn : d.lookup name = some (some n)) (hfresh : c.username ∉ (w.rooms n).users) :
    ((c.joinToRoom name).run (World.handle ice) w).result =
        .ok { c with userRooms := c.userRooms ++ [⟨name, 0⟩] } ∧
      ((c.joinToRoom name).run (World.handle ice) w).state =
        { w with
          rooms := Function.update w.rooms n ((w.rooms n).join c.username c.user).2 } := by
  have hjoin : (remote (.join (some n) c.username c.user)).run (World.handle ice) w =
      ⟨.ok (), [.join (some n) c.username c.user], { w with
        rooms := Function.update w.rooms n ((w.rooms n).join c.username c.user).2 }⟩ := by
    rw [run_remote, World.handle_join_fresh ice c.user hfresh]
  rw [joinToRoom, run_handling_located hw hn hjoin]
  exact ⟨rfl, rfl⟩

/-- The loop of `leaveRoom` over entries of other rooms. -/
theorem run_leaveFrom_other {username roomName : String} :
    ∀ rest passed : List RoomInfo, roomName ∉ rest.map RoomInfo.name →
      (leaveFrom username roomName passed rest).run (World.handle (I := I) ice) w =
        ⟨.ok (passed ++ rest), [], w⟩ := by
  intro rest
  induction rest with
  | nil =>
      intro passed _
      rw [List.append_nil]
      rfl
  | cons room rest ih =>
      intro passed h
      rw [List.map_cons, List.mem_cons, not_or] at h
      rw [leaveFrom, if_neg (Ne.symm h.1), ih _ h.2, List.append_assoc]
      rfl

/-- The loop of `leaveRoom` strikes off the first entry of a room that lists the
client. -/
theorem run_leaveFrom_joined (ice : Creation) (hw : World.Wired w d)
    {username roomName : String} {n : Nat} (hn : d.lookup roomName = some (some n))
    (hlisted : username ∈ (w.rooms n).users) :
    ∀ rest passed : List RoomInfo, roomName ∈ rest.map RoomInfo.name →
      ∃ kept, kept.map RoomInfo.name = (rest.map RoomInfo.name).erase roomName ∧
        ((leaveFrom username roomName passed rest).run (World.handle ice) w).result =
          .ok (passed ++ kept) ∧
        ((leaveFrom username roomName passed rest).run (World.handle ice) w).state =
          { w with rooms := Function.update w.rooms n ((w.rooms n).leave username).2 } := by
  intro rest
  induction rest with
  | nil =>
      intro _ h
      cases h
  | cons room rest ih =>
      intro passed h
      rw [leaveFrom]
      rcases eq_or_ne room.name roomName with hname | hname
      · have hleave : (remote (.leave (some n) username)).run (World.handle ice) w =
            ⟨.ok (), [.leave (some n) username], { w with
              rooms := Function.update w.rooms n ((w.rooms n).leave username).2 }⟩ := by
          rw [run_remote, World.handle_leave_listed ice hlisted]
        have hblock : (handling (fun e => e = .noSuchUser ∨ e.IsUnknown) (return false) (do
              let chatRoom ← remote (.getRoom roomName)
              remote (.leave chatRoom username)
              return true) : Program I Bool).run (World.handle ice) w =
            ⟨.ok true, [.getRoom roomName, .leave (some n) username], { w with
              rooms := Function.update w.rooms n ((w.rooms n).leave username).2 }⟩ :=
          run_handling_located hw hn hleave
        refine ⟨rest, ?_, ?_⟩
        · rw [List.map_cons, hname, List.erase_cons_head]
        · rw [if_pos hname, Script.run_bind_ok (congrArg Script.Outcome.result hblock), hblock]
          exact ⟨rfl, rfl⟩
      · have hrest : roomName ∈ rest.map RoomInfo.name := by
          rw [List.map_cons, List.mem_cons] at h
          exact h.resolve_left (Ne.symm hname)
        obtain ⟨kept, hkept, hresult, hstate⟩ := ih (passed ++ [room]) hrest
        refine ⟨room :: kept, ?_, ?_, ?_⟩
        · rw [List.map_cons, List.map_cons, List.erase_cons_tail (by simpa using hname), hkept]
        · rw [if_neg hname, hresult, List.append_assoc]
          rfl
        · rw [if_neg hname, hstate]

/-- A client that is not in the room has nothing to leave. -/
theorem run_leaveRoom_other (ice : Creation) (w : World I) {roomName : String}
    (h : roomName ∉ c.joined) :
    ((c.leaveRoom roomName).run (World.handle ice) w).result = .ok c ∧
      ((c.leaveRoom roomName).run (World.handle ice) w).state = w := by
  have hloop : (leaveFrom c.username roomName [] c.userRooms).run (World.handle ice) w =
      ⟨.ok c.userRooms, [], w⟩ := run_leaveFrom_other c.userRooms [] h
  rw [leaveRoom, Script.run_bind_ok (congrArg Script.Outcome.result hloop), hloop]
  simp

/-- A client leaves a room that lists it. -/
theorem run_leaveRoom_joined (ice : Creation) (hw : World.Wired w d) {roomName : String} {n : Nat}
    (hn : d.lookup roomName = some (some n)) (hlisted : c.username ∈ (w.rooms n).users)
    (h : roomName ∈ c.joined) :
    ∃ c', c'.username = c.username ∧ c'.user = c.user ∧
      c'.joined = c.joined.erase roomName ∧
      ((c.leaveRoom roomName).run (World.handle ice) w).result = .ok c' ∧
      ((c.leaveRoom roomName).run (World.handle ice) w).state =
        { w with rooms := Function.update w.rooms n ((w.rooms n).leave c.username).2 } := by
  obtain ⟨kept, hkept, hresult, hstate⟩ :=
    run_leaveFrom_joined ice hw hn hlisted c.userRooms [] h
  refine ⟨{ c with userRooms := kept }, rfl, rfl, hkept, ?_, ?_⟩
  · rw [leaveRoom, Script.run_bind_ok hresult]
    rfl
  · rw [leaveRoom, Script.run_bind_ok hresult, Script.Outcome.after_state, hstate]
    rfl

end Running

end Client

end Rso.Chat
