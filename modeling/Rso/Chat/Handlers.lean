import Rso.Chat.Client

/-!
# What reaches the client's handlers

Which exceptions a call can raise at the client follows from the servant, the
`throws` clause and the state of all parties.  `Answered` says what a call may be
answered, whatever the other clients do meanwhile.  It is about a `View`: the
room names the server is known to list, and whether a message failed.  A room
once listed stays listed, so a name can only be added to the view.

`World.handle` answers within `Answered`.  The messages are the calls that can
fail with an exception of Ice's own (`GoesThrough` says when they do not), and
the two actions that send one have no handler for it.  So each action ends at the
menu unless a message failed, and then it ends at once with the exception
(`act_ends`).
-/

namespace Rso.Chat

/-! ## The calls -/

namespace Remote

variable {I : Type}

/-- The proxy of the room that a call goes through. -/
def room : Remote I → Option (Prx Nat)
  | .join room _ _ | .leave room _ | .listUsers room | .getUser room _
  | .postMessage room _ _ => some room
  | _ => none

/-- A call that sends a message to users. -/
def IsMessage : Remote I → Prop
  | .postMessage _ _ _ | .sendPrivateMessage _ _ _ => True
  | _ => False

/-- The exceptions that a call can raise at the client, through a room proxy that
is not null. -/
def MayRaise : Remote I → Exception → Prop
  | .newChatRoom _, e => e = .nameAlreadyExists ∨ e.IsUnknown
  | .getRooms, _ => False
  | .getRoom _, e => e = .noSuchRoom
  | .join _ _ _, e => e = .nickNotAvailable ∨ e.IsUnknown
  | .leave _ _, e => e.IsUnknown
  | .listUsers _, _ => False
  | .getUser _ _, e => e = .noSuchUser
  | .postMessage _ _ _, e => e.isUser = false
  | .sendPrivateMessage _ _ _, e => e.isUser = false

/-- A message that every party to it is ready for: the room lists the sender, and
whoever it goes to is there. -/
def GoesThrough (w : World I) : Remote I → Prop
  | .postMessage room _ fromWho =>
      ∃ n, room = some n ∧ fromWho ∈ (w.rooms n).users ∧
        ∀ (nick : String) who, (w.rooms n).nickUserDictionary[nick]? = some who →
          ∃ i, who = some i ∧ w.alive i = true
  | .sendPrivateMessage user _ _ => ∃ i, user = some i ∧ w.alive i = true
  | _ => True

theorem goesThrough_of_not_isMessage {c : Remote I} (h : ¬ c.IsMessage) (w : World I) :
    c.GoesThrough w := by
  cases c with
  | postMessage room message fromWho => exact absurd trivial h
  | sendPrivateMessage user message fromWho => exact absurd trivial h
  | _ => trivial

end Remote

/-! ## What a call may be answered -/

/-- What a client knows of the rest of the system. -/
structure View where
  /-- Room names that the server lists. -/
  known : List String
  /-- A message failed. -/
  failed : Prop

/-- Where a lookup of a room leaves the view. -/
def Located {I : Type} (v : View) :
    (c : Remote I) → Except Exception c.Result → View → Prop
  | .getRoom name, r, v' =>
      (∀ room, r = .ok room → room ≠ none ∧ name ∈ v'.known) ∧
        ∀ e, r = .error e → name ∉ v.known
  | _, _, _ => True

/-- A call made in the view `v` may be answered by `r` and leave the view `v'`. -/
structure Answered {I : Type} (v : View) (c : Remote I) (r : Except Exception c.Result)
    (v' : View) : Prop where
  known : v.known ⊆ v'.known
  failed : v'.failed ↔ c.IsMessage ∧ ∃ e, r = .error e
  raised : ∀ e, r = .error e → c.MayRaise e
  located : Located v c r v'

/-- A call that a client may make: not after a message failed, and not through a
null proxy of a room. -/
def Allowed {I : Type} (v : View) (c : Remote I) : Prop := ¬ v.failed ∧ c.room ≠ some none

/-! ## The system answers so -/

theorem atCaller_cases (throws : List Exception) (e : Exception) :
    e.atCaller throws ∈ throws ∨ (e.atCaller throws).IsUnknown := by
  rw [Exception.atCaller]
  split
  next h => exact Or.inl h
  next =>
    split
    next => exact Or.inr (Or.inl rfl)
    next => exact Or.inr (Or.inr rfl)

theorem isUser_of_isUnknown {e : Exception} (h : e.IsUnknown) : e.isUser = false := by
  rcases h with rfl | rfl
  · rfl
  · rfl

theorem mapError_eq_error {α : Type} {f : Exception → Exception} {r : Except Exception α}
    {e : Exception} (h : r.mapError f = .error e) : ∃ e', r = .error e' ∧ e = f e' := by
  cases r with
  | ok a => cases h
  | error e' =>
      cases h
      exact ⟨e', rfl, rfl⟩

theorem mapError_fails_iff (f : Exception → Exception) (r : Except Exception Unit) :
    (∃ e, r.mapError f = .error e) ↔ r ≠ .ok () := by
  cases r with
  | ok a =>
      refine ⟨?_, fun h => absurd rfl h⟩
      rintro ⟨e, he⟩
      cases he
  | error e => exact ⟨fun _ => nofun, fun _ => ⟨f e, rfl⟩⟩

namespace World

variable {I : Type} {w : World I} {d : Directory Nat}

/-- What a call through the proxy of a room can raise. -/
theorem mayRaise_room {throws : List Exception} {α : Type} {r : Except Exception α}
    {e : Exception} (h : r.mapError (Exception.atCaller throws) = .error e) :
    e ∈ throws ∨ e.IsUnknown := by
  obtain ⟨e', -, rfl⟩ := mapError_eq_error h
  exact atCaller_cases throws e'

/-- The proxy of a call to a room, when it is not null. -/
theorem exists_room {room : Prx Nat} (h : some room ≠ some none) : ∃ n, room = some n :=
  Option.ne_none_iff_exists'.mp fun hnull => h (congrArg some hnull)

/-- What each call raises, in a system whose server is wired. -/
theorem handle_mayRaise (h : Wired w d) (ice : Creation) {c : Remote I}
    (hroom : c.room ≠ some none) {e : Exception} (he : (handle ice c w).1 = .error e) :
    c.MayRaise e := by
  cases c with
  | newChatRoom name =>
      rcases newChatRoom_cases ice w name with ⟨e', _, _, hw, -⟩ | ⟨-, _, hw⟩
      · rw [handle, hw] at he
        cases he
        rcases atCaller_cases [.nameAlreadyExists] e' with hdeclared | hunknown
        · exact Or.inl (List.mem_singleton.mp hdeclared)
        · exact Or.inr hunknown
      · rw [handle, hw] at he
        cases he
  | getRooms => cases he
  | getRoom name =>
      cases hd : d.lookup name with
      | none =>
          rw [h.getRoom_unbound ice hd] at he
          cases he
          rfl
      | some room =>
          obtain ⟨n, -, rfl⟩ := h.bound name room hd
          rw [h.getRoom_bound ice hd] at he
          cases he
  | join room nick who =>
      obtain ⟨n, rfl⟩ := exists_room hroom
      rcases mayRaise_room he with hdeclared | hunknown
      · exact Or.inl (List.mem_singleton.mp hdeclared)
      · exact Or.inr hunknown
  | leave room nick =>
      obtain ⟨n, rfl⟩ := exists_room hroom
      exact (mayRaise_room he).resolve_left List.not_mem_nil
  | listUsers room =>
      obtain ⟨n, rfl⟩ := exists_room hroom
      cases he
  | getUser room nick =>
      obtain ⟨n, rfl⟩ := exists_room hroom
      by_cases hnick : nick ∈ (w.rooms n).users
      · have hany : (w.rooms n).users.any (· == nick) = true := by simpa using hnick
        rw [handle, callRoom_some, ChatRoomImpl.getUser, if_pos hany] at he
        cases he
      · rw [handle, callRoom_some, ChatRoomImpl.getUser_unlisted hnick] at he
        cases he
        rfl
  | postMessage room message fromWho =>
      obtain ⟨n, rfl⟩ := exists_room hroom
      exact isUser_of_isUnknown ((mayRaise_room he).resolve_left List.not_mem_nil)
  | sendPrivateMessage user message fromWho =>
      cases user with
      | none =>
          cases he
          rfl
      | some i =>
          simp only [handle, Prx.call, sendMessage] at he
          split at he
          next => cases he
          next =>
            cases he
            rfl

/-- Every call is answered as a client may expect. -/
theorem handle_answered (h : Wired w d) (ice : Creation) {c : Remote I}
    (hroom : c.room ≠ some none) :
    ∃ d', Wired (handle ice c w).2 d' ∧ d.keys ⊆ d'.keys ∧
      ∀ v : View, v.known = d.keys →
        Answered v c (handle ice c w).1
          ⟨d'.keys, c.IsMessage ∧ ∃ e, (handle ice c w).1 = .error e⟩ := by
  obtain ⟨d', hd', hkeep⟩ := h.handle ice c
  have hkeys : d.keys ⊆ d'.keys := by
    intro name hname
    obtain ⟨room, hroom⟩ := OrderedTable.exists_lookup hname
    exact OrderedTable.mem_keys_of_lookup (hkeep name room hroom)
  refine ⟨d', hd', hkeys, fun v hv => ⟨hv ▸ hkeys, Iff.rfl, fun e he => ?_, ?_⟩⟩
  · exact handle_mayRaise h ice hroom he
  · cases c with
    | getRoom name =>
        cases hd : d.lookup name with
        | none =>
            rw [h.getRoom_unbound ice hd]
            refine ⟨fun room hr => (by cases hr), fun e _ => ?_⟩
            rw [hv]
            exact (d.lookup_eq_none_iff name).mp hd
        | some room =>
            obtain ⟨n, -, rfl⟩ := h.bound name room hd
            rw [h.getRoom_bound ice hd]
            refine ⟨fun room hr => ?_, fun e he => (by cases he)⟩
            cases hr
            exact ⟨nofun, hkeys (OrderedTable.mem_keys_of_lookup hd)⟩
    | _ => trivial

theorem sendMessage_ok_iff (i : I) : w.sendMessage i = .ok () ↔ w.alive i = true := by
  rw [sendMessage]
  split
  next h => exact ⟨fun _ => h, fun _ => rfl⟩
  next h => exact ⟨fun he => (by cases he), fun ht => absurd ht h⟩

/-- A message to a room fails exactly when some party is not ready for it. -/
theorem postMessage_fails_iff (ice : Creation) (n : Nat) (message fromWho : String) :
    (∃ e, (handle ice (.postMessage (some n) message fromWho) w).1 = .error e) ↔
      ¬ (Remote.postMessage (some n) message fromWho).GoesThrough w := by
  rw [handle, callRoom_some, mapError_fails_iff, ne_eq, not_iff_not]
  by_cases hfrom : fromWho ∈ (w.rooms n).users
  · rw [ChatRoomImpl.postMessage_ok_iff w.sendMessage message hfrom]
    simp only [sendMessage_ok_iff]
    constructor
    · intro hall
      exact ⟨n, rfl, hfrom, hall⟩
    · rintro ⟨m, hm, -, hall⟩
      cases hm
      exact hall
  · rw [ChatRoomImpl.postMessage_unlisted _ message hfrom]
    constructor
    · intro hok
      cases hok
    · rintro ⟨m, hm, hin, -⟩
      cases hm
      exact absurd hin hfrom

/-- A message to one user fails exactly when that user is not there. -/
theorem sendPrivateMessage_fails_iff (ice : Creation) (user : Prx I) (message fromWho : String) :
    (∃ e, (handle ice (.sendPrivateMessage user message fromWho) w).1 = .error e) ↔
      ¬ (Remote.sendPrivateMessage user message fromWho).GoesThrough w := by
  cases user with
  | none => simp [handle, Prx.call, Remote.GoesThrough]
  | some i => cases h : w.alive i <;> simp [handle, Prx.call, sendMessage, Remote.GoesThrough, h]

/-- A message fails exactly when some party is not ready for it. -/
theorem handle_fails_iff (ice : Creation) {c : Remote I} (hc : c.IsMessage)
    (hroom : c.room ≠ some none) :
    (∃ e, (handle ice c w).1 = .error e) ↔ ¬ c.GoesThrough w := by
  cases c with
  | postMessage room message fromWho =>
      obtain ⟨n, rfl⟩ := exists_room hroom
      exact postMessage_fails_iff ice n message fromWho
  | sendPrivateMessage user message fromWho =>
      exact sendPrivateMessage_fails_iff ice user message fromWho
  | _ => exact hc.elim

end World

/-! ## How a part of an action ends -/

/-- A part of an action returns a value while no message failed.  It raises one of
`raised` while no message failed, and one of `bad` after a message failed. -/
def Ends {α : Type} (raised bad : Exception → Prop) (Q : View → α → Prop) (v : View) :
    Except Exception α → Prop
  | .ok a => ¬ v.failed ∧ Q v a
  | .error e => ¬ v.failed ∧ raised e ∨ v.failed ∧ bad e

/-- Started in the view `v`, the program makes allowed calls and ends as said. -/
def Safe {I α : Type} (raised bad : Exception → Prop) (Q : View → α → Prop) (p : Program I α)
    (v : View) : Prop :=
  p.Wp Allowed Answered (Ends raised bad Q) v

/-- No exception. -/
def Never : Exception → Prop := fun _ => False

section Rules

variable {I α β : Type} {raised raised' bad bad' : Exception → Prop} {v : View}

theorem safe_pure {Q : View → α → Prop} (hv : ¬ v.failed) {a : α} (h : Q v a) :
    Safe raised bad Q (pure a : Program I α) v := ⟨hv, h⟩

/-- The names known before a program are known to what comes after it. -/
theorem Safe.frame {Q : View → α → Prop} {p : Program I α} (h : Safe raised bad Q p v) :
    p.Wp Allowed Answered (fun v' r => v.known ⊆ v'.known ∧ Ends raised bad Q v' r) v :=
  Script.wp_frame (R := fun v v' => v.known ⊆ v'.known) (fun _ => List.Subset.refl _)
    List.Subset.trans (fun _ _ _ _ ha => ha.known) h

theorem Safe.bind {Q : View → α → Prop} {Q' : View → β → Prop} {p : Program I α}
    {f : α → Program I β} (h : Safe raised bad Q p v)
    (hf : ∀ v' a, v.known ⊆ v'.known → ¬ v'.failed → Q v' a → Safe raised bad Q' (f a) v') :
    Safe raised bad Q' (p >>= f) v :=
  Script.wp_bind h.frame (fun v' a ha => hf v' a ha.1 ha.2.1 ha.2.2) fun _ _ he => he.2

theorem Safe.mono {Q Q' : View → α → Prop} {p : Program I α} (h : Safe raised bad Q p v)
    (hraised : ∀ e, raised e → raised' e) (hbad : ∀ e, bad e → bad' e)
    (hQ : ∀ v' a, v.known ⊆ v'.known → Q v' a → Q' v' a) : Safe raised' bad' Q' p v := by
  refine Script.wp_mono h.frame fun v' r hr => ?_
  obtain ⟨hknown, hend⟩ := hr
  cases r with
  | ok a => exact ⟨hend.1, hQ v' a hknown hend.2⟩
  | error e => exact hend.imp (fun h => ⟨h.1, hraised e h.2⟩) fun h => ⟨h.1, hbad e h.2⟩

/-- A program that sends no message can stand where one is sent. -/
theorem Safe.of_never {Q : View → α → Prop} {p : Program I α} (h : Safe raised Never Q p v) :
    Safe raised bad Q p v :=
  h.mono (fun _ he => he) nofun fun _ _ _ hQ => hQ

/-- A call that is no message. -/
theorem safe_quiet {c : Remote I} (hv : ¬ v.failed) (hroom : c.room ≠ some none)
    (hc : ¬ c.IsMessage) (hraise : ∀ e, c.MayRaise e → raised e) :
    Safe raised bad (fun _ _ => True) (remote c) v := by
  refine Script.wp_invoke ⟨hv, hroom⟩ fun r v' ha => ?_
  have hquiet : ¬ v'.failed := fun hf => hc (ha.failed.mp hf).1
  cases r with
  | ok a => exact ⟨hquiet, trivial⟩
  | error e => exact Or.inl ⟨hquiet, hraise e (ha.raised e rfl)⟩

/-- A message. -/
theorem safe_message {c : Remote I} (hv : ¬ v.failed) (hroom : c.room ≠ some none)
    (hc : c.IsMessage) (hraise : ∀ e, c.MayRaise e → bad e) :
    Safe raised bad (fun _ _ => True) (remote c) v := by
  refine Script.wp_invoke ⟨hv, hroom⟩ fun r v' ha => ?_
  cases r with
  | ok a =>
      refine ⟨fun hf => ?_, trivial⟩
      obtain ⟨-, e, he⟩ := ha.failed.mp hf
      cases he
  | error e => exact Or.inr ⟨ha.failed.mpr ⟨hc, e, rfl⟩, hraise e (ha.raised e rfl)⟩

/-- A lookup of a room: it is known, or the exception is expected. -/
theorem safe_getRoom {name : String} (hv : ¬ v.failed)
    (hname : name ∈ v.known ∨ raised .noSuchRoom) :
    Safe raised bad (fun v' room => room ≠ none ∧ name ∈ v'.known)
      (remote (.getRoom name) : Program I (Prx Nat)) v := by
  refine Script.wp_invoke ⟨hv, nofun⟩ fun r v' ha => ?_
  have hquiet : ¬ v'.failed := fun hf => (ha.failed.mp hf).1
  cases r with
  | ok room => exact ⟨hquiet, ha.located.1 room rfl⟩
  | error e =>
      have he : e = .noSuchRoom := ha.raised e rfl
      subst he
      exact Or.inl ⟨hquiet, hname.resolve_left (ha.located.2 _ rfl)⟩

/-- A `try` block: what the body raises while no message failed is handled or
passed on, and what it raises after one failed has no handler. -/
theorem safe_handling {handled : Exception → Prop} [DecidablePred handled]
    {Q : View → α → Prop} {body otherwise : Program I α} (h : Safe raised bad Q body v)
    (hother : ∀ v', v.known ⊆ v'.known → ¬ v'.failed → Safe raised' bad' Q otherwise v')
    (hraised : ∀ e, raised e → handled e ∨ raised' e)
    (hbad : ∀ e, bad e → ¬ handled e ∧ bad' e) :
    Safe raised' bad' Q (handling handled otherwise body) v := by
  refine Script.wp_tryCatch h.frame (fun _ _ ha => ha.2) fun v' e he => ?_
  obtain ⟨hknown, hend⟩ := he
  split
  next hhandled =>
    rcases hend with hquiet | hfailed
    · exact hother v' hknown hquiet.1
    · exact absurd hhandled (hbad e hfailed.2).1
  next hhandled =>
    rcases hend with hquiet | hfailed
    · exact Or.inl ⟨hquiet.1, (hraised e hquiet.2).resolve_left hhandled⟩
    · exact Or.inr ⟨hfailed.1, (hbad e hfailed.2).2⟩

end Rules

/-! ## How the actions end -/

/-- The exceptions a failed message raises. -/
def FromIce (e : Exception) : Prop := e.isUser = false

namespace Client

variable {I : Type} {c : Client I} {v : View}

theorem createRoom_safe (roomName : String) (hv : ¬ v.failed) :
    Safe Never Never (fun _ _ => True) (createRoom roomName : Program I Unit) v := by
  have hbody : Safe (fun e => e = .nameAlreadyExists ∨ e.IsUnknown) Never (fun _ _ => True)
      (do
        let _ ← (remote (.newChatRoom roomName) : Program I (Prx Nat))
        return ()) v := by
    refine Safe.bind (safe_quiet hv ?_ id fun _ he => he) fun v' _ _ hv' _ => ?_
    · exact nofun
    · exact safe_pure hv' trivial
  refine safe_handling hbody (fun v' _ hv' => safe_pure hv' trivial) ?_ nofun
  intro e he
  exact Or.inl he

theorem printListAllRooms_safe (hv : ¬ v.failed) :
    Safe Never Never (fun _ _ => True) (printListAllRooms : Program I (List String)) v := by
  refine Safe.bind (safe_quiet hv ?_ id fun _ he => he) fun v' _ _ hv' _ => ?_
  · exact nofun
  · exact safe_pure hv' trivial

theorem joinToRoom_safe (name : String) (hv : ¬ v.failed) (hjoined : c.joined ⊆ v.known) :
    Safe Never Never (fun v' c' => c'.joined ⊆ v'.known) (c.joinToRoom name) v := by
  have hbody : Safe (fun e => e = .noSuchRoom ∨ e = .nickNotAvailable ∨ e.IsUnknown) Never
      (fun v' (c' : Client I) => c'.joined ⊆ v'.known)
      (do
        let room ← remote (.getRoom name)
        remote (.join room c.username c.user)
        return { c with userRooms := c.userRooms ++ [⟨name, 0⟩] }) v := by
    refine Safe.bind (safe_getRoom hv (Or.inr (Or.inl rfl))) ?_
    intro v₁ room hknown₁ hv₁ hroom
    refine Safe.bind (safe_quiet hv₁ (mt Option.some.inj hroom.1) id fun e he => Or.inr he) ?_
    intro v₂ _ hknown₂ hv₂ _
    refine safe_pure hv₂ ?_
    rw [joined, List.map_append, List.map_singleton]
    refine List.append_subset.mpr ⟨?_, ?_⟩
    · exact List.Subset.trans hjoined (List.Subset.trans hknown₁ hknown₂)
    · exact List.cons_subset.mpr ⟨hknown₂ hroom.2, List.nil_subset _⟩
  refine safe_handling hbody (fun v' hknown hv' => ?_) (fun e he => Or.inl he) nofun
  exact safe_pure hv' (List.Subset.trans hjoined hknown)

/-- The loop of `leaveRoom` keeps some of its entries. -/
theorem leaveFrom_safe (username roomName : String) :
    ∀ (rest passed : List RoomInfo) {v : View}, ¬ v.failed →
      rest.map RoomInfo.name ⊆ v.known →
      Safe Never Never (fun _ l => l ⊆ passed ++ rest)
        (leaveFrom username roomName passed rest : Program I (List RoomInfo)) v := by
  intro rest
  induction rest with
  | nil =>
      intro passed v hv _
      exact safe_pure hv (by rw [List.append_nil]; exact List.Subset.refl _)
  | cons room rest ih =>
      intro passed v hv hrest
      rw [List.map_cons, List.cons_subset] at hrest
      have hnext : ∀ v', v.known ⊆ v'.known → ¬ v'.failed →
          Safe Never Never (fun _ l => l ⊆ passed ++ room :: rest)
            (leaveFrom username roomName (passed ++ [room]) rest : Program I (List RoomInfo))
            v' := by
        intro v' hknown hv'
        have hloop := ih (passed ++ [room]) hv' (List.Subset.trans hrest.2 hknown)
        rwa [List.append_assoc] at hloop
      rw [leaveFrom]
      split
      next hname =>
        subst hname
        have hbody : Safe (fun e => e = .noSuchUser ∨ e.IsUnknown) Never (fun _ _ => True)
            (do
              let chatRoom ← remote (.getRoom room.name)
              remote (.leave chatRoom username)
              return true : Program I Bool) v := by
          refine Safe.bind (safe_getRoom hv (Or.inl hrest.1)) ?_
          intro v₁ chatRoom _ hv₁ hroom
          refine Safe.bind (safe_quiet hv₁ (mt Option.some.inj hroom.1) id fun e he =>
            Or.inr he) ?_
          intro v₂ _ _ hv₂ _
          exact safe_pure hv₂ trivial
        refine Safe.bind (safe_handling hbody (fun _ _ hv' => safe_pure hv' trivial)
          (fun e he => Or.inl he) nofun) fun v' left hknown hv' _ => ?_
        split
        next =>
          refine safe_pure hv' (List.append_subset.mpr ⟨List.subset_append_left _ _, ?_⟩)
          exact List.Subset.trans (List.subset_cons_self _ _) (List.subset_append_right _ _)
        next => exact hnext v' hknown hv'
      next => exact hnext v (List.Subset.refl _) hv

theorem leaveRoom_safe (roomName : String) (hv : ¬ v.failed) (hjoined : c.joined ⊆ v.known) :
    Safe Never Never (fun v' c' => c'.joined ⊆ v'.known) (c.leaveRoom roomName) v := by
  refine (leaveFrom_safe c.username roomName c.userRooms [] hv hjoined).bind ?_
  intro v' userRooms hknown hv' hkept
  refine safe_pure hv' ?_
  exact List.Subset.trans (List.map_subset _ hkept) (List.Subset.trans hjoined hknown)

theorem getUsersInRoom_safe (room_name typed : String) (hv : ¬ v.failed) :
    Safe Never Never (fun _ _ => True)
      (getUsersInRoom room_name typed : Program I (List String)) v := by
  have hbody : ∀ roomName, Safe (fun e => e = .noSuchRoom ∨ e.IsUnknown) Never (fun _ _ => True)
      (do
        let room ← remote (.getRoom roomName)
        let users ← remote (.listUsers room)
        return users : Program I (List String)) v := by
    intro roomName
    refine Safe.bind (safe_getRoom hv (Or.inr (Or.inl rfl))) ?_
    intro v₁ room _ hv₁ hroom
    exact safe_quiet (c := .listUsers room) hv₁ (mt Option.some.inj hroom.1) id fun _ he =>
      False.elim he
  refine safe_handling (hbody _) (fun v' _ hv' => safe_pure hv' trivial) ?_ nofun
  intro e he
  exact Or.inl he

theorem printUsersInRoom_safe (typed : String) (hv : ¬ v.failed) :
    Safe Never Never (fun _ _ => True) (printUsersInRoom typed : Program I (List String)) v :=
  safe_handling (getUsersInRoom_safe "" typed hv) (fun _ _ hv' => safe_pure hv' trivial) nofun nofun

/-- `sendMessageToRoom` raises only what a failed message raised. -/
theorem sendMessageToRoom_safe (targetRoom content : String) (hv : ¬ v.failed) :
    Safe Never FromIce (fun _ _ => True) (c.sendMessageToRoom targetRoom content) v := by
  rw [sendMessageToRoom]
  split
  next =>
    have hbody : Safe (fun e => e = .noSuchRoom) FromIce (fun _ _ => True)
        (do
          let chatRoom ← remote (.getRoom targetRoom)
          remote (.postMessage chatRoom content c.username) : Program I Unit) v := by
      refine Safe.bind (safe_getRoom hv (Or.inr rfl)) ?_
      intro v₁ chatRoom _ hv₁ hroom
      exact safe_message hv₁ (mt Option.some.inj hroom.1) trivial fun e he => he
    have hinner : Safe Never FromIce (fun _ _ => True)
        (handling (fun e => e = .noSuchRoom) (return ()) do
          let chatRoom ← remote (.getRoom targetRoom)
          remote (.postMessage chatRoom content c.username) : Program I Unit) v := by
      refine safe_handling hbody (fun _ _ hv' => safe_pure hv' trivial) (fun e he => Or.inl he) ?_
      intro e he
      refine ⟨?_, he⟩
      rintro rfl
      cases he
    refine safe_handling hinner (fun _ _ hv' => safe_pure hv' trivial) nofun ?_
    intro e he
    refine ⟨?_, he⟩
    rintro rfl
    cases he
  next => exact safe_pure hv trivial

theorem sendPrivateMessageToUser_safe (targetChannel typed targetUsername message : String)
    (hv : ¬ v.failed) :
    Safe Never FromIce (fun _ _ => True)
      (c.sendPrivateMessageToUser targetChannel typed targetUsername message) v := by
  have hfirst : Safe Never Never (fun _ _ => True)
      (handling (fun e => e = .noSuchRoom) (return none) do
        let usersAvailable ← getUsersInRoom targetChannel typed
        return some usersAvailable : Program I (Option (List String))) v := by
    have hbody : Safe Never Never (fun _ _ => True)
        (do
          let usersAvailable ← getUsersInRoom targetChannel typed
          return some usersAvailable : Program I (Option (List String))) v :=
      (getUsersInRoom_safe targetChannel typed hv).bind fun v' _ _ hv' _ => safe_pure hv' trivial
    exact safe_handling hbody (fun _ _ hv' => safe_pure hv' trivial) nofun nofun
  refine hfirst.of_never.bind ?_
  intro v₁ found _ hv₁ _
  cases found with
  | none => exact safe_pure hv₁ trivial
  | some usersAvailable =>
      simp only []
      split
      next =>
        have hbody : Safe (fun e => e = .noSuchUser ∨ e = .noSuchRoom) FromIce (fun _ _ => True)
            (do
              let chatRoom ← remote (.getRoom targetChannel)
              let userPrx ← remote (.getUser chatRoom targetUsername)
              remote (.sendPrivateMessage userPrx message c.username) : Program I Unit) v₁ := by
          refine Safe.bind (safe_getRoom hv₁ (Or.inr (Or.inr rfl))) ?_
          intro v₂ chatRoom _ hv₂ hroom
          refine Safe.bind (safe_quiet hv₂ (mt Option.some.inj hroom.1) id fun e he =>
            Or.inl he) ?_
          intro v₃ userPrx _ hv₃ _
          exact safe_message hv₃ nofun trivial fun e he => he
        refine safe_handling hbody (fun _ _ hv' => safe_pure hv' trivial) (fun e he => Or.inl he) ?_
        intro e he
        refine ⟨?_, he⟩
        rintro (rfl | rfl) <;> cases he
      next => exact safe_pure hv₁ trivial

/-- Every action ends at the menu, with no room recorded that the server does not
list, unless a message failed.  Then it ends with the exception of Ice. -/
theorem act_safe (a : Action) (hv : ¬ v.failed) (hjoined : c.joined ⊆ v.known) :
    Safe Never FromIce (fun v' c' => c'.joined ⊆ v'.known) (c.act a) v := by
  have hthen : ∀ {α : Type} {p : Program I α}, Safe Never FromIce (fun _ _ => True) p v →
      Safe Never FromIce (fun v' c' => c'.joined ⊆ v'.known) (p >>= fun _ => pure c) v := by
    intro α p hp
    refine hp.bind fun v' _ hknown hv' _ => ?_
    exact safe_pure hv' (List.Subset.trans hjoined hknown)
  cases a with
  | createRoom roomName => exact hthen (createRoom_safe roomName hv).of_never
  | printListAllRooms => exact hthen (printListAllRooms_safe hv).of_never
  | joinToRoom name => exact (joinToRoom_safe name hv hjoined).of_never
  | leaveRoom roomName => exact (leaveRoom_safe roomName hv hjoined).of_never
  | sendMessageToRoom targetRoom content => exact hthen (sendMessageToRoom_safe _ _ hv)
  | printUsersInRoom typed => exact hthen (printUsersInRoom_safe typed hv).of_never
  | sendPrivateMessageToUser targetChannel typed targetUsername message =>
      exact hthen (sendPrivateMessageToUser_safe _ _ _ _ hv)

end Client

end Rso.Chat
